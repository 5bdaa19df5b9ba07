import FractalGateway.Watchdog.Poll
import Mathlib.Data.List.Chain

/-! Traffic accounting: what the broadcast reports bill to a peer, against the peer's counters.

    The cache entry of a peer is the meter reading up to which it has been billed. A poll that
    completes a peer's step bills the difference to the entry and advances the entry to the new
    reading, so the bills telescope over every run without refused sends. -/

namespace FractalGateway
open Std Exec

variable {w : ℕ}

/-- A peer's counter. -/
def Direction.counter : Direction → PeerStats w → ℕ
  | .rx, p => p.transfer_rx.toNat
  | .tx, p => p.transfer_tx.toNat

@[simp] theorem Direction.counter_expire (dir : Direction) (p : PeerStats w) (now : SystemTime) :
    dir.counter (p.expire now) = dir.counter p := by
  cases dir <;> simp [Direction.counter]

/-- What the polls read of peer `x` of network `k`, in order. -/
def readings (k x : Pubkey) (polls : List (Poll w)) : List (PeerStats w) :=
  polls.filterMap fun poll => (statsOf k poll.visits).bind fun stats => listed stats.peers x

/-- The bytes billed to a device: the sum over the reports whose broadcast succeeded. -/
def billed (dir : Direction) (k x : Pubkey) (reports : List (TrafficInfo w × Delivery)) : ℕ :=
  ((reports.filter fun r => decide (r.2 ≠ .refused)).map fun r => dir.bytes (r.1.device k x)).sum

theorem billed_append (dir : Direction) (k x : Pubkey) (a b : List (TrafficInfo w × Delivery)) :
    billed dir k x (a ++ b) = billed dir k x a + billed dir k x b := by
  simp [billed]

theorem billed_refused (dir : Direction) (k x : Pubkey) (report : TrafficInfo w) :
    billed dir k x [(report, .refused)] = 0 := by
  simp [billed]

theorem billed_sent (dir : Direction) (k x : Pubkey) (report : TrafficInfo w) {fate : Delivery}
    (h : fate ≠ .refused) : billed dir k x [(report, fate)] = dir.bytes (report.device k x) := by
  simp [billed, h]

/-! ### One bill -/

/-- One of the counters went back. -/
def Rewound (previous peer : PeerStats w) : Prop :=
  peer.transfer_rx < previous.transfer_rx ∨ peer.transfer_tx < previous.transfer_tx

instance (previous peer : PeerStats w) : Decidable (Rewound previous peer) :=
  inferInstanceAs (Decidable (_ ∨ _))

/-- How much a counter grew between two readings, nothing when one of the two went back. -/
def increase (dir : Direction) (previous peer : PeerStats w) : ℕ :=
  if Rewound previous peer then 0 else dir.counter peer - dir.counter previous

theorem toNat_sub_of_not_lt {x y : BitVec w} (h : ¬x < y) : (x - y).toNat = x.toNat - y.toNat :=
  BitVec.toNat_sub_of_le (BitVec.not_lt.mp h)

/-- The wrapped, reversed difference of two counters vanishes only when neither grew, as long as
    together they grew by less than the word size. -/
theorem reversed_difference_eq_zero {a b c d : BitVec w} (hac : ¬c < a) (hbd : ¬d < b)
    (hlt : (c.toNat - a.toNat) + (d.toNat - b.toNat) < 2 ^ w) (h : (a - c) + (b - d) = 0) :
    c.toNat - a.toNat = 0 ∧ d.toNat - b.toNat = 0 := by
  have hsum : (c - a) + (d - b) = 0 := by
    have : (c - a) + (d - b) = -((a - c) + (b - d)) := by
      simp only [BitVec.sub_eq_add_neg, BitVec.neg_add, BitVec.neg_neg]
      ac_rfl
    rw [this, h]
    simp
  have hnat := congrArg BitVec.toNat hsum
  rw [BitVec.toNat_add, toNat_sub_of_not_lt hac, toNat_sub_of_not_lt hbd, Nat.mod_eq_of_lt hlt] at hnat
  simp only [BitVec.ofNat_eq_ofNat, BitVec.toNat_ofNat, Nat.zero_mod] at hnat
  omega

theorem bill_of_rewound {previous peer : PeerStats w} (h : Rewound previous peer) :
    bill previous peer = none := if_pos h

/-- Without a counter going back, a bill is the difference of the readings, or nothing when the
    reversed difference is zero. -/
theorem bill_of_not_rewound {previous peer : PeerStats w} (h : ¬Rewound previous peer) :
    bill previous peer =
      if 0 < (previous.transfer_rx - peer.transfer_rx) + (previous.transfer_tx - peer.transfer_tx)
      then some ⟨peer.transfer_rx - previous.transfer_rx, peer.transfer_tx - previous.transfer_tx⟩
      else none := if_neg h

@[simp] theorem bill_expire (c p : PeerStats w) (now : SystemTime) :
    bill c (p.expire now) = bill c p := by
  simp [bill]

/-- A bill is the increase of the counters. -/
theorem bill_eq_increase (dir : Direction) {previous peer : PeerStats w}
    (hlt : increase .rx previous peer + increase .tx previous peer < 2 ^ w) :
    dir.bytes (Traffic.default.plus (bill previous peer)) = increase dir previous peer := by
  by_cases hr : Rewound previous peer
  · rw [bill_of_rewound hr, increase, if_pos hr]
    exact dir.bytes_default
  · simp only [increase, if_neg hr] at hlt ⊢
    rw [bill_of_not_rewound hr]
    obtain ⟨hrx, htx⟩ := not_or.mp hr
    split
    · cases dir
      · rw [Traffic.plus, Traffic.default_add_assign]
        exact toNat_sub_of_not_lt hrx
      · rw [Traffic.plus, Traffic.default_add_assign]
        exact toNat_sub_of_not_lt htx
    · rename_i hd
      -- nothing is reported: the reversed difference is zero, so neither counter grew
      have hz := reversed_difference_eq_zero hrx htx hlt
        (not_not.mp (mt (BitVec.pos_iff_ne_zero _).mpr hd))
      rw [Traffic.plus, Direction.bytes_default]
      cases dir
      · exact hz.1.symm
      · exact hz.2.symm

/-- A bill never exceeds the growth of the counter. -/
theorem bill_le (dir : Direction) {previous peer : PeerStats w}
    (hle : dir.counter previous ≤ dir.counter peer) :
    dir.counter previous + dir.bytes (Traffic.default.plus (bill previous peer)) ≤
      dir.counter peer := by
  by_cases hr : Rewound previous peer
  · rw [bill_of_rewound hr, Traffic.plus, Direction.bytes_default]
    exact hle
  · rw [bill_of_not_rewound hr]
    obtain ⟨hrx, htx⟩ := not_or.mp hr
    split
    · cases dir
      · simp only [Traffic.plus, Traffic.default_add_assign, Direction.bytes,
          Direction.counter, toNat_sub_of_not_lt hrx] at hle ⊢
        omega
      · simp only [Traffic.plus, Traffic.default_add_assign, Direction.bytes,
          Direction.counter, toNat_sub_of_not_lt htx] at hle ⊢
        omega
    · rw [Traffic.plus, Direction.bytes_default]
      exact hle

/-! ### Bills telescope -/

/-- The sum of the increases between consecutive readings. -/
def increases (dir : Direction) : List (PeerStats w) → ℕ
  | [] => 0
  | [_] => 0
  | p :: q :: rest => increase dir p q + increases dir (q :: rest)

/-- Between consecutive readings the counters together grow by less than the word size. -/
def GrowthFits (rs : List (PeerStats w)) : Prop :=
  rs.IsChain fun p q => increase .rx p q + increase .tx p q < 2 ^ w

instance (rs : List (PeerStats w)) : Decidable (GrowthFits rs) :=
  inferInstanceAs (Decidable (rs.IsChain _))

/-- The readings never go back. -/
def Growing (rs : List (PeerStats w)) : Prop :=
  rs.IsChain fun p q => ∀ dir : Direction, dir.counter p ≤ dir.counter q

instance (rs : List (PeerStats w)) : Decidable (Growing rs) :=
  decidable_of_iff (rs.IsChain fun p q =>
      Direction.rx.counter p ≤ Direction.rx.counter q ∧ Direction.tx.counter p ≤ Direction.tx.counter q) <| by
    refine ⟨fun h => h.imp ?_, fun h => h.imp ?_⟩
    · rintro p q ⟨hrx, htx⟩ (_ | _)
      · exact hrx
      · exact htx
    · exact fun p q hpq => ⟨hpq .rx, hpq .tx⟩

@[simp] theorem rewound_expire_left (p q : PeerStats w) (now : SystemTime) :
    Rewound (p.expire now) q ↔ Rewound p q := by
  simp [Rewound]

@[simp] theorem rewound_expire_right (p q : PeerStats w) (now : SystemTime) :
    Rewound p (q.expire now) ↔ Rewound p q := by
  simp [Rewound]

@[simp] theorem increase_expire_left (dir : Direction) (p q : PeerStats w) (now : SystemTime) :
    increase dir (p.expire now) q = increase dir p q := by
  simp [increase]

@[simp] theorem increase_expire_right (dir : Direction) (p q : PeerStats w) (now : SystemTime) :
    increase dir p (q.expire now) = increase dir p q := by
  simp [increase]

theorem increases_expire (dir : Direction) (p : PeerStats w) (now : SystemTime) :
    ∀ rest, increases dir (p.expire now :: rest) = increases dir (p :: rest)
  | [] => rfl
  | q :: rest => by simp [increases]

theorem GrowthFits.expire {p : PeerStats w} {rest : List (PeerStats w)} (now : SystemTime)
    (h : GrowthFits (p :: rest)) : GrowthFits (p.expire now :: rest) := by
  cases rest with
  | nil => simp [GrowthFits]
  | cons q rest =>
    simp only [GrowthFits, List.isChain_cons_cons, increase_expire_left] at h ⊢
    exact h

/-- Readings that never go back telescope to the last one minus the first one. -/
theorem increases_of_growing (dir : Direction) : ∀ {rs : List (PeerStats w)} {p q : PeerStats w},
    Growing rs → rs.head? = some p → rs.getLast? = some q →
      increases dir rs = dir.counter q - dir.counter p ∧ dir.counter p ≤ dir.counter q
  | [], _, _, _, hp, _ => by simp at hp
  | [a], p, q, _, hp, hq => by
      obtain rfl : a = p := by simpa using hp
      obtain rfl : a = q := by simpa using hq
      exact ⟨by simp [increases], Nat.le_refl _⟩
  | a :: b :: rest, p, q, hg, hp, hq => by
      obtain rfl : a = p := by simpa using hp
      obtain ⟨hab, hrest⟩ := List.isChain_cons_cons.mp hg
      rw [List.getLast?_cons_cons] at hq
      obtain ⟨hsum, hle⟩ := increases_of_growing dir hrest rfl hq
      have hnot : ¬Rewound a b := by
        rintro (h | h)
        · exact absurd (BitVec.lt_def.mp h) (Nat.not_lt.mpr (hab .rx))
        · exact absurd (BitVec.lt_def.mp h) (Nat.not_lt.mpr (hab .tx))
      have hd := hab dir
      rw [increases, hsum, increase, if_neg hnot]
      omega

/-! ### Conservation -/

/-- The reading one poll takes of the peer. -/
def reading (k x : Pubkey) (poll : Poll w) : Option (PeerStats w) :=
  (statsOf k poll.visits).bind fun stats => listed stats.peers x

theorem readings_cons (k x : Pubkey) (poll : Poll w) (polls : List (Poll w)) :
    readings k x (poll :: polls) = (reading k x poll).toList ++ readings k x polls := by
  rw [readings, List.filterMap_cons, ← readings, ← reading]
  cases reading k x poll <;> rfl

section
variable {g : Global} {k x : Pubkey} {port : UInt16}

/-- Every poll of the network lists the peer. -/
def Present (k x : Pubkey) (poll : Poll w) : Prop :=
  ∀ stats ∈ poll.visits, stats.public_key = k → x ∈ stats.peers.map (·.public_key)

instance (poll : Poll w) : Decidable (Present k x poll) :=
  inferInstanceAs (Decidable (∀ stats ∈ poll.visits, _ → _))

/-- One poll without refusals: the cache advances to the new reading, and the report bills the
    difference to the old one. -/
theorem watchdog_run_meter {poll : Poll w} (hres : Resident k port poll.visits)
    (hpresent : Present k x poll) (hclock : (poll.clock k x).Ok) {d d' : Daemon w}
    (hok : (watchdog_run g poll).run d = .ok () d') (hacc : Accepted d'.log.events)
    (dir : Direction) :
    match reading k x poll with
    | none => slot d'.cache port x = slot d.cache port x ∧
        billed dir k x d'.log.traffic = billed dir k x d.log.traffic
    | some p => slot d'.cache port x = some (p.expire (poll.clock k x).now) ∧
        billed dir k x d'.log.traffic = billed dir k x d.log.traffic +
          dir.bytes (Traffic.default.plus ((slot d.cache port x).bind
            (bill · (p.expire (poll.clock k x).now)))) := by
  obtain ⟨hf, s, hv, rfl⟩ := watchdog_run_ok hok
  obtain ⟨new, hev, hview⟩ := hv.pair hres
  obtain ⟨item, hmove, hdev⟩ := hview x
  have hnew : Accepted new := (accepted_append.mp (hev ▸ hacc)).2
  have hbilled : billed dir k x (s.broadcast (g.reportFate d)).log.traffic =
      billed dir k x d.log.traffic + dir.bytes (Traffic.default.plus item) := by
    have hreports : (s.broadcast (g.reportFate d)).log.traffic =
        d.log.traffic ++ [(s.traffic, g.reportFate d)] := by
      rw [Watch.broadcast, hv.only.reports]
      rfl
    rw [hreports, billed_append, billed_sent _ _ _ _ hf, hdev]
  rw [hbilled]
  cases hs : statsOf k poll.visits with
  | none =>
    rw [hs] at hmove
    obtain ⟨_, hcache, rfl⟩ := hmove
    simp only [reading, hs, Option.bind_none]
    exact ⟨hcache, by simp [Traffic.plus]⟩
  | some stats =>
    obtain ⟨hmem, hkey⟩ := statsOf_some hs
    cases hl : listed stats.peers x with
    | none => exact absurd (hpresent stats hmem hkey) (listed_none_iff.mp hl)
    | some p =>
      rw [hs] at hmove
      simp only [reading, hs, Option.bind_some, hl]
      simp only [PairMove, hl, Option.map_some] at hmove
      generalize hc' : slot s.cache port x = c' at hmove
      generalize hatt : attemptsAbout k x new = att at hmove
      cases hmove with
      | stale ht hc => exact absurd hclock ht
      | refused ha hl => exact absurd (hatt ▸ hnew.about) ha
      | done ha hl hu ht => exact ⟨hc', rfl⟩

/-- A run without refusals bills the increases since the cached reading. -/
theorem watchdog_meter (dir : Direction) : ∀ {polls : List (Poll w)} {d d' : Daemon w},
    (∀ poll ∈ polls, Resident k port poll.visits) → (∀ poll ∈ polls, Present k x poll) →
    (∀ poll ∈ polls, (poll.clock k x).Ok) →
    GrowthFits ((slot d.cache port x).toList ++ readings k x polls) →
    (watchdog g polls).run d = .ok () d' → Accepted d'.log.events →
    billed dir k x d'.log.traffic = billed dir k x d.log.traffic +
      increases dir ((slot d.cache port x).toList ++ readings k x polls)
  | [], d, d', _, _, _, _, hok, _ => by
      obtain ⟨_, rfl⟩ := pure_ok_iff.mp hok
      cases slot d.cache port x <;> simp [readings, increases]
  | poll :: polls, d, d', hres, hpresent, hclock, hfits, hok, hacc => by
      obtain ⟨hres₁, hres⟩ := List.forall_mem_cons.mp hres
      obtain ⟨hpresent₁, hpresent⟩ := List.forall_mem_cons.mp hpresent
      obtain ⟨hclock₁, hclock⟩ := List.forall_mem_cons.mp hclock
      obtain ⟨_, t, hfirst, hrest⟩ := bind_ok_iff.mp hok
      have hmeter := watchdog_run_meter hres₁ hpresent₁ hclock₁ hfirst
        (hacc.of_prefix (watchdog_events g polls hrest)) dir
      rw [readings_cons] at hfits ⊢
      cases hr : reading k x poll with
      | none =>
        rw [hr] at hmeter hfits
        obtain ⟨hcache, hbilled⟩ := hmeter
        have ih := watchdog_meter dir hres hpresent hclock (by rw [hcache]; exact hfits) hrest hacc
        rw [ih, hbilled, hcache]
        rfl
      | some p =>
        rw [hr] at hmeter hfits
        obtain ⟨hcache, hbilled⟩ := hmeter
        have hfits' : GrowthFits (p :: readings k x polls) := by
          cases hc : slot d.cache port x with
          | none => rw [hc] at hfits; exact hfits
          | some c => rw [hc] at hfits; exact (List.isChain_cons_cons.mp hfits).2
        have ih := watchdog_meter dir hres hpresent hclock
          (by rw [hcache]; exact hfits'.expire _) hrest hacc
        rw [ih, hbilled, hcache]
        show _ + increases dir (p.expire _ :: readings k x polls) = _
        rw [increases_expire]
        cases hc : slot d.cache port x with
        | none => simp [Traffic.plus]
        | some c =>
          rw [hc] at hfits
          have hbound := (List.isChain_cons_cons.mp hfits).1
          have hbill := bill_eq_increase dir hbound
          simp only [Option.bind_some, bill_expire]
          rw [hbill, Nat.add_assoc]
          rfl

end

/-- Bytes are conserved: in a run of polls on one cache in which every send succeeds and the clock
    stands at or after the epoch, the broadcast reports bill to a peer exactly what its counters
    grew by between the polls of its network at which neither went back. -/
theorem traffic_conserved (g : Global) (k x : Pubkey) (port : UInt16) (polls : List (Poll w))
    (d : Daemon w) (hres : ∀ poll ∈ polls, Resident k port poll.visits)
    (hpresent : ∀ poll ∈ polls, Present k x poll) (hclock : ∀ poll ∈ polls, (poll.clock k x).Ok)
    (hfits : GrowthFits (readings k x polls))
    (hrun : (watchdog g polls).run Daemon.start = .ok () d) (hacc : Accepted d.log.events)
    (dir : Direction) :
    billed dir k x d.log.traffic = increases dir (readings k x polls) ∧
      (Growing (readings k x polls) → ∀ first last, (readings k x polls).head? = some first →
        (readings k x polls).getLast? = some last →
        billed dir k x d.log.traffic = dir.counter last - dir.counter first) := by
  have hempty : slot (Daemon.start : Daemon w).cache port x = none := slot_empty port x
  have hmeter := watchdog_meter dir hres hpresent hclock (by rw [hempty]; exact hfits) hrun hacc
  have hsum : billed dir k x d.log.traffic = increases dir (readings k x polls) := by
    rw [hmeter, hempty]
    simp [billed, Daemon.start]
  refine ⟨hsum, fun hg first last hfirst hlast => ?_⟩
  rw [hsum]
  exact (increases_of_growing dir hg hfirst hlast).1

/-- Three polls of one peer: 100 bytes, then 250, then a counter that started again at 30. -/
def Sample.metered : List (Poll 64) :=
  [Sample.poll 10 [("network-5000", Sample.stats 1 5000 [Sample.peer 7 none 100])],
   Sample.poll 20 [("network-5000", Sample.stats 1 5000 [Sample.peer 7 none 250])],
   Sample.poll 30 [("network-5000", Sample.stats 1 5000 [Sample.peer 7 none 30])]]

theorem traffic_conserved_metered :
    ∃ d, (watchdog Sample.global Sample.metered).run Daemon.start = .ok () d ∧
      billed .rx ⟨1⟩ ⟨7⟩ d.log.traffic = 150 := by
  refine ⟨_, rfl, ?_⟩
  exact (traffic_conserved Sample.global ⟨1⟩ ⟨7⟩ 5000 Sample.metered _ (by decide) (by decide)
    (by decide) (by decide) rfl (by decide) .rx).1

/-- A clock before the epoch makes the peer's step fail, so the last 50 bytes are not reported. -/
def Sample.unmetered : List (Poll 64) :=
  [Sample.poll 10 [("network-5000", Sample.stats 1 5000 [Sample.peer 7 none 100])],
   Sample.poll (-1) [("network-5000", Sample.stats 1 5000 [Sample.peer 7 none 150])]]

theorem traffic_lost_before_epoch :
    (∀ poll ∈ Sample.unmetered, Resident ⟨1⟩ 5000 poll.visits) ∧
      (∀ poll ∈ Sample.unmetered, Present ⟨1⟩ ⟨7⟩ poll) ∧
      GrowthFits (readings ⟨1⟩ ⟨7⟩ Sample.unmetered) ∧
      ∃ d, (watchdog Sample.global Sample.unmetered).run Daemon.start = .ok () d ∧
        Accepted d.log.events ∧
        billed .rx ⟨1⟩ ⟨7⟩ d.log.traffic ≠ increases .rx (readings ⟨1⟩ ⟨7⟩ Sample.unmetered) :=
  ⟨by decide, by decide, by decide, _, rfl, by decide, by decide⟩

end FractalGateway
