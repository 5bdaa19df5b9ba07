import FractalGateway.Watchdog.Accounting

/-! Billing across refused sends and restarts.

    A peer's step cut short by a refused event send has billed the difference to the cache entry and
    leaves the entry where it was; whether these bytes are then billed twice depends on the poll's
    report reaching a subscriber after all. A run in which that never happens bills no more than the
    counter has grown by, whatever else is refused and however often the daemon restarts. -/

namespace FractalGateway
open Std Exec

variable {w : ℕ}

/-- What a counter grew by between the first and the last reading. -/
def growth (dir : Direction) (rs : List (PeerStats w)) : ℕ :=
  match rs.head?, rs.getLast? with
  | some first, some last => dir.counter last - dir.counter first
  | _, _ => 0

section
variable {g : Global} {k x : Pubkey} {port : UInt16}

/-- A poll does not leave bytes billed and uncounted: its report does not get out, or it has nothing
    to bill to the peer, or no send about the peer is refused. -/
def BilledOnce (g : Global) (k x : Pubkey) (port : UInt16) (poll : Poll w) (d : Daemon w) : Prop :=
  g.reportFate d = .refused ∨
    ((slot d.cache port x).bind fun c => (reading k x poll).bind (bill c)) = none ∨
    Accepted (attemptsAbout k x (g.attempted poll d))

/-- The bytes billed since the meter stood at `base` are covered by the cached reading, and by the
    highest reading so far. -/
structure Ledger (dir : Direction) (k x : Pubkey) (port : UInt16) (base top : ℕ) (d : Daemon w) :
    Prop where
  billed_le : billed dir k x d.log.traffic + base ≤ top
  cached_le : ∀ c, slot d.cache port x = some c →
    billed dir k x d.log.traffic + base ≤ dir.counter c ∧ dir.counter c ≤ top

theorem Ledger.raise {dir : Direction} {base top top' : ℕ} {d : Daemon w}
    (h : Ledger dir k x port base top d) (hle : top ≤ top') :
    Ledger dir k x port base top' d where
  billed_le := h.billed_le.trans hle
  cached_le := fun c hc => ⟨(h.cached_le c hc).1, (h.cached_le c hc).2.trans hle⟩

/-- Nothing billed, and the entry kept or dropped. -/
theorem Ledger.idle {dir : Direction} {base top : ℕ} {d d' : Daemon w}
    (h : Ledger dir k x port base top d)
    (hb : billed dir k x d'.log.traffic = billed dir k x d.log.traffic)
    (hc : slot d'.cache port x = slot d.cache port x ∨ slot d'.cache port x = none) :
    Ledger dir k x port base top d' where
  billed_le := by
    rw [hb]
    exact h.billed_le
  cached_le := by
    intro c hslot
    rw [hb]
    rcases hc with hc | hc
    · exact h.cached_le c (hc ▸ hslot)
    · rw [hc] at hslot
      cases hslot

/-- The difference to the entry billed, and the entry advanced. -/
theorem Ledger.advance {dir : Direction} {base top : ℕ} {d d' : Daemon w} {p : PeerStats w}
    {now : SystemTime} (h : Ledger dir k x port base top d) (hle : top ≤ dir.counter p)
    (hb : billed dir k x d'.log.traffic = billed dir k x d.log.traffic +
      dir.bytes (Traffic.default.plus ((slot d.cache port x).bind (bill · p))))
    (hc : slot d'.cache port x = some (p.expire now)) :
    Ledger dir k x port base (dir.counter p) d' := by
  have hpaid : billed dir k x d'.log.traffic + base ≤ dir.counter p := by
    rw [hb]
    cases hslot : slot d.cache port x with
    | none =>
      have := h.billed_le
      simp only [Option.bind_none, Traffic.plus, Direction.bytes_default]
      omega
    | some c =>
      obtain ⟨hpay, hctop⟩ := h.cached_le c hslot
      have hbill := bill_le dir (hctop.trans hle)
      simp only [Option.bind_some]
      omega
  refine ⟨hpaid, fun c hslot => ?_⟩
  rw [hc] at hslot
  obtain rfl := Option.some.inj hslot
  rw [Direction.counter_expire]
  exact ⟨hpaid, Nat.le_refl _⟩

/-- The highest reading after a poll. -/
def nextTop (dir : Direction) (k x : Pubkey) (top : ℕ) (poll : Poll w) : ℕ :=
  ((reading k x poll).map dir.counter).getD top

theorem le_nextTop {dir : Direction} {top : ℕ} {poll : Poll w}
    (htop : ∀ p, reading k x poll = some p → top ≤ dir.counter p) :
    top ≤ nextTop dir k x top poll := by
  rw [nextTop]
  cases hr : reading k x poll with
  | none => exact Nat.le_refl _
  | some p => exact htop p hr

theorem billed_broadcast {poll : Poll w} {d : Daemon w} {s : Watch w (PeerCache w)}
    (hv : Visited g poll d s) (dir : Direction) (fate : Delivery) :
    billed dir k x (s.broadcast fate).log.traffic =
      billed dir k x d.log.traffic + billed dir k x [(s.traffic, fate)] := by
  rw [← billed_append]
  exact congrArg (fun l => billed dir k x (l ++ [(s.traffic, fate)])) hv.only.reports

/-- A poll whose report gets out. -/
theorem Ledger.sent {dir : Direction} {base top : ℕ} {poll : Poll w} {d d' : Daemon w}
    (h : Ledger dir k x port base top d) (hres : Resident k port poll.visits)
    (hrun : (watchdog_run g poll).run d = .ok () d')
    (htop : ∀ p, reading k x poll = some p → top ≤ dir.counter p)
    (honce : BilledOnce g k x port poll d) :
    Ledger dir k x port base (nextTop dir k x top poll) d' := by
  obtain ⟨hf, s, hv, rfl⟩ := watchdog_run_ok hrun
  obtain ⟨new, hev, hview⟩ := hv.pair hres
  obtain ⟨item, hmove, hdev⟩ := hview x
  have hatt : g.attempted poll d = new := by
    rw [Global.attempted, hrun]
    show s.log.events.drop _ = new
    rw [hev, List.drop_left]
  have hbilled := billed_broadcast (k := k) (x := x) hv dir (g.reportFate d)
  rw [billed_sent _ _ _ _ hf, hdev] at hbilled
  have hidle : item = none → billed dir k x (s.broadcast (g.reportFate d)).log.traffic =
      billed dir k x d.log.traffic := by
    rintro rfl
    rw [hbilled, Traffic.plus, Direction.bytes_default, Nat.add_zero]
  have hup := le_nextTop htop
  cases hs : statsOf k poll.visits with
  | none =>
    rw [hs] at hmove
    exact (h.idle (hidle hmove.2.2) (Or.inl hmove.2.1)).raise hup
  | some stats =>
    have hreading : reading k x poll = listed stats.peers x := by simp [reading, hs]
    rw [hs, PairMove, ← hreading] at hmove
    generalize hl : (reading k x poll).map (·.expire (poll.clock k x).now) = l at hmove
    generalize hc' : slot s.cache port x = c' at hmove
    generalize ha : attemptsAbout k x new = att at hmove
    cases hmove with
    | stale ht hc => exact (h.idle (hidle rfl) (Or.inl hc')).raise hup
    | absent hc => exact (h.idle (hidle rfl) (Or.inr hc')).raise hup
    | swept fate hc => exact (h.idle (hidle rfl) (Or.inr hc')).raise hup
    | missed hr hc => exact (h.idle (hidle rfl) (Or.inl hc')).raise hup
    | refused hna hmem =>
      -- the entry stays: only a report without a bill keeps the books
      obtain ⟨p, hp, rfl⟩ := Option.map_eq_some_iff.mp hl
      simp only [bill_expire] at hidle
      rcases honce with hfate | hbill | hacc
      · exact absurd hfate hf
      · rw [hp] at hbill
        exact (h.idle (hidle hbill) (Or.inl hc')).raise hup
      · rw [hatt, ha] at hacc
        exact absurd hacc hna
    | done hacc hmem hu ht =>
      obtain ⟨p, hp, rfl⟩ := Option.map_eq_some_iff.mp hl
      simp only [bill_expire] at hbilled
      have hnext : nextTop dir k x top poll = dir.counter p := by simp [nextTop, hp]
      rw [hnext]
      exact h.advance (htop p hp) hbilled hc'

/-- The highest reading after some polls. -/
def lastTop (dir : Direction) (k x : Pubkey) (top : ℕ) (polls : List (Poll w)) : ℕ :=
  ((readings k x polls).getLast?.map dir.counter).getD top

theorem lastTop_cons (dir : Direction) (top : ℕ) (poll : Poll w) (polls : List (Poll w)) :
    lastTop dir k x top (poll :: polls) =
      lastTop dir k x (nextTop dir k x top poll) polls := by
  rw [lastTop, lastTop, nextTop, readings_cons]
  cases reading k x poll with
  | none => rfl
  | some p => cases h : (readings k x polls).getLast? <;> simp [List.getLast?_cons, h]

theorem le_lastTop {dir : Direction} {top : ℕ} {polls : List (Poll w)}
    (hlow : ∀ p ∈ readings k x polls, top ≤ dir.counter p) : top ≤ lastTop dir k x top polls := by
  rw [lastTop]
  cases h : (readings k x polls).getLast? with
  | none => exact Nat.le_refl _
  | some p => exact hlow p (List.mem_of_getLast? h)

/-- The books of a whole run: the daemon restarts with an empty cache when a poll fails, and stops
    when one panics. -/
theorem Ledger.run {dir : Direction} {base : ℕ} : ∀ {polls : List (Poll w)} {d : Daemon w} {top : ℕ},
    Ledger dir k x port base top d → (∀ poll ∈ polls, Resident k port poll.visits) →
    (∀ p ∈ readings k x polls, top ≤ dir.counter p) →
    ((readings k x polls).Pairwise fun p q => dir.counter p ≤ dir.counter q) →
    g.AllPolls (BilledOnce g k x port) polls d →
    billed dir k x (g.watchdog polls d).log.traffic + base ≤ lastTop dir k x top polls
  | [], d, top, h, _, _, _, _ => h.billed_le
  | poll :: polls, d, top, h, hres, hlow, hsorted, hall => by
      obtain ⟨hres₁, hres⟩ := List.forall_mem_cons.mp hres
      obtain ⟨honce, hall⟩ := hall
      rw [readings_cons] at hlow hsorted
      obtain ⟨_, hsorted', hcross⟩ := List.pairwise_append.mp hsorted
      have htop : ∀ p, reading k x poll = some p → top ≤ dir.counter p := fun p hp =>
        hlow p (List.mem_append_left _ (by simp [hp]))
      have hlow' : ∀ q ∈ readings k x polls, nextTop dir k x top poll ≤ dir.counter q := by
        intro q hq
        cases hr : reading k x poll with
        | none => simpa [nextTop, hr] using hlow q (List.mem_append_right _ hq)
        | some p => simpa [nextTop, hr] using hcross p (by simp [hr]) q hq
      -- an `Err` keeps the bills and drops the cache
      have restart : ∀ d' : Daemon w,
          billed dir k x d'.log.traffic = billed dir k x d.log.traffic →
          Ledger dir k x port base (nextTop dir k x top poll) { d' with cache := ∅ } := by
        intro d' hb
        have hidle : Ledger dir k x port base top { d' with cache := ∅ } :=
          h.idle hb (Or.inr (slot_empty port x))
        exact hidle.raise (le_nextTop htop)
      rw [lastTop_cons]
      have hstep := watchdog_run_step g poll d
      rw [Global.watchdog]
      generalize hr : (watchdog_run g poll).run d = r at hstep hall
      cases hstep with
      | unlisted chain hl => exact Ledger.run (restart d rfl) hres hlow' hsorted' hall
      | refused chain hv hf =>
        refine Ledger.run (restart _ ?_) hres hlow' hsorted' hall
        rw [hf, billed_broadcast hv, billed_refused, Nat.add_zero]
      | sent hv hf => exact Ledger.run (h.sent hres₁ hr htop honce) hres hlow' hsorted' hall
      | panic reason hpanic hrun =>
        have hb := h.billed_le
        rw [← show _ = d.log.traffic from hpanic.reports] at hb
        exact (hb.trans (le_nextTop htop)).trans (le_lastTop hlow')

end

/-- No byte is billed twice, as long as no poll leaves a peer billed with its entry not advanced:
    in every run of the daemon, with sessions coming and going at any time, the reports that got out
    bill to a peer no more than its counters grew since it was first polled. -/
theorem billed_le_growth (g : Global) (k x : Pubkey) (port : UInt16) (polls : List (Poll w))
    (hres : ∀ poll ∈ polls, Resident k port poll.visits) (hgrow : Growing (readings k x polls))
    (honce : g.AllPolls (BilledOnce g k x port) polls Daemon.start) (dir : Direction) :
    billed dir k x (g.watchdog polls Daemon.start).log.traffic ≤ growth dir (readings k x polls) := by
  have hsorted : (readings k x polls).Pairwise fun p q => dir.counter p ≤ dir.counter q := by
    have : IsTrans (PeerStats w) fun p q => dir.counter p ≤ dir.counter q :=
      ⟨fun _ _ _ h h' => h.trans h'⟩
    exact List.isChain_iff_pairwise.mp (List.IsChain.imp (fun _ _ h => h dir) hgrow)
  have hempty : ∀ base, Ledger dir k x port base base (Daemon.start : Daemon w) := by
    refine fun base => ⟨by simp [billed, Daemon.start], fun c hc => ?_⟩
    have hnone : slot (Daemon.start : Daemon w).cache port x = none := slot_empty port x
    rw [hnone] at hc
    cases hc
  -- the meter's base is the first reading, below all others
  cases hrs : readings k x polls with
  | nil =>
    have h := (hempty 0).run hres (by simp) hsorted honce
    rw [lastTop, hrs] at h
    exact h
  | cons first rest =>
    have hlow : ∀ p ∈ readings k x polls, dir.counter first ≤ dir.counter p := by
      rw [hrs] at hsorted ⊢
      intro p hp
      rcases List.mem_cons.mp hp with rfl | hp
      · exact Nat.le_refl _
      · exact (List.pairwise_cons.mp hsorted).1 p hp
    have h := (hempty (dir.counter first)).run hres hlow hsorted honce
    rw [lastTop, hrs] at h
    have hlast := List.getLast?_eq_some_getLast (List.cons_ne_nil first rest)
    rw [growth, hlast]
    rw [hlast] at h
    simp only [List.head?_cons, Option.map_some, Option.getD_some] at h ⊢
    omega

/-- The peer connects after 100 bytes; its connection is announced while nobody is subscribed, and
    the report goes out to a session that subscribed in between. -/
def Sample.reconnecting : Global :=
  ⟨.release, fun n => if n = 0 then .refused else .delivered, fun _ => .delivered⟩

def Sample.growing : List (Poll 64) :=
  [Sample.poll 10 [("network-5000", Sample.stats 1 5000 [Sample.peer 7 none 0])],
   Sample.poll 20 [("network-5000", Sample.stats 1 5000 [Sample.peer 7 (some 15) 100])],
   Sample.poll 30 [("network-5000", Sample.stats 1 5000 [Sample.peer 7 (some 15) 100])]]

theorem billed_le_growth_connected :
    billed .rx ⟨1⟩ ⟨7⟩ (Sample.global.watchdog Sample.growing Daemon.start).log.traffic ≤
      growth .rx (readings ⟨1⟩ ⟨7⟩ Sample.growing) := by
  refine billed_le_growth Sample.global ⟨1⟩ ⟨7⟩ 5000 Sample.growing (by decide) (by decide) ?_ .rx
  exact ⟨Or.inr (Or.inr (by decide)), Or.inr (Or.inr (by decide)), Or.inr (Or.inr (by decide)),
    trivial⟩

/-- The same 100 bytes are billed by the second and by the third poll. -/
theorem billed_twice_reconnecting :
    (∀ poll ∈ Sample.growing, Resident ⟨1⟩ 5000 poll.visits) ∧
      Growing (readings ⟨1⟩ ⟨7⟩ Sample.growing) ∧
      growth .rx (readings ⟨1⟩ ⟨7⟩ Sample.growing) = 100 ∧
      billed .rx ⟨1⟩ ⟨7⟩ (Sample.reconnecting.watchdog Sample.growing Daemon.start).log.traffic =
        200 :=
  ⟨by decide, by decide, by decide, by decide⟩

end FractalGateway
