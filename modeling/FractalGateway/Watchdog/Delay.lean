import FractalGateway.Watchdog.Billing
import FractalGateway.Watchdog.Difference

/-! Traffic across restarts: what is delayed and what is lost.

    A report that nobody takes ends the daemon's loop, and the loop starts again with an empty
    cache. The bytes of that report go with it, and so do the bytes up to the next poll, which finds
    no entry to compare with. A run in which nothing is transferred at those moments (`Unlost`) has,
    after every report that gets out, billed at least what the counters grew by. -/

namespace FractalGateway
open Std Exec

variable {w : ℕ}

section
variable (g : Global) (k x : Pubkey) (port : UInt16)

/-- Nothing the poll reads of the peer is lost: it reads the cached counters if its report is not
    taken or its clock stands before the epoch, and those of the poll before if the peer is not
    cached. -/
structure KeepsTraffic (previous : Option (PeerStats w)) (poll : Poll w) (d : Daemon w) : Prop where
  cached : ∀ c ∈ slot d.cache port x, ∀ p ∈ reading k x poll,
    g.reportFate d = .refused ∨ ¬(poll.clock k x).Ok → ¬Moved c p
  uncached : slot d.cache port x = none → ∀ q ∈ previous, ∀ p ∈ reading k x poll, ¬Moved q p

instance (previous : Option (PeerStats w)) (poll : Poll w) (d : Daemon w) :
    Decidable (KeepsTraffic g k x port previous poll d) :=
  decidable_of_iff
    ((∀ c ∈ slot d.cache port x, ∀ p ∈ reading k x poll,
      g.reportFate d = .refused ∨ ¬(poll.clock k x).Ok → ¬Moved c p) ∧
      (slot d.cache port x = none → ∀ q ∈ previous, ∀ p ∈ reading k x poll, ¬Moved q p))
    ⟨fun h => ⟨h.1, h.2⟩, fun h => ⟨h.cached, h.uncached⟩⟩

/-- Every poll the daemon makes keeps the traffic of the peer, given what the poll before it read. -/
def Global.Unlost : Option (PeerStats w) → List (Poll w) → Daemon w → Prop
  | _, [], _ => True
  | previous, poll :: polls, d => KeepsTraffic g k x port previous poll d ∧
    match (watchdog_run g poll).run d with
    | .ok _ d' => Global.Unlost (reading k x poll) polls d'
    | .error (.err _) d' => Global.Unlost (reading k x poll) polls { d' with cache := ∅ }
    | .error (.panic _) _ => True

instance instDecidableUnlost : ∀ (previous : Option (PeerStats w)) polls d,
    Decidable (Global.Unlost g k x port previous polls d)
  | _, [], _ => isTrue trivial
  | previous, poll :: polls, d =>
    match h : (watchdog_run g poll).run d with
    | .ok _ d' =>
      have := instDecidableUnlost (reading k x poll) polls d'
      decidable_of_iff (KeepsTraffic g k x port previous poll d ∧
        Global.Unlost g k x port (reading k x poll) polls d') (by rw [Global.Unlost, h])
    | .error (.err _) d' =>
      have := instDecidableUnlost (reading k x poll) polls { d' with cache := ∅ }
      decidable_of_iff (KeepsTraffic g k x port previous poll d ∧
        Global.Unlost g k x port (reading k x poll) polls { d' with cache := ∅ })
        (by rw [Global.Unlost, h])
    | .error (.panic _) _ =>
      decidable_of_iff (KeepsTraffic g k x port previous poll d) (by rw [Global.Unlost, h, and_true])

/-- A poll whose report got out has brought the bills up to the counter, from `base` on. -/
def CaughtUp (dir : Direction) (base : ℕ) (poll : Poll w) (d : Daemon w) : Prop :=
  returned ((watchdog_run g poll).run d) = true → ∀ p ∈ reading k x poll,
    dir.counter p ≤ billed dir k x (final ((watchdog_run g poll).run d)).log.traffic + base

instance (dir : Direction) (base : ℕ) (poll : Poll w) (d : Daemon w) :
    Decidable (CaughtUp g k x dir base poll d) := inferInstanceAs (Decidable (_ → _))

end

theorem counter_eq_of_not_moved {c p : PeerStats w} (h : ¬Moved c p) (dir : Direction) :
    dir.counter p = dir.counter c := by
  rw [Moved, not_or, not_not, not_not] at h
  cases dir
  · exact congrArg BitVec.toNat h.1
  · exact congrArg BitVec.toNat h.2

/-- Readings far enough apart to be told apart: counters that do not go back and grow by less than
    the word size. -/
def Metered (p q : PeerStats w) : Prop :=
  (∀ dir : Direction, dir.counter p ≤ dir.counter q) ∧
    increase .rx p q + increase .tx p q < 2 ^ w

/-- The bill for two such readings is the whole growth. -/
theorem bill_eq_growth (dir : Direction) {p q : PeerStats w} (h : Metered p q) :
    dir.counter p + dir.bytes (Traffic.default.plus (bill p q)) = dir.counter q := by
  rw [bill_eq_increase dir h.2, increase, if_neg]
  · have := h.1 dir
    omega
  · rintro (hr | hr)
    · exact absurd (BitVec.lt_def.mp hr) (Nat.not_lt.mpr (h.1 .rx))
    · exact absurd (BitVec.lt_def.mp hr) (Nat.not_lt.mpr (h.1 .tx))

/-! ### The books of a peer -/

/-- The bills cover the cached reading, which is one of the earlier readings, and without one they
    cover the reading of the poll before. -/
structure Covered (dir : Direction) (k x : Pubkey) (port : UInt16) (base : ℕ)
    (earlier : List (PeerStats w)) (previous : Option (PeerStats w)) (d : Daemon w) : Prop where
  cached : ∀ c ∈ slot d.cache port x, dir.counter c ≤ billed dir k x d.log.traffic + base ∧
    ∃ r ∈ earlier, ∃ now, c = r.expire now
  uncached : slot d.cache port x = none → ∀ q ∈ previous,
    dir.counter q ≤ billed dir k x d.log.traffic + base

section
variable {g : Global} {k x : Pubkey} {port : UInt16} {dir : Direction} {base : ℕ}
  {earlier : List (PeerStats w)} {previous : Option (PeerStats w)} {poll : Poll w} {d : Daemon w}
  {p : PeerStats w}

/-- A reading of a peer that is not cached is covered by the bills so far. -/
theorem Covered.uncached_reading (h : Covered dir k x port base earlier previous d)
    (hkeeps : KeepsTraffic g k x port previous poll d) (hp : reading k x poll = some p)
    (hfirst : previous = none → dir.counter p = base) (hslot : slot d.cache port x = none) :
    dir.counter p ≤ billed dir k x d.log.traffic + base := by
  cases hq : previous with
  | none =>
    rw [hfirst hq]
    omega
  | some q =>
    rw [counter_eq_of_not_moved (hkeeps.uncached hslot q hq p hp) dir]
    exact h.uncached hslot q hq

/-- A reading whose report is not taken is covered too. -/
theorem Covered.refused_reading (h : Covered dir k x port base earlier previous d)
    (hkeeps : KeepsTraffic g k x port previous poll d) (hp : reading k x poll = some p)
    (hfirst : previous = none → dir.counter p = base) (hf : g.reportFate d = .refused) :
    dir.counter p ≤ billed dir k x d.log.traffic + base := by
  cases hslot : slot d.cache port x with
  | none => exact h.uncached_reading hkeeps hp hfirst hslot
  | some c =>
    rw [counter_eq_of_not_moved (hkeeps.cached c hslot p hp (Or.inl hf)) dir]
    exact (h.cached c hslot).1

/-- With the item it adds to the report a reading is covered in any case, and the cache stays or
    advances to it. -/
theorem Covered.with_item (h : Covered dir k x port base earlier previous d)
    (hkeeps : KeepsTraffic g k x port previous poll d) (hp : reading k x poll = some p)
    (hfirst : previous = none → dir.counter p = base) (hmet : ∀ r ∈ earlier, Metered r p)
    {refused : Prop} {att : List (GatewayEvent × Delivery)} {c' : Option (PeerStats w)}
    {item : Option (Traffic w)}
    (hpoll : PairPoll k x (poll.clock k x).Ok refused (slot d.cache port x)
      (some (p.expire (poll.clock k x).now)) att c' item) :
    dir.counter p ≤
        billed dir k x d.log.traffic + dir.bytes (Traffic.default.plus item) + base ∧
      (c' = slot d.cache port x ∨ c' = some (p.expire (poll.clock k x).now)) := by
  have hbill : dir.counter p ≤ billed dir k x d.log.traffic + dir.bytes (Traffic.default.plus
      ((slot d.cache port x).bind (bill · (p.expire (poll.clock k x).now)))) + base := by
    cases hslot : slot d.cache port x with
    | none =>
      have := h.uncached_reading hkeeps hp hfirst hslot
      simpa [Traffic.plus] using this
    | some c =>
      obtain ⟨hc, r, hr, now, rfl⟩ := h.cached c hslot
      have hgrowth := bill_eq_growth dir (hmet r hr)
      rw [Direction.counter_expire] at hc
      have hsame : bill (r.expire now) p = bill r p := by simp [bill]
      simp only [Option.bind_some, bill_expire, hsame]
      omega
  cases hpoll with
  | stale ht hc =>
    obtain ⟨c, hslot⟩ := Option.ne_none_iff_exists'.mp hc
    refine ⟨?_, Or.inl rfl⟩
    rw [counter_eq_of_not_moved (hkeeps.cached c hslot p hp (Or.inr ht)) dir, Traffic.plus,
      Direction.bytes_default]
    exact (h.cached c hslot).1
  | refused ha hl => exact ⟨hbill, Or.inl rfl⟩
  | done ha hl hu ht => exact ⟨hbill, Or.inr rfl⟩

/-- A poll whose report gets out. -/
theorem Covered.sent (h : Covered dir k x port base earlier previous d)
    (hkeeps : KeepsTraffic g k x port previous poll d) (hres : Resident k port poll.visits)
    (hp : reading k x poll = some p) (hfirst : previous = none → dir.counter p = base)
    (hmet : ∀ r ∈ earlier, Metered r p) {s : Watch w (PeerCache w)} (hv : Visited g poll d s)
    (hf : g.reportFate d ≠ .refused) :
    dir.counter p ≤ billed dir k x (s.broadcast (g.reportFate d)).log.traffic + base ∧
      Covered dir k x port base (earlier ++ [p]) (some p) (s.broadcast (g.reportFate d)) := by
  obtain ⟨stats, hs, hl⟩ := Option.bind_eq_some_iff.mp hp
  obtain ⟨new, _, hview⟩ := hv.pair hres
  obtain ⟨item, hmove, hdev⟩ := hview x
  rw [hs, PairMove, hl] at hmove
  obtain ⟨hcover, hslot⟩ := h.with_item hkeeps hp hfirst hmet hmove
  have hbilled := billed_broadcast (k := k) (x := x) hv dir (g.reportFate d)
  rw [billed_sent _ _ _ _ hf, hdev] at hbilled
  rw [← hbilled] at hcover
  refine ⟨hcover, fun c hc => ?_, ?_⟩
  · have hc : slot s.cache port x = some c := hc
    rcases hslot with hsame | hnew
    · rw [hsame] at hc
      obtain ⟨hle, r, hr, hexp⟩ := h.cached c hc
      refine ⟨?_, r, List.mem_append_left _ hr, hexp⟩
      rw [hbilled]
      omega
    · obtain rfl := Option.some.inj (hnew.symm.trans hc)
      rw [Direction.counter_expire]
      exact ⟨hcover, p, by simp, _, rfl⟩
  · rintro _ q ⟨⟩
    exact hcover

/-- Along a run every report that gets out catches up. -/
theorem Covered.run : ∀ {polls : List (Poll w)} {earlier : List (PeerStats w)}
    {previous : Option (PeerStats w)} {d : Daemon w},
    Covered dir k x port base earlier previous d →
    (∀ poll ∈ polls, Resident k port poll.visits) →
    (∀ poll ∈ polls, reading k x poll ≠ none) →
    (previous = none → ∀ p ∈ (readings k x polls).head?, dir.counter p = base) →
    (earlier ++ readings k x polls).Pairwise Metered →
    g.Unlost k x port previous polls d → g.AllPolls (CaughtUp g k x dir base) polls d
  | [], _, _, _, _, _, _, _, _, _ => trivial
  | poll :: polls, earlier, previous, d, h, hres, hpresent, hfirst, hmet, hun => by
      obtain ⟨hres₁, hres⟩ := List.forall_mem_cons.mp hres
      obtain ⟨hpresent₁, hpresent⟩ := List.forall_mem_cons.mp hpresent
      obtain ⟨p, hp⟩ := Option.ne_none_iff_exists'.mp hpresent₁
      obtain ⟨hkeeps, hun⟩ := hun
      rw [readings_cons, hp, Option.toList_some] at hfirst hmet
      have hfirst₁ : previous = none → dir.counter p = base := fun hq => hfirst hq p (by simp)
      have hmet₁ : ∀ r ∈ earlier, Metered r p := fun r hr =>
        (List.pairwise_append.mp hmet).2.2 r hr p (by simp)
      rw [← List.append_assoc] at hmet
      have hstep := watchdog_run_step g poll d
      rw [Global.AllPolls]
      rw [hp] at hun
      unfold CaughtUp
      generalize (watchdog_run g poll).run d = r at hstep hun
      cases hstep with
      | unlisted chain hl =>
        have hnone : reading k x poll = none := by
          simp [FractalGateway.reading, Poll.visits, hl, Except.toOption, statsOf]
        rw [hnone] at hp
        cases hp
      | refused chain hv hf =>
        refine ⟨fun hret => (by cases hret), Covered.run ⟨?_, ?_⟩ hres hpresent (by simp) hmet hun⟩
        · intro c hc
          have hnone : slot (∅ : PeerCache w) port x = some c := hc
          rw [slot_empty] at hnone
          cases hnone
        · rintro _ q ⟨⟩
          show _ ≤ billed dir k x (Watch.broadcast _ _).log.traffic + base
          rw [billed_broadcast hv, hf, billed_refused, Nat.add_zero]
          exact h.refused_reading hkeeps hp hfirst₁ hf
      | sent hv hf =>
        obtain ⟨hcover, hnext⟩ := h.sent hkeeps hres₁ hp hfirst₁ hmet₁ hv hf
        refine ⟨fun _ q hq => ?_, Covered.run hnext hres hpresent (by simp) hmet hun⟩
        obtain rfl := Option.some.inj (hp.symm.trans hq)
        exact hcover
      | panic reason hpanic hrun => exact ⟨fun hret => (by cases hret), trivial⟩

end

/-- Traffic is delayed and not lost in every run that transfers nothing at the wrong moments: after
    each report that gets out, the reports have billed to a peer that is always listed at least what
    its counters grew by since the first poll. -/
theorem traffic_caught_up (g : Global) (k x : Pubkey) (port : UInt16) (polls : List (Poll w))
    (hres : ∀ poll ∈ polls, Resident k port poll.visits)
    (hpresent : ∀ poll ∈ polls, reading k x poll ≠ none) (hgrow : Growing (readings k x polls))
    (hfits : (readings k x polls).Pairwise fun p q => increase .rx p q + increase .tx p q < 2 ^ w)
    (hkeeps : g.Unlost k x port none polls Daemon.start) (first : PeerStats w)
    (hfirst : (readings k x polls).head? = some first) (dir : Direction) :
    g.AllPolls (CaughtUp g k x dir (dir.counter first)) polls Daemon.start := by
  have htrans : IsTrans (PeerStats w) fun p q => ∀ dir : Direction, dir.counter p ≤ dir.counter q :=
    ⟨fun _ _ _ h h' dir => (h dir).trans (h' dir)⟩
  have hsorted := List.isChain_iff_pairwise.mp hgrow
  have hnone : slot (Daemon.start : Daemon w).cache port x = none := slot_empty port x
  have hstart : Covered dir k x port (dir.counter first) [] none (Daemon.start : Daemon w) := by
    refine ⟨fun c hc => ?_, ?_⟩
    · rw [hnone] at hc
      cases hc
    · rintro _ q ⟨⟩
  refine hstart.run hres hpresent ?_ ?_ hkeeps
  · rintro _ p hp
    rw [hfirst] at hp
    obtain rfl := Option.some.inj hp
    rfl
  · exact List.Pairwise.and hsorted hfits

/-- Nobody is subscribed when the second report is made. -/
def Sample.unheard : Global :=
  ⟨.release, fun _ => .delivered, fun n => if n = 1 then .refused else .delivered⟩

/-- The peer transfers nothing around the report that nobody takes. -/
def Sample.quiet : List (Poll 64) :=
  [Sample.poll 10 [("network-5000", Sample.stats 1 5000 [Sample.peer 7 none 0])],
   Sample.poll 20 [("network-5000", Sample.stats 1 5000 [Sample.peer 7 none 0])],
   Sample.poll 30 [("network-5000", Sample.stats 1 5000 [Sample.peer 7 none 0])],
   Sample.poll 40 [("network-5000", Sample.stats 1 5000 [Sample.peer 7 none 100])]]

theorem traffic_caught_up_quiet :
    Sample.unheard.AllPolls (CaughtUp Sample.unheard ⟨1⟩ ⟨7⟩ .rx 0) Sample.quiet Daemon.start ∧
      billed .rx ⟨1⟩ ⟨7⟩ (Sample.unheard.watchdog Sample.quiet Daemon.start).log.traffic = 100 :=
  ⟨traffic_caught_up Sample.unheard ⟨1⟩ ⟨7⟩ 5000 Sample.quiet (by decide) (by decide) (by decide)
    (by decide) (by decide +kernel) (Sample.peer 7 none 0) rfl .rx, by decide +kernel⟩

/-- The bytes come in just before the report that nobody takes. -/
def Sample.missed : List (Poll 64) :=
  [Sample.poll 10 [("network-5000", Sample.stats 1 5000 [Sample.peer 7 none 0])],
   Sample.poll 20 [("network-5000", Sample.stats 1 5000 [Sample.peer 7 none 100])],
   Sample.poll 30 [("network-5000", Sample.stats 1 5000 [Sample.peer 7 none 100])]]

/-- They are in no report that gets out, although the third one does. -/
theorem traffic_lost_in_gap :
    (∀ poll ∈ Sample.missed, Resident ⟨1⟩ 5000 poll.visits) ∧
      (∀ poll ∈ Sample.missed, reading ⟨1⟩ ⟨7⟩ poll ≠ none) ∧
      Growing (readings ⟨1⟩ ⟨7⟩ Sample.missed) ∧
      ((readings ⟨1⟩ ⟨7⟩ Sample.missed).Pairwise fun p q =>
        increase .rx p q + increase .tx p q < 2 ^ 64) ∧
      (Sample.unheard.watchdog Sample.missed Daemon.start).log.events = [] ∧
      ¬Sample.unheard.AllPolls (CaughtUp Sample.unheard ⟨1⟩ ⟨7⟩ .rx 0) Sample.missed Daemon.start :=
  ⟨by decide, by decide, by decide, by decide, by decide +kernel, by decide +kernel⟩

end FractalGateway
