import FractalGateway.Watchdog.Accounting

/-! The arithmetic of one peer's step.

    `watchdog_peer` compares the counters with `previous > peer`, and where neither went back it
    first forms `previous - peer`, the wrong way round. As soon as a counter has grown that
    difference leaves the range of `usize`: a checked build panics there, a wrapping build goes on
    with a wrapped total. So the step is exact on just the readings that give it nothing to count. -/

namespace FractalGateway
open Std Exec

variable {w : ℕ}

/-- The panics of checked arithmetic. -/
def arithmeticPanics : List String :=
  ["attempt to subtract with overflow", "attempt to add with overflow"]

/-- Some counter differs between two readings. -/
def Moved (previous peer : PeerStats w) : Prop :=
  peer.transfer_rx ≠ previous.transfer_rx ∨ peer.transfer_tx ≠ previous.transfer_tx

instance (previous peer : PeerStats w) : Decidable (Moved previous peer) :=
  inferInstanceAs (Decidable (_ ∨ _))

/-- The step of a peer cached as `previous` counts exactly: with its operations checked, none leaves
    the range, and a traffic item is added just when a counter grew and none went back, with the
    exact increases. -/
structure CountsExactly (g : Global) (stats : NetworkStats w) (clock : Clock)
    (previous peer : PeerStats w) (s : Watch w (Entry w)) : Prop where
  in_range : ∀ reason s', (watchdog_peer { g with build := .debug } stats clock peer).run s =
    .error (.panic reason) s' → reason ∉ arithmeticPanics
  added : ¬Rewound previous peer → Moved previous peer →
    ∃ item, (final ((watchdog_peer g stats clock peer).run s)).traffic =
        s.traffic.add stats.public_key peer.public_key clock.secs item ∧
      ∀ dir : Direction, dir.bytes item = dir.counter peer - dir.counter previous
  kept : Rewound previous peer ∨ ¬Moved previous peer →
    (final ((watchdog_peer g stats clock peer).run s)).traffic = s.traffic

section
variable {g : Global} {stats : NetworkStats w} {clock : Clock} {previous peer : PeerStats w}
  {s : Watch w (Entry w)}

@[simp] theorem overflows_expire (now : SystemTime) :
    g.Overflows previous (peer.expire now) ↔ g.Overflows previous peer := by
  simp [Global.Overflows]

/-- Where nothing is to be counted, nothing is. -/
theorem bill_eq_none (h : Rewound previous peer ∨ ¬Moved previous peer) :
    bill previous peer = none := by
  rcases h with hr | hm
  · exact bill_of_rewound hr
  · rw [Moved, not_or, not_not, not_not] at hm
    simp [bill, hm.1, hm.2]

/-- A step that finds nothing to count leaves the report alone, however it ends. -/
theorem watchdog_peer_traffic (hp : s.cache[peer.public_key]? = some previous)
    (h : bill previous peer = none) :
    (final ((watchdog_peer g stats clock peer).run s)).traffic = s.traffic := by
  have hreported : (s.reported stats clock peer).traffic = s.traffic := by
    simp [Watch.reported, Watch.billed, hp, h]
  have hstep := watchdog_peer_step g stats clock peer s
  generalize (watchdog_peer g stats clock peer).run s = r at hstep
  cases hstep with
  | clock chain hp ht => rfl
  | overflow reason hp ho => rfl
  | refused chain ha => exact hreported
  | unwrap reason ha hu => exact hreported
  | done ha hu ht => exact hreported

/-- Adding traffic that is not nothing shows in the report. -/
theorem TrafficInfo.add_ne (t : TrafficInfo w) (k x : Pubkey) (time : BitVec w) {item : Traffic w}
    (h : item.rx ≠ 0 ∨ item.tx ≠ 0) : t.add k x time item ≠ t := by
  intro heq
  have hdev := congrArg (fun t => TrafficInfo.device t k x) heq
  simp only [TrafficInfo.device_add, and_self, if_true] at hdev
  have hrx := congrArg Traffic.rx hdev
  have htx := congrArg Traffic.tx hdev
  simp only [Traffic.add_assign, BitVec.add_right_eq_self] at hrx htx
  rcases h with h | h
  · exact h hrx
  · exact h htx

end

/-- A step counts exactly if and only if one of the counters went back or neither moved. -/
theorem counts_exactly_iff (g : Global) (stats : NetworkStats w) (clock : Clock)
    (previous peer : PeerStats w) (s : Watch w (Entry w))
    (hp : s.cache[peer.public_key]? = some previous) :
    CountsExactly g stats clock previous peer s ↔ Rewound previous peer ∨ ¬Moved previous peer := by
  constructor
  · intro h
    by_contra hn
    obtain ⟨hr, hm⟩ := not_or.mp hn
    rw [not_not] at hm
    by_cases ht : clock.time.duration_since UNIX_EPOCH = none
    · -- the step is given up before it counts, so the growth is missing from the report
      obtain ⟨item, hadd, hbytes⟩ := h.added hr hm
      rw [watchdog_peer_stale g stats clock peer s hp ht] at hadd
      refine TrafficInfo.add_ne _ _ _ _ ?_ hadd.symm
      by_contra hz
      obtain ⟨hrx, htx⟩ := not_or.mp hz
      rw [not_not] at hrx htx
      obtain ⟨hle, hle'⟩ := not_or.mp hr
      rw [BitVec.lt_def] at hle hle'
      have h1 := hbytes .rx
      have h2 := hbytes .tx
      simp only [Direction.bytes, Direction.counter, hrx, htx] at h1 h2
      simp only [BitVec.ofNat_eq_ofNat, BitVec.toNat_ofNat, Nat.zero_mod] at h1 h2
      rcases hm with hm | hm
      · exact hm (BitVec.eq_of_toNat_eq (by omega))
      · exact hm (BitVec.eq_of_toNat_eq (by omega))
    · have ho : ({ g with build := .debug } : Global).Overflows previous (peer.expire clock.now) :=
        overflows_expire clock.now |>.mpr ⟨rfl, hr, hm⟩
      exact h.in_range _ _ (watchdog_peer_overflow _ stats clock peer s hp ht ho) (by decide)
  · intro h
    refine ⟨fun reason s' hrun hmem => ?_, fun hr hm => ?_, fun _ => ?_⟩
    · have ho : ∀ q, s.cache[peer.public_key]? = some q →
          ¬({ g with build := .debug } : Global).Overflows q (peer.expire clock.now) := by
        rintro q hq ⟨-, hr, hm⟩
        obtain rfl : previous = q := Option.some.inj (hp.symm.trans hq)
        rw [PeerStats.expire_transfer_rx, PeerStats.expire_transfer_tx] at hr hm
        rcases h with h | h
        · exact hr h
        · exact h hm
      have hreason := watchdog_peer_panic _ stats clock peer s ho hrun
      rw [unwrapPanic, Fail.panic.injEq] at hreason
      rw [hreason] at hmem
      revert hmem
      decide
    · rcases h with h | h
      · exact absurd h hr
      · exact absurd hm h
    · exact watchdog_peer_traffic hp (bill_eq_none h)

/-- A network with one cached peer. -/
def Sample.cached (peer : PeerStats 64) : Watch 64 (Entry 64) where
  traffic := TrafficInfo.new 0
  cache := (∅ : Entry 64).insert peer.public_key peer
  log := ⟨[], []⟩

/-- A counter that started again is not counted. -/
theorem counts_exactly_rewound :
    CountsExactly Sample.global (Sample.stats 1 5000 [Sample.peer 7 none 30]) (Sample.clock 20)
      (Sample.peer 7 none 250) (Sample.peer 7 none 30) (Sample.cached (Sample.peer 7 none 250)) :=
  (counts_exactly_iff Sample.global _ (Sample.clock 20) (Sample.peer 7 none 250)
    (Sample.peer 7 none 30) (Sample.cached (Sample.peer 7 none 250))
    (by simp [Sample.cached, Sample.peer])).mpr (Or.inl (by decide))

/-- A counter that grew from 100 to 250 bytes: the difference is taken the wrong way round. -/
theorem counts_out_of_range :
    ¬CountsExactly Sample.global (Sample.stats 1 5000 [Sample.peer 7 none 250]) (Sample.clock 20)
      (Sample.peer 7 none 100) (Sample.peer 7 none 250)
      (Sample.cached (Sample.peer 7 none 100)) := by
  intro h
  have hp : (Sample.cached (Sample.peer 7 none 100)).cache[(Sample.peer 7 none 250).public_key]? =
      some (Sample.peer 7 none 100) := by
    simp [Sample.cached, Sample.peer]
  have hrun := watchdog_peer_overflow { Sample.global with build := .debug }
    (Sample.stats 1 5000 [Sample.peer 7 none 250]) (Sample.clock 20) (Sample.peer 7 none 250)
    (Sample.cached (Sample.peer 7 none 100)) hp (by decide) ⟨rfl, by decide, by decide⟩
  exact h.in_range _ _ hrun (by decide)

end FractalGateway
