import Mathlib.Algebra.Order.BigOperators.Group.List
import FractalGateway.Client.Traffic

/-! The levels of a traffic report agree.

    A report is filled by calls of `TrafficInfo::add`, each of which goes to the total, to one network,
    to one device of it and to one time of that. Seen from the list of calls, every level is a fold
    over its own part of the list:

        calls ──▶ total
          └─ calls of a network ──▶ the network's total
               └─ calls of a device ──▶ the device's total
                    └─ calls of a time ──▶ the last one only

    so the totals of the first three levels add up. The times do not: a time that is given twice
    keeps the second value and loses the first. -/

namespace FractalGateway
open Std

variable {w : ℕ}

/-- The arguments of one `TrafficInfo::add`. -/
structure AddCall (w : ℕ) where
  network : Pubkey
  device : Pubkey
  time : BitVec w
  traffic : Traffic w
  deriving DecidableEq

/-- A report after calls of `TrafficInfo::add`, from `TrafficInfo::new`. -/
def TrafficInfo.addAll (start_time : BitVec w) (calls : List (AddCall w)) : TrafficInfo w :=
  calls.foldl (fun info c => info.add c.network c.device c.time c.traffic) (.new start_time)

/-- The calls for one network. -/
def callsOf (k : Pubkey) (calls : List (AddCall w)) : List (AddCall w) :=
  calls.filter fun c => decide (c.network = k)

/-- The calls for one device, of a network's calls. -/
def callsBy (x : Pubkey) (calls : List (AddCall w)) : List (AddCall w) :=
  calls.filter fun c => decide (c.device = x)

/-- The bytes given in calls. -/
def given (dir : Direction) (calls : List (AddCall w)) : ℕ :=
  (calls.map fun c => dir.bytes c.traffic).sum

/-- The whole traffic fits into a counter. -/
def Fits (calls : List (AddCall w)) : Prop := ∀ dir, given dir calls < 2 ^ w

/-! ### One level after the other -/

/-- A network's part of a report. -/
def NetworkTraffic.addAll (calls : List (AddCall w)) : NetworkTraffic w :=
  calls.foldl (fun nt c => nt.add c.device c.time c.traffic) .default

/-- A device's part of a report. -/
def DeviceTraffic.addAll (calls : List (AddCall w)) : DeviceTraffic w :=
  calls.foldl (fun dt c => dt.add c.time c.traffic) .default

theorem TrafficInfo.networks_addAll (start_time : BitVec w) (calls : List (AddCall w)) :
    (TrafficInfo.addAll start_time calls).networks =
      OrdMap.gather AddCall.network NetworkTraffic.default
        (fun nt c => nt.add c.device c.time c.traffic) calls :=
  (List.foldl_hom TrafficInfo.networks fun _ _ => rfl).symm

theorem NetworkTraffic.devices_addAll (calls : List (AddCall w)) :
    (NetworkTraffic.addAll calls).devices =
      OrdMap.gather AddCall.device DeviceTraffic.default (fun dt c => dt.add c.time c.traffic) calls :=
  (List.foldl_hom NetworkTraffic.devices fun _ _ => rfl).symm

/-- What a report has for a network. -/
theorem TrafficInfo.get_networks (start_time : BitVec w) (calls : List (AddCall w)) (k : Pubkey) :
    (TrafficInfo.addAll start_time calls).networks[k]? =
      if callsOf k calls = [] then none else some (NetworkTraffic.addAll (callsOf k calls)) := by
  rw [TrafficInfo.networks_addAll, OrdMap.get_gather]
  rfl

/-- What a network's part has for a device. -/
theorem NetworkTraffic.get_devices (calls : List (AddCall w)) (x : Pubkey) :
    (NetworkTraffic.addAll calls).devices[x]? =
      if callsBy x calls = [] then none else some (DeviceTraffic.addAll (callsBy x calls)) := by
  rw [NetworkTraffic.devices_addAll, OrdMap.get_gather]
  rfl

/-! ### Totals -/

/-- A total that is added to call by call holds the bytes given, as long as these fit. -/
theorem bytes_foldl_add_assign (dir : Direction) {calls : List (AddCall w)}
    (h : given dir calls < 2 ^ w) :
    dir.bytes (calls.foldl (fun t c => t.add_assign c.traffic) Traffic.default) = given dir calls := by
  induction calls using List.reverseRecOn with
  | nil => exact dir.bytes_default
  | append_singleton calls c ih =>
    have hsum : given dir (calls ++ [c]) = given dir calls + dir.bytes c.traffic := by simp [given]
    rw [hsum] at h
    rw [List.foldl_append, hsum, ← ih (by omega)]
    rw [← ih (by omega)] at h
    cases dir with
    | rx => exact (BitVec.toNat_add _ _).trans (Nat.mod_eq_of_lt h)
    | tx => exact (BitVec.toNat_add _ _).trans (Nat.mod_eq_of_lt h)

theorem TrafficInfo.traffic_addAll (start_time : BitVec w) (calls : List (AddCall w)) :
    (TrafficInfo.addAll start_time calls).traffic =
      calls.foldl (fun t c => t.add_assign c.traffic) Traffic.default :=
  (List.foldl_hom TrafficInfo.traffic fun _ _ => rfl).symm

theorem NetworkTraffic.traffic_addAll (calls : List (AddCall w)) :
    (NetworkTraffic.addAll calls).traffic =
      calls.foldl (fun t c => t.add_assign c.traffic) Traffic.default :=
  (List.foldl_hom NetworkTraffic.traffic fun _ _ => rfl).symm

theorem DeviceTraffic.traffic_addAll (calls : List (AddCall w)) :
    (DeviceTraffic.addAll calls).traffic =
      calls.foldl (fun t c => t.add_assign c.traffic) Traffic.default :=
  (List.foldl_hom DeviceTraffic.traffic fun _ _ => rfl).symm

theorem given_filter_le (dir : Direction) (p : AddCall w → Bool) (calls : List (AddCall w)) :
    given dir (calls.filter p) ≤ given dir calls :=
  List.Sublist.sum_le_sum (List.Sublist.map _ List.filter_sublist) (by simp)

theorem Fits.callsOf {calls : List (AddCall w)} (h : Fits calls) (k : Pubkey) :
    Fits (callsOf k calls) := fun dir => (given_filter_le dir _ calls).trans_lt (h dir)

theorem Fits.callsBy {calls : List (AddCall w)} (h : Fits calls) (x : Pubkey) :
    Fits (callsBy x calls) := fun dir => (given_filter_le dir _ calls).trans_lt (h dir)

theorem TrafficInfo.bytes_addAll (start_time : BitVec w) {calls : List (AddCall w)} (h : Fits calls)
    (dir : Direction) : dir.bytes (TrafficInfo.addAll start_time calls).traffic = given dir calls := by
  rw [TrafficInfo.traffic_addAll, bytes_foldl_add_assign dir (h dir)]

theorem NetworkTraffic.bytes_addAll {calls : List (AddCall w)} (h : Fits calls) (dir : Direction) :
    dir.bytes (NetworkTraffic.addAll calls).traffic = given dir calls := by
  rw [NetworkTraffic.traffic_addAll, bytes_foldl_add_assign dir (h dir)]

theorem DeviceTraffic.bytes_addAll {calls : List (AddCall w)} (h : Fits calls) (dir : Direction) :
    dir.bytes (DeviceTraffic.addAll calls).traffic = given dir calls := by
  rw [DeviceTraffic.traffic_addAll, bytes_foldl_add_assign dir (h dir)]

/-- The networks add up to the total. -/
theorem TrafficInfo.total_networks (start_time : BitVec w) {calls : List (AddCall w)} (h : Fits calls)
    (dir : Direction) :
    OrdMap.total (fun nt => dir.bytes nt.traffic) (TrafficInfo.addAll start_time calls).networks =
      given dir calls := by
  rw [TrafficInfo.networks_addAll]
  exact OrdMap.total_gather fun k => NetworkTraffic.bytes_addAll (h.callsOf k) dir

/-- The devices of a network add up to the network's total. -/
theorem NetworkTraffic.total_devices {calls : List (AddCall w)} (h : Fits calls) (dir : Direction) :
    OrdMap.total (fun dt => dir.bytes dt.traffic) (NetworkTraffic.addAll calls).devices =
      given dir calls := by
  rw [NetworkTraffic.devices_addAll]
  exact OrdMap.total_gather fun x => DeviceTraffic.bytes_addAll (h.callsBy x) dir

/-! ### The end of the time slice -/

/-- The end of the slice is the latest of the start and the times given. -/
theorem TrafficInfo.stop_time_addAll (start_time : BitVec w) (calls : List (AddCall w)) :
    (TrafficInfo.addAll start_time calls).stop_time ∈ start_time :: calls.map (·.time) ∧
      ∀ t ∈ start_time :: calls.map (·.time),
        t ≤ (TrafficInfo.addAll start_time calls).stop_time := by
  induction calls using List.reverseRecOn with
  | nil => simp [TrafficInfo.addAll, TrafficInfo.new]
  | append_singleton calls c ih =>
    obtain ⟨hmem, hle⟩ := ih
    have hstop : (TrafficInfo.addAll start_time (calls ++ [c])).stop_time =
        if (TrafficInfo.addAll start_time calls).stop_time ≤ c.time then c.time
        else (TrafficInfo.addAll start_time calls).stop_time := by
      rw [TrafficInfo.addAll, List.foldl_append, ← TrafficInfo.addAll]
      rfl
    rw [hstop, List.map_append, ← List.cons_append]
    split
    · next hlater =>
      refine ⟨List.mem_append_right _ List.mem_cons_self, fun t ht => ?_⟩
      rcases List.mem_append.mp ht with ht | ht
      · exact BitVec.le_trans (hle t ht) hlater
      · rw [List.mem_singleton.mp ht]
        exact BitVec.le_refl _
    · next hlater =>
      refine ⟨List.mem_append_left _ hmem, fun t ht => ?_⟩
      rcases List.mem_append.mp ht with ht | ht
      · exact hle t ht
      · rw [List.mem_singleton.mp ht]
        exact BitVec.le_of_lt (BitVec.not_le.mp hlater)

/-! ### The report against its calls -/

/-- A report agrees with the calls that made it: every level with the one below, the devices with
    what was given for them, the keys with those that occurred, and the end with the latest time. -/
structure TrafficInfo.Agrees (start_time : BitVec w) (calls : List (AddCall w))
    (info : TrafficInfo w) : Prop where
  total : ∀ dir : Direction,
    dir.bytes info.traffic = OrdMap.total (fun nt => dir.bytes nt.traffic) info.networks
  network : ∀ (k : Pubkey) nt, info.networks[k]? = some nt → ∀ dir : Direction,
    dir.bytes nt.traffic = OrdMap.total (fun dt => dir.bytes dt.traffic) nt.devices
  device : ∀ (k : Pubkey) nt, info.networks[k]? = some nt → ∀ (x : Pubkey) dt,
    nt.devices[x]? = some dt → ∀ dir : Direction, dir.bytes dt.traffic =
      ((calls.filter fun c => decide (c.network = k ∧ c.device = x)).map fun c =>
        dir.bytes c.traffic).sum
  networks : ∀ k, k ∈ info.networks ↔ ∃ c ∈ calls, c.network = k
  devices : ∀ (k : Pubkey) nt, info.networks[k]? = some nt → ∀ x, x ∈ nt.devices ↔
    ∃ c ∈ calls, c.network = k ∧ c.device = x
  stop_mem : info.stop_time ∈ start_time :: calls.map (·.time)
  stop_max : ∀ t ∈ start_time :: calls.map (·.time), t ≤ info.stop_time

/-- Two reports have the same totals at all three levels and the same end. -/
structure TrafficInfo.SameTotals (info info' : TrafficInfo w) : Prop where
  total : info'.traffic = info.traffic
  network : ∀ k : Pubkey,
    info'.networks[k]?.map (·.traffic) = info.networks[k]?.map (·.traffic)
  device : ∀ k x : Pubkey,
    (info'.networks[k]?.bind (·.devices[x]?)).map (·.traffic) =
      (info.networks[k]?.bind (·.devices[x]?)).map (·.traffic)
  stop_time : info'.stop_time = info.stop_time

/-- A network in a report has calls, and is made from them. -/
theorem TrafficInfo.networks_some {start_time : BitVec w} {calls : List (AddCall w)} {k : Pubkey}
    {nt : NetworkTraffic w} (h : (TrafficInfo.addAll start_time calls).networks[k]? = some nt) :
    nt = NetworkTraffic.addAll (callsOf k calls) := by
  rw [TrafficInfo.get_networks] at h
  split at h
  · cases h
  · exact (Option.some.inj h).symm

theorem NetworkTraffic.devices_some {calls : List (AddCall w)} {x : Pubkey} {dt : DeviceTraffic w}
    (h : (NetworkTraffic.addAll calls).devices[x]? = some dt) :
    dt = DeviceTraffic.addAll (callsBy x calls) := by
  rw [NetworkTraffic.get_devices] at h
  split at h
  · cases h
  · exact (Option.some.inj h).symm

theorem callsBy_callsOf (k x : Pubkey) (calls : List (AddCall w)) :
    callsBy x (callsOf k calls) =
      calls.filter fun c => decide (c.network = k ∧ c.device = x) := by
  rw [callsBy, callsOf, List.filter_filter]
  refine List.filter_congr fun c _ => ?_
  rw [Bool.decide_and, Bool.and_comm]

theorem TrafficInfo.addAll_agrees (start_time : BitVec w) {calls : List (AddCall w)}
    (h : Fits calls) : (TrafficInfo.addAll start_time calls).Agrees start_time calls where
  total := fun dir => by
    rw [TrafficInfo.bytes_addAll start_time h, TrafficInfo.total_networks start_time h]
  network := by
    intro k nt hnt dir
    rw [TrafficInfo.networks_some hnt, NetworkTraffic.bytes_addAll (h.callsOf k),
      NetworkTraffic.total_devices (h.callsOf k)]
  device := by
    intro k nt hnt x dt hdt dir
    rw [TrafficInfo.networks_some hnt] at hdt
    rw [NetworkTraffic.devices_some hdt, DeviceTraffic.bytes_addAll ((h.callsOf k).callsBy x),
      callsBy_callsOf, given]
  networks := by
    intro k
    rw [OrdMap.mem_iff_get, TrafficInfo.get_networks]
    simp [callsOf, List.filter_eq_nil_iff]
  devices := by
    intro k nt hnt x
    rw [TrafficInfo.networks_some hnt, OrdMap.mem_iff_get, NetworkTraffic.get_devices,
      callsBy_callsOf]
    simp [List.filter_eq_nil_iff]
  stop_mem := (TrafficInfo.stop_time_addAll start_time calls).1
  stop_max := (TrafficInfo.stop_time_addAll start_time calls).2

/-! ### Calls in another order -/

/-- Totals made from the same calls in another order. -/
theorem foldl_add_assign_perm {calls calls' : List (AddCall w)} (h : calls.Perm calls') :
    calls'.foldl (fun t c => t.add_assign c.traffic) (Traffic.default : Traffic w) =
      calls.foldl (fun t c => t.add_assign c.traffic) Traffic.default := by
  refine (h.foldl_eq' ?_ _).symm
  intro a _ b _ t
  simp only [Traffic.add_assign, Traffic.mk.injEq]
  constructor
  · rw [BitVec.add_assoc, BitVec.add_comm a.traffic.rx, ← BitVec.add_assoc]
  · rw [BitVec.add_assoc, BitVec.add_comm a.traffic.tx, ← BitVec.add_assoc]

/-- The total of a part of the calls, none if there are none. -/
def totalOf (calls : List (AddCall w)) : Option (Traffic w) :=
  if calls = [] then none
  else some (calls.foldl (fun t c => t.add_assign c.traffic) Traffic.default)

theorem totalOf_perm {calls calls' : List (AddCall w)} (h : calls.Perm calls') :
    totalOf calls' = totalOf calls := by
  have hnil : calls' = [] ↔ calls = [] :=
    ⟨fun h' => List.Perm.eq_nil (h' ▸ h), fun h' => List.Perm.eq_nil (h' ▸ h.symm)⟩
  rw [totalOf, totalOf, foldl_add_assign_perm h]
  simp only [hnil]

theorem TrafficInfo.network_totalOf (start_time : BitVec w) (calls : List (AddCall w)) (k : Pubkey) :
    (TrafficInfo.addAll start_time calls).networks[k]?.map (·.traffic) =
      totalOf (callsOf k calls) := by
  rw [TrafficInfo.get_networks, totalOf]
  split
  · rfl
  · rw [Option.map_some, NetworkTraffic.traffic_addAll]

theorem TrafficInfo.device_totalOf (start_time : BitVec w) (calls : List (AddCall w))
    (k x : Pubkey) :
    ((TrafficInfo.addAll start_time calls).networks[k]?.bind (·.devices[x]?)).map (·.traffic) =
      totalOf (callsBy x (callsOf k calls)) := by
  rw [TrafficInfo.get_networks]
  split
  · next hnil => rw [hnil]; rfl
  · rw [Option.bind_some, NetworkTraffic.get_devices, totalOf]
    split
    · rfl
    · rw [Option.map_some, DeviceTraffic.traffic_addAll]

theorem TrafficInfo.addAll_perm (start_time : BitVec w) {calls calls' : List (AddCall w)}
    (h : calls.Perm calls') :
    (TrafficInfo.addAll start_time calls).SameTotals (TrafficInfo.addAll start_time calls') where
  total := by
    rw [TrafficInfo.traffic_addAll, TrafficInfo.traffic_addAll, foldl_add_assign_perm h]
  network := by
    intro k
    rw [TrafficInfo.network_totalOf, TrafficInfo.network_totalOf]
    exact totalOf_perm (h.filter _)
  device := by
    intro k x
    rw [TrafficInfo.device_totalOf, TrafficInfo.device_totalOf]
    exact totalOf_perm ((h.filter _).filter _)
  stop_time := by
    obtain ⟨hmem, hle⟩ := TrafficInfo.stop_time_addAll start_time calls
    obtain ⟨hmem', hle'⟩ := TrafficInfo.stop_time_addAll start_time calls'
    have htimes := (h.map (·.time)).cons start_time
    refine BitVec.le_antisymm (hle _ ?_) (hle' _ ?_)
    · exact htimes.mem_iff.mpr hmem'
    · exact htimes.mem_iff.mp hmem

/-- The totals of a report agree at every level with each other and with the calls that made it, and
    do not depend on the order of the calls. -/
theorem totals_agree (start_time : BitVec w) (calls : List (AddCall w)) (hfits : Fits calls) :
    (TrafficInfo.addAll start_time calls).Agrees start_time calls ∧
      ∀ calls', calls.Perm calls' → (TrafficInfo.addAll start_time calls).SameTotals
        (TrafficInfo.addAll start_time calls') :=
  ⟨TrafficInfo.addAll_agrees start_time hfits, fun _ h => TrafficInfo.addAll_perm start_time h⟩

/-- Two networks, one of them with two devices and a time that goes back. -/
def Sample.calls : List (AddCall 32) :=
  [⟨⟨1⟩, ⟨7⟩, 60, ⟨100, 10⟩⟩, ⟨⟨2⟩, ⟨7⟩, 120, ⟨5, 0⟩⟩, ⟨⟨1⟩, ⟨8⟩, 90, ⟨1, 1⟩⟩, ⟨⟨1⟩, ⟨7⟩, 180, ⟨20, 2⟩⟩]

theorem Sample.calls_fit : Fits Sample.calls := by
  rintro (_ | _) <;> decide

theorem totals_agree_sample :
    (TrafficInfo.addAll 0 Sample.calls).traffic = ⟨126, 13⟩ ∧
      OrdMap.total (fun nt => Direction.rx.bytes nt.traffic)
        (TrafficInfo.addAll 0 Sample.calls).networks = 126 := by
  have htraffic : (TrafficInfo.addAll 0 Sample.calls).traffic = ⟨126, 13⟩ := by decide
  refine ⟨htraffic, ?_⟩
  rw [← (totals_agree 0 Sample.calls Sample.calls_fit).1.total .rx, htraffic]
  rfl

/-! ### The times of a device -/

/-- The calls whose time is not given again later. -/
def lastTimes : List (AddCall w) → List (AddCall w)
  | [] => []
  | c :: calls => if c.time ∈ calls.map (·.time) then lastTimes calls else c :: lastTimes calls

/-- A time has the last traffic given for it. -/
theorem DeviceTraffic.get_times (calls : List (AddCall w)) (t : BitVec w) :
    (DeviceTraffic.addAll calls).times[t]? =
      (calls.filter fun c => decide (c.time = t)).getLast?.map (·.traffic) := by
  induction calls using List.reverseRecOn with
  | nil => rfl
  | append_singleton calls c ih =>
    have hstep : (DeviceTraffic.addAll (calls ++ [c])).times =
        (DeviceTraffic.addAll calls).times.insert c.time c.traffic := by
      rw [DeviceTraffic.addAll, List.foldl_append, ← DeviceTraffic.addAll]
      rfl
    rw [hstep, OrdMap.get_insert, List.filter_append, List.getLast?_append]
    by_cases ht : c.time = t
    · simp [ht]
    · simp [ht, ih]

theorem filter_lastTimes (t : BitVec w) : ∀ calls : List (AddCall w),
    (lastTimes calls).filter (fun c => decide (c.time = t)) =
      (calls.filter fun c => decide (c.time = t)).getLast?.toList
  | [] => rfl
  | c :: calls => by
      have ih := filter_lastTimes t calls
      rw [lastTimes]
      by_cases ht : c.time = t
      · subst ht
        split
        · next hagain =>
          obtain ⟨d, hd, hdt⟩ := List.mem_map.mp hagain
          have hne : calls.filter (fun e => decide (e.time = c.time)) ≠ [] :=
            List.ne_nil_of_mem (List.mem_filter.mpr ⟨hd, by simpa using hdt⟩)
          rw [ih, List.filter_cons_of_pos (by simp), List.getLast?_cons,
            List.getLast?_eq_some_getLast hne]
          rfl
        · next hlast =>
          have hnil : calls.filter (fun e => decide (e.time = c.time)) = [] := by
            rw [List.filter_eq_nil_iff]
            intro e he heq
            exact hlast (List.mem_map.mpr ⟨e, he, of_decide_eq_true heq⟩)
          rw [List.filter_cons_of_pos (by simp), List.filter_cons_of_pos (by simp), ih, hnil]
          rfl
      · rw [List.filter_cons_of_neg (by simpa using ht)]
        split
        · exact ih
        · rw [List.filter_cons_of_neg (by simpa using ht), ih]

/-- The times of a device add up to what was given last for each of them. -/
theorem DeviceTraffic.total_times (dir : Direction) (calls : List (AddCall w)) :
    OrdMap.total dir.bytes (DeviceTraffic.addAll calls).times = given dir (lastTimes calls) := by
  have hsums : ∀ t, (DeviceTraffic.addAll calls).times[t]?.map dir.bytes =
      if (lastTimes calls).filter (fun c => decide (c.time = t)) = [] then none
      else some (given dir ((lastTimes calls).filter fun c => decide (c.time = t))) := by
    intro t
    rw [DeviceTraffic.get_times, filter_lastTimes]
    cases (calls.filter fun c => decide (c.time = t)).getLast? <;> simp [given]
  exact OrdMap.total_eq_sum hsums

theorem given_cons (dir : Direction) (c : AddCall w) (calls : List (AddCall w)) :
    given dir (c :: calls) = dir.bytes c.traffic + given dir calls := by
  rw [given, List.map_cons, List.sum_cons, ← given]

theorem given_lastTimes_le (dir : Direction) : ∀ calls : List (AddCall w),
    given dir (lastTimes calls) ≤ given dir calls
  | [] => le_rfl
  | c :: calls => by
      have ih := given_lastTimes_le dir calls
      rw [lastTimes, given_cons]
      split
      · omega
      · rw [given_cons]
        omega

/-- Nothing is lost exactly when what is overwritten was no traffic. -/
theorem given_lastTimes_eq_iff (dir : Direction) : ∀ calls : List (AddCall w),
    given dir (lastTimes calls) = given dir calls ↔
      calls.Pairwise fun a b => a.time = b.time → dir.bytes a.traffic = 0
  | [] => by simp [lastTimes]
  | c :: calls => by
      have ih := given_lastTimes_eq_iff dir calls
      have hle := given_lastTimes_le dir calls
      rw [lastTimes, given_cons, List.pairwise_cons, ← ih]
      split
      · next hagain =>
        obtain ⟨d, hd, hdt⟩ := List.mem_map.mp hagain
        constructor
        · intro h
          exact ⟨fun _ _ _ => by omega, by omega⟩
        · rintro ⟨hzero, heq⟩
          rw [hzero d hd hdt.symm, heq, Nat.zero_add]
      · next hlast =>
        rw [given_cons]
        constructor
        · intro h
          exact ⟨fun d hd hdt => absurd (List.mem_map.mpr ⟨d, hd, hdt.symm⟩) hlast, by omega⟩
        · rintro ⟨_, heq⟩
          rw [heq]

theorem Traffic.eq_default {t : Traffic w} (h : ∀ dir : Direction, dir.bytes t = 0) :
    t = Traffic.default := by
  obtain ⟨rx, tx⟩ := t
  have hrx : rx = 0 := BitVec.eq_of_toNat_eq ((h .rx).trans (by simp))
  have htx : tx = 0 := BitVec.eq_of_toNat_eq ((h .tx).trans (by simp))
  rw [hrx, htx]
  rfl

/-- The later of two calls writes the slot the earlier one wrote. -/
def AddCall.Overwrites (later earlier : AddCall w) : Prop :=
  earlier.network = later.network ∧ earlier.device = later.device ∧ earlier.time = later.time

instance (later earlier : AddCall w) : Decidable (later.Overwrites earlier) :=
  inferInstanceAs (Decidable (_ ∧ _))

/-- A device's times add up to its total exactly when its calls overwrite nothing but zeros. -/
theorem DeviceTraffic.adds_up_iff {calls : List (AddCall w)} (h : Fits calls) (dir : Direction) :
    dir.bytes (DeviceTraffic.addAll calls).traffic =
        OrdMap.total dir.bytes (DeviceTraffic.addAll calls).times ↔
      calls.Pairwise fun a b => a.time = b.time → dir.bytes a.traffic = 0 := by
  rw [DeviceTraffic.bytes_addAll h, DeviceTraffic.total_times, eq_comm, given_lastTimes_eq_iff]

/-- The times of every device add up to the device's total exactly when every call that is followed
    by another one for the same network, device and time gave no traffic. -/
theorem times_add_up_iff (start_time : BitVec w) (calls : List (AddCall w)) (hfits : Fits calls) :
    (∀ (k : Pubkey) nt, (TrafficInfo.addAll start_time calls).networks[k]? = some nt →
      ∀ (x : Pubkey) dt, nt.devices[x]? = some dt → ∀ dir : Direction,
        dir.bytes dt.traffic = OrdMap.total dir.bytes dt.times) ↔
      calls.Pairwise fun a b => b.Overwrites a → a.traffic = Traffic.default := by
  constructor
  · intro h
    rw [List.pairwise_iff_forall_sublist]
    rintro a b hab ⟨hk, hx, ht⟩
    have hsub : [a, b].Sublist (callsBy a.device (callsOf a.network calls)) := by
      have hown := hab.filter fun c => decide (c.network = a.network ∧ c.device = a.device)
      rw [callsBy_callsOf]
      simpa [← hk, ← hx] using hown
    have hcalls : callsBy a.device (callsOf a.network calls) ≠ [] :=
      List.ne_nil_of_mem (hsub.subset List.mem_cons_self)
    have hnet : callsOf a.network calls ≠ [] := by
      intro hnil
      rw [hnil] at hcalls
      exact hcalls rfl
    refine Traffic.eq_default fun dir => ?_
    have hup := h a.network _ (by rw [TrafficInfo.get_networks, if_neg hnet]) a.device _
      (by rw [NetworkTraffic.get_devices, if_neg hcalls]) dir
    rw [DeviceTraffic.adds_up_iff ((hfits.callsOf _).callsBy _),
      List.pairwise_iff_forall_sublist] at hup
    exact hup hsub ht
  · intro h k nt hnt x dt hdt dir
    rw [TrafficInfo.networks_some hnt] at hdt
    rw [NetworkTraffic.devices_some hdt, DeviceTraffic.adds_up_iff ((hfits.callsOf _).callsBy _),
      callsBy_callsOf]
    refine (h.filter _).imp_of_mem ?_
    intro a b ha hb hab ht
    obtain ⟨-, hak, hax⟩ : a ∈ calls ∧ a.network = k ∧ a.device = x := by simpa using ha
    obtain ⟨-, hbk, hbx⟩ : b ∈ calls ∧ b.network = k ∧ b.device = x := by simpa using hb
    rw [hab ⟨hak.trans hbk.symm, hax.trans hbx.symm, ht⟩, Direction.bytes_default]

theorem times_add_up_sample :
    ∃ nt dt, (TrafficInfo.addAll 0 Sample.calls).networks[(⟨1⟩ : Pubkey)]? = some nt ∧
      nt.devices[(⟨7⟩ : Pubkey)]? = some dt ∧ Direction.rx.bytes dt.traffic = 120 ∧
      OrdMap.total Direction.rx.bytes dt.times = 120 := by
  refine ⟨_, _, rfl, rfl, by decide, ?_⟩
  rw [← (times_add_up_iff 0 Sample.calls Sample.calls_fit).mpr (by decide) ⟨1⟩ _ rfl ⟨7⟩ _ rfl .rx]
  decide

/-- Two calls for one device in the same second. -/
def Sample.repeated : List (AddCall 32) :=
  [⟨⟨1⟩, ⟨7⟩, 60, ⟨7, 0⟩⟩, ⟨⟨1⟩, ⟨7⟩, 60, ⟨5, 0⟩⟩]

/-- The device's total is 12, its times add up to 5. -/
theorem times_lose_a_call :
    Fits Sample.repeated ∧
      ∃ nt dt, (TrafficInfo.addAll 0 Sample.repeated).networks[(⟨1⟩ : Pubkey)]? = some nt ∧
        nt.devices[(⟨7⟩ : Pubkey)]? = some dt ∧ Direction.rx.bytes dt.traffic = 12 ∧
        OrdMap.total Direction.rx.bytes dt.times = 5 := by
  refine ⟨?_, _, _, rfl, rfl, by decide, by decide⟩
  rintro (_ | _) <;> decide

end FractalGateway
