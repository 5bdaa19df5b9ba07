import FractalGateway.Net

/-! Traffic reports: bytes per device, per network and in total, accumulated over one time slice.

    Counters are `usize`, here `BitVec w` for a machine word of `w` bits, so that `+=` wraps as a
    release build does. -/

namespace FractalGateway
open Std

variable {w : ℕ}

/-- Received and sent bytes. -/
structure Traffic (w : ℕ) where
  rx : BitVec w
  tx : BitVec w
  deriving DecidableEq

/-- `Traffic::default`. -/
def Traffic.default : Traffic w := ⟨0, 0⟩

/-- The two counters of a peer. -/
inductive Direction where | rx | tx
  deriving DecidableEq

/-- The bytes of a traffic item. -/
def Direction.bytes : Direction → Traffic w → ℕ
  | .rx, t => t.rx.toNat
  | .tx, t => t.tx.toNat

@[simp] theorem Direction.bytes_default (dir : Direction) :
    dir.bytes (Traffic.default : Traffic w) = 0 := by
  cases dir <;> simp [Direction.bytes, Traffic.default]

/-- `AddAssign for Traffic`. -/
def Traffic.add_assign (self other : Traffic w) : Traffic w := ⟨self.rx + other.rx, self.tx + other.tx⟩

/-- Traffic of one device, in total and by time. -/
structure DeviceTraffic (w : ℕ) where
  traffic : Traffic w
  times : ExtTreeMap (BitVec w) (Traffic w)

/-- `DeviceTraffic::default`. -/
def DeviceTraffic.default : DeviceTraffic w := ⟨Traffic.default, ∅⟩

/-- `DeviceTraffic::add`: the total grows, the slot of this time is overwritten. -/
def DeviceTraffic.add (self : DeviceTraffic w) (time : BitVec w) (traffic : Traffic w) :
    DeviceTraffic w :=
  { traffic := self.traffic.add_assign traffic, times := self.times.insert time traffic }

/-- Traffic of one network, in total and by device. -/
structure NetworkTraffic (w : ℕ) where
  traffic : Traffic w
  devices : ExtTreeMap Pubkey (DeviceTraffic w)

/-- `NetworkTraffic::default`. -/
def NetworkTraffic.default : NetworkTraffic w := ⟨Traffic.default, ∅⟩

/-- `NetworkTraffic::add`. -/
def NetworkTraffic.add (self : NetworkTraffic w) (device : Pubkey) (time : BitVec w)
    (traffic : Traffic w) : NetworkTraffic w :=
  { traffic := self.traffic.add_assign traffic
    devices := OrdMap.upsert self.devices device DeviceTraffic.default (·.add time traffic) }

/-- One report: the time slice, the total and the networks. -/
structure TrafficInfo (w : ℕ) where
  start_time : BitVec w
  stop_time : BitVec w
  traffic : Traffic w
  networks : ExtTreeMap Pubkey (NetworkTraffic w)

/-- `TrafficInfo::new`. -/
def TrafficInfo.new (start_time : BitVec w) : TrafficInfo w :=
  { start_time, stop_time := start_time, traffic := Traffic.default, networks := ∅ }

/-- `TrafficInfo::add`. -/
def TrafficInfo.add (self : TrafficInfo w) (network device : Pubkey) (time : BitVec w)
    (traffic : Traffic w) : TrafficInfo w :=
  { self with
    traffic := self.traffic.add_assign traffic
    stop_time := if self.stop_time ≤ time then time else self.stop_time
    networks := OrdMap.upsert self.networks network NetworkTraffic.default
      (·.add device time traffic) }

/-- What a report holds for one device of one network: `networks[network].devices[device].traffic`,
    nothing being no traffic. -/
def TrafficInfo.device (self : TrafficInfo w) (network device : Pubkey) : Traffic w :=
  ((self.networks[network]?.bind (·.devices[device]?)).map (·.traffic)).getD Traffic.default

@[simp] theorem TrafficInfo.networks_new (t : BitVec w) : (TrafficInfo.new t).networks = ∅ := rfl

@[simp] theorem TrafficInfo.device_new (t : BitVec w) (network device : Pubkey) :
    (TrafficInfo.new t).device network device = Traffic.default := by
  simp [TrafficInfo.device]

/-- A report's entry for another network is not touched by an addition. -/
theorem TrafficInfo.networks_add_of_ne (self : TrafficInfo w) {network k : Pubkey}
    (h : network ≠ k) (device : Pubkey) (time : BitVec w) (traffic : Traffic w) :
    (self.add network device time traffic).networks[k]? = self.networks[k]? := by
  simp [TrafficInfo.add, h]

/-- One addition, seen at every device. -/
theorem TrafficInfo.device_add (self : TrafficInfo w) (network device : Pubkey) (time : BitVec w)
    (traffic : Traffic w) (k x : Pubkey) :
    (self.add network device time traffic).device k x =
      if network = k ∧ device = x then (self.device k x).add_assign traffic
      else self.device k x := by
  by_cases hk : network = k
  · subst hk
    by_cases hx : device = x
    · subst hx
      cases hn : self.networks[network]? with
      | none => simp [TrafficInfo.device, TrafficInfo.add, hn, NetworkTraffic.add,
          NetworkTraffic.default, DeviceTraffic.add, DeviceTraffic.default]
      | some nt =>
        cases hd : nt.devices[device]? <;>
          simp [TrafficInfo.device, TrafficInfo.add, hn, NetworkTraffic.add, hd,
            DeviceTraffic.add, DeviceTraffic.default]
    · cases hn : self.networks[network]? <;>
        simp [TrafficInfo.device, TrafficInfo.add, hn, NetworkTraffic.add, NetworkTraffic.default, hx]
  · simp [TrafficInfo.device, TrafficInfo.add, hk]

@[simp] theorem Traffic.default_add_assign (t : Traffic w) : Traffic.default.add_assign t = t := by
  simp [Traffic.add_assign, Traffic.default]

end FractalGateway
