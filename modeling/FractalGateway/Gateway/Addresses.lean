import FractalGateway.Gateway.Effects
import FractalGateway.Gateway.Panics

/-! The numbers the gateway hands out: addresses on the bridge, ports for proxy targets, and the
    addresses it adds to an interface.

    A network's address on the bridge is its port counted from the base of the bridge network, and a
    target's port is its place counted from 2000. Both run over values that were not theirs to take:
    the bridge's own address and the two ends of its network, and what lies beyond the last port.
    `apply_addr` compares its list with the addresses there were when it began, so an address that it
    has added itself is added again if it is listed again. -/

namespace FractalGateway
open Std Exec

/-! ### The bridge segment -/

/-- `Ipv4Net::broadcast`: the address with its host bits set. -/
def Ipv4Net.broadcast (net : Ipv4Net) : BitVec 32 :=
  net.addr ||| BitVec.allOnes 32 >>> net.prefix_len

/-- `Ipv4Net::contains` of an address. -/
def Ipv4Net.contains (net : Ipv4Net) (addr : BitVec 32) : Prop :=
  net.network ≤ addr ∧ addr ≤ net.broadcast

/-- The addresses on the bridge segment: the bridge's own, and one for every network. -/
def bridgeSegment (config : GatewayConfig) : List (BitVec 32) :=
  BRIDGE_NET.addr :: config.toList.map fun e => e.2.veth_ipv4net.addr

/-- No two of the addresses clash, and all of them are host addresses of the bridge network. -/
structure CollisionFree (config : GatewayConfig) : Prop where
  distinct : (bridgeSegment config).Nodup
  inside : ∀ addr ∈ bridgeSegment config, BRIDGE_NET.contains addr
  not_network : ∀ addr ∈ bridgeSegment config, addr ≠ BRIDGE_NET.network
  not_broadcast : ∀ addr ∈ bridgeSegment config, addr ≠ BRIDGE_NET.broadcast

theorem vethNet_inside (port : UInt16) : BRIDGE_NET.contains (vethNet port).addr := by
  have hbase : BRIDGE_NET.network.toNat = 172 * 2 ^ 24 + 99 * 2 ^ 16 := by decide
  have hlast : BRIDGE_NET.broadcast.toNat = 172 * 2 ^ 24 + 99 * 2 ^ 16 + 65535 := by decide
  have hport := port.toNat_lt
  rw [Ipv4Net.contains, BitVec.le_def, BitVec.le_def, vethNet_toNat, hbase, hlast]
  omega

/-- In a configuration whose networks carry their ports, the networks' addresses are those of the
    ports there are. -/
theorem GatewayConfig.Keyed.segment_eq {config : GatewayConfig} (h : config.Keyed) :
    bridgeSegment config = BRIDGE_NET.addr :: config.keys.map fun port => (vethNet port).addr := by
  rw [bridgeSegment, ← ExtTreeMap.map_fst_toList_eq_keys, List.map_map]
  congr 1
  refine List.map_congr_left fun e he => ?_
  rw [NetworkState.veth_ipv4net, h e.1 e.2 ((OrdMap.mem_toList_iff config e.1 e.2).mp he)]
  rfl

/-- The addresses on the bridge are free of collisions exactly when no network has port 0 (the base
    of the bridge network), port 1 (the bridge) or port 65535 (the broadcast address). -/
theorem bridge_collision_free_iff (config : GatewayConfig) (hkeyed : config.Keyed) :
    CollisionFree config ↔ 0 ∉ config ∧ 1 ∉ config ∧ 65535 ∉ config := by
  have hbase : (vethNet 0).addr = BRIDGE_NET.network := by decide
  have hbridge : (vethNet 1).addr = BRIDGE_NET.addr := by decide
  have hlast : (vethNet 65535).addr = BRIDGE_NET.broadcast := by decide
  -- an address of a port is among the networks' exactly when the port is
  have hveth : ∀ {port : UInt16} {addr : BitVec 32}, (vethNet port).addr = addr →
      (addr ∈ config.keys.map (fun port => (vethNet port).addr) ↔ port ∈ config) := by
    rintro port _ rfl
    rw [List.mem_map_of_injective fun _ _ h => vethNet_injective h, ExtTreeMap.mem_keys]
  have hnodup : (config.keys.map fun port => (vethNet port).addr).Nodup :=
    config.nodup_keys.map fun _ _ h => vethNet_injective h
  constructor
  · rintro ⟨hdistinct, _, hnetwork, hbroadcast⟩
    rw [hkeyed.segment_eq] at hdistinct hnetwork hbroadcast
    refine ⟨fun hp => ?_, fun hp => ?_, fun hp => ?_⟩
    · exact hnetwork _ (List.mem_cons_of_mem _ ((hveth hbase).mpr hp)) rfl
    · exact (List.nodup_cons.mp hdistinct).1 ((hveth hbridge).mpr hp)
    · exact hbroadcast _ (List.mem_cons_of_mem _ ((hveth hlast).mpr hp)) rfl
  · rintro ⟨h0, h1, hmax⟩
    constructor <;> rw [hkeyed.segment_eq]
    · exact List.nodup_cons.mpr ⟨fun hm => h1 ((hveth hbridge).mp hm), hnodup⟩
    · intro addr hm
      rcases List.mem_cons.mp hm with rfl | hm
      · exact hbridge ▸ vethNet_inside 1
      · obtain ⟨port, _, rfl⟩ := List.mem_map.mp hm
        exact vethNet_inside port
    · rintro addr hm rfl
      rcases List.mem_cons.mp hm with heq | hm
      · exact absurd heq (by decide)
      · exact h0 ((hveth hbase).mp hm)
    · rintro addr hm rfl
      rcases List.mem_cons.mp hm with heq | hm
      · exact absurd heq (by decide)
      · exact hmax ((hveth hlast).mp hm)

theorem bridge_collision_free_bench : CollisionFree (Bench.config 5000 (Bench.network 5000)) := by
  refine (bridge_collision_free_iff _ ?_).mpr (by decide)
  intro port network h
  obtain ⟨rfl, rfl⟩ := Bench.get_config h
  rfl

/-- The network on port 1 gets the address of the bridge. -/
theorem bridge_collides_with_port_one :
    (Bench.config 1 (Bench.network 1)).Keyed ∧
      ¬(bridgeSegment (Bench.config 1 (Bench.network 1))).Nodup := by
  refine ⟨?_, by decide⟩
  intro port network h
  obtain ⟨rfl, rfl⟩ := Bench.get_config h
  rfl

/-! ### Ports for proxy targets -/

/-- `port_mappings` returns every pair of a URL and a target once, in the order of the map and its
    lists, with ports that are pairwise different and start at 2000. -/
def NetworkState.PortsUnique (build : Build) (network : NetworkState) : Prop :=
  ∃ mappings, network.port_mappings build = .ok mappings ∧
    mappings.map (fun m => (m.1, m.2.2)) =
      (network.proxy.toList.flatMap fun e => e.2.map fun target => (e.1, target)) ∧
    (mappings.map fun m => m.2.1).Nodup ∧ ∀ m ∈ mappings, PORT_MAPPING_START ≤ m.2.1

/-- The 63537th target has no port of its own: an addition that wraps gives it port 0. -/
theorem mappingPort_beyond {build : Build} {port : UInt16}
    (h : mappingPort build 63536 = .ok port) : port = 0 := by
  cases build with
  | debug =>
    rw [mappingPort, if_pos (by decide)] at h
    cases h
  | release =>
    rw [mappingPort_release] at h
    exact (Except.ok.inj h).symm

/-- With more targets than ports, they are not given out as they should be. -/
theorem NetworkState.not_portsUnique {build : Build} {network : NetworkState}
    (h : 63536 < network.targets.length) : ¬network.PortsUnique build := by
  rintro ⟨mappings, hok, _, _, hstart⟩
  obtain ⟨hlen, hget⟩ := List.forall₂_iff_get.mp (mapM_ok_iff.mp hok)
  rw [List.length_zipIdx] at hlen
  have hbeyond := hget 63536 (by rw [List.length_zipIdx]; exact h) (by omega)
  obtain ⟨port, hport, hm⟩ := except_bind_ok_iff.mp hbeyond
  have hle := hstart _ (List.get_mem mappings ⟨63536, by omega⟩)
  rw [← Except.ok.inj hm] at hle
  simp only [List.get_eq_getElem, List.getElem_zipIdx, Nat.zero_add] at hport
  rw [mappingPort_beyond hport] at hle
  exact absurd (show PORT_MAPPING_START ≤ (0 : UInt16) from hle) (by decide)

/-- The contributions are the targets in order. -/
theorem NetworkState.contributions_targets (network : NetworkState) :
    network.contributions.map (fun c => (c.url, c.target)) = network.targets := by
  rw [network.targets_eq, NetworkState.contributions, List.map_map]
  conv_rhs => rw [← List.zipIdx_map_fst 0 network.entries, List.map_map]
  rfl

theorem NetworkState.contributions_start {network : NetworkState}
    (hlen : network.targets.length ≤ 63536) {c : Contribution} (hc : c ∈ network.contributions) :
    PORT_MAPPING_START ≤ c.server.port := by
  obtain ⟨e, he, rfl⟩ := List.mem_map.mp hc
  have hlt := List.snd_lt_of_mem_zipIdx he
  have hentries := NetworkState.entries_length hlen
  have hstart : PORT_MAPPING_START.toNat = 2000 := rfl
  rw [network.server_port, UInt16.le_iff_toNat_le, UInt16.toNat_add, UInt16.toNat_ofNat', hstart]
  omega

/-- The ports given out to a network's targets are unique and in range exactly when there are no more
    than 63536 targets. -/
theorem ports_unique_iff (build : Build) (network : NetworkState) :
    network.PortsUnique build ↔ network.targets.length ≤ 63536 := by
  constructor
  · intro h
    by_contra hlen
    exact NetworkState.not_portsUnique (Nat.lt_of_not_le hlen) h
  · intro hlen
    refine ⟨_, NetworkState.port_mappings_eq hlen build, ?_, ?_, ?_⟩
    · rw [List.map_map]
      exact network.contributions_targets
    · rw [List.map_map]
      exact NetworkState.contributions_nodup hlen
    · intro m hm
      obtain ⟨c, hc, rfl⟩ := List.mem_map.mp hm
      exact NetworkState.contributions_start hlen hc

/-- One more target than there are ports. -/
def Bench.crowded : NetworkState :=
  { Bench.network 5000 with
    proxy := (∅ : ExtTreeMap Url (List SocketAddr)).insert Bench.url
      (List.replicate 63537 (.v4 (Ipv4Addr.new 10 0 0 2) 8080)) }

theorem ports_run_out : ¬Bench.crowded.PortsUnique .release ∧ ¬Bench.crowded.PortsUnique .debug := by
  have hlist : Bench.crowded.proxy.toList =
      [(Bench.url, List.replicate 63537 (.v4 (Ipv4Addr.new 10 0 0 2) 8080))] := rfl
  have hlen : Bench.crowded.targets.length = 63537 := by
    rw [NetworkState.targets, hlist, List.flatMap_singleton, List.length_map, List.length_replicate]
  exact ⟨NetworkState.not_portsUnique (by omega), NetworkState.not_portsUnique (by omega)⟩

/-! ### The addresses of an interface -/

section
variable {os : Os} {netns : Option String} {interface : String}

variable (os netns interface) in
/-- `apply_addr` comes to the command that adds `addr` with the machine at `u`: the address was not
    among those listed at the start, and what is before it in the target is done. -/
def IssuesAdd (target : List IpNet) (m : Machine) (addr : IpNet) (u : Machine) : Prop :=
  ∃ current m₁ before after, (addr_list os netns interface).run m = .ok current m₁ ∧
    target = before ++ addr :: after ∧ addr ∉ current ∧
    (forM before fun a => skipIf (a ∈ current) (addr_add os netns interface a)).run m₁ = .ok () u

/-- The command is the next one of the run. -/
theorem IssuesAdd.run {target : List IpNet} {m u : Machine} {addr : IpNet}
    (h : IssuesAdd os netns interface target m addr u) : ∃ rest : EStateM Fail Machine Unit,
      (apply_addr os netns interface target).run m =
        (addr_add os netns interface addr >>= fun _ => rest).run u := by
  obtain ⟨current, m₁, before, after, hlist, rfl, hnot, hbefore⟩ := h
  refine ⟨forM after fun a => skipIf (a ∈ current) (addr_add os netns interface a), ?_⟩
  rw [apply_addr, bind_of_ok hlist, List.forM_append, bind_of_ok hbefore, List.forM_cons, skipIf,
    if_neg hnot]

theorem addr_list_ok {m m₁ : Machine} {current : List IpNet} {i : Iface}
    (hi : m.sys.iface netns interface = some i)
    (h : (addr_list os netns interface).run m = .ok current m₁) :
    current = i.addrs ∧ m₁.sys = m.sys := by
  obtain ⟨j, hj, hact⟩ := onIface_ok h
  obtain rfl : i = j := Option.some.inj (hi.symm.trans hj)
  obtain ⟨hcurrent, hsys⟩ := Prod.mk.inj (Option.some.inj hact)
  exact ⟨hcurrent.symm, hsys.symm⟩

theorem missing_append (current a b : List IpNet) :
    missing current (a ++ b) = missing current a ++ missing current b := List.filter_append ..

/-- A command on an interface that is there, on a machine that lets it through. -/
theorem onIface_run {α : Type} {act : Iface → System → Option (α × System)} {m : Machine} {i : Iface}
    {a : α} {sys : System} (hos : os.fails m.steps = false)
    (hi : m.sys.iface netns interface = some i) (hact : act i m.sys = some (a, sys)) :
    (onIface os netns interface act).run m = .ok a ⟨sys, m.steps + 1⟩ := by
  simp [onIface, command, EStateM.run, hos, hi, hact]

/-- Where nothing else fails, the loop fails at an address that is there already and nowhere else. -/
theorem addrs_loop_returns {n : ℕ} (hos : ∀ k, n ≤ k → os.fails k = false) (current : List IpNet) :
    ∀ {target : List IpNet} {m : Machine} {i : Iface}, n ≤ m.steps →
      m.sys.iface netns interface = some i → (missing current target).Nodup →
      (∀ a ∈ missing current target, a ∉ i.addrs) →
      returned ((forM target fun a => skipIf (a ∈ current) (addr_add os netns interface a)).run m) =
        true
  | [], _, _, _, _, _, _ => rfl
  | addr :: target, m, i, hn, hi, hnd, hnew => by
      rw [List.forM_cons]
      by_cases hin : addr ∈ current
      · rw [missing_cons_of_mem hin] at hnd hnew
        rw [skipIf, if_pos hin]
        exact addrs_loop_returns hos current hn hi hnd hnew
      · rw [missing_cons_of_not_mem hin] at hnd hnew
        obtain ⟨hfresh, hnew⟩ := List.forall_mem_cons.mp hnew
        obtain ⟨hnot, hnd⟩ := List.nodup_cons.mp hnd
        have hadd : (addr_add os netns interface addr).run m =
            .ok () ⟨m.sys.alter (Iface.withAddrs [addr]) netns interface, m.steps + 1⟩ :=
          onIface_run (hos _ hn) hi (if_neg hfresh)
        have hi' : (m.sys.alter (Iface.withAddrs [addr]) netns interface).iface netns interface =
            some (i.withAddrs [addr]) := by
          rw [System.iface_alter, hi]
          rfl
        rw [skipIf, if_neg hin, bind_of_ok hadd]
        refine addrs_loop_returns hos current (Nat.le_succ_of_le hn) hi' hnd fun a ha => ?_
        rw [Iface.withAddrs, List.mem_append, List.mem_singleton]
        rintro (h | rfl)
        · exact hnew a ha h
        · exact hnot ha

end

/-- What address reconciliation promises for the addresses an interface has: whatever the machine
    does, an address is added only while it is not on the interface; and where no command fails that
    can be carried out, `apply_addr` succeeds and the interface then has its addresses and the
    target's. -/
structure Reconciles (netns : Option String) (interface : String) (target : List IpNet) (m : Machine)
    (i : Iface) : Prop where
  absent : ∀ os addr u, IssuesAdd os netns interface target m addr u →
    ∀ j, u.sys.iface netns interface = some j → addr ∉ j.addrs
  reaches : ∀ os : Os, (∀ k, m.steps ≤ k → os.fails k = false) →
    ∃ m' j, (apply_addr os netns interface target).run m = .ok () m' ∧
      m'.sys.iface netns interface = some j ∧
      ∀ addr, addr ∈ j.addrs ↔ addr ∈ i.addrs ∨ addr ∈ target

/-- Reconciliation keeps its promise exactly when the target lists no address twice that the
    interface does not have. -/
theorem apply_addr_reconciles_iff (netns : Option String) (interface : String)
    (target : List IpNet) (m : Machine) (i : Iface) (hi : m.sys.iface netns interface = some i) :
    Reconciles netns interface target m i ↔ (missing i.addrs target).Nodup := by
  constructor
  · intro h
    obtain ⟨m', _, hrun, _⟩ := h.reaches Bench.os fun _ _ => rfl
    obtain ⟨j, hj, hnd, _⟩ := apply_addr_ok hrun
    obtain rfl : i = j := Option.some.inj (hi.symm.trans hj)
    exact hnd
  · intro hnd
    constructor
    · rintro os addr u ⟨current, m₁, before, after, hlist, rfl, hnot, hbefore⟩ j hj
      obtain ⟨rfl, hsys⟩ := addr_list_ok hi hlist
      rw [← hsys] at hi
      obtain ⟨added, _, hfinal, hok⟩ := addrs_loop os i.addrs before hi
      rw [hbefore] at hfinal hok
      obtain ⟨rfl, _, _⟩ := hok rfl
      -- the interface has what it had and what was missing of the addresses before this one
      have hu : u.sys.iface netns interface = some (i.withAddrs (missing i.addrs before)) := by
        rw [show u.sys = _ from hfinal, System.iface_alter, hi]
        rfl
      obtain rfl := Option.some.inj (hj.symm.trans hu)
      rw [missing_append, missing_cons_of_not_mem hnot, List.nodup_append] at hnd
      rw [Iface.withAddrs, List.mem_append]
      rintro (h | h)
      · exact hnot h
      · exact hnd.2.2 addr h addr List.mem_cons_self rfl
    · intro os hos
      have hlist : (addr_list os netns interface).run m = .ok i.addrs ⟨m.sys, m.steps + 1⟩ :=
        onIface_run (hos _ le_rfl) hi rfl
      have hret : returned ((apply_addr os netns interface target).run m) = true := by
        rw [apply_addr, bind_of_ok hlist]
        refine addrs_loop_returns hos i.addrs (Nat.le_succ _) hi hnd fun a ha => ?_
        exact of_decide_eq_true (List.mem_filter.mp ha).2
      have hrun := ok_of_returned hret
      obtain ⟨j, hj, _, hsys⟩ := apply_addr_ok hrun
      obtain rfl : i = j := Option.some.inj (hi.symm.trans hj)
      refine ⟨_, i.withAddrs (missing i.addrs target), hrun, ?_, fun addr => ?_⟩
      · rw [hsys, System.iface_alter, hi]
        rfl
      · rw [Iface.withAddrs, List.mem_append, missing, List.mem_filter, decide_eq_true_eq]
        tauto

/-- An interface with one address. -/
def Bench.addressed : Iface := { Iface.new 1500 with addrs := [⟨.v4 (Ipv4Addr.new 10 0 0 1), 24⟩] }

/-- A machine with that interface as its bridge. -/
def Bench.bridged : Machine :=
  { Bench.world.machine with
    sys := { Bench.world.sys with
      bridge := (∅ : ExtTreeMap String Iface).insert BRIDGE_INTERFACE Bench.addressed } }

/-- The address the interface has may be listed twice. -/
theorem apply_addr_reconciles_bench :
    Reconciles none BRIDGE_INTERFACE [⟨.v4 (Ipv4Addr.new 10 0 0 1), 24⟩,
      ⟨.v4 (Ipv4Addr.new 10 0 0 1), 24⟩, ⟨.v4 (Ipv4Addr.new 10 0 0 2), 24⟩] Bench.bridged
      Bench.addressed :=
  (apply_addr_reconciles_iff none BRIDGE_INTERFACE _ Bench.bridged Bench.addressed (by decide)).mpr
    (by decide)

/-- An address that is listed twice is added twice, and the second time fails. -/
theorem apply_addr_adds_twice :
    returned ((apply_addr Bench.os none BRIDGE_INTERFACE [⟨.v4 (Ipv4Addr.new 10 0 0 2), 24⟩,
        ⟨.v4 (Ipv4Addr.new 10 0 0 2), 24⟩]).run Bench.bridged) = false ∧
      ¬Reconciles none BRIDGE_INTERFACE [⟨.v4 (Ipv4Addr.new 10 0 0 2), 24⟩,
        ⟨.v4 (Ipv4Addr.new 10 0 0 2), 24⟩] Bench.bridged Bench.addressed := by
  have hfails : returned ((apply_addr Bench.os none BRIDGE_INTERFACE
      [⟨.v4 (Ipv4Addr.new 10 0 0 2), 24⟩, ⟨.v4 (Ipv4Addr.new 10 0 0 2), 24⟩]).run Bench.bridged) =
      false := by decide +kernel
  refine ⟨hfails, fun h => ?_⟩
  obtain ⟨m', _, hrun, _⟩ := h.reaches Bench.os fun _ _ => rfl
  rw [hrun] at hfails
  cases hfails

end FractalGateway
