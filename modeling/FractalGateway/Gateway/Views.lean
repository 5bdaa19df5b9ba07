import FractalGateway.Gateway.Apply

/-! What can be seen of a network on the machine, and what a change to an interface does to it.

    A port's view is everything the gateway sets up for the port, addresses apart: they are only
    ever added. The view a configuration asks for is `NetworkState.view`. `Local` says that at most
    one namespace and one link were touched, which keeps the views of all other ports, and changing
    addresses or bringing an interface up keeps the views of all ports. -/

namespace FractalGateway
open Std Exec

/-! ### Views -/

/-- A veth link's namespace and the master of its outer end. -/
def System.link (sys : System) (name : String) : Option (String × Option String) :=
  sys.veth[name]?.map fun v => (v.netns, v.outer.master)

/-- The end of a veth link in a namespace. -/
def System.inner (sys : System) (netns name : String) : Option Iface :=
  (sys.veth[name]?.filter fun v => decide (v.netns = netns)).map (·.inner)

/-- The WireGuard interface on a port. -/
def System.wgif (sys : System) (port : UInt16) : Option Iface :=
  sys.netns[portName NETNS_PREFIX port]?.bind (·.wireguard[portName WIREGUARD_PREFIX port]?)

/-- The WireGuard configuration file and interface, the veth link and the nat rules on a port. -/
@[ext] structure PortView where
  file : Option String
  mtu : Option ℕ
  running : Option String
  link : Option (String × Option String)
  nat : Option String
  deriving DecidableEq

def System.view (sys : System) (port : UInt16) : PortView where
  file := sys.netns_files (portName NETNS_PREFIX port) (confPath (portName WIREGUARD_PREFIX port))
  mtu := (sys.wgif port).bind (·.mtu)
  running := (sys.wgif port).bind (·.conf)
  link := sys.link (portName VETH_PREFIX port)
  nat := sys.netns[portName NETNS_PREFIX port]?.map fun ns => clean_iptables ns.nat

/-- The view a network's configuration asks for. -/
def NetworkState.view (deploy : Deployment) (network : NetworkState) (rules : PortConfig) :
    PortView where
  file := some (network.to_config deploy.keys)
  mtu := some network.mtu
  running := some (network.to_config deploy.keys)
  link := some (network.netns_name, some BRIDGE_INTERFACE)
  nat := some (clean_iptables rules.render)

/-- The machine shows a network on its port. -/
def Shows (deploy : Deployment) (network : NetworkState) (sys : System) : Prop :=
  ∃ rules, network.port_config deploy.build = .ok rules ∧
    sys.view network.listen_port = network.view deploy rules

/-! ### Frames -/

/-- At most one namespace and one link were touched. -/
structure Local (inside : Option String) (wire : String) (s s' : System) : Prop where
  netns : ∀ n, some n ≠ inside → s'.netns[n]? = s.netns[n]?
  files : ∀ n, some n ≠ inside → s'.netns_files n = s.netns_files n
  link : ∀ name, name ≠ wire → s'.link name = s.link name
  inner : ∀ n, some n ≠ inside → ∀ name, s'.inner n name = s.inner n name

instance (inside : Option String) (wire : String) : Std.Refl (Local inside wire) :=
  ⟨fun _ => ⟨fun _ _ => rfl, fun _ _ => rfl, fun _ _ => rfl, fun _ _ _ => rfl⟩⟩

instance (inside : Option String) (wire : String) : IsTrans System (Local inside wire) :=
  ⟨fun _ _ _ h h' => ⟨fun n hn => (h'.netns n hn).trans (h.netns n hn),
    fun n hn => (h'.files n hn).trans (h.files n hn),
    fun name hne => (h'.link name hne).trans (h.link name hne),
    fun n hn name => (h'.inner n hn name).trans (h.inner n hn name)⟩⟩

/-- What is local to one port is not seen on another. -/
theorem Local.view {port other : UInt16} {s s' : System}
    (h : Local (some (portName NETNS_PREFIX port)) (portName VETH_PREFIX port) s s')
    (hne : other ≠ port) : s'.view other = s.view other := by
  have hnetns := h.netns (portName NETNS_PREFIX other)
    fun heq => hne (portName_injective _ (Option.some.inj heq))
  have hfiles := h.files (portName NETNS_PREFIX other)
    fun heq => hne (portName_injective _ (Option.some.inj heq))
  have hlink := h.link (portName VETH_PREFIX other) fun heq => hne (portName_injective _ heq)
  simp only [System.view, System.wgif, hnetns, hfiles, hlink]

/-- Every view is as it was. -/
def SameViews (s s' : System) : Prop := ∀ port, s'.view port = s.view port

instance : Std.Refl SameViews := ⟨fun _ _ => rfl⟩
instance : IsTrans System SameViews := ⟨fun _ _ _ h h' port => (h' port).trans (h port)⟩

/-! ### Changing an interface -/

/-- A change of addresses and of the up flag only. -/
def Cosmetic (f : Iface → Iface) : Prop :=
  ∀ i, (f i).mtu = i.mtu ∧ (f i).conf = i.conf ∧ (f i).master = i.master

section
variable (sys : System) (f : Iface → Iface)

theorem System.alter_inner_link (netns name l : String) :
    (sys.alter f (some netns) name).link l = sys.link l := by
  simp only [System.alter, System.link, OrdMap.get_modify]
  split
  · cases sys.veth[l]? with
    | none => rfl
    | some v => by_cases hv : v.netns = netns <;> simp [hv]
  · rfl

theorem System.alter_outer_link (name l : String) :
    (sys.alter f none name).link l =
      if name = l then sys.veth[l]?.map fun v => (v.netns, (f v.outer).master) else sys.link l := by
  simp only [System.alter, System.link, OrdMap.get_modify]
  split
  · rw [Option.map_map]
    rfl
  · rfl

theorem System.alter_inner_wgif (netns name : String) (port : UInt16) :
    (sys.alter f (some netns) name).wgif port =
      if netns = portName NETNS_PREFIX port ∧ name = portName WIREGUARD_PREFIX port then
        (sys.wgif port).map f else sys.wgif port := by
  simp only [System.alter, System.wgif, OrdMap.get_modify]
  by_cases hn : netns = portName NETNS_PREFIX port
  · rw [if_pos hn]
    cases sys.netns[portName NETNS_PREFIX port]? with
    | none => simp
    | some ns => by_cases hw : name = portName WIREGUARD_PREFIX port <;> simp [hn, hw]
  · rw [if_neg hn, if_neg fun h => hn h.1]

/-- What a change leaves of an interface is left of the WireGuard interface on a port. -/
theorem System.alter_inner_wgif_bind {α : Type} (netns name : String) (port : UInt16)
    {g : Iface → Option α} (hg : ∀ i, g (f i) = g i) :
    ((sys.alter f (some netns) name).wgif port).bind g = (sys.wgif port).bind g := by
  rw [sys.alter_inner_wgif]
  split
  · cases sys.wgif port with
    | none => rfl
    | some i => exact hg i
  · rfl

theorem System.alter_nat (netns : Option String) (name : String) (port : UInt16) :
    ((sys.alter f netns name).view port).nat = (sys.view port).nat := by
  cases netns with
  | none => rfl
  | some netns =>
    simp only [System.view, System.alter, OrdMap.get_modify]
    split
    · rw [Option.map_map]
      rfl
    · rfl

theorem System.alter_inner_local (netns name wire : String) :
    Local (some netns) wire sys (sys.alter f (some netns) name) := by
  refine ⟨fun n hn => ?_, fun _ _ => rfl, fun l _ => sys.alter_inner_link f netns name l,
    fun n hn l => ?_⟩
  · simp only [System.alter, OrdMap.get_modify]
    rw [if_neg fun heq => hn (congrArg some heq.symm)]
  · simp only [System.alter, System.inner, OrdMap.get_modify]
    split
    · cases sys.veth[l]? with
      | none => rfl
      | some v =>
        by_cases hv : v.netns = netns
        · have hvn : netns ≠ n := fun heq => hn (congrArg some heq.symm)
          simp [hv, Option.filter, hvn]
        · simp [hv, Option.filter]
    · rfl

theorem System.alter_outer_local (inside : Option String) (name : String) :
    Local inside name sys (sys.alter f none name) := by
  refine ⟨fun _ _ => rfl, fun _ _ => rfl, fun l hl => ?_, fun n _ l => ?_⟩
  · rw [sys.alter_outer_link, if_neg (Ne.symm hl)]
  · simp only [System.alter, System.inner, OrdMap.get_modify]
    split
    · cases sys.veth[l]? with
      | none => rfl
      | some v => by_cases hv : v.netns = n <;> simp [hv, Option.filter]
    · rfl

/-- Addresses and the up flag are not in the view. -/
theorem System.alter_sameViews (hf : Cosmetic f) (netns : Option String) (name : String) :
    SameViews sys (sys.alter f netns name) := by
  intro port
  have hnat := sys.alter_nat f netns name port
  cases netns with
  | none =>
    have hlink : (sys.alter f none name).link (portName VETH_PREFIX port) =
        sys.link (portName VETH_PREFIX port) := by
      rw [sys.alter_outer_link]
      split
      · simp only [(hf _).2.2]
        rfl
      · rfl
    simp only [System.view] at hnat ⊢
    rw [hlink]
    rfl
  | some netns =>
    simp only [System.view, sys.alter_inner_link] at hnat ⊢
    rw [hnat, sys.alter_inner_wgif_bind f netns name port fun i => (hf i).1,
      sys.alter_inner_wgif_bind f netns name port fun i => (hf i).2.1]
    rfl

end

/-! ### Helpers that leave the views alone -/

section Helpers
variable {os : Os} {netns : Option String} {interface : String}

/-- `apply_addr` makes cosmetic changes to its interface. -/
theorem apply_addr_always {S : System → System → Prop} [Std.Refl S] [IsTrans System S]
    (h : ∀ sys f, Cosmetic f → S sys (sys.alter f netns interface)) (target : List IpNet) :
    Always (OnSys S) (apply_addr os netns interface target) := by
  refine Always.bind (onIface_always fun i sys a sys' hact => ?_) fun current =>
    Always.forM fun addr _ => Always.skipIf (onIface_always fun i sys a sys' hact => ?_)
  · cases hact
    exact Std.Refl.refl sys
  · split at hact
    · cases hact
    · cases hact
      exact h sys _ fun i => ⟨rfl, rfl, rfl⟩

theorem apply_interface_up_always {S : System → System → Prop} [Std.Refl S] [IsTrans System S]
    (h : ∀ sys f, Cosmetic f → S sys (sys.alter f netns interface)) :
    Always (OnSys S) (apply_interface_up os netns interface) := by
  refine Always.bind (onIface_always fun i sys a sys' hact => ?_) fun status =>
    Always.skipIf (onIface_always fun i sys a sys' hact => ?_)
  · cases hact
    exact Std.Refl.refl sys
  · cases hact
    exact h sys _ fun i => ⟨rfl, rfl, rfl⟩

theorem apply_link_master_always {S : System → System → Prop} [Std.Refl S] [IsTrans System S]
    (h : ∀ sys f, S sys (sys.alter f netns interface)) (master : String) :
    Always (OnSys S) (apply_link_master os netns interface master) := by
  refine Always.bind (onIface_always fun i sys a sys' hact => ?_) fun current =>
    Always.skipIf (Always.context _ (onIface_always fun i sys a sys' hact => ?_))
  · cases hact
    exact Std.Refl.refl sys
  · split at hact
    · cases hact
      exact h sys _
    · cases hact

/-- What always holds holds of a run that succeeds. -/
theorem always_ok {α : Type} {S : System → System → Prop} {x : EStateM Fail Machine α}
    (h : Always (OnSys S) x) {m m' : Machine} {a : α} (hok : x.run m = .ok a m') :
    S m.sys m'.sys :=
  h.of_ok hok

theorem apply_addr_sameViews {target : List IpNet} {m m' : Machine}
    (h : (apply_addr os netns interface target).run m = .ok () m') : SameViews m.sys m'.sys :=
  always_ok (apply_addr_always (fun sys f hf => sys.alter_sameViews f hf netns interface) target) h

theorem apply_interface_up_sameViews {m m' : Machine}
    (h : (apply_interface_up os netns interface).run m = .ok () m') : SameViews m.sys m'.sys :=
  always_ok (apply_interface_up_always fun sys f hf => sys.alter_sameViews f hf netns interface) h

/-- The bridge is outside every namespace, and no veth link. -/
theorem apply_bridge_local (addr : List IpNet) :
    Always (OnSys (Local none BRIDGE_INTERFACE)) (apply_bridge os addr) := by
  refine Always.bind (command_always fun k sys a sys' hact => ?_) fun present =>
    Always.bind (Always.skipIf (command_always fun k sys a sys' hact => ?_)) fun _ =>
      Always.bind (Always.context _ (apply_addr_always (fun sys f _ =>
        sys.alter_outer_local f none BRIDGE_INTERFACE) addr)) fun _ =>
          Always.context _ (apply_interface_up_always fun sys f _ =>
            sys.alter_outer_local f none BRIDGE_INTERFACE)
  · cases hact
    exact Std.Refl.refl sys
  · split at hact
    · cases hact
    · cases hact
      exact ⟨fun _ _ => rfl, fun _ _ => rfl, fun _ _ => rfl, fun _ _ _ => rfl⟩

end Helpers

end FractalGateway
