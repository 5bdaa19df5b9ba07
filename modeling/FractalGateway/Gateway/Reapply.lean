import FractalGateway.Lib.Lockstep
import FractalGateway.Gateway.Effects

/-! Applying a configuration a second time.

    Every command that changes the machine stands behind a guard, apart from the writes of the
    WireGuard and nginx configurations. `reapply` is `apply` with the guarded commands cut out: it
    looks, writes those files, and synchronises and reloads from them. What a successful `apply`
    leaves behind answers every guard (`Settled`), so that the next one runs as `reapply` does,
    command by command, and the files it writes are the ones that are there. -/

namespace FractalGateway
open Std Exec

/-! ### Names of interfaces -/

/-- In every namespace a name stands for one interface, as the kernel has it. -/
structure OneName (s : System) : Prop where
  root : ∀ name, name ∈ s.bridge → name ∉ s.veth
  inside : ∀ (n name : String) (ns : Netns) (v : Veth), s.netns[n]? = some ns →
    name ∈ ns.wireguard → s.veth[name]? = some v → v.netns ≠ n

section
variable {deploy : Deployment} {network : NetworkState} {s s' : System}

/-- Altering an interface leaves it where it is. -/
theorem OneName.alter (h : OneName s) (f : Iface → Iface) (netns : Option String) (name : String) :
    OneName (s.alter f netns name) := by
  have hveth : ∀ (k : String) (v : Veth), (s.alter f netns name).veth[k]? = some v →
      ∃ u, s.veth[k]? = some u ∧ u.netns = v.netns := by
    intro k v hv
    cases netns with
    | none =>
      simp only [System.alter, OrdMap.get_modify] at hv
      split at hv
      · obtain ⟨u, hu, rfl⟩ := Option.map_eq_some_iff.mp hv
        exact ⟨u, hu, rfl⟩
      · exact ⟨v, hv, rfl⟩
    | some n =>
      simp only [System.alter, OrdMap.get_modify] at hv
      split at hv
      · obtain ⟨u, hu, rfl⟩ := Option.map_eq_some_iff.mp hv
        refine ⟨u, hu, ?_⟩
        split <;> rfl
      · exact ⟨v, hv, rfl⟩
  refine ⟨fun k hk hin => ?_, fun n k ns v hns hk hv heq => ?_⟩
  · obtain ⟨v, hv⟩ := (OrdMap.mem_iff_get _ _).mp hin
    obtain ⟨u, hu, _⟩ := hveth k v hv
    refine h.root k ?_ ((OrdMap.mem_iff_get _ _).mpr ⟨u, hu⟩)
    cases netns with
    | none => exact ExtTreeMap.mem_modify.mp hk
    | some n => exact hk
  · obtain ⟨u, hu, hnetns⟩ := hveth k v hv
    cases netns with
    | none => exact h.inside n k ns u hns hk hu (hnetns.trans heq)
    | some n' =>
      simp only [System.alter, OrdMap.get_modify] at hns
      split at hns
      · obtain ⟨ns', hns', rfl⟩ := Option.map_eq_some_iff.mp hns
        exact h.inside n k ns' u hns' (ExtTreeMap.mem_modify.mp hk) hu (hnetns.trans heq)
      · exact h.inside n k ns u hns hk hu (hnetns.trans heq)

/-- Altering a WireGuard interface alters it alone. -/
theorem OneName.alter_wgif (h : OneName s) {port : UInt16} {i : Iface} {f : Iface → Iface}
    (hi : s.wgif port = some i) (hf : f i = i) :
    s.alter f (some (portName NETNS_PREFIX port)) (portName WIREGUARD_PREFIX port) = s := by
  obtain ⟨ns, hns, hi⟩ := Option.bind_eq_some_iff.mp hi
  have hmem := (OrdMap.mem_iff_get _ _).mpr ⟨i, hi⟩
  simp only [System.alter]
  rw [modify_of_fixed, modify_of_fixed]
  · intro v hv
    exact if_neg (h.inside _ _ ns v hns hmem hv)
  · intro ns' hns'
    obtain rfl := Option.some.inj (hns.symm.trans hns')
    rw [modify_of_fixed]
    intro j hj
    obtain rfl := Option.some.inj (hi.symm.trans hj)
    exact hf

/-- Writing a namespace whose new interfaces have new names. -/
theorem OneName.insert (h : OneName s) (n : String) (ns : Netns)
    (hnew : ∀ name ∈ ns.wireguard, ∀ v, s.veth[name]? = some v → v.netns ≠ n) :
    OneName { s with netns := s.netns.insert n ns } := by
  refine ⟨h.root, fun n' name ns' v hns hin hv heq => ?_⟩
  rw [OrdMap.get_insert] at hns
  split at hns
  · next hn =>
    cases hns
    exact hnew name hin v hv (heq.trans hn.symm)
  · exact h.inside n' name ns' v hns hin hv heq

theorem Change.oneName (hc : Change deploy network s s') (h : OneName s) : OneName s' := by
  cases hc with
  | netns => exact h.insert _ _ fun _ hin => absurd hin ExtTreeMap.not_mem_empty
  | wireguard hfree hns =>
    refine h.insert _ _ fun name hin v hv heq => ?_
    rcases (OrdMap.mem_insert _ _ _ _).mp hin with rfl | hin
    · simp [System.iface, hv, heq, Option.filter] at hfree
    · exact h.inside _ name _ v hns hin hv heq
  | inner | outer | addrs => exact h.alter _ _ _
  | file => exact ⟨h.root, h.inside⟩
  | veth hin hroot hinner =>
    refine ⟨fun name hbridge hveth => ?_, fun n name ns v hns hw hv heq => ?_⟩
    · rcases (OrdMap.mem_insert _ _ _ _).mp hveth with rfl | hveth
      · obtain ⟨i, hi⟩ := (OrdMap.mem_iff_get _ _).mp hbridge
        simp [System.iface, hi] at hroot
      · exact h.root name hbridge hveth
    · rw [OrdMap.get_insert] at hv
      split at hv
      · next hname =>
        cases hv
        subst hname heq
        obtain ⟨i, hi⟩ := (OrdMap.mem_iff_get _ _).mp hw
        simp [System.iface, show s.netns[network.netns_name]? = some ns from hns, hi] at hinner
      · exact h.inside n name ns v hns hw hv heq
  | nat rules hns => exact h.insert _ _ fun name hin v hv => h.inside _ name _ v hns hin hv

/-- No request gives a name to two interfaces of a namespace. -/
theorem Touch.oneName {doomed : String → Prop} {networks : NetworkState → Prop}
    (ht : Touch deploy doomed networks s s') (h : OneName s) : OneName s' := by
  cases ht with
  | bridge hfree =>
    refine ⟨fun name hbridge hveth => ?_, h.inside⟩
    rcases (OrdMap.mem_insert _ _ _ _).mp hbridge with rfl | hbridge
    · obtain ⟨v, hv⟩ := (OrdMap.mem_iff_get _ _).mp hveth
      simp [System.iface, show s.veth[BRIDGE_INTERFACE]? = some v from hv] at hfree
    · exact h.root name hbridge hveth
  | outer => exact h.alter _ _ _
  | delete hdoomed hin =>
    refine ⟨fun name hbridge hveth => ?_, fun n name ns v hns hw hv => ?_⟩
    · obtain ⟨v, hv⟩ := (OrdMap.mem_iff_get _ _).mp hveth
      rw [OrdMap.get_filter] at hv
      exact h.root name hbridge
        ((OrdMap.mem_iff_get _ _).mpr ⟨v, (Option.filter_eq_some_iff.mp hv).1⟩)
    · rw [OrdMap.get_erase] at hns
      rw [OrdMap.get_filter] at hv
      split at hns
      · cases hns
      · exact h.inside n name ns v hns hw (Option.filter_eq_some_iff.mp hv).1
  | network _ hchange => exact hchange.oneName h
  | nginx_module | nginx_site => exact ⟨h.root, h.inside⟩

end

/-- Names stay unique. -/
def KeepsOneName (s s' : System) : Prop := OneName s → OneName s'

instance : Std.Refl KeepsOneName := ⟨fun _ => id⟩
instance : IsTrans System KeepsOneName := ⟨fun _ _ _ h h' hs => h' (h hs)⟩

/-! ### Applying without the guarded commands -/

section
variable (os : Os)

def check_bridge : EStateM Fail Machine Unit := do
  look (bridge_exists os BRIDGE_INTERFACE)
  context "Setting up bridge interface" (look (addr_list os none BRIDGE_INTERFACE))
  context "Bringing bridge interface up" (look (interface_show os none BRIDGE_INTERFACE))

/-- Of `apply_wireguard`, writing the file and synchronising from it. -/
def refresh_wireguard (deploy : Deployment) (network : NetworkState) : EStateM Fail Machine Unit := do
  let netns := network.netns_name
  let wgif := network.wgif_name
  look (wireguard_exists os netns wgif)
  look (interface_show os (some netns) wgif)
  context "Setting wireguard interface UP" (look (interface_show os (some netns) wgif))
  netns_write_file os netns (confPath wgif) (network.to_config deploy.keys)
  context "Applying wireguard interface addresses" (look (addr_list os (some netns) wgif))
  wireguard_syncconf os netns wgif

def check_veth (network : NetworkState) : EStateM Fail Machine Unit := do
  let netns := network.netns_name
  let veth_name := network.veth_name
  look (veth_exists os netns veth_name)
  context "Applying veth addr" (look (addr_list os (some netns) veth_name))
  context "Setting veth master" (look (link_get_master os none veth_name))
  context "Making inner veth interface UP" (look (interface_show os (some netns) veth_name))
  context "Marking outer veth interface UP" (look (interface_show os none veth_name))

def refresh_network (deploy : Deployment) (network : NetworkState) : EStateM Fail Machine Unit := do
  look (netns_exists os network.netns_name)
  refresh_wireguard os deploy network
  check_veth os network
  look (iptables_save os network.netns_name)

/-- Of `prepare`, looking at the bridge. -/
def check : EStateM Fail Machine (List String) := do
  context "Creating bridge interface" (check_bridge os)
  netns_list os

/-- Of `apply`, nothing but looking, the WireGuard configurations and nginx's. -/
def reapply (deploy : Deployment) (config : GatewayConfig) : EStateM Fail World Unit := do
  store fun _ => config
  let state := config.rekeyed
  let _ ← onMachine (check os)
  forM state fun e => do
    hand [e]
    onMachine (refresh_network os deploy e.2)
  handNginx os deploy state

end

/-! ### What is left to change -/

def Iface.unconf (i : Iface) : Iface := { i with conf := none }

/-- A system without the configurations of WireGuard and nginx. -/
def System.unconf (s : System) : System where
  bridge := s.bridge
  netns := s.netns.map fun _ ns => { ns with wireguard := ns.wireguard.map fun _ i => i.unconf }
  veth := s.veth.map fun _ v => { v with inner := v.inner.unconf }
  netns_files := fun _ _ => none
  nginx_module := none
  nginx_site := none

/-- Nothing but the configurations of WireGuard and nginx has changed. -/
abbrev OnlyConfs : System → System → Prop := Unchanged System.unconf

theorem map_modify {α β γ : Type} [Ord α] [TransOrd α] [LawfulEqOrd α] [DecidableEq α]
    (t : ExtTreeMap α β) (k : α) {f : β → β} {g : β → γ} (h : ∀ v, g (f v) = g v) :
    (t.modify k f).map (fun _ => g) = t.map fun _ => g := by
  refine ExtTreeMap.ext_getElem? fun a => ?_
  rw [ExtTreeMap.getElem?_map, ExtTreeMap.getElem?_map, OrdMap.get_modify]
  split
  · rw [Option.map_map]
    exact congrArg (Option.map · _) (funext h)
  · rfl

theorem System.alter_onlyConfs (s : System) {f : Iface → Iface} (hf : ∀ i, (f i).unconf = i.unconf)
    (n name : String) : OnlyConfs s (s.alter f (some n) name) := by
  simp only [Unchanged, System.unconf, System.alter]
  rw [map_modify _ _ fun ns => by rw [map_modify _ _ hf], map_modify]
  intro v
  split
  · rw [hf]
  · rfl

section
variable {os : Os} {deploy : Deployment}

theorem look_onlyConfs {α : Type} {act : ℕ → System → Option (α × System)}
    (h : ∀ k s r, act k s = some r → r.2 = s) :
    Always (OnSys OnlyConfs) (look (command os act)) :=
  Always.bind (look_always h) fun _ => Always.pure ()

theorem lookIface_onlyConfs {α : Type} {netns : Option String} {name : String} (g : Iface → α) :
    Always (OnSys OnlyConfs) (look (onIface os netns name fun i s => some (g i, s))) := by
  refine look_onlyConfs fun k s r hact => ?_
  obtain ⟨i, _, hi⟩ := Option.bind_eq_some_iff.mp hact
  cases hi
  rfl

theorem check_onlyConfs : Always (OnSys OnlyConfs) (check os) :=
  Always.bind (Always.context _ <|
      Always.bind (look_onlyConfs fun _ _ _ h => by cases h; rfl) fun _ =>
      Always.bind (Always.context _ (lookIface_onlyConfs _)) fun _ =>
      Always.context _ (lookIface_onlyConfs id)) fun _ =>
    look_always fun _ _ _ h => by cases h; rfl

theorem refresh_network_onlyConfs (network : NetworkState) :
    Always (OnSys OnlyConfs) (refresh_network os deploy network) := by
  refine Always.bind (look_onlyConfs fun _ _ _ h => by cases h; rfl) fun _ =>
    Always.bind
      (Always.bind (look_onlyConfs fun _ _ _ h => ?_) fun _ =>
        Always.bind (lookIface_onlyConfs id) fun _ =>
        Always.bind (Always.context _ (lookIface_onlyConfs id)) fun _ =>
        Always.bind (command_always fun k s a s' hact => ?_) fun _ =>
        Always.bind (Always.context _ (lookIface_onlyConfs _)) fun _ =>
        command_always fun k s a s' hact => ?_) fun _ =>
    Always.bind
      (Always.bind (look_onlyConfs fun _ _ _ h => by cases h; rfl) fun _ =>
        Always.bind (Always.context _ (lookIface_onlyConfs _)) fun _ =>
        Always.bind (Always.context _ (lookIface_onlyConfs _)) fun _ =>
        Always.bind (Always.context _ (lookIface_onlyConfs id)) fun _ =>
        Always.context _ (lookIface_onlyConfs id)) fun _ =>
    look_onlyConfs fun _ _ _ h => ?_
  · obtain ⟨ns, _, rfl⟩ := Option.map_eq_some_iff.mp h
    rfl
  · cases hact
    rfl
  · obtain ⟨conf, _, hact⟩ := Option.bind_eq_some_iff.mp hact
    obtain ⟨i, _, heq⟩ := Option.map_eq_some_iff.mp hact
    cases heq
    refine s.alter_onlyConfs (fun i => ?_) _ _
    rfl
  · obtain ⟨ns, _, rfl⟩ := Option.map_eq_some_iff.mp h
    rfl

/-- On any system at all `reapply` changes those configurations at most. -/
theorem reapply_onlyConfs (config : GatewayConfig) :
    Always (InWorld OnlyConfs) (reapply os deploy config) := by
  refine Always.bind (modify_always fun _ => rfl) fun _ =>
    Always.bind (onMachine_always check_onlyConfs) fun _ =>
    Always.bind (Always.forM fun e _ => Always.bind (modify_always fun _ => rfl) fun _ =>
      onMachine_always (refresh_network_onlyConfs e.2)) fun _ =>
    Always.bind (modify_always fun _ => rfl) fun _ =>
    onMachine_always <| Always.context _ <| Always.bind (Always.liftE _) fun _ =>
      Always.bind (command_always fun k s a s' hact => ?_) fun _ =>
      Always.bind (command_always fun k s a s' hact => ?_) fun _ =>
      look_always fun _ _ _ h => by cases h; rfl
  · cases hact
    rfl
  · cases hact
    rfl

end

/-! ### Guards -/

/-- The machine has this system. -/
def Still (sys : System) (m : Machine) : Prop := m.sys = sys

section
variable {os : Os} {sys : System}

/-- A command that would leave the system as it is. -/
theorem command_still {α : Type} {act : ℕ → System → Option (α × System)}
    (h : ∀ k a s, act k sys = some (a, s) → s = sys) :
    Alike (Still sys) (command os act) (command os act) := by
  rintro m rfl
  refine ⟨rfl, ?_⟩
  cases hrun : (command os act).run m with
  | ok a m' => exact h _ _ _ (command_ok hrun)
  | error e m' => exact command_error hrun

theorem onIface_still {α : Type} {netns : Option String} {name : String} (g : Iface → α) :
    Alike (Still sys) (onIface os netns name fun i s => some (g i, s))
      (onIface os netns name fun i s => some (g i, s)) := by
  refine command_still fun k a s hact => ?_
  obtain ⟨i, _, hi⟩ := Option.bind_eq_some_iff.mp hact
  cases hi
  rfl

/-- What is read of an interface. -/
theorem onIface_read {α : Type} {netns : Option String} {name : String} {g : Iface → α} {i : Iface}
    {a : α} {m m' : Machine} (hi : sys.iface netns name = some i) (hm : Still sys m)
    (h : (onIface os netns name fun i s => some (g i, s)).run m = .ok a m') : a = g i := by
  obtain ⟨j, hj, hact⟩ := onIface_ok h
  obtain rfl : m.sys = sys := hm
  obtain rfl := Option.some.inj (hi.symm.trans hj)
  exact (Prod.mk.inj (Option.some.inj hact)).1.symm

variable {netns : Option String} {name : String} {i : Iface}

theorem apply_addr_still {target : List IpNet} (hi : sys.iface netns name = some i)
    (htarget : ∀ addr ∈ target, addr ∈ i.addrs) :
    Alike (Still sys) (apply_addr os netns name target) (look (addr_list os netns name)) :=
  Alike.bind (onIface_still _) fun _ _ _ hm hrun => Alike.forM_idle fun addr hin =>
    Alike.skipIf (onIface_read hi hm hrun ▸ htarget addr hin)

theorem apply_interface_up_still (hi : sys.iface netns name = some i) (hup : i.down = false) :
    Alike (Still sys) (apply_interface_up os netns name) (look (interface_show os netns name)) :=
  Alike.bind (onIface_still id) fun _ _ _ hm hrun =>
    Alike.skipIf (onIface_read (g := id) hi hm hrun ▸ hup)

theorem apply_link_master_still {master : String} (hi : sys.iface netns name = some i)
    (hmaster : i.master = some master) :
    Alike (Still sys) (apply_link_master os netns name master)
      (look (link_get_master os netns name)) := by
  refine Alike.bind (onIface_still _) fun _ _ _ hm hrun => Alike.skipIf ?_
  rw [onIface_read hi hm hrun, hmaster]
  simp

end

/-! ### What answers the guards -/

/-- A network is shown on its port, its interfaces are up, and they have its addresses. -/
structure Settled (deploy : Deployment) (network : NetworkState) (sys : System) : Prop where
  shown : Shows deploy network sys
  wireguard : ∃ i, sys.wgif network.listen_port = some i ∧ i.down = false ∧
    ∀ addr ∈ network.address, addr ∈ i.addrs
  inner : ∃ i, sys.iface (some network.netns_name) network.veth_name = some i ∧ i.down = false ∧
    network.veth_ipv4net.toIpNet ∈ i.addrs
  outer : ∃ v, sys.veth[network.veth_name]? = some v ∧ v.outer.down = false

/-- The bridge is there and up, and has its address. -/
structure Bridged (sys : System) : Prop where
  present : BRIDGE_INTERFACE ∈ sys.bridge
  iface : ∃ i, sys.iface none BRIDGE_INTERFACE = some i ∧ i.down = false ∧
    BRIDGE_NET.toIpNet ∈ i.addrs

section
variable {os : Os} {deploy : Deployment} {network : NetworkState} {sys : System}

theorem Bridged.check (h : Bridged sys) :
    Alike (Still sys) (apply_bridge os [BRIDGE_NET.toIpNet]) (check_bridge os) := by
  obtain ⟨i, hi, hup, haddr⟩ := h.iface
  refine Alike.look (command_still fun k a s hact => by cases hact; rfl) fun present m m' hm hrun =>
    Alike.skip (Alike.skipIf ?_) <|
    Alike.bind (Alike.context _ (apply_addr_still hi (by simpa using haddr))) fun _ _ _ _ _ =>
    Alike.context _ (apply_interface_up_still hi hup)
  obtain rfl : m.sys = sys := hm
  obtain ⟨rfl, _⟩ := Prod.mk.inj (Option.some.inj (command_ok hrun))
  exact ExtTreeMap.contains_iff_mem.mpr h.present

theorem Settled.refresh_wireguard (h : Settled deploy network sys) (hnames : OneName sys) :
    Alike (Still sys) (apply_wireguard os deploy network) (refresh_wireguard os deploy network) := by
  obtain ⟨i, hi, hup, haddr⟩ := h.wireguard
  obtain ⟨rules, _, hview⟩ := h.shown
  have hiface := System.iface_of_wgif hi
  have hmtu : i.mtu = some network.mtu := by
    have hm := congrArg PortView.mtu hview
    rwa [show (sys.view network.listen_port).mtu = (sys.wgif network.listen_port).bind (·.mtu) from rfl,
      hi] at hm
  have hconf : i.conf = some (network.to_config deploy.keys) := by
    have hm := congrArg PortView.running hview
    rwa [show (sys.view network.listen_port).running = (sys.wgif network.listen_port).bind (·.conf)
      from rfl, hi] at hm
  have hfile : sys.netns_files network.netns_name (confPath network.wgif_name) =
      some (network.to_config deploy.keys) := congrArg PortView.file hview
  refine Alike.look (command_still fun k a s hact => ?_) fun present m m' hm hrun =>
    Alike.skip (Alike.skipIf ?_) <|
    Alike.look (onIface_still id) fun shown _ _ hm' hrun' =>
    Alike.skip (a := network.mtu) ?_ <| Alike.skip (Alike.skipIf rfl) <|
    Alike.bind (Alike.context _ (apply_interface_up_still hiface hup)) fun _ _ _ _ _ =>
    Alike.bind (command_still fun k a s hact => ?_) fun _ _ _ _ _ =>
    Alike.bind (Alike.context _ (apply_addr_still hiface haddr)) fun _ _ _ _ _ =>
    command_still fun k a s hact => ?_
  · obtain ⟨ns, _, heq⟩ := Option.map_eq_some_iff.mp hact
    cases heq
    rfl
  · obtain rfl : m.sys = sys := hm
    obtain ⟨ns, hns, heq⟩ := Option.map_eq_some_iff.mp (command_ok hrun)
    obtain ⟨rfl, _⟩ := Prod.mk.inj heq
    obtain ⟨ns', hns', hi⟩ := Option.bind_eq_some_iff.mp hi
    obtain rfl : ns = ns' := Option.some.inj (hns.symm.trans hns')
    exact ExtTreeMap.contains_iff_mem.mpr ((OrdMap.mem_iff_get _ _).mpr ⟨i, hi⟩)
  · obtain rfl : shown = i := onIface_read (g := id) hiface hm' hrun'
    rw [hmtu]
    exact Alike.pure _
  · -- the file has these contents
    cases hact
    have hsame : (fun n p => if n = network.netns_name ∧ p = confPath network.wgif_name then
        some (network.to_config deploy.keys) else sys.netns_files n p) = sys.netns_files := by
      funext n p
      split
      · next h => rw [h.1, h.2, hfile]
      · rfl
    rw [hsame]
  · -- and the interface runs with them
    obtain ⟨conf, hget, hact⟩ := Option.bind_eq_some_iff.mp hact
    obtain ⟨j, _, heq⟩ := Option.map_eq_some_iff.mp hact
    obtain rfl : network.to_config deploy.keys = conf := Option.some.inj (hfile.symm.trans hget)
    cases heq
    refine hnames.alter_wgif hi ?_
    rw [← hconf]

/-- The link of a settled network, on the bridge. -/
theorem Settled.link (h : Settled deploy network sys) :
    ∃ v, sys.veth[network.veth_name]? = some v ∧ v.netns = network.netns_name ∧
      v.outer.master = some BRIDGE_INTERFACE ∧ v.outer.down = false := by
  obtain ⟨rules, _, hview⟩ := h.shown
  obtain ⟨v, hv, hup⟩ := h.outer
  have hlink : sys.link network.veth_name = some (network.netns_name, some BRIDGE_INTERFACE) :=
    congrArg PortView.link hview
  rw [System.link, hv] at hlink
  obtain ⟨hnetns, hmaster⟩ := Prod.mk.inj (Option.some.inj hlink)
  exact ⟨v, hv, hnetns, hmaster, hup⟩

theorem Settled.check_veth (h : Settled deploy network sys) :
    Alike (Still sys) (apply_veth os network) (check_veth os network) := by
  obtain ⟨i, hi, hup, haddr⟩ := h.inner
  obtain ⟨v, hv, hnetns, hmaster, hvup⟩ := h.link
  have houter : sys.iface none network.veth_name = some v.outer := by simp [System.iface, hv]
  refine Alike.look (command_still fun k a s hact => by cases hact; rfl) fun present m m' hm hrun =>
    Alike.skip (Alike.skipIf ?_) <|
    Alike.bind (Alike.context _ (apply_addr_still hi (by simpa using haddr))) fun _ _ _ _ _ =>
    Alike.bind (Alike.context _ (apply_link_master_still houter hmaster)) fun _ _ _ _ _ =>
    Alike.bind (Alike.context _ (apply_interface_up_still hi hup)) fun _ _ _ _ _ =>
    Alike.context _ (apply_interface_up_still houter hvup)
  obtain rfl : m.sys = sys := hm
  obtain ⟨rfl, _⟩ := Prod.mk.inj (Option.some.inj (command_ok hrun))
  simp [hv, hnetns, Option.filter]

/-- The rules are there, whatever is printed around them. -/
theorem Settled.check_forwarding (h : Settled deploy network sys) :
    Alike (Still sys) (apply_forwarding os deploy network)
      (look (iptables_save os network.netns_name)) := by
  obtain ⟨rules, hrules, hview⟩ := h.shown
  refine Alike.skip (a := rules) (by rw [hrules]; exact Alike.pure _) <|
    Alike.bind (command_still fun k a s hact => ?_) fun current m m' hm hrun => Alike.skipIf ?_
  · obtain ⟨ns, _, heq⟩ := Option.map_eq_some_iff.mp hact
    cases heq
    rfl
  · obtain rfl : m.sys = sys := hm
    obtain ⟨ns, hns, heq⟩ := Option.map_eq_some_iff.mp (command_ok hrun)
    obtain ⟨rfl, _⟩ := Prod.mk.inj heq
    have hnat : m.sys.netns[network.netns_name]?.map (fun ns => clean_iptables ns.nat) =
        some (clean_iptables rules.render) := congrArg PortView.nat hview
    rw [hns] at hnat
    rw [not_not, os.noise_clean]
    exact (Option.some.inj hnat).symm

theorem Settled.refresh (h : Settled deploy network sys) (hnames : OneName sys) :
    Alike (Still sys) (apply_network os deploy network) (refresh_network os deploy network) := by
  have hnetns : Alike (Still sys) (apply_netns os network)
      (look (netns_exists os network.netns_name)) := by
    refine Alike.bind (command_still fun k a s hact => by cases hact; rfl)
      fun present m m' hm hrun => Alike.skipIf ?_
    obtain rfl : m.sys = sys := hm
    obtain ⟨rfl, _⟩ := Prod.mk.inj (Option.some.inj (command_ok hrun))
    exact ExtTreeMap.contains_iff_mem.mpr h.shown.mem_netns
  exact Alike.bind hnetns fun _ _ _ _ _ =>
    Alike.bind (h.refresh_wireguard hnames) fun _ _ _ _ _ =>
    Alike.bind h.check_veth fun _ _ _ _ _ => h.check_forwarding

end

/-! ### A network that was applied is settled -/

section
variable {os : Os} {deploy : Deployment} {network : NetworkState} {m m' : Machine}
  {netns : Option String} {name : String}

/-- An interface that was to be brought up is up, with the addresses it had. -/
theorem apply_interface_up_ok (h : (apply_interface_up os netns name).run m = .ok () m') :
    ∃ i f, m.sys.iface netns name = some i ∧ m'.sys = m.sys.alter f netns name ∧
      (f i).down = false ∧ (f i).addrs = i.addrs := by
  obtain ⟨i, t, hshow, h⟩ := bind_ok_iff.mp h
  obtain ⟨j, hj, hact⟩ := onIface_ok hshow
  obtain ⟨rfl, hsys⟩ := Prod.mk.inj (Option.some.inj hact)
  rcases skipIf_ok_iff.mp h with ⟨hup, rfl⟩ | ⟨_, hrun⟩
  · refine ⟨j, id, hj, ?_, hup, rfl⟩
    rw [m.sys.alter_of_fixed id _ _ fun _ => rfl, hsys]
  · obtain ⟨_, _, hact⟩ := onIface_ok hrun
    obtain ⟨_, hs⟩ := Prod.mk.inj (Option.some.inj hact)
    exact ⟨j, _, hj, hsys ▸ hs.symm, rfl, rfl⟩

/-- Every address of the target is there after `apply_addr`. -/
theorem mem_withAddrs_missing {i : Iface} {target : List IpNet} :
    ∀ addr ∈ target, addr ∈ (Iface.withAddrs (missing i.addrs target) i).addrs := by
  intro addr hin
  by_cases hold : addr ∈ i.addrs
  · exact List.mem_append_left _ hold
  · exact List.mem_append_right _ (List.mem_filter.mpr ⟨hin, decide_eq_true hold⟩)

theorem apply_wireguard_raised (h : (apply_wireguard os deploy network).run m = .ok () m') :
    ∃ i, m'.sys.wgif network.listen_port = some i ∧ i.down = false ∧
      ∀ addr ∈ network.address, addr ∈ i.addrs := by
  obtain ⟨present, t₁, hexists, h⟩ := bind_ok_iff.mp h
  obtain ⟨_, t₂, hcreate, h⟩ := bind_ok_iff.mp h
  obtain ⟨shown, t₃, hshow, h⟩ := bind_ok_iff.mp h
  obtain ⟨mtu, t₄, hmtu, h⟩ := bind_ok_iff.mp h
  obtain ⟨_, t₅, hset, h⟩ := bind_ok_iff.mp h
  obtain ⟨_, t₆, hup, h⟩ := bind_ok_iff.mp h
  obtain ⟨_, t₇, hwrite, h⟩ := bind_ok_iff.mp h
  obtain ⟨_, t₈, haddr, hsync⟩ := bind_ok_iff.mp h
  obtain ⟨i, hi, _⟩ :=
    System.wgif_of_mtu (mtu_settled (wireguard_present hexists hcreate) hshow hmtu hset)
  obtain ⟨j, f, hj, h₆, hdown, _⟩ := apply_interface_up_ok (context_ok_iff.mp hup)
  obtain rfl : i = j := Option.some.inj ((System.iface_of_wgif hi).symm.trans hj)
  have hi₆ : t₆.sys.wgif network.listen_port = some (f i) := by
    rw [h₆, System.alter_inner_wgif, if_pos ⟨rfl, rfl⟩, hi]
    rfl
  obtain ⟨_, h₇⟩ := Prod.mk.inj (Option.some.inj (command_ok hwrite))
  have hi₇ : t₇.sys.wgif network.listen_port = some (f i) := by
    rw [← h₇]
    exact hi₆
  obtain ⟨k, hk, _, h₈⟩ := apply_addr_ok (context_ok_iff.mp haddr)
  obtain rfl : f i = k := Option.some.inj ((System.iface_of_wgif hi₇).symm.trans hk)
  obtain ⟨conf, _, hact⟩ := Option.bind_eq_some_iff.mp (command_ok hsync)
  obtain ⟨_, _, heq⟩ := Option.map_eq_some_iff.mp hact
  obtain ⟨_, hs⟩ := Prod.mk.inj heq
  refine ⟨{ Iface.withAddrs (missing (f i).addrs network.address) (f i) with conf := some conf },
    ?_, hdown, mem_withAddrs_missing⟩
  rw [← hs, System.alter_inner_wgif, if_pos ⟨rfl, rfl⟩, h₈, System.alter_inner_wgif,
    if_pos ⟨rfl, rfl⟩, hi₇]
  rfl

/-- Setting a master is a change to the outer end. -/
theorem apply_link_master_alter {master : String}
    (h : (apply_link_master os netns name master).run m = .ok () m') :
    ∃ f, m'.sys = m.sys.alter f netns name := by
  obtain ⟨current, t, hget, h⟩ := bind_ok_iff.mp h
  obtain ⟨i, _, hact⟩ := onIface_ok hget
  obtain ⟨_, hsys⟩ := Prod.mk.inj (Option.some.inj hact)
  rcases skipIf_ok_iff.mp h with ⟨_, rfl⟩ | ⟨_, hrun⟩
  · refine ⟨id, ?_⟩
    rw [m.sys.alter_of_fixed id _ _ fun _ => rfl, hsys]
  · obtain ⟨_, _, hact⟩ := onIface_ok (context_ok_iff.mp hrun)
    split at hact
    · obtain ⟨_, hs⟩ := Prod.mk.inj (Option.some.inj hact)
      exact ⟨_, hsys ▸ hs.symm⟩
    · cases hact

theorem apply_veth_raised (h : (apply_veth os network).run m = .ok () m') :
    (∃ i, m'.sys.iface (some network.netns_name) network.veth_name = some i ∧ i.down = false ∧
      network.veth_ipv4net.toIpNet ∈ i.addrs) ∧
      ∃ v, m'.sys.veth[network.veth_name]? = some v ∧ v.outer.down = false := by
  obtain ⟨hlink, _⟩ := apply_veth_ok h
  obtain ⟨present, t₁, hexists, h⟩ := bind_ok_iff.mp h
  obtain ⟨_, t₂, hadd, h⟩ := bind_ok_iff.mp h
  obtain ⟨_, t₃, haddr, h⟩ := bind_ok_iff.mp h
  obtain ⟨_, t₄, hmaster, h⟩ := bind_ok_iff.mp h
  obtain ⟨_, t₅, hinner, houter⟩ := bind_ok_iff.mp h
  obtain ⟨k, hk, _, h₃⟩ := apply_addr_ok (context_ok_iff.mp haddr)
  obtain ⟨f, h₄⟩ := apply_link_master_alter (context_ok_iff.mp hmaster)
  obtain ⟨i, g, hi, h₅, hidown, hiaddrs⟩ := apply_interface_up_ok (context_ok_iff.mp hinner)
  obtain ⟨o, g', ho, h₆, hodown, _⟩ := apply_interface_up_ok (context_ok_iff.mp houter)
  have hi' := hi
  rw [h₄, System.iface_alter_outer, h₃, System.iface_alter, hk] at hi'
  obtain rfl := Option.some.inj hi'
  refine ⟨⟨_, ?_, hidown, ?_⟩, ?_⟩
  · rw [h₆, System.iface_alter_outer, h₅, System.iface_alter, hi]
    rfl
  · rw [hiaddrs]
    exact mem_withAddrs_missing _ List.mem_cons_self
  · obtain ⟨v, hv, _⟩ := Option.map_eq_some_iff.mp hlink
    have hiface := t₅.sys.iface_alter g' none network.veth_name
    rw [← h₆, ho] at hiface
    have hv : m'.sys.veth[network.veth_name]? = some v := hv
    refine ⟨v, hv, ?_⟩
    rw [System.iface, hv] at hiface
    rw [show v.outer = g' o from Option.some.inj hiface]
    exact hodown

/-- The link is not the WireGuard interface. -/
theorem veth_ne_wgif (port other : UInt16) :
    portName VETH_PREFIX port ≠ portName WIREGUARD_PREFIX other := by
  intro h
  have hl := congrArg String.toList h
  simp [portName, VETH_PREFIX, WIREGUARD_PREFIX] at hl

/-- Setting up the link leaves the WireGuard interfaces. -/
theorem apply_veth_wgif (port : UInt16) (h : (apply_veth os network).run m = .ok () m') :
    m'.sys.wgif port = m.sys.wgif port := by
  have hinner : ∀ (s : System) (f : Iface → Iface), Cosmetic f →
      Unchanged (·.wgif port) s (s.alter f (some network.netns_name) network.veth_name) := by
    intro s f _
    show (s.alter f (some network.netns_name) network.veth_name).wgif port = s.wgif port
    rw [System.alter_inner_wgif, if_neg fun h => veth_ne_wgif _ _ h.2]
  have hall : Always (OnSys (Unchanged (·.wgif port))) (apply_veth os network) := by
    refine Always.bind (look_always fun _ _ _ h => by cases h; rfl) fun _ =>
      Always.bind (Always.skipIf (command_always fun k s a s' hact => ?_)) fun _ =>
      Always.bind (Always.context _ (apply_addr_always hinner _)) fun _ =>
      Always.bind (Always.context _ (apply_link_master_always (fun _ _ => rfl) _)) fun _ =>
      Always.bind (Always.context _ (apply_interface_up_always hinner)) fun _ =>
      Always.context _ (apply_interface_up_always fun _ _ _ => rfl)
    split at hact
    · cases hact
    · cases hact
      rfl
  exact always_ok hall h

/-- Writing nat rules leaves the WireGuard interfaces. -/
theorem wireguard_of_nat {s : System} {n : String} {ns : Netns} (rules : String)
    (hns : s.netns[n]? = some ns) (n' name : String) :
    (s.netns.insert n { ns with nat := rules })[n']?.bind (·.wireguard[name]?) =
      s.netns[n']?.bind (·.wireguard[name]?) := by
  rw [OrdMap.get_insert]
  split
  · next heq =>
    rw [← heq, hns]
    rfl
  · rfl

theorem apply_forwarding_ifaces (h : (apply_forwarding os deploy network).run m = .ok () m') :
    (∀ port, m'.sys.wgif port = m.sys.wgif port) ∧
      (∀ n name, m'.sys.iface (some n) name = m.sys.iface (some n) name) ∧
      m'.sys.veth = m.sys.veth := by
  obtain ⟨rules, t₁, hrules, h⟩ := bind_ok_iff.mp h
  obtain ⟨_, rfl⟩ := liftE_ok_iff.mp hrules
  obtain ⟨current, t₂, hsave, h⟩ := bind_ok_iff.mp h
  obtain ⟨ns, hns, heq⟩ := Option.map_eq_some_iff.mp (command_ok hsave)
  obtain ⟨_, hsys⟩ := Prod.mk.inj heq
  rcases skipIf_ok_iff.mp h with ⟨_, rfl⟩ | ⟨_, hrun⟩
  · rw [hsys]
    exact ⟨fun _ => rfl, fun _ _ => rfl, rfl⟩
  · obtain ⟨ns', hns', heq⟩ := Option.map_eq_some_iff.mp (command_ok hrun)
    obtain ⟨_, hs⟩ := Prod.mk.inj heq
    rw [← hsys] at hns' hs
    generalize clean_iptables rules.render = text at hs
    rw [← hs]
    refine ⟨fun port => wireguard_of_nat text hns' _ _, fun n name => ?_, rfl⟩
    simp only [System.iface]
    rw [wireguard_of_nat text hns']

/-- A network that was applied is settled. -/
theorem apply_network_settled (h : (apply_network os deploy network).run m = .ok () m') :
    Settled deploy network m'.sys := by
  have hshown := apply_network_ok h
  obtain ⟨_, t₁, _, h⟩ := bind_ok_iff.mp h
  obtain ⟨_, t₂, hwireguard, h⟩ := bind_ok_iff.mp h
  obtain ⟨_, t₃, hveth, hforwarding⟩ := bind_ok_iff.mp h
  obtain ⟨hinner, houter⟩ := apply_veth_raised hveth
  obtain ⟨hwgif, hiface, hsame⟩ := apply_forwarding_ifaces hforwarding
  refine ⟨hshown, ?_, ?_, ?_⟩
  · rw [hwgif, apply_veth_wgif _ hveth]
    exact apply_wireguard_raised hwireguard
  · rw [hiface]
    exact hinner
  · rw [hsame]
    exact houter

end

/-! ### What is settled stays so -/

/-- The namespace of a network, its files and its link are as they were. -/
structure Spared (network : NetworkState) (s s' : System) : Prop where
  netns : s'.netns[network.netns_name]? = s.netns[network.netns_name]?
  files : s'.netns_files network.netns_name = s.netns_files network.netns_name
  veth : ∀ v, s.veth[network.veth_name]? = some v → v.netns = network.netns_name →
    s'.veth[network.veth_name]? = some v

/-- So is the bridge, and no link gets its name. -/
structure BridgeSpared (s s' : System) : Prop where
  bridge : s'.bridge[BRIDGE_INTERFACE]? = s.bridge[BRIDGE_INTERFACE]?
  veth : s.veth[BRIDGE_INTERFACE]? = none → s'.veth[BRIDGE_INTERFACE]? = none

instance (network : NetworkState) : Std.Refl (Spared network) := ⟨fun _ => ⟨rfl, rfl, fun _ h _ => h⟩⟩

instance (network : NetworkState) : IsTrans System (Spared network) :=
  ⟨fun _ _ _ h h' => ⟨h'.netns.trans h.netns, h'.files.trans h.files,
    fun v hv hn => h'.veth v (h.veth v hv hn) hn⟩⟩

instance : Std.Refl BridgeSpared := ⟨fun _ => ⟨rfl, id⟩⟩

instance : IsTrans System BridgeSpared :=
  ⟨fun _ _ _ h h' => ⟨h'.bridge.trans h.bridge, fun hn => h'.veth (h.veth hn)⟩⟩

section
variable {os : Os} {deploy : Deployment} {network other : NetworkState} {s s' : System}

theorem Settled.spared (h : Settled deploy network s) (hs : Spared network s s') :
    Settled deploy network s' := by
  obtain ⟨v, hv, hnetns, hmaster, hup⟩ := h.link
  have hveth : s'.veth[network.veth_name]? = s.veth[network.veth_name]? := by
    rw [hv]
    exact hs.veth v hv hnetns
  have hwgif : s'.wgif network.listen_port = s.wgif network.listen_port := by
    simp only [System.wgif]
    rw [show s'.netns[portName NETNS_PREFIX network.listen_port]? = _ from hs.netns]
    rfl
  refine ⟨h.shown.of_view (PortView.ext ?_ ?_ ?_ ?_ ?_), ?_, ?_, ⟨v, hveth.trans hv, hup⟩⟩
  · exact congrFun hs.files _
  · exact congrArg (Option.bind · _) hwgif
  · exact congrArg (Option.bind · _) hwgif
  · exact congrArg (Option.map _) hveth
  · exact congrArg (Option.map _) hs.netns
  · rw [hwgif]
    exact h.wireguard
  · simp only [System.iface]
    rw [hs.netns, hveth]
    exact h.inner

/-- A port's changes spare the networks on other ports. -/
theorem Change.spared (hne : other.listen_port ≠ network.listen_port)
    (hc : Change deploy other s s') : Spared network s s' := by
  have hn : other.netns_name ≠ network.netns_name := fun h => hne (portName_injective _ h)
  have hl : other.veth_name ≠ network.veth_name := fun h => hne (portName_injective _ h)
  have hinsert : ∀ ns, Spared network s { s with netns := s.netns.insert other.netns_name ns } := by
    refine fun ns => ⟨?_, rfl, fun _ h _ => h⟩
    rw [OrdMap.get_insert, if_neg hn]
  have hinner : ∀ f name, Spared network s (s.alter f (some other.netns_name) name) := by
    refine fun f name => ⟨?_, rfl, fun v hv hnetns => ?_⟩
    · simp only [System.alter, OrdMap.get_modify]
      rw [if_neg hn]
    · simp only [System.alter, OrdMap.get_modify, hv]
      split
      · rw [Option.map_some, if_neg fun h => hn (h.symm.trans hnetns)]
      · rfl
  cases hc with
  | netns | wireguard | nat => exact hinsert _
  | inner | addrs => exact hinner _ _
  | outer f =>
    refine ⟨rfl, rfl, fun v hv _ => ?_⟩
    simp only [System.alter, OrdMap.get_modify]
    rw [if_neg hl]
    exact hv
  | file => exact ⟨rfl, funext fun p => if_neg fun h => hn h.1.symm, fun _ h _ => h⟩
  | veth =>
    refine ⟨rfl, rfl, fun v hv _ => ?_⟩
    rw [OrdMap.get_insert, if_neg hl]
    exact hv

theorem Change.bridgeSpared (hc : Change deploy network s s') : BridgeSpared s s' := by
  have hl : network.veth_name ≠ BRIDGE_INTERFACE := portName_ne_bridge _
  have hinner : ∀ f name, BridgeSpared s (s.alter f (some network.netns_name) name) := by
    refine fun f name => ⟨rfl, fun hv => ?_⟩
    simp only [System.alter, OrdMap.get_modify, hv]
    split <;> rfl
  cases hc with
  | netns | wireguard | nat | file => exact ⟨rfl, id⟩
  | inner | addrs => exact hinner _ _
  | outer f =>
    refine ⟨?_, fun hv => ?_⟩
    · simp only [System.alter, OrdMap.get_modify]
      rw [if_neg hl]
    · simp only [System.alter, OrdMap.get_modify]
      rw [if_neg hl]
      exact hv
  | veth =>
    refine ⟨rfl, fun hv => ?_⟩
    rw [OrdMap.get_insert, if_neg hl]
    exact hv

theorem remove_surplus_bridgeSpared (names expected : List String) :
    Always (OnSys BridgeSpared) (remove_surplus os names expected) := by
  intro m
  refine Always.forM (fun name _ => Always.skipIf (Always.context _
    (command_always fun k s a s' hact => ?_))) m
  split at hact
  · cases hact
    refine ⟨rfl, fun hv => ?_⟩
    rw [OrdMap.get_filter, hv]
    rfl
  · cases hact

theorem Bridged.spared (h : Bridged s) (hnames : OneName s) (hs : BridgeSpared s s') :
    Bridged s' := by
  obtain ⟨i, hi, hup, haddr⟩ := h.iface
  have hnone : s.veth[BRIDGE_INTERFACE]? = none := by
    cases hv : s.veth[BRIDGE_INTERFACE]? with
    | none => rfl
    | some v => exact absurd ((OrdMap.mem_iff_get _ _).mpr ⟨v, hv⟩) (hnames.root _ h.present)
  refine ⟨?_, i, ?_, hup, haddr⟩
  · rw [OrdMap.mem_iff_get, hs.bridge, ← OrdMap.mem_iff_get]
    exact h.present
  · rw [← hi]
    simp only [System.iface]
    rw [hs.bridge, hs.veth hnone, hnone]

/-- Both requests begin by making sure of the bridge. -/
theorem prepare_bridged {names : List String} {m m' : Machine}
    (h : (prepare os).run m = .ok names m') : Bridged m'.sys := by
  obtain ⟨_, t, hbridge, hlist⟩ := bind_ok_iff.mp h
  obtain ⟨_, hsys⟩ := Prod.mk.inj (Option.some.inj (command_ok hlist))
  rw [← hsys]
  obtain ⟨present, t₁, hexists, h⟩ := bind_ok_iff.mp (context_ok_iff.mp hbridge)
  obtain ⟨_, t₂, hadd, h⟩ := bind_ok_iff.mp h
  obtain ⟨_, t₃, haddr, hup⟩ := bind_ok_iff.mp h
  obtain ⟨rfl, hsys₁⟩ := Prod.mk.inj (Option.some.inj (command_ok hexists))
  have hin : BRIDGE_INTERFACE ∈ t₂.sys.bridge := by
    rcases skipIf_ok_iff.mp hadd with ⟨hin, rfl⟩ | ⟨_, hrun⟩
    · rw [← hsys₁]
      exact ExtTreeMap.contains_iff_mem.mp hin
    · have hact := command_ok hrun
      split at hact
      · cases hact
      · obtain ⟨_, hs⟩ := Prod.mk.inj (Option.some.inj hact)
        rw [← hs]
        exact (OrdMap.mem_insert _ _ _ _).mpr (Or.inl rfl)
  obtain ⟨k, hk, _, h₃⟩ := apply_addr_ok (context_ok_iff.mp haddr)
  obtain ⟨i, f, hi, h₄, hdown, haddrs⟩ := apply_interface_up_ok (context_ok_iff.mp hup)
  have hi' := hi
  rw [h₃, System.iface_alter, hk] at hi'
  obtain rfl := Option.some.inj hi'
  refine ⟨?_, _, ?_, hdown, ?_⟩
  · rw [h₄, h₃]
    exact ExtTreeMap.mem_modify.mpr (ExtTreeMap.mem_modify.mpr hin)
  · rw [h₄, System.iface_alter, hi]
    rfl
  · rw [haddrs]
    exact mem_withAddrs_missing _ List.mem_cons_self

/-- All networks of a request are settled when it has applied them. -/
theorem networks_settled :
    ∀ {networks : List (UInt16 × NetworkState)} {w w' : World},
      (∀ e ∈ networks, e.2.listen_port = e.1) → networks.Pairwise (fun a b => a.1 ≠ b.1) →
      (forM networks fun e => handNetwork os deploy e.1 e.2).run w = .ok () w' →
      ∀ e ∈ networks, Settled deploy e.2 w'.sys
  | [], _, _, _, _, _ => by simp
  | e :: networks, w, w', hkeyed, hd, h => by
      obtain ⟨hhead, htail⟩ := List.pairwise_cons.mp hd
      rw [List.forM_cons] at h
      obtain ⟨_, t, hfirst, hrest⟩ := bind_ok_iff.mp h
      have hkeyed' := fun e' he' => hkeyed e' (List.mem_cons_of_mem _ he')
      intro e' he'
      rcases List.mem_cons.mp he' with rfl | he'
      · have hspared : Always (InWorld (Spared e'.2))
            (forM networks fun e => handNetwork os deploy e.1 e.2) := by
          refine Always.forM fun e he => Always.bind (modify_always fun _ => rfl) fun _ =>
            onMachine_always (apply_network_always fun _ _ hc => hc.spared ?_)
          rw [hkeyed e (List.mem_cons_of_mem _ he), hkeyed e' List.mem_cons_self]
          exact (hhead e he).symm
        exact (apply_network_settled (handNetwork_ok hfirst).1).spared (hspared.of_ok hrest)
      · exact networks_settled hkeyed' htail hrest e' he'

end

/-! ### The second time -/

/-- What a full request leaves when it succeeds. -/
structure Applied (deploy : Deployment) (config : GatewayConfig) (w : World) : Prop
    extends Describes deploy config w where
  oneName : OneName w.sys
  bridged : Bridged w.sys
  settled : ∀ e ∈ config.rekeyed, Settled deploy e.2 w.sys

section
variable {os : Os} {deploy : Deployment} {config : GatewayConfig} {w w' : World}

/-- Nothing that happens to the machine makes a name stand for two interfaces. -/
theorem touch_keepsOneName (deploy : Deployment) (s s' : System)
    (h : Touch deploy (fun _ => True) (fun _ => True) s s') : KeepsOneName s s' :=
  fun hs => h.oneName hs

theorem apply_oneName (os : Os) (deploy : Deployment) (config : GatewayConfig) :
    Always (InWorld KeepsOneName) (apply os deploy config) :=
  apply_always (touch_keepsOneName deploy) (fun _ _ _ => trivial) fun _ _ => trivial

theorem handNginx_spared {networks : List (UInt16 × NetworkState)}
    (h : (handNginx os deploy networks).run w = .ok () w') (network : NetworkState) :
    Spared network w.sys w'.sys := by
  obtain ⟨_, table, _, hsys⟩ := handNginx_ok h
  rw [hsys]
  exact ⟨rfl, rfl, fun _ hv _ => hv⟩

theorem apply_settled (h : (apply os deploy config).run w = .ok () w') :
    ∀ e ∈ config.rekeyed, Settled deploy e.2 w'.sys := by
  obtain ⟨_, t₁, _, h⟩ := bind_ok_iff.mp h
  obtain ⟨names, t₂, _, h⟩ := bind_ok_iff.mp h
  obtain ⟨_, t₃, _, h⟩ := bind_ok_iff.mp h
  obtain ⟨_, t₄, hloop, hnginx⟩ := bind_ok_iff.mp h
  intro e he
  have hsettled :=
    networks_settled GatewayConfig.rekeyed_keyed config.rekeyed_pairwise hloop e he
  exact hsettled.spared (handNginx_spared hnginx e.2)

theorem apply_applied (hnames : OneName w.sys)
    (h : (apply os deploy config).run w = .ok () w') : Applied deploy config w' := by
  have hdescribes := apply_describes h
  have hsettled := apply_settled h
  have hone := (apply_oneName os deploy config).of_ok h
  obtain ⟨_, t₁, hstore, h⟩ := bind_ok_iff.mp h
  cases hstore
  obtain ⟨names, t₂, hprep, h⟩ := bind_ok_iff.mp h
  obtain ⟨_, t₃, hremove, h⟩ := bind_ok_iff.mp h
  obtain ⟨_, t₄, hloop, hnginx⟩ := bind_ok_iff.mp h
  obtain ⟨_, table, _, hsys⟩ := handNginx_ok hnginx
  have hone₂ : OneName t₂.sys :=
    always_ok (prepare_always (touch_keepsOneName deploy)) (onMachine_ok hprep).1 hnames
  have hspared₃ := always_ok (remove_surplus_bridgeSpared _ _) (onMachine_ok hremove).1
  have hspared₄ : BridgeSpared t₃.sys t₄.sys := by
    have hall : Always (InWorld BridgeSpared)
        (forM config.rekeyed fun e => handNetwork os deploy e.1 e.2) :=
      Always.forM fun e _ => Always.bind (modify_always fun _ => rfl) fun _ =>
        onMachine_always (apply_network_always fun _ _ hc => hc.bridgeSpared)
    exact hall.of_ok hloop
  have hspared₅ : BridgeSpared t₄.sys w'.sys := by
    rw [hsys]
    exact ⟨rfl, id⟩
  refine ⟨hdescribes, hone hnames, ?_, hsettled⟩
  exact (prepare_bridged (onMachine_ok hprep).1).spared hone₂
    (IsTrans.trans _ _ _ hspared₃ (IsTrans.trans _ _ _ hspared₄ hspared₅))

/-- Work on a machine that is left as it is. -/
theorem onMachine_still {α : Type} {sys : System} {x y : EStateM Fail Machine α}
    (h : Alike (Still sys) x y) :
    Alike (fun w : World => Still sys w.machine) (onMachine x) (onMachine y) :=
  Alike.zoom (fun _ hw => hw) (fun _ _ _ hm => hm) h

theorem modify_still {sys : System} {f : World → World} (hf : ∀ w, (f w).machine = w.machine) :
    Alike (fun w : World => Still sys w.machine) (modify f : EStateM Fail World Unit) (modify f) :=
  fun w hw => ⟨rfl, (congrArg (Still sys) (hf w)).mpr hw⟩

/-- The files of nginx are written as they are. -/
theorem Served.rewrite {sys : System} (h : Served deploy config sys) :
    Alike (Still sys) (apply_nginx os deploy (config.rekeyed.map (·.2)))
      (apply_nginx os deploy (config.rekeyed.map (·.2))) := by
  obtain ⟨table, hbuild, hmodule, hsite⟩ := h
  have hlift : Alike (Still sys) (liftE (Forwarding.build deploy (config.rekeyed.map (·.2))))
      (liftE (Forwarding.build deploy (config.rekeyed.map (·.2)))) := by
    rw [hbuild]
    exact Alike.pure table
  refine Alike.bind hlift fun found m m' _ hrun =>
    Alike.bind (command_still fun k a s hact => ?_) fun _ _ _ _ _ =>
    Alike.bind (command_still fun k a s hact => ?_) fun _ _ _ _ _ =>
    command_still fun k a s hact => by cases hact; rfl
  · obtain rfl : table = found := Except.ok.inj (hbuild.symm.trans (liftE_ok_iff.mp hrun).1)
    cases hact
    rw [← hmodule]
  · obtain rfl : table = found := Except.ok.inj (hbuild.symm.trans (liftE_ok_iff.mp hrun).1)
    cases hact
    rw [← hsite]

/-- The listing of an applied configuration has no surplus. -/
theorem Describes.no_surplus {names : List String} (h : Describes deploy config w)
    (hlisted : ∀ n ∈ names, n ∈ w.sys.netns) :
    Alike (Still w.sys) (remove_surplus os names (config.rekeyed.map fun e => e.2.netns_name))
      (pure ()) := by
  intro m hm
  refine Alike.forM_idle (P := Still w.sys) (fun n hn => Alike.skipIf ?_) m hm
  intro hs
  obtain ⟨hin, hnot⟩ := List.mem_filter.mp ((os.order_perm _ _).mem_iff.mp hn)
  obtain ⟨e, he, heq⟩ := GatewayConfig.exists_rekeyed_iff.mpr ((h.names n hs).mp (hlisted n hin))
  exact of_decide_eq_true hnot (List.mem_map.mpr ⟨e, he, heq.symm⟩)

theorem Applied.reapply (os : Os) (h : Applied deploy config w) :
    Alike (fun w' : World => Still w.sys w'.machine) (apply os deploy config)
      (reapply os deploy config) := by
  have hcheck : Alike (Still w.sys) (prepare os) (check os) :=
    Alike.bind (Alike.context _ h.bridged.check) fun _ _ _ _ _ =>
      command_still fun k a s hact => by cases hact; rfl
  refine Alike.bind (modify_still fun _ => rfl) fun _ _ _ _ _ =>
    Alike.bind (onMachine_still hcheck) fun names t t' ht hrun =>
    Alike.skip (onMachine_still (h.no_surplus fun n hn => ?_)) <|
    Alike.bind (Alike.forM fun e he => Alike.bind (modify_still fun _ => rfl) fun _ _ _ _ _ =>
      onMachine_still ((h.settled e he).refresh h.oneName)) fun _ _ _ _ _ =>
    Alike.bind (modify_still fun _ => rfl) fun _ _ _ _ _ =>
    onMachine_still (Alike.context _ h.nginx.rewrite)
  obtain ⟨hrun, _⟩ := onMachine_ok hrun
  have hsys := (hcheck t.machine ht).2
  rw [hrun] at hsys
  obtain ⟨_, u, _, hlist⟩ := bind_ok_iff.mp hrun
  obtain ⟨rfl, hu⟩ := Prod.mk.inj (Option.some.inj (command_ok hlist))
  rw [hu, show t'.machine.sys = w.sys from hsys] at hn
  exact ExtTreeMap.mem_keys.mp hn

end

/-- After a full request that succeeded, the same request runs as `reapply`, whatever fails this
    time: on any system that changes the configurations of WireGuard and nginx at most, and on this
    one it does not change those either. -/
theorem reapply_disturbs_nothing (os₁ os₂ : Os) (deploy : Deployment) (config : GatewayConfig)
    (w w' : World) (hnames : OneName w.sys) (h : (apply os₁ deploy config).run w = .ok () w') :
    (apply os₂ deploy config).run w' = (reapply os₂ deploy config).run w' ∧
      (∀ v, OnlyConfs v.sys (final ((reapply os₂ deploy config).run v)).sys) ∧
      (final ((apply os₂ deploy config).run w')).sys = w'.sys ∧
      (final ((apply os₂ deploy config).run w')).stored = w'.stored := by
  have happlied := apply_applied hnames h
  obtain ⟨hrun, hsys⟩ := happlied.reapply os₂ w' rfl
  refine ⟨hrun, reapply_onlyConfs config, ?_, ?_⟩
  · rw [hrun]
    exact hsys
  · rw [apply_stored, happlied.stored]

/-- Twice over a network to remove and one with other settings. -/
theorem reapply_disturbs_nothing_messy :
    (final ((apply Bench.os Bench.deploy (Bench.config 5000 (Bench.bare 5000))).run
      (final ((apply Bench.os Bench.deploy (Bench.config 5000 (Bench.bare 5000))).run
        Bench.messy)))).sys =
      (final ((apply Bench.os Bench.deploy (Bench.config 5000 (Bench.bare 5000))).run
        Bench.messy)).sys := by
  have hnames : OneName Bench.messy.sys :=
    ⟨fun _ _ => ExtTreeMap.not_mem_empty, fun n name ns v _ _ hv => by cases hv⟩
  exact (reapply_disturbs_nothing Bench.os Bench.os Bench.deploy _ Bench.messy _ hnames
    (ok_of_returned (by decide +kernel))).2.2.1

end FractalGateway
