import FractalGateway.Gateway.Views

/-! Applying one network.

    `apply_network` gives its port the view its configuration asks for (`Shows`), whatever was there
    before, and is local to its port: every helper either finds the part as it should be or makes it
    so, and none of them touches another namespace or another link. -/

namespace FractalGateway
open Std Exec

/-! ### Commands on one namespace -/

section Locality
variable {os : Os}

/-- A command that only looks. -/
theorem look_always {α : Type} {S : System → System → Prop} [Std.Refl S]
    {act : ℕ → System → Option (α × System)}
    (h : ∀ k sys r, act k sys = some r → r.2 = sys) : Always (OnSys S) (command os act) := by
  refine command_always fun k sys a sys' hact => ?_
  obtain rfl : sys' = sys := h k sys _ hact
  exact Std.Refl.refl sys'

/-- Writing a namespace. -/
theorem System.insert_local (sys : System) (netns wire : String) (ns : Netns) :
    Local (some netns) wire sys { sys with netns := sys.netns.insert netns ns } := by
  refine ⟨fun n hn => ?_, fun _ _ => rfl, fun _ _ => rfl, fun _ _ _ => rfl⟩
  rw [OrdMap.get_insert, if_neg fun heq => hn (congrArg some heq.symm)]

theorem netns_add_local (netns wire : String) :
    Always (OnSys (Local (some netns) wire)) (netns_add os netns) := by
  refine command_always fun k sys a sys' hact => ?_
  split at hact
  · cases hact
  · cases hact
    exact sys.insert_local netns wire _

/-- Writing a file of a namespace. -/
theorem System.file_local (sys : System) (netns path contents wire : String) :
    Local (some netns) wire sys { sys with
      netns_files := fun n p =>
        if n = netns ∧ p = path then some contents else sys.netns_files n p } := by
  refine ⟨fun _ _ => rfl, fun n hn => ?_, fun _ _ => rfl, fun _ _ _ => rfl⟩
  funext p
  exact if_neg fun h => hn (congrArg some h.1)

theorem netns_write_file_local (netns path contents wire : String) :
    Always (OnSys (Local (some netns) wire)) (netns_write_file os netns path contents) := by
  refine command_always fun k sys a sys' hact => ?_
  cases hact
  exact sys.file_local netns path contents wire

theorem wireguard_create_local (netns name wire : String) :
    Always (OnSys (Local (some netns) wire)) (wireguard_create os netns name) := by
  refine command_always fun k sys a sys' hact => ?_
  split at hact
  · cases hact
  · obtain ⟨ns, _, heq⟩ := Option.map_eq_some_iff.mp hact
    cases heq
    exact sys.insert_local netns wire _

theorem wireguard_syncconf_local (netns name wire : String) :
    Always (OnSys (Local (some netns) wire)) (wireguard_syncconf os netns name) := by
  refine command_always fun k sys a sys' hact => ?_
  obtain ⟨conf, _, hact⟩ := Option.bind_eq_some_iff.mp hact
  obtain ⟨i, _, heq⟩ := Option.map_eq_some_iff.mp hact
  cases heq
  exact sys.alter_inner_local _ netns name wire

theorem iptables_restore_local (netns rules wire : String) :
    Always (OnSys (Local (some netns) wire)) (iptables_restore os netns rules) := by
  refine command_always fun k sys a sys' hact => ?_
  obtain ⟨ns, _, heq⟩ := Option.map_eq_some_iff.mp hact
  cases heq
  exact sys.insert_local netns wire _

/-- A name that is free in the root namespace is no link's. -/
theorem System.veth_eq_none {sys : System} {name : String} (h : ¬(sys.iface none name).isSome) :
    sys.veth[name]? = none := by
  cases hv : sys.veth[name]? with
  | none => rfl
  | some v => simp [System.iface, hv] at h

/-- Adding a link. -/
theorem System.veth_local {sys : System} {netns name : String} (hnone : sys.veth[name]? = none)
    (inner outer : Iface) :
    Local (some netns) name sys { sys with veth := sys.veth.insert name ⟨netns, inner, outer⟩ } := by
  refine ⟨fun _ _ => rfl, fun _ _ => rfl, fun l hl => ?_, fun n hn l => ?_⟩
  · simp only [System.link, OrdMap.get_insert]
    rw [if_neg (Ne.symm hl)]
  · simp only [System.inner, OrdMap.get_insert]
    split
    · next heq =>
      subst heq
      have hne : netns ≠ n := fun heq => hn (congrArg some heq.symm)
      simp [hnone, Option.filter, hne]
    · rfl

theorem veth_add_local (netns name : String) :
    Always (OnSys (Local (some netns) name)) (veth_add os netns name) := by
  refine command_always fun k sys a sys' hact => ?_
  split at hact
  · cases hact
  · next hfree =>
    cases hact
    rw [not_or, not_or] at hfree
    exact System.veth_local (System.veth_eq_none hfree.2.1) _ _

end Locality

/-! ### Applying a network is local to its port -/

section
variable (os : Os) (deploy : Deployment) (network : NetworkState)

theorem apply_netns_local (wire : String) :
    Always (OnSys (Local (some network.netns_name) wire)) (apply_netns os network) :=
  Always.bind (look_always fun _ _ _ h => by cases h; rfl) fun _ =>
    Always.skipIf (netns_add_local network.netns_name wire)

theorem apply_wireguard_local (wire : String) :
    Always (OnSys (Local (some network.netns_name) wire)) (apply_wireguard os deploy network) := by
  refine Always.bind (look_always fun k sys r hact => ?_) fun present =>
    Always.bind (Always.skipIf (wireguard_create_local _ _ wire)) fun _ =>
    Always.bind (onIface_always fun i sys a sys' hact => ?_) fun shown =>
    Always.bind (Always.liftE _) fun mtu =>
    Always.bind (Always.skipIf (onIface_always fun i sys a sys' hact => ?_)) fun _ =>
    Always.bind (Always.context _ (apply_interface_up_always fun sys f _ =>
      sys.alter_inner_local f _ _ wire)) fun _ =>
    Always.bind (netns_write_file_local _ _ _ wire) fun _ =>
    Always.bind (Always.context _ (apply_addr_always (fun sys f _ =>
      sys.alter_inner_local f _ _ wire) _)) fun _ => wireguard_syncconf_local _ _ wire
  · obtain ⟨ns, _, rfl⟩ := Option.map_eq_some_iff.mp hact
    rfl
  · cases hact
    exact Std.Refl.refl sys
  · cases hact
    exact sys.alter_inner_local _ _ _ wire

theorem apply_veth_local :
    Always (OnSys (Local (some network.netns_name) network.veth_name)) (apply_veth os network) :=
  Always.bind (look_always fun _ _ _ h => by cases h; rfl) fun _ =>
    Always.bind (Always.skipIf (veth_add_local _ _)) fun _ =>
    Always.bind (Always.context _ (apply_addr_always (fun sys f _ =>
      sys.alter_inner_local f _ _ _) _)) fun _ =>
    Always.bind (Always.context _ (apply_link_master_always (fun sys f =>
      sys.alter_outer_local f _ _) _)) fun _ =>
    Always.bind (Always.context _ (apply_interface_up_always fun sys f _ =>
      sys.alter_inner_local f _ _ _)) fun _ =>
    Always.context _ (apply_interface_up_always fun sys f _ => sys.alter_outer_local f _ _)

theorem apply_forwarding_local (wire : String) :
    Always (OnSys (Local (some network.netns_name) wire)) (apply_forwarding os deploy network) := by
  refine Always.bind (Always.liftE _) fun config =>
    Always.bind (look_always fun k sys r hact => ?_) fun current =>
    Always.skipIf (iptables_restore_local _ _ wire)
  obtain ⟨ns, _, rfl⟩ := Option.map_eq_some_iff.mp hact
  rfl

theorem apply_network_local :
    Always (OnSys (Local (some network.netns_name) network.veth_name))
      (apply_network os deploy network) :=
  Always.bind (apply_netns_local os network _) fun _ =>
    Always.bind (apply_wireguard_local os deploy network _) fun _ =>
    Always.bind (apply_veth_local os network) fun _ => apply_forwarding_local os deploy network _

end

/-! ### The namespace and the WireGuard interface -/

section
variable {os : Os} {deploy : Deployment} {network : NetworkState} {m m' : Machine}

/-- After `wireguard_exists` and `wireguard_create` the interface is there. -/
theorem wireguard_present {present : Bool} {t : Machine}
    (hexists : (wireguard_exists os network.netns_name network.wgif_name).run m = .ok present t)
    (hcreate : (skipIf present (wireguard_create os network.netns_name network.wgif_name)).run t =
      .ok () m') : ∃ i, m'.sys.wgif network.listen_port = some i := by
  obtain ⟨ns, hns, heq⟩ := Option.map_eq_some_iff.mp (command_ok hexists)
  obtain ⟨rfl, hsys⟩ := Prod.mk.inj heq
  rcases skipIf_ok_iff.mp hcreate with ⟨hin, rfl⟩ | ⟨_, hrun⟩
  · obtain ⟨i, hi⟩ := (OrdMap.mem_iff_get _ _).mp (ExtTreeMap.contains_iff_mem.mp hin)
    refine ⟨i, ?_⟩
    rw [← hsys, System.wgif]
    exact Option.bind_eq_some_iff.mpr ⟨ns, hns, hi⟩
  · have hact := command_ok hrun
    split at hact
    · cases hact
    · obtain ⟨ns', _, heq⟩ := Option.map_eq_some_iff.mp hact
      obtain ⟨_, hsys'⟩ := Prod.mk.inj heq
      refine ⟨Iface.new 1420, ?_⟩
      rw [← hsys']
      simp [System.wgif, NetworkState.netns_name, NetworkState.wgif_name]

theorem System.iface_of_wgif {sys : System} {port : UInt16} {i : Iface}
    (h : sys.wgif port = some i) :
    sys.iface (some (portName NETNS_PREFIX port)) (portName WIREGUARD_PREFIX port) = some i := by
  rw [System.wgif] at h
  simp [System.iface, h]

/-- An interface with an MTU is there. -/
theorem System.wgif_of_mtu {sys : System} {port : UInt16} {mtu : ℕ}
    (h : (sys.view port).mtu = some mtu) : ∃ i, sys.wgif port = some i ∧ i.mtu = some mtu :=
  Option.bind_eq_some_iff.mp h

/-- Reading the MTU and setting it where it differs leaves it as configured. -/
theorem mtu_settled {t u v : Machine} {shown : Iface} {mtu : ℕ}
    (hwg : ∃ i, m.sys.wgif network.listen_port = some i)
    (hshow : (interface_show os (some network.netns_name) network.wgif_name).run m = .ok shown t)
    (hmtu : (liftE (match shown.mtu with
      | some mtu => .ok mtu
      | none => .error (.err ["Missing MTU for WireGuard network"])) :
        EStateM Fail Machine ℕ).run t = .ok mtu u)
    (hset : (skipIf (mtu = network.mtu) (interface_mtu os (some network.netns_name)
      network.wgif_name network.mtu)).run u = .ok () v) :
    (v.sys.view network.listen_port).mtu = some network.mtu := by
  obtain ⟨i, hi⟩ := hwg
  obtain ⟨j, hj, hact⟩ := onIface_ok hshow
  obtain ⟨rfl, hsys⟩ := Prod.mk.inj (Option.some.inj hact)
  obtain rfl : i = j := Option.some.inj ((System.iface_of_wgif hi).symm.trans hj)
  obtain ⟨hsome, rfl⟩ := liftE_ok_iff.mp hmtu
  rw [hsys] at hi
  rcases skipIf_ok_iff.mp hset with ⟨rfl, rfl⟩ | ⟨_, hrun⟩
  · refine Option.bind_eq_some_iff.mpr ⟨i, hi, ?_⟩
    split at hsome
    · next h => rw [h, Except.ok.inj hsome]
    · cases hsome
  · obtain ⟨_, _, hact⟩ := onIface_ok hrun
    obtain ⟨_, hv⟩ := Prod.mk.inj (Option.some.inj hact)
    refine Option.bind_eq_some_iff.mpr ⟨{ i with mtu := some network.mtu }, ?_, rfl⟩
    rw [← hv, System.alter_inner_wgif, if_pos ⟨rfl, rfl⟩, hi]
    rfl

/-- The file, the MTU and the running configuration are the network's. -/
theorem apply_wireguard_ok (h : (apply_wireguard os deploy network).run m = .ok () m') :
    (m'.sys.view network.listen_port).file = some (network.to_config deploy.keys) ∧
      (m'.sys.view network.listen_port).mtu = some network.mtu ∧
      (m'.sys.view network.listen_port).running = some (network.to_config deploy.keys) := by
  obtain ⟨present, t₁, hexists, h⟩ := bind_ok_iff.mp h
  obtain ⟨_, t₂, hcreate, h⟩ := bind_ok_iff.mp h
  obtain ⟨shown, t₃, hshow, h⟩ := bind_ok_iff.mp h
  obtain ⟨mtu, t₄, hmtu, h⟩ := bind_ok_iff.mp h
  obtain ⟨_, t₅, hset, h⟩ := bind_ok_iff.mp h
  obtain ⟨_, t₆, hup, h⟩ := bind_ok_iff.mp h
  obtain ⟨_, t₇, hwrite, h⟩ := bind_ok_iff.mp h
  obtain ⟨_, t₈, haddr, hsync⟩ := bind_ok_iff.mp h
  have hm₅ := mtu_settled (wireguard_present hexists hcreate) hshow hmtu hset
  have hm₆ : (t₆.sys.view network.listen_port).mtu = some network.mtu := by
    rw [apply_interface_up_sameViews (context_ok_iff.mp hup)]
    exact hm₅
  obtain ⟨_, hw⟩ := Prod.mk.inj (Option.some.inj (command_ok hwrite))
  have hm₇ : (t₇.sys.view network.listen_port).mtu = some network.mtu := by
    rw [← hw]
    exact hm₆
  have hf₇ : (t₇.sys.view network.listen_port).file = some (network.to_config deploy.keys) := by
    rw [← hw]
    exact if_pos ⟨rfl, rfl⟩
  have hviews := apply_addr_sameViews (context_ok_iff.mp haddr)
  rw [← hviews] at hm₇ hf₇
  obtain ⟨conf, hconf, hact⟩ := Option.bind_eq_some_iff.mp (command_ok hsync)
  obtain ⟨_, _, heq⟩ := Option.map_eq_some_iff.mp hact
  obtain ⟨_, hs⟩ := Prod.mk.inj heq
  obtain rfl : conf = network.to_config deploy.keys := Option.some.inj (hconf.symm.trans hf₇)
  obtain ⟨i, hi, himtu⟩ := System.wgif_of_mtu hm₇
  have hwg : m'.sys.wgif network.listen_port =
      some { i with conf := some (network.to_config deploy.keys) } := by
    rw [← hs, System.alter_inner_wgif, if_pos ⟨rfl, rfl⟩, hi]
    rfl
  refine ⟨?_, Option.bind_eq_some_iff.mpr ⟨_, hwg, himtu⟩, Option.bind_eq_some_iff.mpr ⟨_, hwg, rfl⟩⟩
  rw [← hs]
  exact hf₇

/-! ### The veth link -/

/-- The WireGuard side of a view. -/
def PortView.wg (view : PortView) : Option String × Option ℕ × Option String :=
  (view.file, view.mtu, view.running)

/-- After `veth_exists` and `veth_add` the link is there, and nothing else has changed. -/
theorem veth_present {present : Bool} {t : Machine}
    (hexists : (veth_exists os network.netns_name network.veth_name).run m = .ok present t)
    (hadd : (skipIf present (veth_add os network.netns_name network.veth_name)).run t = .ok () m') :
    (∃ master, (m'.sys.view network.listen_port).link = some (network.netns_name, master)) ∧
      (m'.sys.view network.listen_port).wg = (m.sys.view network.listen_port).wg := by
  obtain ⟨rfl, hsys⟩ := Prod.mk.inj (Option.some.inj (command_ok hexists))
  rcases skipIf_ok_iff.mp hadd with ⟨hin, rfl⟩ | ⟨_, hrun⟩
  · obtain ⟨v, hv⟩ := Option.isSome_iff_exists.mp hin
    obtain ⟨hget, hnetns⟩ := Option.filter_eq_some_iff.mp hv
    rw [← hsys]
    refine ⟨⟨v.outer.master, ?_⟩, rfl⟩
    show m.sys.veth[network.veth_name]?.map _ = _
    rw [hget, ← of_decide_eq_true hnetns]
    rfl
  · have hact := command_ok hrun
    split at hact
    · cases hact
    · obtain ⟨_, hs⟩ := Prod.mk.inj (Option.some.inj hact)
      rw [← hs, ← hsys]
      refine ⟨⟨none, ?_⟩, rfl⟩
      simp [System.view, System.link, NetworkState.veth_name, Iface.new]

/-- A link that is there gets its master. -/
theorem apply_link_master_ok {name master : String} {netns : String} {old : Option String}
    (h : (apply_link_master os none name master).run m = .ok () m')
    (hlink : m.sys.link name = some (netns, old)) : m'.sys.link name = some (netns, some master) := by
  obtain ⟨current, t, hget, h⟩ := bind_ok_iff.mp h
  obtain ⟨i, hi, hact⟩ := onIface_ok hget
  obtain ⟨rfl, hsys⟩ := Prod.mk.inj (Option.some.inj hact)
  obtain ⟨v, hv, hvn⟩ := Option.map_eq_some_iff.mp hlink
  obtain ⟨rfl, rfl⟩ := Prod.mk.inj hvn
  have hiv : v.outer = i := by simpa [System.iface, hv] using hi
  rcases skipIf_ok_iff.mp h with ⟨hsame, rfl⟩ | ⟨_, hrun⟩
  · rw [not_or, not_not] at hsame
    rw [← hsys, hlink, hiv, hsame.2]
  · obtain ⟨_, _, hact⟩ := onIface_ok (context_ok_iff.mp hrun)
    split at hact
    · obtain ⟨_, hs⟩ := Prod.mk.inj (Option.some.inj hact)
      rw [← hs, ← hsys, System.alter_outer_link, if_pos rfl, hv]
      rfl
    · cases hact

theorem apply_link_master_wg {name master : String} (port : UInt16)
    (h : (apply_link_master os none name master).run m = .ok () m') :
    (m'.sys.view port).wg = (m.sys.view port).wg := by
  have hall : Always (OnSys (Unchanged fun s => (s.view port).wg))
      (apply_link_master os none name master) := apply_link_master_always (fun _ _ => rfl) master
  exact always_ok hall h

/-- The link leads to the network's namespace and is on the bridge. -/
theorem apply_veth_ok (h : (apply_veth os network).run m = .ok () m') :
    (m'.sys.view network.listen_port).link = some (network.netns_name, some BRIDGE_INTERFACE) ∧
      (m'.sys.view network.listen_port).wg = (m.sys.view network.listen_port).wg := by
  obtain ⟨present, t₁, hexists, h⟩ := bind_ok_iff.mp h
  obtain ⟨_, t₂, hadd, h⟩ := bind_ok_iff.mp h
  obtain ⟨_, t₃, haddr, h⟩ := bind_ok_iff.mp h
  obtain ⟨_, t₄, hmaster, h⟩ := bind_ok_iff.mp h
  obtain ⟨_, t₅, hinner, houter⟩ := bind_ok_iff.mp h
  obtain ⟨⟨old, hlink⟩, hwg⟩ := veth_present hexists hadd
  rw [← apply_addr_sameViews (context_ok_iff.mp haddr)] at hlink hwg
  have hlink₄ := apply_link_master_ok (context_ok_iff.mp hmaster) hlink
  have hwg₄ := (apply_link_master_wg network.listen_port (context_ok_iff.mp hmaster)).trans hwg
  rw [apply_interface_up_sameViews (context_ok_iff.mp houter),
    apply_interface_up_sameViews (context_ok_iff.mp hinner)]
  exact ⟨hlink₄, hwg₄⟩

/-! ### The nat rules -/

/-- The rules are the network's, up to comments and counters, whether they were already there or
    were just written. -/
theorem apply_forwarding_ok (h : (apply_forwarding os deploy network).run m = .ok () m') :
    ∃ rules, network.port_config deploy.build = .ok rules ∧
      (m'.sys.view network.listen_port).nat = some (clean_iptables rules.render) ∧
      (m'.sys.view network.listen_port).link = (m.sys.view network.listen_port).link ∧
      (m'.sys.view network.listen_port).wg = (m.sys.view network.listen_port).wg := by
  obtain ⟨rules, t₁, hrules, h⟩ := bind_ok_iff.mp h
  obtain ⟨hconfig, rfl⟩ := liftE_ok_iff.mp hrules
  obtain ⟨current, t₂, hsave, h⟩ := bind_ok_iff.mp h
  obtain ⟨ns, hns, heq⟩ := Option.map_eq_some_iff.mp (command_ok hsave)
  obtain ⟨rfl, hsys⟩ := Prod.mk.inj heq
  refine ⟨rules, hconfig, ?_⟩
  rcases skipIf_ok_iff.mp h with ⟨hsame, rfl⟩ | ⟨_, hrun⟩
  · rw [not_not, os.noise_clean] at hsame
    rw [← hsys]
    refine ⟨?_, rfl, rfl⟩
    show m.sys.netns[network.netns_name]?.map _ = _
    rw [hns, hsame]
    rfl
  · obtain ⟨ns', hns', heq⟩ := Option.map_eq_some_iff.mp (command_ok hrun)
    obtain ⟨_, hs⟩ := Prod.mk.inj heq
    rw [← hsys, hns] at hns'
    obtain rfl := Option.some.inj hns'
    rw [← hs, ← hsys]
    have hns : m.sys.netns[portName NETNS_PREFIX network.listen_port]? = some ns := hns
    refine ⟨?_, rfl, ?_⟩
    · simp [System.view, NetworkState.netns_name, clean_iptables_render hconfig]
    · simp [PortView.wg, System.view, System.wgif, NetworkState.netns_name, hns]

/-- Whatever was on the port, a network that was applied is what is seen there. -/
theorem apply_network_ok (h : (apply_network os deploy network).run m = .ok () m') :
    Shows deploy network m'.sys := by
  obtain ⟨_, t₁, _, h⟩ := bind_ok_iff.mp h
  obtain ⟨_, t₂, hwireguard, h⟩ := bind_ok_iff.mp h
  obtain ⟨_, t₃, hveth, hforwarding⟩ := bind_ok_iff.mp h
  obtain ⟨hfile, hmtu, hrunning⟩ := apply_wireguard_ok hwireguard
  obtain ⟨hlink, hwg₃⟩ := apply_veth_ok hveth
  obtain ⟨rules, hconfig, hnat, hlink', hwg⟩ := apply_forwarding_ok hforwarding
  rw [hwg₃] at hwg
  simp only [PortView.wg, Prod.mk.injEq] at hwg
  exact ⟨rules, hconfig, PortView.ext (hwg.1.trans hfile) (hwg.2.1.trans hmtu)
    (hwg.2.2.trans hrunning) (hlink'.trans hlink) hnat⟩

end

end FractalGateway
