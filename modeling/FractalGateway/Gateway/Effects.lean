import FractalGateway.Gateway.Converge

/-! Everything a request may do to the machine, one change at a time.

    A run that fails has made some of the changes of a run that succeeds, and which ones does not
    matter to what is kept: a relation between systems that each single change respects holds
    between the first and the last system of every run (`apply_network_always`, `apply_always`,
    `apply_partial_always`). Addresses are the one thing where the order counts. They are added in
    the order of the configuration, so a run adds the first few of those that are missing. -/

namespace FractalGateway
open Std Exec

/-! ### Interfaces -/

section
variable (s : System) (f g : Iface → Iface) (netns : Option String) (n name : String)

theorem modify_modify {α β : Type} [Ord α] [TransOrd α] [LawfulEqOrd α] [DecidableEq α]
    (t : ExtTreeMap α β) (k : α) (f g : β → β) :
    (t.modify k f).modify k g = t.modify k fun v => g (f v) := by
  refine ExtTreeMap.ext_getElem? fun a => ?_
  simp only [OrdMap.get_modify]
  split
  · rw [Option.map_map]
    rfl
  · rfl

theorem modify_of_fixed {α β : Type} [Ord α] [TransOrd α] [LawfulEqOrd α] [DecidableEq α]
    (t : ExtTreeMap α β) (k : α) {f : β → β} (h : ∀ v, t[k]? = some v → f v = v) :
    t.modify k f = t := by
  refine ExtTreeMap.ext_getElem? fun a => ?_
  rw [OrdMap.get_modify]
  split
  · next hk =>
    subst hk
    cases hv : t[k]? with
    | none => rfl
    | some v => rw [Option.map_some, h v hv]
  · rfl

theorem System.alter_alter : (s.alter f netns name).alter g netns name =
    s.alter (fun i => g (f i)) netns name := by
  cases netns with
  | none => simp only [System.alter, modify_modify]
  | some n =>
    simp only [System.alter, modify_modify]
    congr 2
    funext v
    by_cases hv : v.netns = n <;> simp [hv]

theorem System.alter_of_fixed (h : ∀ i, f i = i) : s.alter f netns name = s := by
  cases netns with
  | none =>
    simp only [System.alter]
    rw [modify_of_fixed _ _ fun i _ => h i, modify_of_fixed _ _ fun v _ => by rw [h]]
  | some n =>
    simp only [System.alter]
    rw [modify_of_fixed _ _ fun ns _ => by rw [modify_of_fixed _ _ fun i _ => h i],
      modify_of_fixed _ _ fun v _ => by split <;> simp [h]]

/-- An altered interface is read altered, and no other interface in a namespace is. -/
theorem System.iface_alter_inner (n' name' : String) :
    (s.alter f (some n) name).iface (some n') name' =
      if n = n' ∧ name = name' then (s.iface (some n') name').map f else s.iface (some n') name' := by
  simp only [System.alter, System.iface, OrdMap.get_modify]
  by_cases hn : n = n'
  · subst hn
    by_cases hname : name = name'
    · subst hname
      rw [if_pos rfl, if_pos rfl, if_pos ⟨rfl, rfl⟩]
      cases s.netns[n]? with
      | none =>
        cases s.veth[name]? with
        | none => rfl
        | some v => by_cases hv : v.netns = n <;> simp [hv, Option.filter]
      | some ns =>
        cases hw : ns.wireguard[name]? with
        | none =>
          cases s.veth[name]? with
          | none => simp [hw]
          | some v => by_cases hv : v.netns = n <;> simp [hv, hw, Option.filter]
        | some i => simp [hw]
    · rw [if_pos rfl, if_neg hname, if_neg fun h => hname h.2]
      cases s.netns[n]? with
      | none => rfl
      | some ns => simp [hname]
  · rw [if_neg hn, if_neg (c := n = n' ∧ name = name') fun h => hn h.1]
    by_cases hname : name = name'
    · subst hname
      rw [if_pos rfl]
      cases s.veth[name]? with
      | none => rfl
      | some v =>
        by_cases hv : v.netns = n
        · simp [hv, Option.filter, hn]
        · simp [hv, Option.filter]
    · rw [if_neg hname]

theorem System.iface_alter_outer (n' name' : String) :
    (s.alter f none name).iface (some n') name' = s.iface (some n') name' := by
  simp only [System.alter, System.iface, OrdMap.get_modify]
  split
  · cases s.veth[name']? with
    | none => rfl
    | some v => by_cases hv : v.netns = n' <;> simp [hv, Option.filter]
  · rfl

/-- Altering reads the interface it alters. -/
theorem System.iface_alter : (s.alter f netns name).iface netns name = (s.iface netns name).map f := by
  cases netns with
  | none =>
    simp only [System.alter, System.iface, OrdMap.get_modify, if_pos]
    cases s.veth[name]? with
    | none => cases s.bridge[name]? <;> rfl
    | some v => rfl
  | some n => rw [System.iface_alter_inner, if_pos ⟨rfl, rfl⟩]

end

/-! ### Addresses -/

/-- The addresses of a configuration that an interface does not have yet. -/
def missing (current target : List IpNet) : List IpNet :=
  target.filter fun addr => decide (addr ∉ current)

/-- Give an interface more addresses. -/
def Iface.withAddrs (added : List IpNet) (i : Iface) : Iface := { i with addrs := i.addrs ++ added }

theorem missing_cons_of_mem {current target : List IpNet} {addr : IpNet} (h : addr ∈ current) :
    missing current (addr :: target) = missing current target := by
  simp [missing, h]

theorem missing_cons_of_not_mem {current target : List IpNet} {addr : IpNet} (h : addr ∉ current) :
    missing current (addr :: target) = addr :: missing current target := by
  simp [missing, h]

theorem System.alter_withAddrs_nil (s : System) (netns : Option String) (name : String) :
    s.alter (Iface.withAddrs []) netns name = s := by
  rw [System.alter_of_fixed]
  intro i
  simp [Iface.withAddrs]

theorem System.alter_withAddrs (s : System) (netns : Option String) (name : String)
    (a b : List IpNet) :
    (s.alter (Iface.withAddrs a) netns name).alter (Iface.withAddrs b) netns name =
      s.alter (Iface.withAddrs (a ++ b)) netns name := by
  rw [System.alter_alter]
  congr 1
  funext i
  simp [Iface.withAddrs]

section
variable {os : Os} {netns : Option String} {name : String}

theorem addr_add_ok {addr : IpNet} {m m' : Machine}
    (h : (addr_add os netns name addr).run m = .ok () m') :
    ∃ i, m.sys.iface netns name = some i ∧ addr ∉ i.addrs ∧
      m'.sys = m.sys.alter (Iface.withAddrs [addr]) netns name := by
  obtain ⟨i, hi, hact⟩ := onIface_ok h
  split at hact
  · cases hact
  · next hnot => exact ⟨i, hi, hnot, (Prod.mk.inj (Option.some.inj hact)).2.symm⟩

variable (os) in
/-- A loop over addresses, wherever it stops, has added the first few of those it was to add; one
    that succeeds has added them all, each for the first time. -/
theorem addrs_loop (current : List IpNet) :
    ∀ (target : List IpNet) {m : Machine} {i : Iface}, m.sys.iface netns name = some i →
      ∃ added, added <+: missing current target ∧
        (final ((forM target fun addr => skipIf (addr ∈ current) (addr_add os netns name addr)).run
          m)).sys = m.sys.alter (Iface.withAddrs added) netns name ∧
        (returned ((forM target fun addr => skipIf (addr ∈ current)
          (addr_add os netns name addr)).run m) = true →
            added = missing current target ∧ added.Nodup ∧ ∀ addr ∈ added, addr ∉ i.addrs)
  | [], m, i, _ => by
      refine ⟨[], List.nil_prefix, ?_, fun _ => ⟨rfl, List.nodup_nil, by simp⟩⟩
      rw [System.alter_withAddrs_nil]
      rfl
  | addr :: target, m, i, hi => by
      rw [List.forM_cons]
      by_cases hin : addr ∈ current
      · have hskip : (skipIf (addr ∈ current) (addr_add os netns name addr)).run m = .ok () m := by
          rw [skipIf, if_pos hin]
          rfl
        rw [bind_of_ok hskip, missing_cons_of_mem hin]
        exact addrs_loop current target hi
      · have hadd : skipIf (addr ∈ current) (addr_add os netns name addr) =
            addr_add os netns name addr := by rw [skipIf, if_neg hin]
        rw [hadd, missing_cons_of_not_mem hin]
        cases hrun : (addr_add os netns name addr).run m with
        | ok u t =>
          obtain ⟨j, hj, hnew, ht⟩ := addr_add_ok hrun
          obtain rfl := Option.some.inj (hi.symm.trans hj)
          have hi' : t.sys.iface netns name = some (i.withAddrs [addr]) := by
            rw [ht, System.iface_alter, hi]
            rfl
          obtain ⟨added, hprefix, hfinal, hok⟩ := addrs_loop current target hi'
          rw [bind_of_ok hrun]
          refine ⟨addr :: added, List.cons_prefix_cons.mpr ⟨rfl, hprefix⟩, ?_, fun hret => ?_⟩
          · rw [hfinal, ht, System.alter_withAddrs]
            rfl
          · obtain ⟨hall, hnd, hfresh⟩ := hok hret
            have hfresh : ∀ a ∈ added, a ∉ i.addrs ∧ a ≠ addr := by
              intro a ha
              simpa [Iface.withAddrs] using hfresh a ha
            refine ⟨by rw [hall], List.nodup_cons.mpr ⟨fun ha => (hfresh addr ha).2 rfl, hnd⟩, ?_⟩
            intro a ha
            rcases List.mem_cons.mp ha with rfl | ha
            · exact hnew
            · exact (hfresh a ha).1
        | error e t =>
          rw [bind_of_error hrun]
          refine ⟨[], List.nil_prefix, ?_, fun hret => by cases hret⟩
          rw [System.alter_withAddrs_nil, final_error, onIface_error hrun]

/-- Wherever `apply_addr` stops, it has added the first few of the missing addresses. -/
theorem apply_addr_final (target : List IpNet) (m : Machine) :
    (final ((apply_addr os netns name target).run m)).sys = m.sys ∨
      ∃ i added, m.sys.iface netns name = some i ∧ added <+: missing i.addrs target ∧
        (final ((apply_addr os netns name target).run m)).sys =
          m.sys.alter (Iface.withAddrs added) netns name := by
  rw [apply_addr]
  cases hlist : (addr_list os netns name).run m with
  | error e t =>
    rw [bind_of_error hlist]
    exact Or.inl (onIface_error hlist)
  | ok current t =>
    obtain ⟨i, hi, hact⟩ := onIface_ok hlist
    obtain ⟨rfl, hsys⟩ := Prod.mk.inj (Option.some.inj hact)
    rw [bind_of_ok hlist]
    rw [hsys] at hi
    obtain ⟨added, hprefix, hfinal, _⟩ := addrs_loop os i.addrs target hi
    rw [← hsys] at hi hfinal
    exact Or.inr ⟨i, added, hi, hprefix, hfinal⟩

/-- A successful `apply_addr` has added the missing addresses, no one of them twice. -/
theorem apply_addr_ok {target : List IpNet} {m m' : Machine}
    (h : (apply_addr os netns name target).run m = .ok () m') :
    ∃ i, m.sys.iface netns name = some i ∧ (missing i.addrs target).Nodup ∧
      m'.sys = m.sys.alter (Iface.withAddrs (missing i.addrs target)) netns name := by
  obtain ⟨current, t, hlist, hloop⟩ := bind_ok_iff.mp h
  obtain ⟨i, hi, hact⟩ := onIface_ok hlist
  obtain ⟨rfl, hsys⟩ := Prod.mk.inj (Option.some.inj hact)
  have hi' := hi
  rw [hsys] at hi'
  obtain ⟨added, _, hfinal, hok⟩ := addrs_loop os i.addrs target hi'
  rw [hloop] at hfinal hok
  obtain ⟨rfl, hnd, _⟩ := hok rfl
  rw [← hsys] at hfinal
  exact ⟨i, hi, hnd, hfinal⟩

end

/-! ### Changes of one network -/

/-- The addresses the interfaces of a network are to have. -/
def NetworkState.addressing (network : NetworkState) : List (String × List IpNet) :=
  [(network.wgif_name, network.address), (network.veth_name, [network.veth_ipv4net.toIpNet])]

/-- What applying a network may do to the machine, one change at a time. -/
inductive Change (deploy : Deployment) (network : NetworkState) : System → System → Prop where
  | netns {s : System} : network.netns_name ∉ s.netns →
      Change deploy network s { s with netns := s.netns.insert network.netns_name ⟨∅, ""⟩ }
  | wireguard {s : System} {ns : Netns} :
      s.iface (some network.netns_name) network.wgif_name = none →
      s.netns[network.netns_name]? = some ns →
      Change deploy network s { s with
        netns := s.netns.insert network.netns_name
          { ns with wireguard := ns.wireguard.insert network.wgif_name (Iface.new 1420) } }
  | inner {s : System} (name : String) (f : Iface → Iface) : (∀ i, (f i).addrs = i.addrs) →
      Change deploy network s (s.alter f (some network.netns_name) name)
  | outer {s : System} (f : Iface → Iface) :
      Change deploy network s (s.alter f none network.veth_name)
  | addrs {s : System} {i : Iface} {name : String} {target added : List IpNet} :
      (name, target) ∈ network.addressing → s.iface (some network.netns_name) name = some i →
      added <+: missing i.addrs target →
      Change deploy network s (s.alter (Iface.withAddrs added) (some network.netns_name) name)
  | file {s : System} : Change deploy network s { s with
      netns_files := fun n p => if n = network.netns_name ∧ p = confPath network.wgif_name then
        some (network.to_config deploy.keys) else s.netns_files n p }
  | veth {s : System} : network.netns_name ∈ s.netns →
      s.iface none network.veth_name = none →
      s.iface (some network.netns_name) network.veth_name = none →
      Change deploy network s { s with
        veth := s.veth.insert network.veth_name
          ⟨network.netns_name, Iface.new 1500, Iface.new 1500⟩ }
  | nat {s : System} {ns : Netns} (rules : String) : s.netns[network.netns_name]? = some ns →
      Change deploy network s { s with
        netns := s.netns.insert network.netns_name { ns with nat := rules } }

section
variable {os : Os} {deploy : Deployment} {network : NetworkState} {S : System → System → Prop}
  [Std.Refl S] [IsTrans System S] (h : ∀ s s', Change deploy network s s' → S s s')
include h

theorem apply_netns_always : Always (OnSys S) (apply_netns os network) := by
  refine Always.bind (look_always fun _ _ _ hact => by cases hact; rfl) fun _ =>
    Always.skipIf (command_always fun k s a s' hact => ?_)
  split at hact
  · cases hact
  · next hnew =>
    cases hact
    exact h _ _ (.netns hnew)

theorem apply_inner_up_always (name : String) :
    Always (OnSys S) (apply_interface_up os (some network.netns_name) name) := by
  refine Always.bind (onIface_always fun i s a s' hact => ?_) fun _ =>
    Always.skipIf (onIface_always fun i s a s' hact => ?_)
  · cases hact
    exact Std.Refl.refl s
  · cases hact
    exact h _ _ (.inner name _ fun _ => rfl)

omit [IsTrans System S] in
theorem apply_addrs_always {name : String} {target : List IpNet}
    (hin : (name, target) ∈ network.addressing) :
    Always (OnSys S) (apply_addr os (some network.netns_name) name target) := by
  intro m
  show S m.sys _
  rcases apply_addr_final target m with hsame | ⟨i, added, hi, hprefix, hfinal⟩
  · rw [hsame]
    exact Std.Refl.refl m.sys
  · rw [hfinal]
    exact h _ _ (.addrs hin hi hprefix)

theorem apply_wireguard_always : Always (OnSys S) (apply_wireguard os deploy network) := by
  refine Always.bind (look_always fun k s r hact => ?_) fun _ =>
    Always.bind (Always.skipIf (command_always fun k s a s' hact => ?_)) fun _ =>
    Always.bind (onIface_always fun i s a s' hact => ?_) fun _ =>
    Always.bind (Always.liftE _) fun _ =>
    Always.bind (Always.skipIf (onIface_always fun i s a s' hact => ?_)) fun _ =>
    Always.bind (Always.context _ (apply_inner_up_always h _)) fun _ =>
    Always.bind (command_always fun k s a s' hact => ?_) fun _ =>
    Always.bind (Always.context _ (apply_addrs_always h (by simp [NetworkState.addressing]))) fun _ =>
    command_always fun k s a s' hact => ?_
  · obtain ⟨ns, _, rfl⟩ := Option.map_eq_some_iff.mp hact
    rfl
  · split at hact
    · cases hact
    · next hfree =>
      obtain ⟨ns, hns, heq⟩ := Option.map_eq_some_iff.mp hact
      cases heq
      exact h _ _ (.wireguard (Option.not_isSome_iff_eq_none.mp hfree) hns)
  · cases hact
    exact Std.Refl.refl s
  · cases hact
    exact h _ _ (.inner _ _ fun _ => rfl)
  · cases hact
    exact h _ _ .file
  · obtain ⟨conf, _, hact⟩ := Option.bind_eq_some_iff.mp hact
    obtain ⟨i, _, heq⟩ := Option.map_eq_some_iff.mp hact
    cases heq
    exact h _ _ (.inner _ _ fun _ => rfl)

theorem apply_veth_always : Always (OnSys S) (apply_veth os network) := by
  refine Always.bind (look_always fun _ _ _ hact => by cases hact; rfl) fun _ =>
    Always.bind (Always.skipIf (command_always fun k s a s' hact => ?_)) fun _ =>
    Always.bind (Always.context _ (apply_addrs_always h (by simp [NetworkState.addressing]))) fun _ =>
    Always.bind (Always.context _ (apply_link_master_always (fun s f => h _ _ (.outer f)) _)) fun _ =>
    Always.bind (Always.context _ (apply_inner_up_always h _)) fun _ =>
    Always.context _ (apply_interface_up_always fun s f _ => h _ _ (.outer f))
  split at hact
  · cases hact
  · next hfree =>
    cases hact
    rw [not_or, not_or, not_not, Option.not_isSome_iff_eq_none, Option.not_isSome_iff_eq_none] at hfree
    exact h _ _ (.veth hfree.1 hfree.2.1 hfree.2.2)

theorem apply_forwarding_always : Always (OnSys S) (apply_forwarding os deploy network) := by
  refine Always.bind (Always.liftE _) fun _ =>
    Always.bind (look_always fun k s r hact => ?_) fun _ =>
    Always.skipIf (command_always fun k s a s' hact => ?_)
  · obtain ⟨ns, _, rfl⟩ := Option.map_eq_some_iff.mp hact
    rfl
  · obtain ⟨ns, hns, heq⟩ := Option.map_eq_some_iff.mp hact
    cases heq
    exact h _ _ (.nat _ hns)

/-- Every run of `apply_network` is a sequence of changes. -/
theorem apply_network_always : Always (OnSys S) (apply_network os deploy network) :=
  Always.bind (apply_netns_always h) fun _ => Always.bind (apply_wireguard_always h) fun _ =>
    Always.bind (apply_veth_always h) fun _ => apply_forwarding_always h

end

/-! ### Changes of a request -/

/-- What a request may do to the machine: set up the bridge, delete namespaces that have to go, apply
    networks, and write nginx's files. -/
inductive Touch (deploy : Deployment) (doomed : String → Prop) (networks : NetworkState → Prop) :
    System → System → Prop where
  | bridge {s : System} : s.iface none BRIDGE_INTERFACE = none →
      Touch deploy doomed networks s { s with
        bridge := s.bridge.insert BRIDGE_INTERFACE (Iface.new 1500) }
  | outer {s : System} (f : Iface → Iface) :
      Touch deploy doomed networks s (s.alter f none BRIDGE_INTERFACE)
  | delete {s : System} {name : String} : doomed name → name ∈ s.netns →
      Touch deploy doomed networks s { s with
        netns := s.netns.erase name
        veth := s.veth.filter fun _ v => decide (v.netns ≠ name) }
  | network {s s' : System} {network : NetworkState} : networks network →
      Change deploy network s s' → Touch deploy doomed networks s s'
  | nginx_module {s : System} (config : String) :
      Touch deploy doomed networks s { s with nginx_module := some config }
  | nginx_site {s : System} (config : String) :
      Touch deploy doomed networks s { s with nginx_site := some config }

section
variable {os : Os} {deploy : Deployment} {doomed : String → Prop} {networks : NetworkState → Prop}
  {S : System → System → Prop} [Std.Refl S] [IsTrans System S]
  (h : ∀ s s', Touch deploy doomed networks s s' → S s s')
include h

theorem prepare_always : Always (OnSys S) (prepare os) := by
  refine Always.bind (Always.context _ <|
      Always.bind (look_always fun _ _ _ hact => by cases hact; rfl) fun _ =>
      Always.bind (Always.skipIf (command_always fun k s a s' hact => ?_)) fun _ =>
      Always.bind (Always.context _ (apply_addr_always (fun s f _ => h _ _ (.outer f)) _)) fun _ =>
      Always.context _ (apply_interface_up_always fun s f _ => h _ _ (.outer f))) fun _ =>
    look_always fun _ _ _ hact => by cases hact; rfl
  split at hact
  · cases hact
  · next hfree =>
    cases hact
    exact h _ _ (.bridge (Option.not_isSome_iff_eq_none.mp hfree))

omit [IsTrans System S] in
theorem netns_del_always {name : String} (hname : doomed name) :
    Always (OnSys S) (netns_del os name) := by
  refine command_always fun k s a s' hact => ?_
  split at hact
  · next hin =>
    cases hact
    exact h _ _ (.delete hname hin)
  · cases hact

theorem remove_surplus_always {names expected : List String}
    (hdoomed : ∀ n, starts_with n NETNS_PREFIX = true → n ∉ expected → doomed n) :
    Always (OnSys S) (remove_surplus os names expected) := by
  intro m
  refine Always.forM (fun name hname => ?_) m
  have hmem := (os.order_perm _ _).mem_iff.mp hname
  unfold skipIf
  split
  · exact Always.pure ()
  · next hs =>
    refine Always.context _ (netns_del_always h (hdoomed name (not_not.mp hs) ?_))
    exact of_decide_eq_true (List.mem_filter.mp hmem).2

theorem apply_nginx_always (all : List NetworkState) :
    Always (OnSys S) (apply_nginx os deploy all) := by
  refine Always.bind (Always.liftE _) fun _ =>
    Always.bind (command_always fun k s a s' hact => ?_) fun _ =>
    Always.bind (command_always fun k s a s' hact => ?_) fun _ =>
    look_always fun _ _ _ hact => by cases hact; rfl
  · cases hact
    exact h _ _ (.nginx_module _)
  · cases hact
    exact h _ _ (.nginx_site _)

omit [IsTrans System S] h in
/-- What is kept besides the machine does not matter to it. -/
theorem modify_always {f : World → World} (hf : ∀ w, (f w).machine = w.machine) :
    Always (InWorld S) (modify f : EStateM Fail World Unit) := by
  intro w
  show S w.machine.sys (f w).machine.sys
  rw [hf]
  exact Std.Refl.refl w.machine.sys

theorem handNetwork_always (port : UInt16) {network : NetworkState} (hn : networks network) :
    Always (InWorld S) (handNetwork os deploy port network) :=
  Always.bind (modify_always fun _ => rfl) fun _ =>
    onMachine_always (apply_network_always fun _ _ hc => h _ _ (.network hn hc))

theorem handNginx_always (all : List (UInt16 × NetworkState)) :
    Always (InWorld S) (handNginx os deploy all) :=
  Always.bind (modify_always fun _ => rfl) fun _ =>
    onMachine_always (Always.context _ (apply_nginx_always h _))

/-- Every run of a full request is a sequence of changes. -/
theorem apply_always {config : GatewayConfig}
    (hdoomed : ∀ n, starts_with n NETNS_PREFIX = true →
      (∀ port ∈ config, n ≠ portName NETNS_PREFIX port) → doomed n)
    (hnetworks : ∀ e ∈ config.rekeyed, networks e.2) :
    Always (InWorld S) (apply os deploy config) := by
  refine Always.bind (modify_always fun _ => rfl) fun _ =>
    Always.bind (onMachine_always (prepare_always h)) fun _ =>
    Always.bind (onMachine_always (remove_surplus_always h fun n hn hnot => hdoomed n hn ?_)) fun _ =>
    Always.bind (Always.forM fun e he => handNetwork_always h e.1 (hnetworks e he)) fun _ =>
    handNginx_always h _
  intro port hp heq
  obtain ⟨e, he, hname⟩ := GatewayConfig.exists_rekeyed_iff.mpr ⟨port, hp, heq⟩
  exact hnot (List.mem_map.mpr ⟨e, he, hname.symm⟩)

theorem apply_entry_always {names : List String} {entry : UInt16 × Option NetworkState}
    (hdoomed : entry.2 = none → doomed (portName NETNS_PREFIX entry.1))
    (hnetworks : ∀ network ∈ entry.2, networks network) :
    Always (InWorld S) (apply_entry os deploy names entry) := by
  obtain ⟨port, _ | network⟩ := entry
  · exact Always.bind (modify_always fun _ => rfl) fun _ =>
      onMachine_always (Always.skipIf (netns_del_always h (hdoomed rfl)))
  · exact Always.bind (handNetwork_always h port (hnetworks network rfl)) fun _ =>
      modify_always fun _ => rfl

/-- Every run of a diff is a sequence of changes. -/
theorem apply_partial_always {diff : GatewayConfigPartial}
    (hdoomed : ∀ port : UInt16, diff[port]? = some none → doomed (portName NETNS_PREFIX port))
    (hnetworks : ∀ (port : UInt16) (network : NetworkState),
      diff[port]? = some (some network) → networks network) :
    Always (InWorld S) (FractalGateway.apply_partial os deploy diff) := by
  refine Always.bind (onMachine_always (prepare_always h)) fun names =>
    Always.bind (Always.forM fun e he => ?_) fun _ => Always.bind (fun w => Std.Refl.refl w) fun w =>
    handNginx_always h _
  have hget := (OrdMap.mem_toList_iff diff e.1 e.2).mp he
  refine apply_entry_always h (fun hnone => hdoomed e.1 ?_) fun network hn => hnetworks e.1 network ?_
  · rw [hget, hnone]
  · rw [hget, show e.2 = some network from hn]

end

/-! ### What the changes leave alone -/

section
variable {deploy : Deployment} {doomed : String → Prop} {networks : NetworkState → Prop}
  {s s' : System}

theorem Change.local {network : NetworkState} (h : Change deploy network s s') :
    Local (some network.netns_name) network.veth_name s s' := by
  cases h with
  | netns | wireguard | nat => exact s.insert_local _ _ _
  | inner | addrs => exact s.alter_inner_local _ _ _ _
  | outer f => exact s.alter_outer_local f _ _
  | file => exact s.file_local _ _ _ _
  | veth _ hroot _ => exact System.veth_local (System.veth_eq_none (by simp [hroot])) _ _

/-- A namespace that does not have to go and is no network's is left alone. -/
theorem Touch.leftAlone {n : String} (hdoomed : ¬doomed n)
    (hnetworks : ∀ network, networks network → n ≠ network.netns_name)
    (h : Touch deploy doomed networks s s') : LeftAlone n s s' := by
  cases h with
  | bridge | nginx_module | nginx_site => exact ⟨rfl, rfl, fun _ => rfl⟩
  | outer f => exact (s.alter_outer_local f none _).leftAlone (by simp)
  | delete hname _ => exact s.delete_leftAlone fun heq => hdoomed (heq ▸ hname)
  | network hnetwork hchange =>
    exact hchange.local.leftAlone fun heq => hnetworks _ hnetwork (Option.some.inj heq)

end

end FractalGateway
