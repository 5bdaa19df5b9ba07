import FractalGateway.Gateway.Network

/-! Namespaces of others.

    The gateway's own namespaces carry its prefix. A full request leaves every other namespace
    exactly as it was (`LeftAlone`), with its files and its ends of veth links, however the request
    ends: what it deletes has the prefix, and what it sets up is local to a port. -/

namespace FractalGateway
open Std Exec

/-! ### Names -/

theorem starts_with_portName (start : String) (port : UInt16) :
    starts_with (portName start port) start = true := by
  simp [starts_with, portName]

/-- The bridge is no port's link. -/
theorem portName_ne_bridge (port : UInt16) : portName VETH_PREFIX port ≠ BRIDGE_INTERFACE := by
  intro h
  have hl := congrArg String.toList h
  simp [portName, VETH_PREFIX, BRIDGE_INTERFACE] at hl

theorem mem_netns_congr {s s' : System} {n : String} (h : s'.netns[n]? = s.netns[n]?) :
    n ∈ s'.netns ↔ n ∈ s.netns := by
  rw [OrdMap.mem_iff_get, OrdMap.mem_iff_get, h]

/-! ### Namespaces of others -/

/-- A namespace is exactly as it was, with its files and its ends of veth links. -/
structure LeftAlone (n : String) (s s' : System) : Prop where
  netns : s'.netns[n]? = s.netns[n]?
  files : s'.netns_files n = s.netns_files n
  inner : ∀ name, s'.inner n name = s.inner n name

instance (n : String) : Std.Refl (LeftAlone n) := ⟨fun _ => ⟨rfl, rfl, fun _ => rfl⟩⟩

instance (n : String) : IsTrans System (LeftAlone n) :=
  ⟨fun _ _ _ h h' => ⟨h'.netns.trans h.netns, h'.files.trans h.files,
    fun name => (h'.inner name).trans (h.inner name)⟩⟩

theorem Local.leftAlone {inside : Option String} {wire n : String} {s s' : System}
    (h : Local inside wire s s') (hn : some n ≠ inside) : LeftAlone n s s' :=
  ⟨h.netns n hn, h.files n hn, h.inner n hn⟩

/-- A namespace and its links are deleted. -/
theorem netns_del_ok {os : Os} {name : String} {m m' : Machine}
    (h : (netns_del os name).run m = .ok () m') :
    name ∈ m.sys.netns ∧ m'.sys = { m.sys with
      netns := m.sys.netns.erase name
      veth := m.sys.veth.filter fun _ v => decide (v.netns ≠ name) } := by
  have hact := command_ok h
  split at hact
  · next hin => exact ⟨hin, (Prod.mk.inj (Option.some.inj hact)).2.symm⟩
  · cases hact

/-- Deleting a namespace leaves the others. -/
theorem System.delete_leftAlone (sys : System) {name n : String} (hne : n ≠ name) :
    LeftAlone n sys { sys with
      netns := sys.netns.erase name
      veth := sys.veth.filter fun _ v => decide (v.netns ≠ name) } := by
  refine ⟨?_, rfl, fun l => ?_⟩
  · rw [OrdMap.get_erase, if_neg hne.symm]
  · simp only [System.inner, OrdMap.get_filter]
    cases sys.veth[l]? with
    | none => rfl
    | some v =>
      by_cases hv : v.netns = n
      · have hvn : v.netns ≠ name := fun heq => hne (hv.symm.trans heq)
        simp [Option.filter, hvn]
      · by_cases hvn : v.netns = name <;> simp [Option.filter, hv, hvn, hne.symm]

theorem netns_del_leftAlone {os : Os} {name n : String} (hne : n ≠ name) :
    Always (OnSys (LeftAlone n)) (netns_del os name) := by
  refine command_always fun k sys a sys' hact => ?_
  split at hact
  · cases hact
    exact sys.delete_leftAlone hne
  · cases hact

theorem prepare_leftAlone (os : Os) (n : String) : Always (OnSys (LeftAlone n)) (prepare os) :=
  Always.bind (Always.context _ (Always.mono (fun _ _ h => h.leftAlone (by simp))
    (apply_bridge_local _))) fun _ => look_always fun _ _ _ h => by cases h; rfl

theorem apply_network_leftAlone (os : Os) (deploy : Deployment) (network : NetworkState)
    {n : String} (hn : starts_with n NETNS_PREFIX = false) :
    Always (OnSys (LeftAlone n)) (apply_network os deploy network) := by
  refine Always.mono (fun _ _ h => h.leftAlone fun heq => ?_) (apply_network_local os deploy network)
  rw [Option.some.inj heq, NetworkState.netns_name, starts_with_portName] at hn
  cases hn

theorem apply_nginx_leftAlone (os : Os) (deploy : Deployment) (networks : List NetworkState)
    (n : String) : Always (OnSys (LeftAlone n)) (apply_nginx os deploy networks) :=
  Always.bind (Always.liftE _) fun _ =>
    Always.bind (command_always fun _ _ _ _ h => by cases h; exact ⟨rfl, rfl, fun _ => rfl⟩) fun _ =>
    Always.bind (command_always fun _ _ _ _ h => by cases h; exact ⟨rfl, rfl, fun _ => rfl⟩) fun _ =>
    look_always fun _ _ _ h => by cases h; rfl

theorem remove_surplus_leftAlone (os : Os) (names expected : List String) {n : String}
    (hn : starts_with n NETNS_PREFIX = false) :
    Always (OnSys (LeftAlone n)) (remove_surplus os names expected) := by
  intro m
  refine Always.forM (fun name _ => ?_) m
  unfold skipIf
  split
  · exact Always.pure ()
  · next hs =>
    refine Always.context _ (netns_del_leftAlone fun heq => ?_)
    have hst := not_not.mp hs
    rw [← heq, hn] at hst
    cases hst

/-- A relation between systems, on the worlds that hold them. -/
def InWorld (S : System → System → Prop) (w w' : World) : Prop := S w.sys w'.sys

instance {S : System → System → Prop} [Std.Refl S] : Std.Refl (InWorld S) :=
  ⟨fun w => Std.Refl.refl w.sys⟩

instance {S : System → System → Prop} [IsTrans System S] : IsTrans World (InWorld S) :=
  ⟨fun _ _ _ h h' => IsTrans.trans (r := S) _ _ _ h h'⟩

theorem onMachine_always {α : Type} {S : System → System → Prop} {x : EStateM Fail Machine α}
    (h : Always (OnSys S) x) : Always (InWorld S) (onMachine x) :=
  Always.zoom (fun _ _ h => h) h

/-- A full request leaves the namespaces of others alone. -/
theorem apply_leftAlone (os : Os) (deploy : Deployment) (config : GatewayConfig) {n : String}
    (hn : starts_with n NETNS_PREFIX = false) :
    Always (InWorld (LeftAlone n)) (apply os deploy config) := by
  have hsame : ∀ f : World → World, (∀ w, (f w).machine = w.machine) →
      Always (InWorld (LeftAlone n)) (modify f : EStateM Fail World Unit) := by
    intro f hf w
    show LeftAlone n w.machine.sys (f w).machine.sys
    rw [hf]
    exact Std.Refl.refl w.machine.sys
  exact Always.bind (hsame _ fun _ => rfl) fun _ =>
    Always.bind (onMachine_always (prepare_leftAlone os n)) fun _ =>
    Always.bind (onMachine_always (remove_surplus_leftAlone os _ _ hn)) fun _ =>
    Always.bind (Always.forM fun e _ => Always.bind (hsame _ fun _ => rfl) fun _ =>
      onMachine_always (apply_network_leftAlone os deploy e.2 hn)) fun _ =>
    Always.bind (hsame _ fun _ => rfl) fun _ =>
      onMachine_always (Always.context _ (apply_nginx_leftAlone os deploy _ n))

end FractalGateway
