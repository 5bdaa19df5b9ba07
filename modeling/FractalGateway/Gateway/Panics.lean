import FractalGateway.Gateway.Mirror
import FractalGateway.Gateway.Proxy

/-! Configurations that crash the gateway, and those that do not.

    Commands report errors. The panics are all in what is computed between them: the source address
    of a network without addresses, and the port of a target beyond the last one, in a build that
    checks its additions. A request whose networks have an address each, and no more targets than
    there are ports (`Sound`), is answered by success or an error, and leaves stored what the next
    diff can be put together with. -/

namespace FractalGateway
open Std Exec

/-! ### What is computed -/

/-- A network with an address, and with a port for each of its targets where the build checks. -/
structure NetworkState.Sound (build : Build) (network : NetworkState) : Prop where
  address : network.address ≠ []
  fits : build = .release ∨ network.targets.length ≤ 63536

theorem mappingPort_release (i : ℕ) :
    mappingPort .release i = .ok (PORT_MAPPING_START + UInt16.ofNat i) := by
  simp [mappingPort, pure, Except.pure]

/-- Every target gets a port. -/
theorem NetworkState.port_mappings_ok {build : Build} {network : NetworkState}
    (h : build = .release ∨ network.targets.length ≤ 63536) :
    ∃ mappings, network.port_mappings build = .ok mappings := by
  rcases h with rfl | hlen
  · refine ⟨_, mapM_ok (g := fun t => (t.1.1, PORT_MAPPING_START + UInt16.ofNat t.2, t.1.2)) ?_⟩
    rintro t _
    rw [mappingPort_release]
    rfl
  · exact ⟨_, NetworkState.port_mappings_eq hlen build⟩

theorem NetworkState.Sound.port_config {build : Build} {network : NetworkState}
    (h : network.Sound build) : ∃ config, network.port_config build = .ok config := by
  obtain ⟨address, haddr⟩ := Option.ne_none_iff_exists'.mp (mt List.head?_eq_none_iff.mp h.address)
  obtain ⟨mappings, hmap⟩ := NetworkState.port_mappings_ok h.fits
  exact ⟨_, by rw [NetworkState.port_config, haddr, hmap]; rfl⟩

theorem foldlM_ok {α β : Type} {f : β → α → Except Fail β} :
    ∀ {l : List α}, (∀ a ∈ l, ∀ b, ∃ c, f b a = .ok c) → ∀ b, ∃ c, l.foldlM f b = .ok c
  | [], _, b => ⟨b, rfl⟩
  | a :: l, h, b => by
      obtain ⟨c, hc⟩ := h a List.mem_cons_self b
      obtain ⟨d, hd⟩ := foldlM_ok (fun a' ha' => h a' (List.mem_cons_of_mem _ ha')) c
      refine ⟨d, ?_⟩
      rw [List.foldlM_cons, hc]
      exact hd

/-- The URLs that are proxied have hosts. -/
theorem Forwarding.addMapping_ok (self : Forwarding) (deploy : Deployment) (url : Url)
    (socket : SocketAddr) : ∃ forwarding, self.addMapping deploy url socket = .ok forwarding := by
  have hhost : url.scheme = "http" ∨ url.scheme = "https" → ∃ host, url.host = .ok host := by
    intro hs
    obtain ⟨host, hh⟩ := Option.isSome_iff_exists.mp (url.http_has_host hs)
    exact ⟨host, by rw [Url.host, hh]; rfl⟩
  unfold Forwarding.addMapping
  split
  · next hs =>
    obtain ⟨host, hh⟩ := hhost (Or.inr hs)
    exact ⟨_, by rw [Forwarding.add_https, hh]; rfl⟩
  · split
    · next hs =>
      obtain ⟨host, hh⟩ := hhost (Or.inl hs)
      exact ⟨_, by rw [Forwarding.add_http, hh]; rfl⟩
    · split
      · exact ⟨self, rfl⟩
      · exact ⟨self, rfl⟩

theorem Forwarding.build_ok (deploy : Deployment) {networks : List NetworkState}
    (h : ∀ network ∈ networks, network.Sound deploy.build) :
    ∃ forwarding, Forwarding.build deploy networks = .ok forwarding := by
  have hadd : ∀ network ∈ networks, ∀ self : Forwarding,
      ∃ forwarding, self.add deploy network = .ok forwarding := by
    intro network hn self
    obtain ⟨mappings, hmap⟩ := NetworkState.port_mappings_ok (h network hn).fits
    rw [Forwarding.add, hmap]
    exact foldlM_ok (fun m _ b => b.addMapping_ok deploy _ _) self
  obtain ⟨middle, hmiddle⟩ := foldlM_ok hadd Forwarding.new
  rw [Forwarding.build, hmiddle]
  refine foldlM_ok (fun c _ b => ?_) middle
  rw [Forwarding.add_custom_eq]
  exact b.addMapping_ok deploy c.1 c.2

/-! ### Commands and requests -/

theorem command_calm {α : Type} (os : Os) (act : ℕ → System → Option (α × System)) :
    Calm (command os act) := by
  intro m reason m' h
  simp only [command, EStateM.run] at h
  split at h <;> cases h

theorem onIface_calm {α : Type} (os : Os) (netns : Option String) (interface : String)
    (act : Iface → System → Option (α × System)) : Calm (onIface os netns interface act) :=
  command_calm _ _

section
variable {os : Os} {deploy : Deployment}

theorem apply_addr_calm (netns : Option String) (interface : String) (target : List IpNet) :
    Calm (apply_addr os netns interface target) :=
  Calm.bind (onIface_calm _ _ _ _) fun _ =>
    Calm.forM fun _ _ => Calm.skipIf (onIface_calm _ _ _ _)

theorem apply_interface_up_calm (netns : Option String) (interface : String) :
    Calm (apply_interface_up os netns interface) :=
  Calm.bind (onIface_calm _ _ _ _) fun _ => Calm.skipIf (onIface_calm _ _ _ _)

theorem prepare_calm : Calm (prepare os) :=
  Calm.bind (Calm.context _ <| Calm.bind (command_calm _ _) fun _ =>
    Calm.bind (Calm.skipIf (command_calm _ _)) fun _ =>
    Calm.bind (Calm.context _ (apply_addr_calm _ _ _)) fun _ =>
    Calm.context _ (apply_interface_up_calm _ _)) fun _ => command_calm _ _

theorem apply_wireguard_calm (network : NetworkState) : Calm (apply_wireguard os deploy network) := by
  refine Calm.bind (command_calm _ _) fun _ => Calm.bind (Calm.skipIf (command_calm _ _)) fun _ =>
    Calm.bind (onIface_calm _ _ _ _) fun shown => Calm.bind (Calm.liftE fun reason => ?_) fun _ =>
    Calm.bind (Calm.skipIf (onIface_calm _ _ _ _)) fun _ =>
    Calm.bind (Calm.context _ (apply_interface_up_calm _ _)) fun _ =>
    Calm.bind (command_calm _ _) fun _ =>
    Calm.bind (Calm.context _ (apply_addr_calm _ _ _)) fun _ => command_calm _ _
  split
  · exact nofun
  · exact nofun

theorem apply_veth_calm (network : NetworkState) : Calm (apply_veth os network) :=
  Calm.bind (command_calm _ _) fun _ => Calm.bind (Calm.skipIf (command_calm _ _)) fun _ =>
    Calm.bind (Calm.context _ (apply_addr_calm _ _ _)) fun _ =>
    Calm.bind (Calm.context _ <| Calm.bind (onIface_calm _ _ _ _) fun _ =>
      Calm.skipIf (Calm.context _ (onIface_calm _ _ _ _))) fun _ =>
    Calm.bind (Calm.context _ (apply_interface_up_calm _ _)) fun _ =>
    Calm.context _ (apply_interface_up_calm _ _)

theorem apply_network_calm {network : NetworkState} (h : network.Sound deploy.build) :
    Calm (apply_network os deploy network) := by
  obtain ⟨config, hconfig⟩ := h.port_config
  refine Calm.bind (Calm.bind (command_calm _ _) fun _ => Calm.skipIf (command_calm _ _)) fun _ =>
    Calm.bind (apply_wireguard_calm network) fun _ => Calm.bind (apply_veth_calm network) fun _ =>
    Calm.bind (Calm.liftE fun reason => ?_) fun _ => Calm.bind (command_calm _ _) fun _ =>
    Calm.skipIf (command_calm _ _)
  rw [hconfig]
  exact nofun

theorem apply_nginx_calm {networks : List NetworkState}
    (h : ∀ network ∈ networks, network.Sound deploy.build) :
    Calm (apply_nginx os deploy networks) := by
  obtain ⟨table, htable⟩ := Forwarding.build_ok deploy h
  refine Calm.bind (Calm.liftE fun reason => ?_) fun _ => Calm.bind (command_calm _ _) fun _ =>
    Calm.bind (command_calm _ _) fun _ => command_calm _ _
  rw [htable]
  exact nofun

theorem handNetwork_calm (port : UInt16) {network : NetworkState}
    (h : network.Sound deploy.build) : Calm (handNetwork os deploy port network) :=
  Calm.bind (fun _ _ _ h => by cases h) fun _ => Calm.zoom (apply_network_calm h)

theorem handNginx_calm {networks : List (UInt16 × NetworkState)}
    (h : ∀ e ∈ networks, e.2.Sound deploy.build) : Calm (handNginx os deploy networks) := by
  refine Calm.bind (fun _ _ _ h => by cases h) fun _ =>
    Calm.zoom (Calm.context _ (apply_nginx_calm fun network hn => ?_))
  obtain ⟨e, he, rfl⟩ := List.mem_map.mp hn
  exact h e he

/-- Every network of a configuration is sound. -/
def GatewayConfig.Sound (build : Build) (config : GatewayConfig) : Prop :=
  ∀ (port : UInt16) (network : NetworkState), config[port]? = some network → network.Sound build

/-- Every network a diff sets is sound. -/
def GatewayConfigPartial.Sound (build : Build) (diff : GatewayConfigPartial) : Prop :=
  ∀ (port : UInt16) (network : NetworkState),
    diff[port]? = some (some network) → network.Sound build

theorem GatewayConfig.Sound.apply_partial {build : Build} {config : GatewayConfig}
    {diff : GatewayConfigPartial} (hc : config.Sound build) (hd : diff.Sound build) :
    (config.apply_partial diff).Sound build := by
  intro port network h
  rw [GatewayConfig.get_apply_partial] at h
  cases hg : diff[port]? with
  | none => rw [hg] at h; exact hc port network h
  | some entry => rw [hg] at h; subst h; exact hd port network hg

theorem GatewayConfigPartial.Sound.below {build : Build} {diff : GatewayConfigPartial}
    (h : diff.Sound build) (bound : ℕ) : (diff.below bound).Sound build := by
  intro port network hget
  rw [GatewayConfigPartial.below, OrdMap.get_filter] at hget
  exact h port network (Option.filter_eq_some_iff.mp hget).1

theorem apply_calm {config : GatewayConfig} (h : config.Sound deploy.build) :
    Calm (apply os deploy config) := by
  have hstate : ∀ e ∈ config.rekeyed, e.2.Sound deploy.build := by
    intro e he
    obtain ⟨network, hget, heq⟩ := GatewayConfig.mem_rekeyed.mp he
    obtain ⟨haddr, hfits⟩ := h e.1 network hget
    rw [heq]
    exact ⟨haddr, hfits⟩
  exact Calm.bind (fun _ _ _ h => by cases h) fun _ => Calm.bind (Calm.zoom prepare_calm) fun _ =>
    Calm.bind (Calm.zoom (Calm.bind (fun _ _ _ h => by cases h) fun _ =>
      Calm.forM fun _ _ => Calm.skipIf (Calm.context _ (command_calm _ _)))) fun _ =>
    Calm.bind (Calm.forM fun e he => handNetwork_calm e.1 (hstate e he)) fun _ =>
    handNginx_calm hstate

theorem apply_entry_calm (names : List String) {entry : UInt16 × Option NetworkState}
    (h : ∀ network ∈ entry.2, network.Sound deploy.build) :
    Calm (apply_entry os deploy names entry) := by
  obtain ⟨port, _ | network⟩ := entry
  · exact Calm.bind (fun _ _ _ h => by cases h) fun _ => Calm.zoom (Calm.skipIf (command_calm _ _))
  · exact Calm.bind (handNetwork_calm port (h network rfl)) fun _ _ _ _ h => by cases h

/-- What the diff leaves stored is put together with nginx's table. -/
theorem apply_partial_calm {diff : GatewayConfigPartial} {w w' : World} {reason : String}
    (hw : w.stored.Sound deploy.build) (hd : diff.Sound deploy.build) :
    (FractalGateway.apply_partial os deploy diff).run w ≠ .error (.panic reason) w' := by
  intro h
  rcases bind_error_iff.mp h with hprep | ⟨names, t, hprep, h⟩
  · exact Calm.zoom prepare_calm _ _ _ hprep
  rcases bind_error_iff.mp h with hloop | ⟨_, u, hloop, h⟩
  · refine Calm.forM (fun e he => apply_entry_calm names fun network hn => ?_) _ _ _ hloop
    refine hd e.1 network ?_
    rw [← show e.2 = some network from hn]
    exact (OrdMap.mem_toList_iff diff e.1 e.2).mp he
  rcases bind_error_iff.mp h with hget | ⟨_, v, hget, hnginx⟩
  · cases hget
  · cases hget
    refine handNginx_calm (fun e he => ?_) _ _ _ hnginx
    have hstored : u.stored = w.stored.apply_partial diff := by
      rw [apply_entries_stored hloop, (onMachine_ok hprep).2]
      rfl
    rw [hstored] at he
    exact hw.apply_partial hd e.1 e.2 ((OrdMap.mem_toList_iff _ _ _).mp he)

end

/-! ### Runs -/

/-- A request all of whose networks are sound. -/
def GatewayRequest.Sound (build : Build) : GatewayRequest → Prop
  | .apply config => config.Sound build
  | .applyPartial diff => diff.Sound build
  | .shutdown => True

/-- Every request of a run is answered, with success or an error. -/
def Answered (os : Os) (deploy : Deployment) : List GatewayRequest → World → Prop
  | [], _ => True
  | request :: requests, w =>
    panicked ((respond os deploy request).run w) = false ∧
      Answered os deploy requests (final ((respond os deploy request).run w))

/-- One request, from sound networks to sound networks. -/
theorem respond_sound {os : Os} {deploy : Deployment} {w : World}
    (hw : w.stored.Sound deploy.build) :
    ∀ {request : GatewayRequest}, request.Sound deploy.build →
      panicked ((respond os deploy request).run w) = false ∧
        (final ((respond os deploy request).run w)).stored.Sound deploy.build
  | .shutdown, _ => ⟨rfl, hw⟩
  | .apply config, h => by
      refine ⟨panicked_eq_false (apply_calm h w), ?_⟩
      rw [respond, apply_stored]
      exact h
  | .applyPartial diff, h => by
      refine ⟨panicked_eq_false fun _ _ => apply_partial_calm hw h, ?_⟩
      rw [respond]
      cases hrun : (FractalGateway.apply_partial os deploy diff).run w with
      | ok _ w' =>
        rw [final_ok, apply_partial_stored hrun]
        exact hw.apply_partial h
      | error e w' =>
        obtain ⟨bound, hstored⟩ := apply_partial_error_stored hrun
        rw [final_error, hstored]
        exact hw.apply_partial (GatewayConfigPartial.Sound.below h bound)

theorem answered_of_sound {os : Os} {deploy : Deployment} :
    ∀ {requests : List GatewayRequest} {w : World}, w.stored.Sound deploy.build →
      (∀ request ∈ requests, request.Sound deploy.build) → Answered os deploy requests w
  | [], _, _, _ => trivial
  | _ :: _, _, hw, h => by
      obtain ⟨hfirst, hrest⟩ := List.forall_mem_cons.mp h
      obtain ⟨hcalm, hnext⟩ := respond_sound hw hfirst
      exact ⟨hcalm, answered_of_sound hnext hrest⟩

/-- No run of requests crashes the gateway, on any machine, if each of their networks has an address
    and, in a build that checks its additions, at most 63536 targets. -/
theorem sound_requests_are_answered (os : Os) (deploy : Deployment)
    (requests : List GatewayRequest) (w : World) (hw : w.stored = ∅)
    (h : ∀ request ∈ requests, request.Sound deploy.build) : Answered os deploy requests w := by
  refine answered_of_sound (fun port network hget => ?_) h
  rw [hw] at hget
  simp at hget

theorem sound_requests_are_answered_bench :
    Answered Bench.os Bench.deploy
      [.apply (Bench.config 5000 (Bench.network 5000)), .applyPartial (Bench.removal 5000)]
      Bench.world := by
  refine sound_requests_are_answered Bench.os Bench.deploy _ Bench.world rfl fun request hr => ?_
  rcases List.mem_cons.mp hr with rfl | hr
  · intro port network hget
    obtain ⟨rfl, rfl⟩ := Bench.get_config hget
    exact ⟨by simp [Bench.network], Or.inr (by decide)⟩
  · rw [List.mem_singleton.mp hr]
    intro port network hget
    exact absurd hget Bench.get_removal

/-- A network without addresses takes the gateway down. -/
theorem unaddressed_network_panics :
    ¬Answered Bench.os Bench.deploy
      [.apply (Bench.config 5000 { Bench.bare 5000 with address := [] })] Bench.world := by
  intro h
  have hpanic : panicked ((respond Bench.os Bench.deploy
      (.apply (Bench.config 5000 { Bench.bare 5000 with address := [] }))).run Bench.world) =
        true := by
    decide +kernel
  rw [h.1] at hpanic
  cases hpanic

end FractalGateway
