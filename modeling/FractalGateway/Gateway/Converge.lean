import FractalGateway.Gateway.Neighbours
import FractalGateway.Gateway.Identity

/-! Applying a configuration determines the machine.

    `Describes config w` says that the world is as the configuration asks: it is stored, there are
    exactly its namespaces, each port has its view, and nginx has its table. A full `apply` that
    succeeds establishes it from any world at all, and two worlds described by one configuration
    look the same (`SameSystem`): the full path forgets what came before. -/

namespace FractalGateway
open Std Exec

/-! ### What a configuration describes -/

/-- The store and the machine are as a configuration asks, nginx apart. -/
structure Configured (deploy : Deployment) (config : GatewayConfig) (w : World) : Prop where
  stored : w.stored = config
  names : ∀ n, starts_with n NETNS_PREFIX = true →
    (n ∈ w.sys.netns ↔ ∃ port ∈ config, n = portName NETNS_PREFIX port)
  shown : ∀ (port : UInt16) (network : NetworkState), config[port]? = some network →
    Shows deploy { network with listen_port := port } w.sys

/-- The files of nginx are those of a configuration. -/
def Served (deploy : Deployment) (config : GatewayConfig) (sys : System) : Prop :=
  ∃ table, Forwarding.build deploy (config.rekeyed.map (·.2)) = .ok table ∧
    sys.nginx_module = some table.nginx_conf ∧ sys.nginx_site = some table.sites_nginx_conf

structure Describes (deploy : Deployment) (config : GatewayConfig) (w : World) : Prop
    extends Configured deploy config w where
  nginx : Served deploy config w.sys

/-- A network is seen through its port's view alone. -/
theorem Shows.of_view {deploy : Deployment} {network : NetworkState} {s s' : System}
    (h : Shows deploy network s) (hview : s'.view network.listen_port = s.view network.listen_port) :
    Shows deploy network s' := by
  obtain ⟨rules, hconfig, hv⟩ := h
  exact ⟨rules, hconfig, hview.trans hv⟩

/-- A network that is seen has its namespace. -/
theorem Shows.mem_netns {deploy : Deployment} {network : NetworkState} {sys : System}
    (h : Shows deploy network sys) : network.netns_name ∈ sys.netns := by
  obtain ⟨rules, _, hv⟩ := h
  have hnat := congrArg PortView.nat hv
  obtain ⟨ns, hns, _⟩ := Option.map_eq_some_iff.mp hnat
  exact (OrdMap.mem_iff_get _ _).mpr ⟨ns, hns⟩

/-! ### The parts of a request -/

section
variable {os : Os} {deploy : Deployment}

/-- Both requests begin by listing the namespaces there are; no view has changed by then. -/
theorem prepare_ok {names : List String} {m m' : Machine}
    (h : (prepare os).run m = .ok names m') :
    (∀ n, n ∈ names ↔ n ∈ m'.sys.netns) ∧
      (∀ n : String, m'.sys.netns[n]? = m.sys.netns[n]?) ∧
      SameViews m.sys m'.sys := by
  obtain ⟨_, t, hbridge, hlist⟩ := bind_ok_iff.mp h
  have hlocal := always_ok (apply_bridge_local _) (context_ok_iff.mp hbridge)
  obtain ⟨rfl, hsys⟩ := Prod.mk.inj (Option.some.inj (command_ok hlist))
  rw [← hsys]
  refine ⟨fun n => ExtTreeMap.mem_keys, fun n => hlocal.netns n (by simp), fun port => ?_⟩
  have hnetns := hlocal.netns (portName NETNS_PREFIX port) (by simp)
  have hfiles := hlocal.files (portName NETNS_PREFIX port) (by simp)
  have hlink := hlocal.link _ (portName_ne_bridge port)
  simp only [System.view, System.wgif, hnetns, hfiles, hlink]

/-- The loop deletes what it is given of the gateway's own namespaces. -/
theorem remove_loop_ok :
    ∀ {names : List String} {m m' : Machine},
      (forM names fun netns => skipIf (¬starts_with netns NETNS_PREFIX)
        (context "Removing surplus network namespace" (netns_del os netns))).run m = .ok () m' →
      ∀ n, m'.sys.netns[n]? =
        if n ∈ names ∧ starts_with n NETNS_PREFIX = true then none else m.sys.netns[n]?
  | [], m, m', h, n => by
      obtain ⟨_, rfl⟩ := pure_ok_iff.mp h
      simp
  | name :: names, m, m', h, n => by
      obtain ⟨_, t, hfirst, hrest⟩ := bind_ok_iff.mp h
      rw [remove_loop_ok hrest n]
      have hstep : t.sys.netns[n]? =
          if name = n ∧ starts_with n NETNS_PREFIX = true then none else m.sys.netns[n]? := by
        rcases skipIf_ok_iff.mp hfirst with ⟨hs, rfl⟩ | ⟨hs, hdel⟩
        · rw [if_neg]
          rintro ⟨rfl, hn⟩
          exact hs hn
        · obtain ⟨_, heq⟩ := netns_del_ok (context_ok_iff.mp hdel)
          rw [heq, OrdMap.get_erase]
          by_cases hn : name = n
          · rw [if_pos hn, if_pos ⟨hn, hn ▸ not_not.mp hs⟩]
          · rw [if_neg hn, if_neg fun h => hn h.1]
      rw [hstep]
      by_cases hs : starts_with n NETNS_PREFIX = true
      · by_cases hn : n = name
        · subst hn
          simp [hs]
        · simp [hs, hn, Ne.symm hn]
      · simp [hs]

/-- Of the gateway's own namespaces, those expected are left. -/
theorem remove_surplus_ok {names expected : List String} {m m' : Machine}
    (hall : ∀ n, n ∈ names ↔ n ∈ m.sys.netns)
    (h : (remove_surplus os names expected).run m = .ok () m') :
    ∀ n, starts_with n NETNS_PREFIX = true → n ∈ m'.sys.netns → n ∈ expected := by
  intro n hs hn
  obtain ⟨_, t, hget, hloop⟩ := bind_ok_iff.mp h
  cases hget
  have hafter := remove_loop_ok hloop n
  by_contra hne
  split at hafter
  · exact (OrdMap.not_mem_iff_get _ _).mpr hafter hn
  · next hnot =>
    refine hnot ⟨?_, hs⟩
    rw [(os.order_perm _ _).mem_iff, List.mem_filter]
    exact ⟨(hall n).mpr ((mem_netns_congr hafter).mp hn), decide_eq_true hne⟩

theorem handNetwork_ok {port : UInt16} {network : NetworkState} {w w' : World}
    (h : (handNetwork os deploy port network).run w = .ok () w') :
    (apply_network os deploy network).run w.machine = .ok () w'.machine ∧ w'.stored = w.stored := by
  refine ⟨?_, handNetwork_stored h⟩
  obtain ⟨_, t, hhand, hrest⟩ := bind_ok_iff.mp h
  cases hhand
  obtain ⟨m, hrun, rfl⟩ := zoom_ok_iff.mp hrest
  exact hrun

/-- What one network does to the machine. -/
structure Placed (deploy : Deployment) (network : NetworkState) (s s' : System) : Prop where
  shown : Shows deploy network s'
  others : ∀ port, port ≠ network.listen_port → s'.view port = s.view port
  names : ∀ n, n ∈ s'.netns ↔ n = network.netns_name ∨ n ∈ s.netns

theorem apply_network_placed {network : NetworkState} {m m' : Machine}
    (h : (apply_network os deploy network).run m = .ok () m') :
    Placed deploy network m.sys m'.sys := by
  have hlocal := always_ok (apply_network_local os deploy network) h
  have hshown := apply_network_ok h
  refine ⟨hshown, fun port hne => hlocal.view hne, fun n => ?_⟩
  by_cases hn : n = network.netns_name
  · subst hn
    exact ⟨fun _ => Or.inl rfl, fun _ => hshown.mem_netns⟩
  · rw [mem_netns_congr (hlocal.netns n fun heq => hn (Option.some.inj heq))]
    simp [hn]

/-- The loop over the networks shows each of them, once, on its own port. -/
theorem networks_ok :
    ∀ {networks : List (UInt16 × NetworkState)} {w w' : World},
      (∀ e ∈ networks, e.2.listen_port = e.1) → networks.Pairwise (fun a b => a.1 ≠ b.1) →
      (forM networks fun e => handNetwork os deploy e.1 e.2).run w = .ok () w' →
      w'.stored = w.stored ∧ (∀ e ∈ networks, Shows deploy e.2 w'.sys) ∧
        (∀ port, (∀ e ∈ networks, e.1 ≠ port) → w'.sys.view port = w.sys.view port) ∧
        ∀ n, n ∈ w'.sys.netns ↔ (∃ e ∈ networks, n = e.2.netns_name) ∨ n ∈ w.sys.netns
  | [], w, w', _, _, h => by
      obtain ⟨_, rfl⟩ := pure_ok_iff.mp h
      exact ⟨rfl, by simp, fun _ _ => rfl, by simp⟩
  | e :: es, w, w', hkeyed, hd, h => by
      obtain ⟨hhead, htail⟩ := List.pairwise_cons.mp hd
      obtain ⟨_, t, hfirst, hrest⟩ := bind_ok_iff.mp h
      obtain ⟨hrun, hstored⟩ := handNetwork_ok hfirst
      have hplaced := apply_network_placed hrun
      obtain ⟨hst, hshown, hothers, hnames⟩ :=
        networks_ok (fun e' he' => hkeyed e' (List.mem_cons_of_mem _ he')) htail hrest
      have hport := hkeyed e List.mem_cons_self
      refine ⟨hst.trans hstored, fun e' he' => ?_, fun port hp => ?_, fun n => ?_⟩
      · rcases List.mem_cons.mp he' with rfl | he'
        · refine hplaced.shown.of_view (hothers _ fun e'' he'' => ?_)
          rw [hport]
          exact (hhead e'' he'').symm
        · exact hshown e' he'
      · rw [hothers port fun e' he' => hp e' (List.mem_cons_of_mem _ he')]
        exact hplaced.others port fun heq => hp e List.mem_cons_self (hport.symm.trans heq.symm)
      · rw [hnames n, hplaced.names n]
        simp only [List.mem_cons, exists_eq_or_imp, or_assoc, or_left_comm]

/-- nginx gets the table of the networks, and nothing else changes. -/
theorem handNginx_ok {networks : List (UInt16 × NetworkState)} {w w' : World}
    (h : (handNginx os deploy networks).run w = .ok () w') :
    w'.stored = w.stored ∧ ∃ table, Forwarding.build deploy (networks.map (·.2)) = .ok table ∧
      w'.sys = { w.sys with
        nginx_module := some table.nginx_conf
        nginx_site := some table.sites_nginx_conf } := by
  obtain ⟨_, t, hhand, hrest⟩ := bind_ok_iff.mp h
  cases hhand
  obtain ⟨m, hrun, rfl⟩ := zoom_ok_iff.mp hrest
  obtain ⟨table, t₁, htable, h⟩ := bind_ok_iff.mp (context_ok_iff.mp hrun)
  obtain ⟨hbuild, rfl⟩ := liftE_ok_iff.mp htable
  obtain ⟨_, t₂, hmodule, h⟩ := bind_ok_iff.mp h
  obtain ⟨_, t₃, hsite, hreload⟩ := bind_ok_iff.mp h
  obtain ⟨_, h₂⟩ := Prod.mk.inj (Option.some.inj (command_ok hmodule))
  obtain ⟨_, h₃⟩ := Prod.mk.inj (Option.some.inj (command_ok hsite))
  obtain ⟨_, h₄⟩ := Prod.mk.inj (Option.some.inj (command_ok hreload))
  refine ⟨rfl, table, hbuild, ?_⟩
  show m.sys = _
  rw [← h₄, ← h₃, ← h₂]

/-- Writing nginx's files completes a description. -/
theorem Configured.describes {config : GatewayConfig} {networks : List (UInt16 × NetworkState)}
    {w w' : World} (ht : Configured deploy config w)
    (hnets : networks.map (·.2) = config.rekeyed.map (·.2))
    (h : (handNginx os deploy networks).run w = .ok () w') : Describes deploy config w' := by
  obtain ⟨hstored, table, htable, hsys⟩ := handNginx_ok h
  refine ⟨⟨hstored.trans ht.stored, fun n hn => ?_, fun port network hget => ?_⟩, table, ?_, ?_, ?_⟩
  · rw [hsys]
    exact ht.names n hn
  · refine (ht.shown port network hget).of_view ?_
    rw [hsys]
    rfl
  · rw [← hnets]
    exact htable
  · rw [hsys]
  · rw [hsys]

/-! ### The full path -/

theorem onMachine_ok {α : Type} {x : EStateM Fail Machine α} {w w' : World} {a : α}
    (h : (onMachine x).run w = .ok a w') :
    x.run w.machine = .ok a w'.machine ∧ w'.stored = w.stored := by
  obtain ⟨m, hrun, rfl⟩ := zoom_ok_iff.mp h
  exact ⟨hrun, rfl⟩

theorem GatewayConfig.mem_rekeyed {config : GatewayConfig} {e : UInt16 × NetworkState} :
    e ∈ config.rekeyed ↔
      ∃ network, config[e.1]? = some network ∧ e.2 = { network with listen_port := e.1 } := by
  rw [GatewayConfig.rekeyed, List.mem_map]
  constructor
  · rintro ⟨⟨port, network⟩, hm, rfl⟩
    exact ⟨network, (OrdMap.mem_toList_iff _ _ _).mp hm, rfl⟩
  · rintro ⟨network, hget, heq⟩
    exact ⟨(e.1, network), (OrdMap.mem_toList_iff _ _ _).mpr hget, by rw [← heq]⟩

theorem GatewayConfig.rekeyed_pairwise (config : GatewayConfig) :
    config.rekeyed.Pairwise (fun a b => a.1 ≠ b.1) :=
  List.pairwise_map.mpr (OrdMap.toList_pairwise config)

theorem GatewayConfig.rekeyed_keyed {config : GatewayConfig} :
    ∀ e ∈ config.rekeyed, e.2.listen_port = e.1 := by
  intro e he
  obtain ⟨network, _, heq⟩ := mem_rekeyed.mp he
  rw [heq]

/-- A namespace named after a rekeyed network is named after its port. -/
theorem GatewayConfig.exists_rekeyed_iff {config : GatewayConfig} {n : String} :
    (∃ e ∈ config.rekeyed, n = e.2.netns_name) ↔
      ∃ port ∈ config, n = portName NETNS_PREFIX port := by
  constructor
  · rintro ⟨e, he, rfl⟩
    obtain ⟨network, hget, heq⟩ := mem_rekeyed.mp he
    exact ⟨e.1, (OrdMap.mem_iff_get _ _).mpr ⟨network, hget⟩, by rw [heq]; rfl⟩
  · rintro ⟨port, hp, rfl⟩
    obtain ⟨network, hget⟩ := (OrdMap.mem_iff_get _ _).mp hp
    exact ⟨(port, { network with listen_port := port }), mem_rekeyed.mpr ⟨network, hget, rfl⟩, rfl⟩

/-- A full request that succeeds leaves the world its configuration describes. -/
theorem apply_describes {config : GatewayConfig} {w w' : World}
    (h : (apply os deploy config).run w = .ok () w') : Describes deploy config w' := by
  obtain ⟨_, t₁, hstore, h⟩ := bind_ok_iff.mp h
  cases hstore
  obtain ⟨names, t₂, hprep, h⟩ := bind_ok_iff.mp h
  obtain ⟨_, t₃, hremove, h⟩ := bind_ok_iff.mp h
  obtain ⟨_, t₄, hloop, hnginx⟩ := bind_ok_iff.mp h
  obtain ⟨hprep, hst₂⟩ := onMachine_ok hprep
  obtain ⟨hremove, hst₃⟩ := onMachine_ok hremove
  obtain ⟨hlisted, _, _⟩ := prepare_ok hprep
  have hleft := remove_surplus_ok hlisted hremove
  obtain ⟨hst₄, hshown, _, hnames⟩ :=
    networks_ok GatewayConfig.rekeyed_keyed config.rekeyed_pairwise hloop
  refine Configured.describes ⟨?_, fun n hn => ?_, fun port network hget => ?_⟩ rfl hnginx
  · rw [hst₄, hst₃, hst₂]
  · rw [hnames n, ← GatewayConfig.exists_rekeyed_iff]
    refine ⟨?_, Or.inl⟩
    rintro (hex | hold)
    · exact hex
    · obtain ⟨e, he, heq⟩ := List.mem_map.mp (hleft n hn hold)
      exact ⟨e, he, heq.symm⟩
  · exact hshown (port, { network with listen_port := port })
      (GatewayConfig.mem_rekeyed.mpr ⟨network, hget, rfl⟩)

end

/-! ### Worlds that look the same -/

/-- The same stored configuration, namespaces of the gateway, views and nginx files. -/
structure SameSystem (w w' : World) : Prop where
  stored : w'.stored = w.stored
  names : ∀ n, starts_with n NETNS_PREFIX = true → (n ∈ w'.sys.netns ↔ n ∈ w.sys.netns)
  views : ∀ port, portName NETNS_PREFIX port ∈ w.sys.netns → w'.sys.view port = w.sys.view port
  nginx_module : w'.sys.nginx_module = w.sys.nginx_module
  nginx_site : w'.sys.nginx_site = w.sys.nginx_site

/-- A configuration describes one world, as far as it can be seen. -/
theorem Describes.sameSystem {deploy : Deployment} {config : GatewayConfig} {w w' : World}
    (h : Describes deploy config w) (h' : Describes deploy config w') : SameSystem w w' := by
  obtain ⟨table, hbuild, hmodule, hsite⟩ := h.nginx
  obtain ⟨table', hbuild', hmodule', hsite'⟩ := h'.nginx
  obtain rfl : table = table' := Except.ok.inj (hbuild.symm.trans hbuild')
  refine ⟨h'.stored.trans h.stored.symm, fun n hn => (h'.names n hn).trans (h.names n hn).symm,
    fun port hp => ?_, hmodule'.trans hmodule.symm, hsite'.trans hsite.symm⟩
  obtain ⟨port', hin, heq⟩ := (h.names _ (starts_with_portName _ _)).mp hp
  obtain rfl := portName_injective _ heq
  obtain ⟨network, hget⟩ := (OrdMap.mem_iff_get _ _).mp hin
  obtain ⟨rules, hrules, hview⟩ := h.shown port network hget
  obtain ⟨rules', hrules', hview'⟩ := h'.shown port network hget
  obtain rfl : rules = rules' := Except.ok.inj (hrules.symm.trans hrules')
  exact hview'.trans hview.symm

/-- A full request that succeeds determines what is seen of the system, whatever was stored and
    configured before, and leaves the namespaces of others exactly as they were. -/
theorem apply_forgets_the_past (os₁ os₂ : Os) (deploy : Deployment) (config : GatewayConfig)
    (w₁ w₂ w₁' w₂' : World) (h₁ : (apply os₁ deploy config).run w₁ = .ok () w₁')
    (h₂ : (apply os₂ deploy config).run w₂ = .ok () w₂') :
    (∀ n, starts_with n NETNS_PREFIX = true →
      (n ∈ w₁'.sys.netns ↔ ∃ port ∈ config, n = portName NETNS_PREFIX port) ∧
      (n ∈ w₂'.sys.netns ↔ ∃ port ∈ config, n = portName NETNS_PREFIX port)) ∧
    SameSystem w₁' w₂' ∧
    ∀ n, starts_with n NETNS_PREFIX = false →
      LeftAlone n w₁.sys w₁'.sys ∧ LeftAlone n w₂.sys w₂'.sys := by
  have hd₁ := apply_describes h₁
  have hd₂ := apply_describes h₂
  refine ⟨fun n hn => ⟨hd₁.names n hn, hd₂.names n hn⟩, hd₁.sameSystem hd₂, fun n hn => ⟨?_, ?_⟩⟩
  · exact (apply_leftAlone os₁ deploy config hn).of_ok h₁
  · exact (apply_leftAlone os₂ deploy config hn).of_ok h₂

theorem apply_forgets_the_past_bench :
    SameSystem
      (final ((apply Bench.os Bench.deploy (Bench.config 5000 (Bench.bare 5000))).run Bench.world))
      (final ((apply Bench.os Bench.deploy (Bench.config 5000 (Bench.bare 5000))).run
        Bench.messy)) :=
  (apply_forgets_the_past Bench.os Bench.os Bench.deploy (Bench.config 5000 (Bench.bare 5000))
    Bench.world Bench.messy _ _ (ok_of_returned (by decide +kernel))
    (ok_of_returned (by decide +kernel))).2.1

end FractalGateway
