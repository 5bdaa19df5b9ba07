import Mathlib.Data.List.Perm.Basic
import FractalGateway.Gateway.Diffs
import FractalGateway.Gateway.WireguardConfig
import FractalGateway.Watchdog.Connectivity

/-! The watchdog watches what the manager configured.

    The gateway names a network's namespace and interface after its port, and the watchdog makes the
    interface's name out of the namespace's, cutting the prefix off. The two meet only on the
    machine: what the gateway left there is what the machine answers a poll with. After requests that
    succeeded a poll visits every configured network, under its port, key and peers, and no other. -/

namespace FractalGateway
open Std Exec

variable {w : ℕ}

/-- Statistics of an interface that runs a configuration. -/
structure Conf.Runs (keys : KeyText) (public_key : Privkey → Pubkey) (conf : Conf)
    (stats : NetworkStats w) : Prop where
  listen_port : toString stats.listen_port.toNat = conf.listen_port
  private_key : keys.privkey stats.private_key = conf.private_key
  public_key : stats.public_key = public_key stats.private_key
  peers : (stats.peers.map fun peer => keys.pubkey peer.public_key).Perm
    (conf.peers.map (·.public_key))

/-- How the machine answers a poll: with all its namespaces, in any order, and with the statistics of
    every WireGuard interface that was given a configuration. -/
structure Answers (keys : KeyText) (public_key : Privkey → Pubkey) (sys : System) (poll : Poll w) :
    Prop where
  netns_list : ∃ items, poll.netns_list = .ok items ∧ (items.map (·.name)).Perm sys.netns.keys
  wireguard_stats : ∀ (netns wgif : String) (iface : Iface) (text : String),
    sys.netns[netns]?.bind (·.wireguard[wgif]?) = some iface → iface.conf = some text →
      ∃ stats, poll.wireguard_stats netns wgif = .ok stats ∧
        (Conf.read text).Runs keys public_key stats

/-- The interface the watchdog asks for in a network's namespace is the network's. -/
theorem Poll.stats_portName (poll : Poll w) (port : UInt16) :
    poll.stats (portName NETNS_PREFIX port) =
      poll.wireguard_stats (portName NETNS_PREFIX port) (portName WIREGUARD_PREFIX port) := by
  have hdrop : (portName NETNS_PREFIX port).toList.drop 8 = (toString port.toNat).toList := by
    rw [portName, String.toList_append]
    rfl
  rw [Poll.stats, hdrop, String.ofList_toList]
  rfl

section
variable {deploy : Deployment} {config : GatewayConfig} {public_key : Privkey → Pubkey} {world : World}
  {poll : Poll w}

/-- The prefixed namespaces are those of the configured ports. -/
theorem Configured.asked_perm (h : Configured deploy config world)
    (hanswers : Answers deploy.keys public_key world.sys poll) :
    poll.asked.Perm (config.keys.map (portName NETNS_PREFIX)) := by
  obtain ⟨items, hitems, hperm⟩ := hanswers.netns_list
  have hasked : poll.asked.Perm (world.sys.netns.keys.filter (starts_with · NETNS_PREFIX)) := by
    rw [Poll.asked, hitems]
    exact hperm.filter _
  refine hasked.trans ((List.perm_ext_iff_of_nodup ?_ ?_).mpr fun n => ?_)
  · exact ExtTreeMap.nodup_keys.filter _
  · exact ExtTreeMap.nodup_keys.map (portName_injective _)
  · rw [List.mem_filter, ExtTreeMap.mem_keys, List.mem_map]
    constructor
    · rintro ⟨hn, hprefix⟩
      obtain ⟨port, hport, rfl⟩ := (h.names n hprefix).mp hn
      exact ⟨port, ExtTreeMap.mem_keys.mpr hport, rfl⟩
    · rintro ⟨port, hport, rfl⟩
      have hprefix := starts_with_portName NETNS_PREFIX port
      exact ⟨(h.names _ hprefix).mpr ⟨port, ExtTreeMap.mem_keys.mp hport, rfl⟩, hprefix⟩

/-- Statistics of the network configured on a port. -/
structure Watches (public_key : Privkey → Pubkey) (e : UInt16 × NetworkState) (stats : NetworkStats w) :
    Prop where
  listen_port : stats.listen_port = e.1
  public_key : stats.public_key = public_key e.2.private_key
  peers : (stats.peers.map (·.public_key)).Perm e.2.peers.keys

theorem Watches.of_runs (hkeys : deploy.keys.Legible) {port : UInt16} {network : NetworkState}
    {stats : NetworkStats w}
    (h : ({ network with listen_port := port }.conf deploy.keys).Runs deploy.keys public_key stats) :
    Watches public_key (port, network) stats := by
  refine ⟨UInt16.toNat_inj.mp (Text.toString_nat_injective h.listen_port), ?_, ?_⟩
  · rw [h.public_key, hkeys.privkey h.private_key]
  · have hperm := h.peers
    rw [NetworkState.conf, List.map_map] at hperm
    have hkeyed : network.peers.toList.map (fun p => deploy.keys.pubkey p.1) =
        network.peers.keys.map deploy.keys.pubkey := by
      rw [← ExtTreeMap.map_fst_toList_eq_keys, List.map_map]
      rfl
    have hperm : (stats.peers.map fun peer => deploy.keys.pubkey peer.public_key).Perm
        (network.peers.keys.map deploy.keys.pubkey) := hkeyed ▸ hperm
    rw [show (fun peer : PeerStats w => deploy.keys.pubkey peer.public_key) =
      deploy.keys.pubkey ∘ (·.public_key) from rfl, ← List.map_map] at hperm
    exact (List.map_perm_map_iff hkeys.pubkey).mp hperm

/-- The watchdog finds a configured network. -/
theorem Configured.found (h : Configured deploy config world) (hkeys : deploy.keys.Legible)
    (hanswers : Answers deploy.keys public_key world.sys poll) {port : UInt16} {network : NetworkState}
    (hget : config[port]? = some network) :
    ∃ stats, poll.stats (portName NETNS_PREFIX port) = .ok stats ∧
      Watches public_key (port, network) stats := by
  obtain ⟨rules, _, hview⟩ := h.shown port network hget
  have hrunning : (world.sys.wgif port).bind (·.conf) = _ := congrArg PortView.running hview
  obtain ⟨iface, hiface, hconf⟩ := Option.bind_eq_some_iff.mp hrunning
  obtain ⟨stats, hstats, hruns⟩ := hanswers.wireguard_stats _ _ iface _ hiface hconf
  rw [NetworkState.read_to_config hkeys] at hruns
  exact ⟨stats, (poll.stats_portName port).trans hstats, Watches.of_runs hkeys hruns⟩

theorem forall₂_filterMap {α β : Type} {R : α → β → Prop} {f : α → Option β} :
    ∀ {l : List α}, (∀ a ∈ l, ∃ b, f a = some b ∧ R a b) → List.Forall₂ R l (l.filterMap f)
  | [], _ => .nil
  | a :: l, h => by
      obtain ⟨b, hb, hab⟩ := h a List.mem_cons_self
      rw [List.filterMap_cons_some hb]
      exact .cons hab (forall₂_filterMap fun c hc => h c (List.mem_cons_of_mem _ hc))

/-- A poll visits the configured networks, each once, and nothing else. -/
theorem Configured.visits (h : Configured deploy config world) (hkeys : deploy.keys.Legible)
    (hanswers : Answers deploy.keys public_key world.sys poll) :
    ∃ visits, poll.visits.Perm visits ∧
      List.Forall₂ (Watches public_key) config.toList visits := by
  refine ⟨config.toList.filterMap fun e => (poll.stats (portName NETNS_PREFIX e.1)).toOption, ?_,
    forall₂_filterMap fun e he => ?_⟩
  · have hperm := (h.asked_perm hanswers).filterMap fun name => (poll.stats name).toOption
    rw [← Poll.visits_eq_asked, ← ExtTreeMap.map_fst_toList_eq_keys, List.map_map,
      List.filterMap_map] at hperm
    exact hperm
  · obtain ⟨stats, hstats, hwatches⟩ := h.found hkeys hanswers ((OrdMap.mem_toList_iff _ e.1 e.2).mp he)
    exact ⟨stats, toOption_some.mpr hstats, hwatches⟩

/-- The configured networks as the watchdog meets them. -/
def GatewayConfig.networks (config : GatewayConfig) (public_key : Privkey → Pubkey)
    (hkeys : (config.toList.map fun e => public_key e.2.private_key).Nodup) : Networks where
  nets := config.toList.map fun e =>
    ⟨portName NETNS_PREFIX e.1, e.1, public_key e.2.private_key⟩
  named := by
    intro n hn
    obtain ⟨e, _, rfl⟩ := List.mem_map.mp hn
    exact starts_with_portName NETNS_PREFIX e.1
  names := by
    have hnodup := (ExtTreeMap.nodup_keys (t := config)).map (portName_injective NETNS_PREFIX)
    rw [← ExtTreeMap.map_fst_toList_eq_keys, List.map_map] at hnodup
    rw [List.map_map]
    exact hnodup
  ports := by
    have hnodup := ExtTreeMap.nodup_keys (t := config)
    rw [← ExtTreeMap.map_fst_toList_eq_keys] at hnodup
    rw [List.map_map]
    exact hnodup
  keys := by
    rw [List.map_map]
    exact hkeys

theorem Configured.polled (h : Configured deploy config world) (hkeys : deploy.keys.Legible)
    (hdistinct : (config.toList.map fun e => public_key e.2.private_key).Nodup)
    (hanswers : Answers deploy.keys public_key world.sys poll) :
    (config.networks public_key hdistinct).Polled poll := by
  obtain ⟨items, hitems, _⟩ := hanswers.netns_list
  refine ⟨⟨items, hitems, ?_⟩, fun n hn stats hstats => ?_⟩
  · have hperm := h.asked_perm hanswers
    rw [Poll.asked, hitems, ← ExtTreeMap.map_fst_toList_eq_keys, List.map_map] at hperm
    rw [GatewayConfig.networks, List.map_map]
    exact hperm
  · obtain ⟨e, he, rfl⟩ := List.mem_map.mp hn
    obtain ⟨found, hfound, hwatches⟩ :=
      h.found hkeys hanswers ((OrdMap.mem_toList_iff _ e.1 e.2).mp he)
    obtain rfl : found = stats := Except.ok.inj (hfound.symm.trans hstats)
    exact ⟨hwatches.public_key, hwatches.listen_port,
      hwatches.peers.symm.nodup ExtTreeMap.nodup_keys⟩

end

/-- After requests that succeeded every poll visits the networks they configured, each once and under
    its port, key and peers, and the events replay to their connectivity. -/
theorem configured_networks_are_watched (os : Os) (deploy : Deployment) (config : GatewayConfig)
    (diffs : List GatewayConfigPartial) (hconfig : config.Keyed)
    (hdiffs : ∀ diff ∈ diffs, diff.Keyed) (world world₁ world₂ : World)
    (h₁ : (apply os deploy config).run world = .ok () world₁)
    (h₂ : (forM diffs (FractalGateway.apply_partial os deploy)).run world₁ = .ok () world₂)
    (hkeys : deploy.keys.Legible) (public_key : Privkey → Pubkey) (polls : List (Poll w))
    (hanswers : ∀ poll ∈ polls, Answers deploy.keys public_key world₂.sys poll) :
    let target := diffs.foldl GatewayConfig.apply_partial config
    (∀ poll ∈ polls, ∃ visits, poll.visits.Perm visits ∧
      List.Forall₂ (Watches public_key) target.toList visits) ∧
    ((target.toList.map fun e => public_key e.2.private_key).Nodup → ∀ g : Global,
      g.build = .release → (∀ n, g.events_broadcast n ≠ .refused) →
      (∀ n, g.traffic_broadcast n ≠ .refused) → (∀ poll ∈ polls, poll.Announceable) →
      (∀ poll ∈ polls, ∀ k x, (poll.clock k x).Ok) →
      ∀ n, ∃ d, (watchdog g (polls.take n)).run Daemon.start = .ok () d ∧
        replay PeerMap.empty (d.log.events.map Prod.fst) = connectivity (polls.take n)) := by
  intro target
  have hdescribes : Describes deploy target world₂ :=
    apply_partials_describe hconfig hdiffs (apply_describes h₁) h₂
  refine ⟨fun poll hp => hdescribes.toConfigured.visits hkeys (hanswers poll hp), ?_⟩
  intro hdistinct g hbuild hev htr hann hclock n
  have htake : ∀ poll ∈ polls.take n, poll ∈ polls := fun poll hp => List.mem_of_mem_take hp
  obtain ⟨d, hrun, htracks⟩ := (tracks_start (target.networks public_key hdistinct)).run hbuild hev htr
    (fun poll hp => hdescribes.toConfigured.polled hkeys hdistinct (hanswers poll (htake poll hp)))
    (fun poll hp => hann poll (htake poll hp)) (fun poll hp => hclock poll (htake poll hp))
  exact ⟨d, hrun, htracks.events⟩

/-! ### A network with one peer -/

namespace Sample

def legible : Deployment := { Bench.deploy with keys := base64Keys }

def tenant : NetworkState :=
  { onePeerNetwork 7 with address := [⟨.v4 (Ipv4Addr.new 10 1 0 1), 24⟩] }

/-- The machine after a request for one network and a diff that removes nothing. -/
def rented : World :=
  final ((forM [Bench.removal 7] (FractalGateway.apply_partial Bench.os legible)).run
    (final ((apply Bench.os legible (Bench.config 51820 tenant)).run Bench.world)))

/-- The statistics of the network, its peer connected. -/
def rentedStats : NetworkStats 64 :=
  { stats 9 51820 [peer 1 (some 50) 0] with private_key := ⟨3⟩ }

def rentedPoll : Poll 64 := poll 100 [("network-51820", rentedStats)]

theorem rented_running : ∀ e ∈ rented.sys.netns.toList, ∀ f ∈ e.2.wireguard.toList,
    e.1 = "network-51820" ∧ f.2.conf = some (tenant.to_config base64Keys) := by
  decide +kernel

theorem rented_answers : Answers base64Keys (fun _ => ⟨9⟩) rented.sys rentedPoll where
  netns_list := ⟨[⟨"network-51820", none⟩], rfl, .of_eq (by decide +kernel)⟩
  wireguard_stats := by
    intro netns wgif iface text hiface htext
    obtain ⟨ns, hns, hwg⟩ := Option.bind_eq_some_iff.mp hiface
    obtain ⟨hname, hconf⟩ := rented_running _ ((OrdMap.mem_toList_iff _ _ _).mpr hns) _
      ((OrdMap.mem_toList_iff _ _ _).mpr hwg)
    obtain rfl : netns = "network-51820" := hname
    obtain rfl : text = _ := Option.some.inj (htext.symm.trans hconf)
    refine ⟨rentedStats, by simp [rentedPoll, poll], ?_⟩
    rw [NetworkState.read_to_config base64Keys_legible]
    refine ⟨rfl, rfl, rfl, .of_eq ?_⟩
    decide +kernel

end Sample

theorem configured_networks_are_watched_rented :
    (∃ visits, Sample.rentedPoll.visits.Perm visits ∧
      List.Forall₂ (Watches fun _ => ⟨9⟩)
        ([Bench.removal 7].foldl GatewayConfig.apply_partial
          (Bench.config 51820 Sample.tenant)).toList visits) ∧
    ∃ d, (watchdog Sample.global [Sample.rentedPoll]).run Daemon.start = .ok () d ∧
      replay PeerMap.empty (d.log.events.map Prod.fst) ⟨9⟩ ⟨1⟩ ≠ none := by
  have hconfig : (Bench.config 51820 Sample.tenant).Keyed := by
    intro port network h
    obtain ⟨rfl, rfl⟩ := Bench.get_config h
    rfl
  have hdiffs : ∀ diff ∈ [Bench.removal 7], diff.Keyed := by
    intro diff hd port network h
    rw [List.mem_singleton.mp hd, Bench.removal, OrdMap.get_insert] at h
    split at h <;> simp at h
  have h := configured_networks_are_watched Bench.os Sample.legible (Bench.config 51820 Sample.tenant)
    [Bench.removal 7] hconfig hdiffs Bench.world _ Sample.rented (ok_of_returned (by decide +kernel))
    (ok_of_returned (by decide +kernel)) base64Keys_legible (fun _ => ⟨9⟩) [Sample.rentedPoll]
    fun poll hp => List.mem_singleton.mp hp ▸ Sample.rented_answers
  have hclock : (Sample.clock 100).Ok := by decide
  have hsent : Delivery.delivered ≠ .refused := by decide
  obtain ⟨d, hrun, hreplay⟩ := h.2 (by decide +kernel) Sample.global rfl (fun _ => hsent)
    (fun _ => hsent) (by decide +kernel) (fun poll hp k x => List.mem_singleton.mp hp ▸ hclock) 1
  refine ⟨h.1 _ List.mem_cons_self, d, hrun, ?_⟩
  rw [hreplay]
  decide +kernel

end FractalGateway
