import FractalGateway.Gateway.Diffs
import FractalGateway.Gateway.NginxConfig

/-! Connections through the machine as it was left.

    After a request that succeeded the machine has two files of nginx and a nat table in every
    namespace, all of them texts. Following the texts, from a host through nginx to the servers of
    its upstream and from a server's port through the rules of the namespace to a destination, leads
    to the targets the manager listed for the host, to the servers of the command line, and nowhere
    else. -/

namespace FractalGateway
open Std Exec Directives Text

/-! ### Legible configurations -/

/-- Words are encoded as words, and the hosts of the command line are words. -/
structure Deployment.Legible (deploy : Deployment) : Prop where
  base32 : ∀ host, Word host → Word (deploy.base32 host)
  custom : ∀ c ∈ deploy.custom_forwarding, c.1.Legible

/-- The hosts of a configuration are words. -/
def GatewayConfig.Legible (config : GatewayConfig) : Prop :=
  ∀ (port : UInt16) (network : NetworkState), config[port]? = some network →
    ∀ url ∈ network.proxy, url.Legible

theorem Forwarding.table_legible {deploy : Deployment} {networks : List NetworkState}
    (hdeploy : deploy.Legible) (h : ∀ network ∈ networks, ∀ url ∈ network.proxy, url.Legible)
    (scheme : Scheme) : ((table deploy networks).side scheme).Legible := by
  refine pushAll_legible hdeploy.base32 (fun push hpush => ?_) scheme
  rcases List.mem_append.mp hpush with hn | hc
  · obtain ⟨network, hnetwork, hin⟩ := List.mem_flatMap.mp hn
    obtain ⟨c, hc, rfl⟩ := List.mem_map.mp hin
    obtain ⟨targets, hget, _⟩ := (NetworkState.mem_contributions hc).2
    exact h network hnetwork c.url ((OrdMap.mem_iff_get _ _).mpr ⟨targets, hget⟩)
  · exact hdeploy.custom push hc

/-- An entry of the command line is in its host's upstream. -/
theorem Forwarding.table_custom {deploy : Deployment} (networks : List NetworkState)
    {c : Url × SocketAddr} (hc : c ∈ deploy.custom_forwarding) {scheme : Scheme} {host : String}
    (hhost : c.1.hostOn scheme = some host) :
    ∃ upstream, ((table deploy networks).side scheme).forwarding[host]? = some upstream := by
  have hpush : (host, c.2) ∈ pushesOn scheme
      (networks.flatMap NetworkState.pushes ++ deploy.custom_forwarding) :=
    List.mem_filterMap.mpr ⟨c, List.mem_append_right _ hc, by rw [hhost]; rfl⟩
  rw [table, pushAll_side, Upstreams.addAll_forwarding, if_pos (List.mem_map_of_mem hpush)]
  exact ⟨_, rfl⟩

/-! ### What the machine does with a connection -/

/-- The file nginx has for a scheme. -/
def System.file (sys : System) : Scheme → Option String
  | .https => sys.nginx_module
  | .http => sys.nginx_site

/-- Where nginx takes a connection to a host, by the files it has. -/
def System.servers (sys : System) (scheme : Scheme) (host : String) : Option (List String) :=
  (sys.file scheme).bind fun text => (Directives.read text).bind fun file =>
    (hostUpstream file host scheme).bind (serversOf file scheme)

/-- Where the namespace of a port sends a connection that comes in on its veth. -/
def System.destination (sys : System) (port dport : UInt16) : Option SocketAddr :=
  sys.netns[portName NETNS_PREFIX port]?.bind fun ns =>
    (readNat ns.nat).bind fun rules => firstDnat rules (portName VETH_PREFIX port) dport

section
variable {deploy : Deployment} {config : GatewayConfig} {w : World}

theorem GatewayConfig.rekeyed_short
    (hlen : ∀ (port : UInt16) (network : NetworkState), config[port]? = some network →
      network.targets.length ≤ 63536) :
    ∀ network ∈ config.rekeyed.map (·.2), network.targets.length ≤ 63536 := by
  intro network hn
  obtain ⟨e, he, rfl⟩ := List.mem_map.mp hn
  obtain ⟨network, hget, heq⟩ := GatewayConfig.mem_rekeyed.mp he
  rw [heq]
  exact hlen e.1 network hget

/-- The files of nginx say what the table of the configuration says. -/
theorem Served.servers_eq_some {sys : System} (h : Served deploy config sys)
    (hlen : ∀ (port : UInt16) (network : NetworkState), config[port]? = some network →
      network.targets.length ≤ 63536) (hdeploy : deploy.Legible) (hconfig : config.Legible)
    {scheme : Scheme} {host : String} {servers : List String} :
    sys.servers scheme host = some servers ↔ ∃ upstream list,
      ((Forwarding.table deploy (config.rekeyed.map (·.2))).side scheme).forwarding[host]? =
          some upstream ∧
        ((Forwarding.table deploy (config.rekeyed.map (·.2))).side scheme).upstream[upstream]? =
          some list ∧ list.map SocketAddr.text = servers := by
  obtain ⟨table, hbuild, hmodule, hsite⟩ := h
  rw [Forwarding.build_eq deploy (GatewayConfig.rekeyed_short hlen)] at hbuild
  have htable : Forwarding.table deploy (config.rekeyed.map (·.2)) = table := Except.ok.inj hbuild
  have hwords : ∀ network ∈ config.rekeyed.map (·.2), ∀ url ∈ network.proxy, url.Legible := by
    intro network hn
    obtain ⟨e, he, rfl⟩ := List.mem_map.mp hn
    obtain ⟨network, hget, heq⟩ := GatewayConfig.mem_rekeyed.mp he
    rw [heq]
    exact hconfig e.1 network hget
  have hlegible := Forwarding.table_legible hdeploy hwords scheme
  have hfile : sys.file scheme = some (table.file scheme) := by
    cases scheme with
    | https => exact hmodule
    | http => exact hsite
  rw [htable] at hlegible ⊢
  rw [System.servers, hfile, Option.bind_some, Forwarding.read_file hlegible, Option.bind_some,
    table.hostUpstream_eq]
  simp only [Option.bind_eq_some_iff, table.serversOf_eq, Option.map_eq_some_iff, exists_and_left]

/-- The nat table in a network's namespace says what the network's rules say. -/
theorem Shows.destination_eq {network : NetworkState} {sys : System} (h : Shows deploy network sys)
    (dport : UInt16) : sys.destination network.listen_port dport =
      (network.natRules deploy.build).bind fun rules => firstDnat rules network.veth_name dport := by
  obtain ⟨config, hconfig, hview⟩ := h
  obtain ⟨ns, hns, hnat⟩ := Option.map_eq_some_iff.mp (congrArg PortView.nat hview)
  rw [System.destination, hns, Option.bind_some, NetworkState.readNat_eq hconfig hnat]
  rfl

end

/-- Connections go where a configuration lists targets for their host and to the servers of the
    command line, and nowhere else. -/
structure Serves (deploy : Deployment) (config : GatewayConfig) (sys : System) : Prop where
  reached : ∀ (port : UInt16) (network : NetworkState), config[port]? = some network →
    ∀ (scheme : Scheme) (url : Url) (targets : List SocketAddr) (target : SocketAddr),
      url.scheme = scheme.text → network.proxy[url]? = some targets → target ∈ targets →
      ∃ (host : String) (servers : List String) (dport : UInt16), url.host_str = some host ∧
        sys.servers scheme host = some servers ∧
        (SocketAddr.v4 (vethNet port).addr dport).text ∈ servers ∧
        sys.destination port dport = some target
  custom : ∀ c ∈ deploy.custom_forwarding, ∀ (scheme : Scheme) (host : String),
    c.1.hostOn scheme = some host →
      ∃ servers, sys.servers scheme host = some servers ∧ c.2.text ∈ servers
  only : ∀ (scheme : Scheme) (host : String) (servers : List String),
    sys.servers scheme host = some servers → ∀ server ∈ servers,
      (∃ c ∈ deploy.custom_forwarding, c.1.hostOn scheme = some host ∧ server = c.2.text) ∨
      ∃ (port dport : UInt16) (network : NetworkState) (url : Url) (targets : List SocketAddr),
        config[port]? = some network ∧ network.proxy[url]? = some targets ∧
        url.hostOn scheme = some host ∧ server = (SocketAddr.v4 (vethNet port).addr dport).text ∧
        ∃ target ∈ targets, sys.destination port dport = some target

section
variable {deploy : Deployment} {config : GatewayConfig} {w : World}
  (hlen : ∀ (port : UInt16) (network : NetworkState), config[port]? = some network →
    network.targets.length ≤ 63536)
include hlen

/-- The namespace of a port sends each of the network's servers to its target. -/
theorem Configured.destinations (h : Configured deploy config w) {port : UInt16}
    {network : NetworkState} (hget : config[port]? = some network) (hv4 : network.Ipv4) :
    ∀ c ∈ NetworkState.contributions { network with listen_port := port },
      w.sys.destination port c.server.port = some c.target := by
  obtain ⟨config', hconfig, _⟩ := h.shown port network hget
  obtain ⟨address, _, haddr, _⟩ := NetworkState.port_config_ok hconfig
  have hne : ({ network with listen_port := port } : NetworkState).address ≠ [] := by
    intro hnil
    rw [hnil] at haddr
    cases haddr
  have hshort : ({ network with listen_port := port } : NetworkState).targets.length ≤ 63536 :=
    hlen port network hget
  obtain ⟨nat, _, hnat, _, hserve⟩ :=
    NetworkState.rules_serve hshort deploy.build hne ⟨hv4.targets, hv4.address⟩
  intro c hc
  refine ((h.shown port network hget).destination_eq c.server.port).trans ?_
  rw [hnat, Option.bind_some]
  exact (hserve c hc).1

theorem Describes.serves (h : Describes deploy config w) (hbase : Function.Injective deploy.base32)
    (hdeploy : deploy.Legible) (hconfig : config.Legible) (hv4 : config.Ipv4) :
    Serves deploy config w.sys := by
  have htable := Forwarding.table_servers hbase (config.rekeyed.map (·.2))
  refine ⟨fun port network hget scheme url targets target hscheme hurl htarget => ?_,
    fun c hc scheme host hon => ?_, fun scheme host servers hfound server hserver => ?_⟩
  · have hproxies : network.Proxies :=
      ⟨scheme, url, targets, hscheme, hurl, List.ne_nil_of_mem htarget⟩
    have hurl' : ({ network with listen_port := port } : NetworkState).proxy[url]? = some targets := hurl
    obtain ⟨c, hc, rfl, rfl⟩ := NetworkState.contribution_of_mem hurl' htarget
    have hmem : { network with listen_port := port } ∈ config.rekeyed.map (·.2) :=
      List.mem_map.mpr ⟨(port, { network with listen_port := port }),
        GatewayConfig.mem_rekeyed.mpr ⟨network, hget, rfl⟩, rfl⟩
    obtain ⟨host, hhost⟩ := Option.isSome_iff_exists.mp (c.url.proxied_has_host hscheme)
    have hon : c.url.hostOn scheme = some host := Url.hostOn_eq_some.mpr ⟨hscheme, hhost⟩
    obtain ⟨upstream, hup⟩ : ∃ upstream, ((Forwarding.table deploy (config.rekeyed.map (·.2))).side
        scheme).forwarding[host]? = some upstream := Forwarding.table_forwarding _ hmem hc hon
    refine ⟨host, _, c.server.port, hhost, (h.nginx.servers_eq_some hlen hdeploy hconfig).mpr
      ⟨upstream, _, hup, htable scheme host upstream hup, rfl⟩, ?_,
      h.toConfigured.destinations hlen hget (hv4 port network hget hproxies) c hc⟩
    rw [← NetworkState.contribution_server hc]
    exact List.mem_map_of_mem (List.mem_append_left _ (List.mem_map_of_mem (List.mem_flatMap.mpr
      ⟨_, hmem, List.mem_filter.mpr ⟨hc, decide_eq_true hon⟩⟩)))
  · obtain ⟨upstream, hup⟩ := Forwarding.table_custom (config.rekeyed.map (·.2)) hc hon
    refine ⟨_, (h.nginx.servers_eq_some hlen hdeploy hconfig).mpr
      ⟨upstream, _, hup, htable scheme host upstream hup, rfl⟩, ?_⟩
    exact List.mem_map_of_mem (List.mem_append_right _ (List.mem_map_of_mem
      (List.mem_filter.mpr ⟨hc, decide_eq_true hon⟩)))
  · obtain ⟨upstream, list, hup, hlist, rfl⟩ :=
      (h.nginx.servers_eq_some hlen hdeploy hconfig).mp hfound
    obtain rfl := Option.some.inj (hlist.symm.trans (htable scheme host upstream hup))
    obtain ⟨socket, hsocket, rfl⟩ := List.mem_map.mp hserver
    rcases List.mem_append.mp hsocket with hnet | hcustom
    · obtain ⟨c, hc, rfl⟩ := List.mem_map.mp hnet
      obtain ⟨_, hn, hon⟩ := List.mem_flatMap.mp hc
      obtain ⟨e, he, rfl⟩ := List.mem_map.mp hn
      obtain ⟨network, hget, heq⟩ := GatewayConfig.mem_rekeyed.mp he
      rw [heq] at hon
      have hproxies : NetworkState.Proxies { network with listen_port := e.1 } :=
        NetworkState.proxies_of_contributedOn hon
      obtain ⟨hin, hon⟩ := List.mem_filter.mp hon
      obtain ⟨targets, hurl, htarget⟩ := (NetworkState.mem_contributions hin).2
      exact Or.inr ⟨e.1, c.server.port, network, c.url, targets, hget, hurl, of_decide_eq_true hon,
        congrArg SocketAddr.text (NetworkState.contribution_server hin), c.target,
        List.mem_of_getElem? htarget,
        h.toConfigured.destinations hlen hget (hv4 _ _ hget hproxies) c hin⟩
    · obtain ⟨c, hc, rfl⟩ := List.mem_map.mp hcustom
      obtain ⟨hin, hon⟩ := List.mem_filter.mp hc
      exact Or.inl ⟨c, hin, of_decide_eq_true hon, rfl⟩

end

/-- After a request and diffs that succeeded, with IPv4 addresses in the rules of what is proxied, the
    texts on the machine lead every connection to a proxied host to a target listed for that host, and
    to every one of them. -/
theorem connections_follow_the_texts (os : Os) (deploy : Deployment) (config : GatewayConfig)
    (diffs : List GatewayConfigPartial) (hconfig : config.Keyed)
    (hdiffs : ∀ diff ∈ diffs, diff.Keyed) (w w₁ w₂ : World)
    (h₁ : (apply os deploy config).run w = .ok () w₁)
    (h₂ : (forM diffs (FractalGateway.apply_partial os deploy)).run w₁ = .ok () w₂)
    (hbase : Function.Injective deploy.base32) (hdeploy : deploy.Legible)
    (hhosts : (diffs.foldl GatewayConfig.apply_partial config).Legible)
    (hlen : ∀ (port : UInt16) (network : NetworkState),
      (diffs.foldl GatewayConfig.apply_partial config)[port]? = some network →
        network.targets.length ≤ 63536)
    (hv4 : (diffs.foldl GatewayConfig.apply_partial config).Ipv4) :
    Serves deploy (diffs.foldl GatewayConfig.apply_partial config) w₂.sys :=
  (apply_partials_describe hconfig hdiffs (apply_describes h₁) h₂).serves hlen hbase hdeploy hhosts
    hv4

namespace Bench

theorem deploy_legible : deploy.Legible where
  base32 _ := base32_word
  custom c hc := by cases hc

/-- A machine with one network, that came with a diff. -/
def proxied : World :=
  final ((forM [diff 6000 (network 6000)] (FractalGateway.apply_partial os deploy)).run
    (final ((apply os deploy ∅).run world)))

theorem get_proxied {port : UInt16} {found : NetworkState}
    (h : ([diff 6000 (network 6000)].foldl GatewayConfig.apply_partial ∅)[port]? = some found) :
    found = network 6000 := by
  rw [List.foldl_cons, List.foldl_nil, GatewayConfig.get_apply_partial] at h
  split at h
  · next entry hentry =>
    subst h
    exact (get_diff hentry).2.symm
  · simp at h

end Bench

theorem connections_follow_the_texts_bench : ∃ servers dport,
    Bench.proxied.sys.servers .https "a.example" = some servers ∧
    (SocketAddr.v4 (vethNet 6000).addr dport).text ∈ servers ∧
    Bench.proxied.sys.destination 6000 dport = some (.v4 (Ipv4Addr.new 10 0 0 2) 8080) := by
  have h := connections_follow_the_texts Bench.os Bench.deploy ∅ [Bench.diff 6000 (Bench.network 6000)]
    (fun port network h => by simp at h) ?_ Bench.world _ Bench.proxied
    (ok_of_returned (by decide +kernel)) (ok_of_returned (by decide +kernel)) Bench.base32_injective
    Bench.deploy_legible ?_ ?_ ?_
  · have hget : ([Bench.diff 6000 (Bench.network 6000)].foldl GatewayConfig.apply_partial ∅)[
        (6000 : UInt16)]? = some (Bench.network 6000) := by
      simp [GatewayConfig.get_apply_partial, Bench.diff]
    obtain ⟨host, servers, dport, hhost, hservers, hserver, hdest⟩ := h.reached 6000 _ hget .https
      Bench.url _ (.v4 (Ipv4Addr.new 10 0 0 2) 8080) rfl
      ((OrdMap.get_insert _ _ _ _).trans (if_pos rfl)) List.mem_cons_self
    cases hhost
    exact ⟨servers, dport, hservers, hserver, hdest⟩
  · intro diff hd port network h
    rw [List.mem_singleton.mp hd] at h
    obtain ⟨rfl, rfl⟩ := Bench.get_diff h
    rfl
  · intro port network h
    rw [Bench.get_proxied h]
    exact Bench.network_legible 6000
  · intro port network h
    rw [Bench.get_proxied h]
    decide
  · intro port network h _
    rw [Bench.get_proxied h]
    exact ⟨by decide, by decide⟩

end FractalGateway
