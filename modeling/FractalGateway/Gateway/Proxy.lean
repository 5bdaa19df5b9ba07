import Mathlib.Data.List.Induction
import Mathlib.Data.List.Nodup
import FractalGateway.Gateway.Apply
import FractalGateway.Gateway.NatTable

/-! Where a proxied connection goes: nginx and the nat rules agree, as long as the rules are IPv4.

    Both are generated from the same numbered list of a network's targets, separately. Seen from
    that list, an entry (a URL and a position among its targets) contributes one server to the proxy
    table, the veth address with the entry's port, and one pair of rules. The proxy table is then a
    closed form of the contributions (`Upstreams.addAll_upstream`), and the ports of one network's
    entries are different, so the first rule on a port is the entry's own.

    The rules are what the kernel reads of the file the gateway hands it. A file that names an IPv6
    address is read as no rules at all, so one such target leaves its whole network without them. -/

namespace FractalGateway
open Std Exec

/-! ### What a network contributes -/

/-- A target of a network, with its URL, its place among the URL's targets, and the server nginx
    reaches it by. -/
structure Contribution where
  url : Url
  index : ℕ
  target : SocketAddr
  server : SocketAddr

/-- The targets with their places. -/
def NetworkState.entries (network : NetworkState) : List (Url × ℕ × SocketAddr) :=
  network.proxy.toList.flatMap fun p => p.2.zipIdx.map fun t => (p.1, t.2, t.1)

/-- The server of the `i`-th target: the veth address and a port counted from 2000. -/
def NetworkState.server (network : NetworkState) (i : ℕ) : SocketAddr :=
  SocketAddr.new (.v4 network.veth_ipv4net.addr) (PORT_MAPPING_START + UInt16.ofNat i)

@[simp] theorem NetworkState.server_ip (network : NetworkState) (i : ℕ) :
    (network.server i).ip = .v4 network.veth_ipv4net.addr := SocketAddr.ip_new _ _

@[simp] theorem NetworkState.server_port (network : NetworkState) (i : ℕ) :
    (network.server i).port = PORT_MAPPING_START + UInt16.ofNat i := SocketAddr.port_new _ _

def NetworkState.contributions (network : NetworkState) : List Contribution :=
  network.entries.zipIdx.map fun e => ⟨e.1.1, e.1.2.1, e.1.2.2, network.server e.2⟩

theorem NetworkState.targets_eq (network : NetworkState) :
    network.targets = network.entries.map fun e => (e.1, e.2.2) := by
  simp only [NetworkState.targets, NetworkState.entries, List.map_flatMap]
  refine List.flatMap_congr fun p _ => ?_
  rw [List.map_map]
  conv_lhs => rw [← List.zipIdx_map_fst 0 p.2, List.map_map]
  rfl

/-- The targets are those of the contributions. -/
theorem NetworkState.targets_eq_contributions (network : NetworkState) :
    network.targets = network.contributions.map fun c => (c.url, c.target) := by
  rw [network.targets_eq, NetworkState.contributions, List.map_map]
  conv_lhs => rw [← List.zipIdx_map_fst 0 network.entries, List.map_map]
  rfl

theorem mapM_ok {α β : Type} {f : α → Except Fail β} {g : α → β} {l : List α}
    (h : ∀ a ∈ l, f a = .ok (g a)) : l.mapM f = .ok (l.map g) :=
  mapM_ok_iff.mpr (List.forall₂_map_right_iff.mpr (List.forall₂_same.mpr h))

/-- Up to 63536 targets the ports are in range. -/
theorem mappingPort_ok {build : Build} {i : ℕ} (h : i < 63536) :
    mappingPort build i = .ok (PORT_MAPPING_START + UInt16.ofNat i) := by
  have hstart : PORT_MAPPING_START.toNat = 2000 := rfl
  rw [mappingPort, if_neg (by rw [hstart]; omega)]
  rfl

theorem mappingPort_injective {i j : ℕ} (hi : i < 63536) (hj : j < 63536)
    (h : PORT_MAPPING_START + UInt16.ofNat i = PORT_MAPPING_START + UInt16.ofNat j) : i = j := by
  have hn := congrArg UInt16.toNat h
  have hstart : PORT_MAPPING_START.toNat = 2000 := rfl
  simp only [UInt16.toNat_add, UInt16.toNat_ofNat', hstart] at hn
  omega

section
variable {network : NetworkState} (hlen : network.targets.length ≤ 63536)
include hlen

theorem NetworkState.entries_length : network.entries.length ≤ 63536 := by
  rw [network.targets_eq, List.length_map] at hlen
  exact hlen

/-- The numbered list nginx and the rules are made from. -/
theorem NetworkState.port_mappings_eq (build : Build) :
    network.port_mappings build =
      .ok (network.contributions.map fun c => (c.url, c.server.port, c.target)) := by
  have hmap : network.targets.zipIdx.mapM (fun t => do
      let port ← mappingPort build t.2
      return (t.1.1, port, t.1.2)) = .ok (network.targets.zipIdx.map fun t =>
        (t.1.1, PORT_MAPPING_START + UInt16.ofNat t.2, t.1.2)) := by
    refine mapM_ok fun t ht => ?_
    have hlt := List.snd_lt_of_mem_zipIdx ht
    rw [mappingPort_ok (by omega)]
    rfl
  rw [NetworkState.port_mappings, hmap, network.targets_eq, List.zipIdx_map]
  simp [NetworkState.contributions]

/-- Two entries of a network are reached on different ports. -/
theorem NetworkState.contributions_nodup :
    (network.contributions.map fun c => c.server.port).Nodup := by
  have hfst : network.contributions.map (fun c => c.server.port) =
      (network.entries.zipIdx.map Prod.snd).map fun i => PORT_MAPPING_START + UInt16.ofNat i := by
    rw [NetworkState.contributions, List.map_map, List.map_map]
    exact List.map_congr_left fun e _ => network.server_port e.2
  rw [hfst]
  refine List.Nodup.map_on ?_ (by rw [List.zipIdx_map_snd]; exact List.nodup_range' _)
  have hbound : ∀ i ∈ network.entries.zipIdx.map Prod.snd, i < 63536 := by
    intro i hi
    obtain ⟨e, he, rfl⟩ := List.mem_map.mp hi
    have hlt := List.snd_lt_of_mem_zipIdx he
    have := NetworkState.entries_length hlen
    omega
  exact fun i hi j hj h => mappingPort_injective (hbound i hi) (hbound j hj) h

end

/-- A contribution is a target listed in the network, in its place. -/
theorem NetworkState.mem_contributions {network : NetworkState} {c : Contribution}
    (h : c ∈ network.contributions) :
    c.server.ip = .v4 network.veth_ipv4net.addr ∧
      ∃ targets, network.proxy[c.url]? = some targets ∧ targets[c.index]? = some c.target := by
  obtain ⟨⟨⟨url, index, target⟩, i⟩, he, rfl⟩ := List.mem_map.mp h
  refine ⟨network.server_ip i, ?_⟩
  obtain ⟨⟨u, targets⟩, hp, ht⟩ := List.mem_flatMap.mp (List.fst_mem_of_mem_zipIdx he)
  obtain ⟨⟨t, j⟩, hj, heq⟩ := List.mem_map.mp ht
  cases heq
  exact ⟨targets, (OrdMap.mem_toList_iff _ _ _).mp hp, List.mk_mem_zipIdx_iff_getElem?.mp hj⟩

/-- Every target listed in the network is contributed. -/
theorem NetworkState.contribution_of_mem {network : NetworkState} {url : Url}
    {targets : List SocketAddr} {target : SocketAddr} (hurl : network.proxy[url]? = some targets)
    (ht : target ∈ targets) : ∃ c ∈ network.contributions, c.url = url ∧ c.target = target := by
  obtain ⟨j, hj⟩ := List.mem_iff_getElem?.mp ht
  have he : (url, j, target) ∈ network.entries :=
    List.mem_flatMap.mpr ⟨(url, targets), (OrdMap.mem_toList_iff _ _ _).mpr hurl,
      List.mem_map.mpr ⟨(target, j), List.mk_mem_zipIdx_iff_getElem?.mpr hj, rfl⟩⟩
  obtain ⟨i, hi⟩ := List.mem_iff_getElem?.mp he
  exact ⟨_, List.mem_map.mpr ⟨((url, j, target), i), List.mk_mem_zipIdx_iff_getElem?.mpr hi, rfl⟩,
    rfl, rfl⟩

/-! ### The rules of a network -/

/-- The rules the kernel reads of a network's rule file. -/
def NetworkState.natRules (build : Build) (network : NetworkState) : Option (List NatRule) :=
  match network.port_config build with
  | .ok config => readNat (clean_iptables config.render)
  | .error _ => none

/-- The addresses in a network's rules are IPv4 ones. -/
structure NetworkState.Ipv4 (network : NetworkState) : Prop where
  targets : ∀ entry ∈ network.targets, entry.2.ip.is_ipv4
  address : ∀ address ∈ network.address.head?, address.addr.is_ipv4

/-- The rules made from contributions. -/
def rulesOf (veth wgif : String) (source : IpAddr) (cs : List Contribution) : List Rule :=
  cs.map (fun c => .prerouting veth c.server.port c.target.ip c.target.port) ++
    cs.map (fun c => .postrouting wgif c.target.port source)

theorem NetworkState.rules_eq {network : NetworkState} (hlen : network.targets.length ≤ 63536)
    (build : Build) {address : IpNet} (haddr : network.address.head? = some address) :
    ∃ config, network.port_config build = .ok config ∧
      config.rules = rulesOf network.veth_name network.wgif_name address.addr network.contributions := by
  refine ⟨_, by rw [NetworkState.port_config, haddr, NetworkState.port_mappings_eq hlen]; rfl, ?_⟩
  simp only [PortConfig.rules, rulesOf, List.map_map]
  rfl

/-- The kernel has a table that compares equal to a network's rule file for the network's rules. -/
theorem NetworkState.readNat_eq {build : Build} {network : NetworkState} {config : PortConfig}
    (h : network.port_config build = .ok config) {nat : String}
    (hnat : clean_iptables nat = clean_iptables config.render) :
    readNat nat = network.natRules build := by
  have hunbroken := network.rules_unbroken h
  unfold NetworkState.natRules
  rw [h]
  dsimp only
  rw [PortConfig.readNat_eq hunbroken hnat,
    PortConfig.readNat_eq hunbroken (clean_iptables_render h)]

theorem NetworkState.natRules_eq {network : NetworkState} (hlen : network.targets.length ≤ 63536)
    (build : Build) {address : IpNet} (haddr : network.address.head? = some address) :
    network.natRules build = (rulesOf network.veth_name network.wgif_name address.addr
      network.contributions).mapM Rule.nat := by
  obtain ⟨config, hok, hrules⟩ := NetworkState.rules_eq hlen build haddr
  rw [← NetworkState.readNat_eq hok rfl,
    PortConfig.readNat_eq (NetworkState.rules_unbroken hok) rfl, hrules]

/-- The first rule on a port, found among the rules as they were written. -/
theorem firstDnat_eq {rules : List Rule} {nat : List NatRule} (h : rules.mapM Rule.nat = some nat)
    (interface : String) (dport : UInt16) :
    firstDnat nat interface dport =
      rules.findSome? fun rule => rule.nat.bind (NatRule.sends interface dport) := by
  have hsends : nat.findSome? (NatRule.sends interface dport) =
      (nat.map some).findSome? fun rule => rule.bind (NatRule.sends interface dport) := by
    rw [List.findSome?_map]
    rfl
  rw [firstDnat, hsends, ← mapM_some_iff.mp h, List.findSome?_map]
  rfl

/-- With one rule a port, the first rule on a port is the port's. -/
theorem findSome_prerouting (veth : String) {c : Contribution} (hv4 : c.target.ip.is_ipv4) :
    ∀ {cs : List Contribution}, (cs.map fun c => c.server.port).Nodup → c ∈ cs →
      cs.findSome? (fun d => (Rule.prerouting veth d.server.port d.target.ip d.target.port).nat.bind
        (NatRule.sends veth c.server.port)) = some c.target
  | d :: cs, hd, hc => by
      rw [List.map_cons, List.nodup_cons] at hd
      rw [List.findSome?_cons]
      rcases List.mem_cons.mp hc with rfl | hc
      · cases htarget : c.target with
        | v4 ip port => simp [SocketAddr.ip, SocketAddr.port, Rule.nat, NatRule.sends]
        | v6 ip port flowinfo scope_id =>
          rw [htarget] at hv4
          cases hv4
      · have hne : d.server.port ≠ c.server.port :=
          fun h => hd.1 (List.mem_map.mpr ⟨c, hc, h.symm⟩)
        have hnone : (Rule.prerouting veth d.server.port d.target.ip d.target.port).nat.bind
            (NatRule.sends veth c.server.port) = none := by
          cases d.target.ip <;> simp [Rule.nat, NatRule.sends, hne]
        rw [hnone]
        exact findSome_prerouting veth hv4 hd.2 hc

/-! ### The proxy table -/

/-- The schemes that are proxied. -/
inductive Scheme where | http | https
  deriving DecidableEq

def Scheme.text : Scheme → String
  | .http => "http"
  | .https => "https"

/-- A scheme's side of the proxy table. -/
def Forwarding.side (self : Forwarding) : Scheme → Upstreams
  | .http => self.http
  | .https => self.https

/-- The name of a host's upstream. -/
def upstreamName (base32 : String → String) (scheme : Scheme) (host : String) : String :=
  scheme.text ++ "_" ++ base32 host

theorem upstreamName_injective {base32 : String → String} (h : Function.Injective base32)
    (scheme : Scheme) : Function.Injective (upstreamName base32 scheme) := by
  intro a b hab
  have hl := congrArg String.toList hab
  simp only [upstreamName, String.toList_append, List.append_cancel_left_eq] at hl
  exact h (String.toList_inj.mp hl)

/-- Push servers one after the other, each for its host. -/
def Upstreams.addAll (base32 : String → String) (scheme : Scheme)
    (pushes : List (String × SocketAddr)) : Upstreams :=
  pushes.foldl (fun side p => side.add base32 scheme.text p.1 p.2) ⟨∅, ∅⟩

section Closed
variable {base32 : String → String} {scheme : Scheme}

theorem Upstreams.addAll_append (pushes : List (String × SocketAddr)) (p : String × SocketAddr) :
    addAll base32 scheme (pushes ++ [p]) =
      (addAll base32 scheme pushes).add base32 scheme.text p.1 p.2 := by
  simp [addAll, List.foldl_append]

/-- A host that was pushed to has its own upstream; the others have none. -/
theorem Upstreams.addAll_forwarding (pushes : List (String × SocketAddr)) (host : String) :
    (addAll base32 scheme pushes).forwarding[host]? =
      if host ∈ pushes.map Prod.fst then some (upstreamName base32 scheme host) else none := by
  induction pushes using List.reverseRecOn with
  | nil => simp [addAll]
  | append_singleton pushes p ih =>
    rw [addAll_append, Upstreams.add, OrdMap.get_insert]
    simp only [List.map_append, List.mem_append, List.map_cons, List.map_nil, List.mem_singleton]
    by_cases hp : p.1 = host
    · subst hp
      rw [if_pos rfl, ih, if_pos (Or.inr rfl)]
      split <;> rfl
    · rw [if_neg hp, ih]
      simp only [Ne.symm hp, or_false]

/-- The upstream of a host holds what was pushed to it, in order. -/
theorem Upstreams.addAll_upstream (h : Function.Injective base32)
    (pushes : List (String × SocketAddr)) (host : String) :
    (addAll base32 scheme pushes).upstream[upstreamName base32 scheme host]? =
      if host ∈ pushes.map Prod.fst then
        some ((pushes.filter fun p => decide (p.1 = host)).map Prod.snd) else none := by
  induction pushes using List.reverseRecOn with
  | nil => simp [addAll]
  | append_singleton pushes p ih =>
    have hname : (addAll base32 scheme pushes).forwarding[p.1]?.getD
        (scheme.text ++ "_" ++ base32 p.1) = upstreamName base32 scheme p.1 := by
      rw [addAll_forwarding]
      split <;> rfl
    rw [addAll_append, Upstreams.add, hname, OrdMap.get_upsert]
    simp only [List.map_append, List.mem_append, List.map_cons, List.map_nil, List.mem_singleton]
    by_cases hp : p.1 = host
    · subst hp
      rw [if_pos rfl, ih, if_pos (Or.inr rfl)]
      by_cases hm : p.1 ∈ pushes.map Prod.fst
      · simp [if_pos hm]
      · have hnil : pushes.filter (fun q => decide (q.1 = p.1)) = [] := by
          rw [List.filter_eq_nil_iff]
          intro q hq heq
          exact hm (List.mem_map.mpr ⟨q, hq, of_decide_eq_true heq⟩)
        simp [if_neg hm, hnil]
    · rw [if_neg fun heq => hp (upstreamName_injective h scheme heq), ih]
      simp only [Ne.symm hp, or_false]
      simp [hp]

/-- Every upstream is some host's. -/
theorem Upstreams.addAll_upstream_host (pushes : List (String × SocketAddr)) (upstream : String)
    (servers : List SocketAddr)
    (hup : (addAll base32 scheme pushes).upstream[upstream]? = some servers) :
    ∃ host : String, (addAll base32 scheme pushes).forwarding[host]? = some upstream := by
  induction pushes using List.reverseRecOn generalizing servers with
  | nil => simp [addAll] at hup
  | append_singleton pushes p ih =>
    rw [addAll_append, Upstreams.add, OrdMap.get_upsert] at hup
    rw [addAll_append, Upstreams.add]
    split at hup
    · next heq => exact ⟨p.1, by rw [OrdMap.get_insert, if_pos rfl, heq]⟩
    · obtain ⟨host, hhost⟩ := ih servers hup
      refine ⟨host, ?_⟩
      rw [OrdMap.get_insert]
      split
      · next heq => subst heq; rw [hhost]; rfl
      · exact hhost

end Closed

/-- The host of a proxied URL. -/
def Url.hostOn (url : Url) (scheme : Scheme) : Option String :=
  if url.scheme = scheme.text then url.host_str else none

/-- What is pushed to a scheme's side, of servers given with their URLs. -/
def pushesOn (scheme : Scheme) (pushes : List (Url × SocketAddr)) : List (String × SocketAddr) :=
  pushes.filterMap fun p => (p.1.hostOn scheme).map fun host => (host, p.2)

/-- Push servers with their URLs. -/
def Forwarding.pushAll (deploy : Deployment) (pushes : List (Url × SocketAddr)) : Forwarding where
  https := Upstreams.addAll deploy.base32 .https (pushesOn .https pushes)
  http := Upstreams.addAll deploy.base32 .http (pushesOn .http pushes)
  ssh_forwarding := ∅

theorem Forwarding.pushAll_side (deploy : Deployment) (pushes : List (Url × SocketAddr))
    (scheme : Scheme) :
    (pushAll deploy pushes).side scheme =
      Upstreams.addAll deploy.base32 scheme (pushesOn scheme pushes) := by
  cases scheme <;> rfl

/-- Adding a server for a URL is pushing it last; a proxied URL has a host. -/
theorem Forwarding.addMapping_pushAll (deploy : Deployment) (pushes : List (Url × SocketAddr))
    (url : Url) (socket : SocketAddr) :
    (pushAll deploy pushes).addMapping deploy url socket =
      .ok (pushAll deploy (pushes ++ [(url, socket)])) := by
  unfold Forwarding.addMapping
  by_cases hs : url.scheme = "https"
  · obtain ⟨host, hhost⟩ := Option.isSome_iff_exists.mp (url.http_has_host (Or.inr hs))
    rw [if_pos hs, Forwarding.add_https, Url.host, hhost]
    simp [pushAll, pushesOn, Url.hostOn, hs, hhost, Scheme.text, Upstreams.addAll_append]
    rfl
  · by_cases hh : url.scheme = "http"
    · obtain ⟨host, hhost⟩ := Option.isSome_iff_exists.mp (url.http_has_host (Or.inl hh))
      rw [if_neg hs, if_pos hh, Forwarding.add_http, Url.host, hhost]
      simp [pushAll, pushesOn, Url.hostOn, hh, hhost, Scheme.text, Upstreams.addAll_append]
      rfl
    · rw [if_neg hs, if_neg hh]
      have hskip : ∀ scheme : Scheme, url.hostOn scheme = none := by
        rintro (_ | _) <;> simp [Url.hostOn, Scheme.text, hs, hh]
      have hsame : pushAll deploy (pushes ++ [(url, socket)]) = pushAll deploy pushes := by
        simp [pushAll, pushesOn, hskip]
      rw [hsame]
      split <;> rfl

theorem Forwarding.foldlM_pushAll (deploy : Deployment) :
    ∀ (ps pushes : List (Url × SocketAddr)),
      ps.foldlM (fun f p => f.addMapping deploy p.1 p.2) (pushAll deploy pushes) =
        .ok (pushAll deploy (pushes ++ ps))
  | [], pushes => by rw [List.append_nil]; rfl
  | p :: ps, pushes => by
      rw [List.foldlM_cons, addMapping_pushAll]
      show ps.foldlM _ (pushAll deploy (pushes ++ [p])) = _
      rw [foldlM_pushAll deploy ps, List.append_assoc]
      rfl

/-- The custom entries are added like mappings; ssh is skipped by both. -/
theorem Forwarding.add_custom_eq (self : Forwarding) (deploy : Deployment) (url : Url)
    (socket : SocketAddr) : self.add_custom deploy url socket = self.addMapping deploy url socket := by
  unfold Forwarding.add_custom Forwarding.addMapping
  split
  · rfl
  · split
    · rfl
    · split <;> rfl

/-- The servers of a network with their URLs. -/
def NetworkState.pushes (network : NetworkState) : List (Url × SocketAddr) :=
  network.contributions.map fun c => (c.url, c.server)

theorem Forwarding.add_pushAll (deploy : Deployment) {network : NetworkState}
    (hlen : network.targets.length ≤ 63536) (pushes : List (Url × SocketAddr)) :
    (pushAll deploy pushes).add deploy network = .ok (pushAll deploy (pushes ++ network.pushes)) := by
  have hpushes : network.pushes = (network.contributions.map fun c =>
      (c.url, c.server.port, c.target)).map fun m =>
        (m.1, SocketAddr.new (.v4 network.veth_ipv4net.addr) m.2.1) := by
    rw [NetworkState.pushes, List.map_map]
    refine List.map_congr_left fun c hc => ?_
    obtain ⟨e, _, rfl⟩ := List.mem_map.mp hc
    simp [NetworkState.server]
  rw [Forwarding.add, NetworkState.port_mappings_eq hlen, ← foldlM_pushAll deploy network.pushes,
    hpushes, List.foldlM_map]
  rfl

theorem Forwarding.build_eq (deploy : Deployment) {networks : List NetworkState}
    (hlen : ∀ network ∈ networks, network.targets.length ≤ 63536) :
    Forwarding.build deploy networks =
      .ok (pushAll deploy (networks.flatMap NetworkState.pushes ++ deploy.custom_forwarding)) := by
  have hnets : ∀ (networks : List NetworkState) (pushes : List (Url × SocketAddr)),
      (∀ network ∈ networks, network.targets.length ≤ 63536) →
      networks.foldlM (fun f network => f.add deploy network) (pushAll deploy pushes) =
        .ok (pushAll deploy (pushes ++ networks.flatMap NetworkState.pushes)) := by
    intro networks
    induction networks with
    | nil => intro pushes _; simp; rfl
    | cons network networks ih =>
      intro pushes hlen
      rw [List.foldlM_cons, add_pushAll deploy (hlen network List.mem_cons_self)]
      show networks.foldlM _ (pushAll deploy (pushes ++ network.pushes)) = _
      rw [ih _ fun n hn => hlen n (List.mem_cons_of_mem _ hn), List.flatMap_cons, List.append_assoc]
  have hnew : Forwarding.new = pushAll deploy [] := rfl
  rw [Forwarding.build, hnew, hnets networks [] hlen, List.nil_append]
  simp only [add_custom_eq]
  exact foldlM_pushAll deploy deploy.custom_forwarding _

/-- The servers pushed for a host on a scheme's side. -/
theorem pushesOn_filter (scheme : Scheme) (host : String) (pushes : List (Url × SocketAddr)) :
    ((pushesOn scheme pushes).filter fun p => decide (p.1 = host)).map Prod.snd =
      (pushes.filter fun p => decide (p.1.hostOn scheme = some host)).map Prod.snd := by
  induction pushes with
  | nil => rfl
  | cons p pushes ih =>
    unfold pushesOn at ih ⊢
    cases hh : p.1.hostOn scheme with
    | none => simpa [hh] using ih
    | some h =>
      by_cases heq : h = host
      · simpa [hh, heq] using ih
      · simpa [hh, heq] using ih

/-! ### Every connection reaches its own target -/

/-- What a network contributes to the upstream of a host. -/
def NetworkState.contributedOn (network : NetworkState) (scheme : Scheme) (host : String) :
    List Contribution :=
  network.contributions.filter fun c => decide (c.url.hostOn scheme = some host)

/-- The proxy table and the rules of a configuration agree. -/
structure Proxied (deploy : Deployment) (config : GatewayConfig) (table : Forwarding) : Prop where
  /-- A listed target is reached through its URL's host. -/
  reached : ∀ (port : UInt16) (network : NetworkState), config[port]? = some network →
    ∀ (scheme : Scheme) (url : Url) (targets : List SocketAddr) (target : SocketAddr),
      url.scheme = scheme.text → network.proxy[url]? = some targets → target ∈ targets →
      ∃ (host upstream : String) (servers : List SocketAddr) (dport : UInt16) (nat : List NatRule)
        (source : BitVec 32),
        url.host_str = some host ∧ (table.side scheme).forwarding[host]? = some upstream ∧
        (table.side scheme).upstream[upstream]? = some servers ∧
        SocketAddr.v4 (vethNet port).addr dport ∈ servers ∧
        network.natRules deploy.build = some nat ∧
        firstDnat nat (portName VETH_PREFIX port) dport = some target ∧
        network.address.head?.map (·.addr) = some (.v4 source) ∧
        .postrouting (portName WIREGUARD_PREFIX port) target.port source ∈ nat
  /-- The upstream of a host holds the networks' contributions to it, and the custom entries. -/
  servers : ∀ (scheme : Scheme) (host upstream : String),
    (table.side scheme).forwarding[host]? = some upstream →
    (table.side scheme).upstream[upstream]? = some
      (((config.toList.map (·.2)).flatMap (·.contributedOn scheme host)).map (·.server) ++
        (deploy.custom_forwarding.filter fun c => decide (c.1.hostOn scheme = some host)).map (·.2))
  /-- Every upstream is some host's. -/
  hosts : ∀ (scheme : Scheme) (upstream : String) (servers : List SocketAddr),
    (table.side scheme).upstream[upstream]? = some servers →
    ∃ host : String, (table.side scheme).forwarding[host]? = some upstream
  /-- What a network contributes to a host is sent to a target it lists for that host. -/
  own : ∀ (port : UInt16) (network : NetworkState), config[port]? = some network →
    ∀ (scheme : Scheme) (host : String), ∀ c ∈ network.contributedOn scheme host,
      c.url.scheme = scheme.text ∧ c.url.host_str = some host ∧
      (∃ targets, network.proxy[c.url]? = some targets ∧ targets[c.index]? = some c.target) ∧
      c.server = .v4 (vethNet port).addr c.server.port ∧
      ∃ nat, network.natRules deploy.build = some nat ∧
        firstDnat nat (portName VETH_PREFIX port) c.server.port = some c.target
  /-- Two entries contribute different servers. -/
  distinct : ∀ (port port' : UInt16) (network network' : NetworkState),
    config[port]? = some network → config[port']? = some network' →
    ∀ c ∈ network.contributions, ∀ c' ∈ network'.contributions,
      (port, c.url, c.index) ≠ (port', c'.url, c'.index) → c.server ≠ c'.server

section
variable {network : NetworkState} (hlen : network.targets.length ≤ 63536)
include hlen

/-- The network's rules serve each of its contributions, if they are IPv4. -/
theorem NetworkState.rules_serve (build : Build) (haddr : network.address ≠ []) (hv4 : network.Ipv4) :
    ∃ (nat : List NatRule) (source : BitVec 32), network.natRules build = some nat ∧
      network.address.head?.map (·.addr) = some (.v4 source) ∧
      ∀ c ∈ network.contributions,
        firstDnat nat network.veth_name c.server.port = some c.target ∧
        .postrouting network.wgif_name c.target.port source ∈ nat := by
  obtain ⟨address, rest, haddress⟩ := List.exists_cons_of_ne_nil haddr
  have hhead : network.address.head? = some address := by rw [haddress]; rfl
  obtain ⟨source, hsource⟩ := IpAddr.is_ipv4_iff.mp (hv4.address address (by rw [hhead]; rfl))
  have htargets : ∀ c ∈ network.contributions, c.target.ip.is_ipv4 := fun c hc =>
    hv4.targets (c.url, c.target) (by
      rw [network.targets_eq_contributions]
      exact List.mem_map_of_mem (f := fun c => (c.url, c.target)) hc)
  obtain ⟨nat, hnat⟩ : ∃ nat, (rulesOf network.veth_name network.wgif_name (.v4 source)
      network.contributions).mapM Rule.nat = some nat := by
    refine exists_mapM_some fun rule hrule => ?_
    rw [rule.nat_isSome]
    rcases List.mem_append.mp hrule with hm | hm
    · obtain ⟨c, hc, rfl⟩ := List.mem_map.mp hm
      exact htargets c hc
    · obtain ⟨c, _, rfl⟩ := List.mem_map.mp hm
      rfl
  refine ⟨nat, source, ?_, by rw [hhead, Option.map_some, hsource], fun c hc => ⟨?_, ?_⟩⟩
  · rw [NetworkState.natRules_eq hlen build hhead, hsource, hnat]
  · have hfirst := findSome_prerouting network.veth_name (htargets c hc)
      (NetworkState.contributions_nodup hlen) hc
    rw [firstDnat_eq hnat, rulesOf, List.findSome?_append, List.findSome?_map, Function.comp_def,
      hfirst]
    rfl
  · obtain ⟨rule, hrule, heq⟩ := mapM_some_mem hnat (List.mem_append_right _ (List.mem_map_of_mem hc))
    cases heq
    exact hrule

/-- A network whose rules the kernel takes, and that has any, is an IPv4 one. -/
theorem NetworkState.ipv4_of_natRules {build : Build} {nat : List NatRule}
    (haddr : network.address ≠ []) (hnat : network.natRules build = some nat)
    (hsome : network.contributions ≠ []) : network.Ipv4 := by
  obtain ⟨address, rest, haddress⟩ := List.exists_cons_of_ne_nil haddr
  have hhead : network.address.head? = some address := by rw [haddress]; rfl
  rw [NetworkState.natRules_eq hlen build hhead] at hnat
  refine ⟨fun entry hentry => ?_, fun found hfound => ?_⟩
  · rw [network.targets_eq_contributions] at hentry
    obtain ⟨c, hc, rfl⟩ := List.mem_map.mp hentry
    obtain ⟨_, _, hrule⟩ := mapM_some_mem hnat (List.mem_append_left _ (List.mem_map_of_mem hc))
    exact (Rule.nat_isSome _).symm.trans (Option.isSome_of_eq_some hrule)
  · rw [hhead] at hfound
    cases hfound
    obtain ⟨c, hc⟩ := List.exists_mem_of_ne_nil _ hsome
    obtain ⟨_, _, hrule⟩ := mapM_some_mem hnat (List.mem_append_right _ (List.mem_map_of_mem hc))
    exact (Rule.nat_isSome _).symm.trans (Option.isSome_of_eq_some hrule)

/-- One server, one entry. -/
theorem NetworkState.eq_of_server_eq {c c' : Contribution} (hc : c ∈ network.contributions)
    (hc' : c' ∈ network.contributions) (h : c.server = c'.server) : c = c' :=
  List.inj_on_of_nodup_map (NetworkState.contributions_nodup hlen) hc hc' (by rw [h])

end

theorem NetworkState.contribution_server {network : NetworkState} {c : Contribution}
    (h : c ∈ network.contributions) :
    c.server = .v4 (vethNet network.listen_port).addr c.server.port := by
  obtain ⟨e, _, rfl⟩ := List.mem_map.mp h
  rfl

theorem Url.hostOn_eq_some {url : Url} {scheme : Scheme} {host : String} :
    url.hostOn scheme = some host ↔ url.scheme = scheme.text ∧ url.host_str = some host := by
  unfold Url.hostOn
  split <;> simp_all

section Table
variable {deploy : Deployment} (hbase : Function.Injective deploy.base32)
  (networks : List NetworkState)

/-- The table of networks and custom entries. -/
def Forwarding.table (deploy : Deployment) (networks : List NetworkState) : Forwarding :=
  pushAll deploy (networks.flatMap NetworkState.pushes ++ deploy.custom_forwarding)

include hbase in
theorem Forwarding.table_servers (scheme : Scheme) (host upstream : String)
    (h : ((table deploy networks).side scheme).forwarding[host]? = some upstream) :
    ((table deploy networks).side scheme).upstream[upstream]? = some
      ((networks.flatMap (·.contributedOn scheme host)).map (·.server) ++
        (deploy.custom_forwarding.filter fun c => decide (c.1.hostOn scheme = some host)).map (·.2)) := by
  rw [table, pushAll_side] at h ⊢
  rw [Upstreams.addAll_forwarding] at h
  split at h
  · next hm =>
    cases h
    rw [Upstreams.addAll_upstream hbase, if_pos hm, pushesOn_filter]
    simp only [List.filter_append, List.map_append, List.filter_flatMap, List.map_flatMap,
      NetworkState.pushes, List.filter_map, List.map_map, NetworkState.contributedOn]
    rfl
  · cases h

/-- A server pushed for a host is in the host's upstream. -/
theorem Forwarding.table_forwarding {scheme : Scheme} {host : String} {network : NetworkState}
    {c : Contribution} (hn : network ∈ networks) (hc : c ∈ network.contributions)
    (hhost : c.url.hostOn scheme = some host) :
    ∃ upstream, ((table deploy networks).side scheme).forwarding[host]? = some upstream := by
  rw [table, pushAll_side, Upstreams.addAll_forwarding]
  refine ⟨_, if_pos (List.mem_map.mpr ⟨(host, c.server), List.mem_filterMap.mpr
    ⟨(c.url, c.server), List.mem_append_left _ (List.mem_flatMap.mpr
      ⟨network, hn, List.mem_map.mpr ⟨c, hc, rfl⟩⟩), by rw [hhost]; rfl⟩, rfl⟩)⟩

end Table

/-- A network lists a target for a proxied URL. -/
def NetworkState.Proxies (network : NetworkState) : Prop :=
  ∃ (scheme : Scheme) (url : Url) (targets : List SocketAddr), url.scheme = scheme.text ∧
    network.proxy[url]? = some targets ∧ targets ≠ []

/-- Networks with targets for proxied URLs have IPv4 addresses in their rules. -/
def GatewayConfig.Ipv4 (config : GatewayConfig) : Prop :=
  ∀ (port : UInt16) (network : NetworkState), config[port]? = some network → network.Proxies →
    network.Ipv4

/-- A proxied URL has a host. -/
theorem Url.proxied_has_host (url : Url) {scheme : Scheme} (h : url.scheme = scheme.text) :
    url.host_str.isSome := by
  refine url.http_has_host ?_
  cases scheme
  · exact Or.inl h
  · exact Or.inr h

/-- What is contributed to a host is a target for a proxied URL. -/
theorem NetworkState.proxies_of_contributedOn {network : NetworkState} {scheme : Scheme}
    {host : String} {c : Contribution} (h : c ∈ network.contributedOn scheme host) :
    network.Proxies := by
  obtain ⟨hin, hon⟩ := List.mem_filter.mp h
  obtain ⟨targets, hurl, hget⟩ := (NetworkState.mem_contributions hin).2
  exact ⟨scheme, c.url, targets, (Url.hostOn_eq_some.mp (of_decide_eq_true hon)).1, hurl,
    List.ne_nil_of_mem (List.mem_of_getElem? hget)⟩

section
variable {deploy : Deployment} {config : GatewayConfig} (hkeyed : config.Keyed)
  (haddr : ∀ (port : UInt16) (network : NetworkState), config[port]? = some network →
    network.address ≠ [])
  (hlen : ∀ (port : UInt16) (network : NetworkState), config[port]? = some network →
    network.targets.length ≤ 63536)
include hkeyed haddr hlen

theorem proxied_of_ipv4 (hbase : Function.Injective deploy.base32) (hv4 : config.Ipv4) :
    Proxied deploy config (Forwarding.table deploy (config.toList.map (·.2))) := by
  have hmem : ∀ (port : UInt16) (network : NetworkState), config[port]? = some network →
      network ∈ config.toList.map (·.2) := fun port network h =>
    List.mem_map.mpr ⟨(port, network), (OrdMap.mem_toList_iff _ _ _).mpr h, rfl⟩
  have hservers := Forwarding.table_servers hbase (config.toList.map (·.2))
  refine ⟨?_, hservers, ?_, ?_, ?_⟩
  · intro port network hget scheme url targets target hscheme hurl htarget
    obtain rfl := hkeyed port network hget
    have hproxies : network.Proxies :=
      ⟨scheme, url, targets, hscheme, hurl, List.ne_nil_of_mem htarget⟩
    obtain ⟨c, hc, rfl, rfl⟩ := NetworkState.contribution_of_mem hurl htarget
    obtain ⟨host, hhost⟩ := Option.isSome_iff_exists.mp (c.url.proxied_has_host hscheme)
    have hon : c.url.hostOn scheme = some host := Url.hostOn_eq_some.mpr ⟨hscheme, hhost⟩
    obtain ⟨upstream, hup⟩ := Forwarding.table_forwarding _ (hmem _ _ hget) hc hon
    obtain ⟨nat, source, hnat, hhead, hserve⟩ := NetworkState.rules_serve (hlen _ _ hget) deploy.build
      (haddr _ _ hget) (hv4 _ _ hget hproxies)
    refine ⟨host, upstream, _, c.server.port, nat, source, hhost, hup,
      hservers scheme host upstream hup, ?_, hnat, (hserve c hc).1, hhead, (hserve c hc).2⟩
    rw [← NetworkState.contribution_server hc]
    exact List.mem_append_left _ (List.mem_map.mpr ⟨c, List.mem_flatMap.mpr
      ⟨network, hmem _ _ hget, List.mem_filter.mpr ⟨hc, decide_eq_true hon⟩⟩, rfl⟩)
  · intro scheme upstream servers h
    rw [Forwarding.table, Forwarding.pushAll_side] at h ⊢
    exact Upstreams.addAll_upstream_host _ upstream servers h
  · intro port network hget scheme host c hc
    obtain rfl := hkeyed port network hget
    obtain ⟨hin, hon⟩ := List.mem_filter.mp hc
    obtain ⟨hscheme, hhost⟩ := Url.hostOn_eq_some.mp (of_decide_eq_true hon)
    obtain ⟨nat, _, hnat, _, hserve⟩ := NetworkState.rules_serve (hlen _ _ hget) deploy.build
      (haddr _ _ hget) (hv4 _ _ hget (NetworkState.proxies_of_contributedOn hc))
    exact ⟨hscheme, hhost, (NetworkState.mem_contributions hin).2,
      NetworkState.contribution_server hin, nat, hnat, (hserve c hin).1⟩
  · intro port port' network network' hget hget' c hc c' hc' hne heq
    obtain rfl := hkeyed port network hget
    obtain rfl := hkeyed port' network' hget'
    have hip : (vethNet network.listen_port).addr = (vethNet network'.listen_port).addr := by
      have h := congrArg SocketAddr.ip heq
      rw [(NetworkState.mem_contributions hc).1, (NetworkState.mem_contributions hc').1] at h
      exact IpAddr.v4.inj h
    have hport := vethNet_injective hip
    rw [← hport, hget] at hget'
    obtain rfl := Option.some.inj hget'
    exact hne (by rw [NetworkState.eq_of_server_eq (hlen _ _ hget) hc hc' heq])

/-- A network whose targets are reached has rules that the kernel takes. -/
theorem ipv4_of_proxied {table : Forwarding} (h : Proxied deploy config table) : config.Ipv4 := by
  rintro port network hget ⟨scheme, url, targets, hscheme, hurl, hne⟩
  obtain rfl := hkeyed port network hget
  obtain ⟨target, htarget⟩ := List.exists_mem_of_ne_nil _ hne
  obtain ⟨_, _, _, _, nat, _, _, _, _, _, hnat, _⟩ :=
    h.reached _ network hget scheme url targets target hscheme hurl htarget
  obtain ⟨c, hc, _⟩ := NetworkState.contribution_of_mem hurl htarget
  exact NetworkState.ipv4_of_natRules (hlen _ _ hget) (haddr _ _ hget) hnat (List.ne_nil_of_mem hc)

end

/-- For a configuration under its own ports, with an address and at most 63536 targets a network,
    nginx and the nat rules take every connection to a proxied host to a target listed for it exactly
    when networks that are proxied have IPv4 addresses in their rules. -/
theorem proxied_connections_reach_targets_iff (deploy : Deployment) (config : GatewayConfig)
    (hkeyed : config.Keyed)
    (haddr : ∀ (port : UInt16) (network : NetworkState), config[port]? = some network →
      network.address ≠ [])
    (hlen : ∀ (port : UInt16) (network : NetworkState), config[port]? = some network →
      network.targets.length ≤ 63536)
    (hbase : Function.Injective deploy.base32) :
    ∃ table, Forwarding.build deploy (config.toList.map (·.2)) = .ok table ∧
      (Proxied deploy config table ↔ config.Ipv4) := by
  have hlens : ∀ network ∈ config.toList.map (·.2), network.targets.length ≤ 63536 := by
    intro network hn
    obtain ⟨e, he, rfl⟩ := List.mem_map.mp hn
    exact hlen e.1 e.2 ((OrdMap.mem_toList_iff _ _ _).mp he)
  exact ⟨_, Forwarding.build_eq deploy hlens, ipv4_of_proxied hkeyed haddr hlen,
    proxied_of_ipv4 hkeyed haddr hlen hbase⟩

theorem proxied_connections_reach_targets_bench :
    ∃ table, Forwarding.build Bench.deploy
        ((Bench.config 5000 (Bench.network 5000)).toList.map (·.2)) = .ok table ∧
      Proxied Bench.deploy (Bench.config 5000 (Bench.network 5000)) table := by
  have hv4 : (Bench.config 5000 (Bench.network 5000)).Ipv4 := by
    intro port network h _
    obtain ⟨_, rfl⟩ := Bench.get_config h
    exact ⟨by decide, by decide⟩
  obtain ⟨table, hbuild, hiff⟩ := proxied_connections_reach_targets_iff Bench.deploy
    (Bench.config 5000 (Bench.network 5000))
    (fun port network h => by obtain ⟨rfl, rfl⟩ := Bench.get_config h; rfl)
    (fun port network h => by obtain ⟨_, rfl⟩ := Bench.get_config h; exact List.cons_ne_nil _ _)
    (fun port network h => by obtain ⟨_, rfl⟩ := Bench.get_config h; decide) Bench.base32_injective
  exact ⟨table, hbuild, hiff.mpr hv4⟩

namespace Bench

/-- A network with the target `[fd00::2]:443`. -/
def ipv6 : NetworkState :=
  { network 5000 with
    proxy := (∅ : ExtTreeMap Url (List SocketAddr)).insert url
      [.v6 0xfd000000000000000000000000000002#128 443 0 0] }

end Bench

/-- The rule for `[fd00::2]:443` is written `--to-destination fd00::2:443`, so the file is no IPv4
    table and nothing is sent to the target. -/
theorem proxied_connections_miss_ipv6 :
    (Bench.config 5000 Bench.ipv6).Keyed ∧ Bench.ipv6.address ≠ [] ∧
      Bench.ipv6.targets.length ≤ 63536 ∧ Function.Injective Bench.deploy.base32 ∧
      ∃ table, Forwarding.build Bench.deploy
          ((Bench.config 5000 Bench.ipv6).toList.map (·.2)) = .ok table ∧
        ¬Proxied Bench.deploy (Bench.config 5000 Bench.ipv6) table := by
  have hlen : Bench.ipv6.targets.length ≤ 63536 := by decide
  have hkeyed : (Bench.config 5000 Bench.ipv6).Keyed := by
    intro port network h
    obtain ⟨rfl, rfl⟩ := Bench.get_config h
    rfl
  have hlens : ∀ network ∈ (Bench.config 5000 Bench.ipv6).toList.map (·.2),
      network.targets.length ≤ 63536 := by
    intro network hn
    obtain ⟨e, he, rfl⟩ := List.mem_map.mp hn
    obtain ⟨_, heq⟩ := Bench.get_config ((OrdMap.mem_toList_iff _ _ _).mp he)
    rw [← heq]
    exact hlen
  have hnone : Bench.ipv6.natRules Bench.deploy.build = none := by
    rw [NetworkState.natRules_eq hlen _ rfl]
    decide +kernel
  refine ⟨hkeyed, List.cons_ne_nil _ _, hlen, Bench.base32_injective, _,
    Forwarding.build_eq Bench.deploy hlens, fun h => ?_⟩
  have hget : (Bench.config 5000 Bench.ipv6)[(5000 : UInt16)]? = some Bench.ipv6 :=
    (OrdMap.get_insert _ _ _ _).trans (if_pos rfl)
  have hurl : Bench.ipv6.proxy[Bench.url]? =
      some [.v6 0xfd000000000000000000000000000002#128 443 0 0] :=
    (OrdMap.get_insert _ _ _ _).trans (if_pos rfl)
  obtain ⟨_, _, _, _, nat, _, _, _, _, _, hnat, _⟩ :=
    h.reached 5000 Bench.ipv6 hget .https Bench.url _ _ rfl hurl List.mem_cons_self
  rw [hnone] at hnat
  cases hnat

end FractalGateway
