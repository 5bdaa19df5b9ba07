import FractalGateway.Gateway.Panics

/-! The forwarding tables are well formed, whatever they are made from.

    Hosts lead to upstreams by name and upstreams to servers, in two maps for each scheme that are
    updated one after the other. Any sequence of `add` and `add_custom` calls leaves the two maps
    linked: a host has an upstream of its own as soon as something was added for it, and that
    upstream has what was added for the host, in order. -/

namespace FractalGateway
open Std Exec

/-- A call that adds to the tables. -/
inductive ForwardingCall where
  | add (network : NetworkState)
  | add_custom (url : Url) (socket : SocketAddr)

def Forwarding.call (deploy : Deployment) (self : Forwarding) :
    ForwardingCall → Except Fail Forwarding
  | .add network => self.add deploy network
  | .add_custom url socket => self.add_custom deploy url socket

/-- Calls one after the other, from `Forwarding::new`. -/
def Forwarding.calls (deploy : Deployment) (calls : List ForwardingCall) : Except Fail Forwarding :=
  calls.foldlM (Forwarding.call deploy) Forwarding.new

/-- The sockets a call adds, in order and with their URLs: a network's mappings on its veth address,
    or the custom entry. -/
def ForwardingCall.adds (build : Build) : ForwardingCall → Except Fail (List (Url × SocketAddr))
  | .add network => do
    let mappings ← network.port_mappings build
    return mappings.map fun m => (m.1, SocketAddr.new (.v4 network.veth_ipv4net.addr) m.2.1)
  | .add_custom url socket => return [(url, socket)]

/-- The sockets added for URLs of a scheme with a given host. -/
def serversFor (scheme : Scheme) (host : String) (added : List (Url × SocketAddr)) :
    List SocketAddr :=
  (added.filter fun a => decide (a.1.scheme = scheme.text ∧ a.1.host_str = some host)).map (·.2)

/-- The two maps of a scheme are linked, and hold the given servers for every host. -/
structure Upstreams.WellFormed (side : Upstreams) (servers : String → List SocketAddr) : Prop where
  hosts : ∀ host, host ∈ side.forwarding ↔ servers host ≠ []
  names : (side.forwarding.toList.map (·.2)).Nodup
  keys : ∀ name, name ∈ side.upstream ↔ name ∈ side.forwarding.toList.map (·.2)
  nonempty : ∀ (name : String) l, side.upstream[name]? = some l → l ≠ []
  exact : ∀ host name : String, side.forwarding[host]? = some name →
    side.upstream[name]? = some (servers host)

/-! ### Calls as pushes -/

/-- A call pushes what it adds. -/
theorem Forwarding.call_pushAll (deploy : Deployment) (pushes : List (Url × SocketAddr))
    (c : ForwardingCall) :
    (pushAll deploy pushes).call deploy c =
      (c.adds deploy.build).map fun added => pushAll deploy (pushes ++ added) := by
  cases c with
  | add network =>
    rw [Forwarding.call, Forwarding.add, ForwardingCall.adds]
    cases network.port_mappings deploy.build with
    | error e => rfl
    | ok mappings =>
      have hfold := foldlM_pushAll deploy (mappings.map fun m =>
        (m.1, SocketAddr.new (.v4 network.veth_ipv4net.addr) m.2.1)) pushes
      rw [List.foldlM_map] at hfold
      exact hfold
  | add_custom url socket =>
    rw [Forwarding.call, add_custom_eq, addMapping_pushAll]
    rfl

theorem Forwarding.calls_pushAll (deploy : Deployment) {table : Forwarding} :
    ∀ {calls : List ForwardingCall} {pushes : List (Url × SocketAddr)},
      calls.foldlM (Forwarding.call deploy) (pushAll deploy pushes) = .ok table →
      ∃ added, calls.mapM (ForwardingCall.adds deploy.build) = .ok added ∧
        table = pushAll deploy (pushes ++ added.flatten)
  | [], pushes, h => ⟨[], rfl, by simpa using (Except.ok.inj h).symm⟩
  | c :: calls, pushes, h => by
      rw [List.foldlM_cons, call_pushAll] at h
      cases hc : c.adds deploy.build with
      | error e => rw [hc] at h; cases h
      | ok adds =>
        rw [hc] at h
        obtain ⟨added, hadded, rfl⟩ := calls_pushAll deploy h
        refine ⟨adds :: added, ?_, by simp⟩
        rw [List.mapM_cons, hc, hadded]
        rfl

/-- Calls that stay within the ports there are, or that a release build makes, return. -/
theorem Forwarding.calls_return (deploy : Deployment) {calls : List ForwardingCall}
    (h : ∀ network, .add network ∈ calls →
      deploy.build = .release ∨ network.targets.length ≤ 63536) :
    ∃ table, Forwarding.calls deploy calls = .ok table := by
  refine foldlM_ok (fun c hc self => ?_) Forwarding.new
  cases c with
  | add network =>
    obtain ⟨mappings, hmap⟩ := NetworkState.port_mappings_ok (h network hc)
    rw [Forwarding.call, Forwarding.add, hmap]
    exact foldlM_ok (fun m _ b => b.addMapping_ok deploy _ _) self
  | add_custom url socket =>
    rw [Forwarding.call, add_custom_eq]
    exact self.addMapping_ok deploy url socket

/-! ### What pushes leave -/

theorem serversFor_eq (scheme : Scheme) (host : String) (added : List (Url × SocketAddr)) :
    serversFor scheme host added =
      ((pushesOn scheme added).filter fun p => decide (p.1 = host)).map Prod.snd := by
  rw [pushesOn_filter, serversFor]
  congr 2
  funext a
  rw [decide_eq_decide, Url.hostOn_eq_some]

theorem serversFor_ne_nil (scheme : Scheme) (host : String) (added : List (Url × SocketAddr)) :
    serversFor scheme host added ≠ [] ↔ host ∈ (pushesOn scheme added).map Prod.fst := by
  rw [serversFor_eq, Ne, List.map_eq_nil_iff, List.filter_eq_nil_iff]
  simp

/-- The values of the forwarding map. -/
theorem Upstreams.mem_values {base32 : String → String} {scheme : Scheme}
    (pushes : List (String × SocketAddr)) (name : String) :
    name ∈ (addAll base32 scheme pushes).forwarding.toList.map (·.2) ↔
      ∃ host ∈ pushes.map Prod.fst, name = upstreamName base32 scheme host := by
  constructor
  · intro h
    obtain ⟨⟨host, _⟩, hmem, rfl⟩ := List.mem_map.mp h
    rw [OrdMap.mem_toList_iff, addAll_forwarding] at hmem
    split at hmem
    · next hhost => exact ⟨host, hhost, (Option.some.inj hmem).symm⟩
    · cases hmem
  · rintro ⟨host, hhost, rfl⟩
    refine List.mem_map.mpr ⟨(host, upstreamName base32 scheme host), ?_, rfl⟩
    rw [OrdMap.mem_toList_iff, addAll_forwarding, if_pos hhost]

/-- A scheme's side, however it was filled. -/
theorem Upstreams.addAll_wellFormed {base32 : String → String} (h : Function.Injective base32)
    (scheme : Scheme) (added : List (Url × SocketAddr)) :
    (addAll base32 scheme (pushesOn scheme added)).WellFormed
      fun host => serversFor scheme host added where
  hosts := by
    intro host
    rw [OrdMap.mem_iff_get, addAll_forwarding, serversFor_ne_nil]
    by_cases hm : host ∈ (pushesOn scheme added).map Prod.fst
    · simp only [hm, if_true, iff_true]
      exact ⟨_, rfl⟩
    · simp [hm]
  names := by
    refine List.pairwise_map.mpr ((OrdMap.toList_pairwise _).imp_of_mem ?_)
    rintro ⟨a, name⟩ ⟨b, name'⟩ ha hb hne heq
    rw [OrdMap.mem_toList_iff, addAll_forwarding] at ha hb
    obtain ⟨_, ha⟩ := Option.ite_none_right_eq_some.mp ha
    obtain ⟨_, hb⟩ := Option.ite_none_right_eq_some.mp hb
    exact hne (upstreamName_injective h scheme
      ((Option.some.inj ha).trans (heq.trans (Option.some.inj hb).symm)))
  keys := by
    intro name
    rw [mem_values]
    constructor
    · intro hm
      obtain ⟨servers, hget⟩ := (OrdMap.mem_iff_get _ _).mp hm
      obtain ⟨host, hhost⟩ := addAll_upstream_host _ name servers hget
      rw [addAll_forwarding] at hhost
      obtain ⟨hin, hname⟩ := Option.ite_none_right_eq_some.mp hhost
      exact ⟨host, hin, (Option.some.inj hname).symm⟩
    · rintro ⟨host, hin, rfl⟩
      rw [OrdMap.mem_iff_get, addAll_upstream h, if_pos hin]
      exact ⟨_, rfl⟩
  nonempty := by
    intro name l hget
    obtain ⟨host, hhost⟩ := addAll_upstream_host _ name l hget
    rw [addAll_forwarding] at hhost
    obtain ⟨hin, hname⟩ := Option.ite_none_right_eq_some.mp hhost
    rw [← Option.some.inj hname, addAll_upstream h, if_pos hin, ← serversFor_eq] at hget
    rw [← Option.some.inj hget]
    exact (serversFor_ne_nil scheme host added).mpr hin
  exact := by
    intro host name hhost
    rw [addAll_forwarding] at hhost
    obtain ⟨hin, hname⟩ := Option.ite_none_right_eq_some.mp hhost
    rw [← Option.some.inj hname, addAll_upstream h, if_pos hin, ← serversFor_eq]

/-- The names of the two schemes differ at their fifth character. -/
theorem upstreamName_ne (base32 : String → String) (host host' : String) :
    upstreamName base32 .http host ≠ upstreamName base32 .https host' := by
  intro heq
  have hl := congrArg (fun name => name.toList[4]?) heq
  simp [upstreamName, Scheme.text] at hl

/-- Any sequence of calls that returns leaves tables in which, for both schemes, hosts and upstreams
    are linked one to one and the upstream of a host has exactly the sockets added for it, in order;
    and the schemes share no upstream. Calls within the ports there are do return. -/
theorem tables_well_formed (deploy : Deployment) (calls : List ForwardingCall)
    (hbase32 : Function.Injective deploy.base32) :
    ((∀ network, .add network ∈ calls →
        deploy.build = .release ∨ network.targets.length ≤ 63536) →
      ∃ table, Forwarding.calls deploy calls = .ok table) ∧
    ∀ table, Forwarding.calls deploy calls = .ok table →
      ∃ added, calls.mapM (ForwardingCall.adds deploy.build) = .ok added ∧
        (∀ scheme, (table.side scheme).WellFormed
          fun host => serversFor scheme host added.flatten) ∧
        ∀ name ∈ table.http.upstream, name ∉ table.https.upstream := by
  refine ⟨Forwarding.calls_return deploy, fun table h => ?_⟩
  have hnew : Forwarding.new = Forwarding.pushAll deploy [] := rfl
  rw [Forwarding.calls, hnew] at h
  obtain ⟨added, hadded, rfl⟩ := Forwarding.calls_pushAll deploy h
  rw [List.nil_append] at h ⊢
  have hsides : ∀ scheme, ((Forwarding.pushAll deploy added.flatten).side scheme).WellFormed
      fun host => serversFor scheme host added.flatten := by
    intro scheme
    rw [Forwarding.pushAll_side]
    exact Upstreams.addAll_wellFormed hbase32 scheme added.flatten
  refine ⟨added, hadded, hsides, fun name hhttp hhttps => ?_⟩
  have hname := ((hsides .http).keys name).mp hhttp
  have hname' := ((hsides .https).keys name).mp hhttps
  rw [Forwarding.pushAll_side, Upstreams.mem_values] at hname hname'
  obtain ⟨host, _, rfl⟩ := hname
  obtain ⟨host', _, heq⟩ := hname'
  exact upstreamName_ne deploy.base32 host host' heq

theorem tables_well_formed_bench :
    ∃ table, Forwarding.calls Bench.deploy [.add (Bench.network 5000), .add_custom Bench.url
        (.v4 (Ipv4Addr.new 127 0 0 1) 8000)] = .ok table ∧
      ∃ added, [ForwardingCall.add (Bench.network 5000), .add_custom Bench.url
          (.v4 (Ipv4Addr.new 127 0 0 1) 8000)].mapM (ForwardingCall.adds .debug) = .ok added ∧
        table.https.WellFormed fun host => serversFor .https host added.flatten := by
  obtain ⟨hreturn, htable⟩ := tables_well_formed Bench.deploy [.add (Bench.network 5000),
    .add_custom Bench.url (.v4 (Ipv4Addr.new 127 0 0 1) 8000)] Bench.base32_injective
  obtain ⟨table, hok⟩ := hreturn (by
    intro network hmem
    rw [List.mem_cons, List.mem_singleton] at hmem
    rcases hmem with h | h
    · cases h
      exact Or.inr (by decide)
    · cases h)
  obtain ⟨added, hadded, hsides, _⟩ := htable table hok
  exact ⟨table, hok, added, hadded, hsides .https⟩

end FractalGateway
