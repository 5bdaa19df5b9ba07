import FractalGateway.Net

/-! The configuration the manager sends: networks by UDP port, whole (`GatewayConfig`) or as a diff
    (`GatewayConfigPartial`), and the client's own fold of a diff into a whole.

    `get_apply_partial` reads that fold port by port: a port named by the diff has the diff's entry,
    every other port keeps what it had. -/

namespace FractalGateway
open Std

/-- One peer of a WireGuard network. -/
structure PeerState where
  preshared_key : Option Secret
  allowed_ips : List IpNet
  endpoint : Option SocketAddr
  deriving DecidableEq

/-- One WireGuard network. -/
structure NetworkState where
  private_key : Privkey
  listen_port : UInt16
  mtu : ℕ
  address : List IpNet
  peers : ExtTreeMap Pubkey PeerState
  proxy : ExtTreeMap Url (List SocketAddr)

/-- The whole configuration, by port. -/
abbrev GatewayConfig := ExtTreeMap UInt16 NetworkState

/-- A diff: the ports to replace, and with `none` the ports to remove. -/
abbrev GatewayConfigPartial := ExtTreeMap UInt16 (Option NetworkState)

/-- Requests of the manager. -/
inductive GatewayRequest where
  | apply (config : GatewayConfig)
  | applyPartial (config : GatewayConfigPartial)
  | shutdown

/-- One entry of a diff, folded into a configuration. -/
def GatewayConfig.applyEntry (config : GatewayConfig) (entry : UInt16 × Option NetworkState) :
    GatewayConfig :=
  match entry.2 with
  | none => config.erase entry.1
  | some network => config.insert entry.1 network

/-- `GatewayConfig::apply_partial`: the entries in port order. -/
def GatewayConfig.apply_partial (config : GatewayConfig) (diff : GatewayConfigPartial) :
    GatewayConfig :=
  diff.toList.foldl GatewayConfig.applyEntry config

/-- Every network carries the port it is stored under. -/
def GatewayConfig.Keyed (config : GatewayConfig) : Prop :=
  ∀ (port : UInt16) (network : NetworkState), config[port]? = some network → network.listen_port = port

/-- Every network a diff sets carries the port it is stored under. -/
def GatewayConfigPartial.Keyed (diff : GatewayConfigPartial) : Prop :=
  ∀ (port : UInt16) (network : NetworkState), diff[port]? = some (some network) → network.listen_port = port

theorem GatewayConfigPartial.Keyed.entries {diff : GatewayConfigPartial} (h : diff.Keyed) :
    ∀ e ∈ diff.toList, ∀ network ∈ e.2, network.listen_port = e.1 := by
  intro e he network hn
  refine h e.1 network ?_
  rw [← show e.2 = some network from hn]
  exact (OrdMap.mem_toList_iff _ _ _).mp he

theorem GatewayConfig.get_applyEntry (config : GatewayConfig) (entry : UInt16 × Option NetworkState)
    (port : UInt16) :
    (config.applyEntry entry)[port]? = if entry.1 = port then entry.2 else config[port]? := by
  obtain ⟨p, _ | network⟩ := entry <;> simp [GatewayConfig.applyEntry]

/-- Folding entries with distinct ports: each port ends with its own entry, or with what it had. -/
theorem GatewayConfig.get_foldl_applyEntry (port : UInt16) :
    ∀ (entries : List (UInt16 × Option NetworkState)) (config : GatewayConfig),
      entries.Pairwise (fun a b => a.1 ≠ b.1) →
      (entries.foldl GatewayConfig.applyEntry config)[port]? =
        match entries.find? (fun e => decide (e.1 = port)) with
        | some e => e.2
        | none => config[port]?
  | [], _, _ => rfl
  | e :: es, config, hd => by
      obtain ⟨hhead, htail⟩ := List.pairwise_cons.mp hd
      rw [List.foldl_cons, get_foldl_applyEntry port es _ htail, List.find?_cons]
      by_cases he : e.1 = port
      · have hnone : es.find? (fun e' => decide (e'.1 = port)) = none := by
          rw [List.find?_eq_none]
          intro e' he' hp
          exact hhead e' he' (he.trans (of_decide_eq_true hp).symm)
        simp [hnone, he, get_applyEntry]
      · simp [he, get_applyEntry]

/-- The client's fold, port by port. -/
theorem GatewayConfig.get_apply_partial (config : GatewayConfig) (diff : GatewayConfigPartial)
    (port : UInt16) :
    (config.apply_partial diff)[port]? =
      match diff[port]? with
      | some entry => entry
      | none => config[port]? := by
  rw [GatewayConfig.apply_partial, get_foldl_applyEntry port _ _ (OrdMap.toList_pairwise diff)]
  cases hf : diff.toList.find? (fun e => decide (e.1 = port)) with
  | none =>
    cases hg : diff[port]? with
    | none => rfl
    | some entry =>
      have hm := (OrdMap.mem_toList_iff diff port entry).mpr hg
      have := List.find?_eq_none.mp hf _ hm
      simp at this
  | some e =>
    have hp : e.1 = port := by simpa using List.find?_some hf
    have hm : (port, e.2) ∈ diff.toList := by
      rw [← hp]
      exact List.mem_of_find?_eq_some hf
    rw [(OrdMap.mem_toList_iff diff port e.2).mp hm]

theorem GatewayConfig.Keyed.apply_partial {config : GatewayConfig} {diff : GatewayConfigPartial}
    (hc : config.Keyed) (hd : diff.Keyed) : (config.apply_partial diff).Keyed := by
  intro port network h
  rw [GatewayConfig.get_apply_partial] at h
  cases hg : diff[port]? with
  | none => rw [hg] at h; exact hc port network h
  | some entry => rw [hg] at h; subst h; exact hd port network hg

end FractalGateway
