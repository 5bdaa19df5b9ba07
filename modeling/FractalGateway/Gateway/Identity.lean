import FractalGateway.Gateway.Apply

/-! Whose network a port's network is.

    The parts of a network are named after its `listen_port`, and the port it is stored under is a
    second, independent number. `apply` writes the one over the other in the copies it hands on, but
    stores the configuration as it came. `apply_partial` hands on what it is given and, to nginx,
    everything stored. So a diff hands on networks of other ports exactly through its own entries
    and through the stored entries it leaves alone, and a run in which both carry their own ports
    (`Safe`) never does. -/

namespace FractalGateway
open Std Exec

/-- A network whose parts are those of the port. -/
structure OfPort (port : UInt16) (network : NetworkState) : Prop where
  listen_port : network.listen_port = port
  netns_name : network.netns_name = portName NETNS_PREFIX port
  wgif_name : network.wgif_name = portName WIREGUARD_PREFIX port
  veth_name : network.veth_name = portName VETH_PREFIX port
  veth_ipv4net : network.veth_ipv4net = vethNet port

theorem OfPort.of_listen_port {port : UInt16} {network : NetworkState}
    (h : network.listen_port = port) : OfPort port network := by
  subst h
  exact ⟨rfl, rfl, rfl, rfl, rfl⟩

/-- Everything handed on so far was of the port it is stored under. -/
def HandedOwn (w : World) : Prop := ∀ e ∈ w.handed, OfPort e.1 e.2

/-- A step that hands on no foreign network. -/
def HandsOwn (w w' : World) : Prop := HandedOwn w → HandedOwn w'

instance : Std.Refl HandsOwn := ⟨fun _ h => h⟩
instance : IsTrans World HandsOwn := ⟨fun _ _ _ h h' hw => h' (h hw)⟩

/-! ### The steps of a request -/

theorem onMachine_handsOwn {α : Type} (x : EStateM Fail Machine α) : Always HandsOwn (onMachine x) :=
  Always.zoom (S := fun _ _ => True) (fun _ _ _ h => h) fun _ => trivial

theorem store_handsOwn (f : GatewayConfig → GatewayConfig) : Always HandsOwn (store f) :=
  fun _ h => h

theorem hand_handsOwn {networks : List (UInt16 × NetworkState)} (h : ∀ e ∈ networks, OfPort e.1 e.2) :
    Always HandsOwn (hand networks) := by
  intro w hw e he
  rcases List.mem_append.mp he with he | he
  · exact hw e he
  · exact h e he

theorem onMachine_stored {α : Type} {x : EStateM Fail Machine α} {w w' : World} {a : α}
    (h : (onMachine x).run w = .ok a w') : w'.stored = w.stored := by
  obtain ⟨m, _, rfl⟩ := zoom_ok_iff.mp h
  rfl

instance : Std.Refl fun w w' : World => w'.stored = w.stored := ⟨fun _ => rfl⟩
instance : IsTrans World fun w w' : World => w'.stored = w.stored := ⟨fun _ _ _ h h' => h'.trans h⟩

theorem onMachine_keepsStored {α : Type} (x : EStateM Fail Machine α) :
    Always (fun w w' : World => w'.stored = w.stored) (onMachine x) :=
  Always.zoom (S := fun _ _ => True) (fun _ _ _ => rfl) fun _ => trivial

section
variable {os : Os} {deploy : Deployment}

theorem handNetwork_handsOwn {port : UInt16} {network : NetworkState} (h : OfPort port network) :
    Always HandsOwn (handNetwork os deploy port network) := by
  refine Always.bind (hand_handsOwn fun e he => ?_) fun _ => onMachine_handsOwn _
  rw [List.mem_singleton.mp he]
  exact h

theorem handNginx_handsOwn {networks : List (UInt16 × NetworkState)}
    (h : ∀ e ∈ networks, OfPort e.1 e.2) : Always HandsOwn (handNginx os deploy networks) :=
  Always.bind (hand_handsOwn h) fun _ => onMachine_handsOwn _

/-- A network that is handed on is not stored by that. -/
theorem handNetwork_stored {port : UInt16} {network : NetworkState} {w w' : World}
    (h : (handNetwork os deploy port network).run w = .ok () w') : w'.stored = w.stored := by
  obtain ⟨_, t, hhand, hrest⟩ := bind_ok_iff.mp h
  cases hhand
  have hstored := onMachine_stored hrest
  exact hstored

theorem apply_entry_handsOwn {names : List String} {entry : UInt16 × Option NetworkState}
    (h : ∀ network, entry.2 = some network → network.listen_port = entry.1) :
    Always HandsOwn (apply_entry os deploy names entry) := by
  obtain ⟨port, _ | network⟩ := entry
  · exact Always.bind (store_handsOwn _) fun _ => onMachine_handsOwn _
  · exact Always.bind (handNetwork_handsOwn (OfPort.of_listen_port (h network rfl))) fun _ =>
      store_handsOwn _

/-- An entry of a diff is folded into the stored configuration as the client folds it. -/
theorem apply_entry_stored {names : List String} {entry : UInt16 × Option NetworkState}
    {w w' : World} (h : (apply_entry os deploy names entry).run w = .ok () w') :
    w'.stored = w.stored.applyEntry entry := by
  obtain ⟨port, _ | network⟩ := entry
  · obtain ⟨_, t, hstore, hrest⟩ := bind_ok_iff.mp h
    cases hstore
    exact onMachine_stored hrest
  · obtain ⟨_, t, hhand, hstore⟩ := bind_ok_iff.mp h
    cases hstore
    show t.stored.insert port network = _
    rw [handNetwork_stored hhand]
    rfl

theorem apply_entries_stored {names : List String} :
    ∀ {entries : List (UInt16 × Option NetworkState)} {w w' : World},
      (forM entries (apply_entry os deploy names)).run w = .ok () w' →
      w'.stored = entries.foldl GatewayConfig.applyEntry w.stored
  | [], _, _, h => by
      obtain ⟨_, rfl⟩ := pure_ok_iff.mp h
      rfl
  | e :: es, w, w', h => by
      obtain ⟨_, t, hfirst, hrest⟩ := bind_ok_iff.mp h
      rw [apply_entries_stored hrest, apply_entry_stored hfirst, List.foldl_cons]

/-! ### Whole requests -/

/-- A whole configuration is handed on port by port, whatever its networks carry. -/
theorem apply_handsOwn (config : GatewayConfig) : Always HandsOwn (apply os deploy config) := by
  have hstate : ∀ e ∈ config.rekeyed, OfPort e.1 e.2 := by
    intro e he
    obtain ⟨e', _, rfl⟩ := List.mem_map.mp he
    exact OfPort.of_listen_port rfl
  refine Always.bind (store_handsOwn _) fun _ => Always.bind (onMachine_handsOwn _) fun _ =>
    Always.bind (onMachine_handsOwn _) fun _ => Always.bind (Always.forM fun e he => ?_) fun _ =>
      handNginx_handsOwn hstate
  exact handNetwork_handsOwn (hstate e he)

/-- A whole configuration is stored as it came, however the request ends. -/
theorem apply_stored (config : GatewayConfig) (w : World) :
    (final ((apply os deploy config).run w)).stored = config := by
  have hrest : Always (fun w w' : World => w'.stored = w.stored) (do
      let names ← onMachine (prepare os)
      onMachine (remove_surplus os names (config.rekeyed.map fun e => e.2.netns_name))
      forM config.rekeyed fun e => handNetwork os deploy e.1 e.2
      handNginx os deploy config.rekeyed) :=
    Always.bind (onMachine_keepsStored _) fun _ => Always.bind (onMachine_keepsStored _) fun _ =>
      Always.bind (Always.forM fun _ _ => Always.bind (fun _ => rfl) fun _ =>
        onMachine_keepsStored _) fun _ => Always.bind (fun _ => rfl) fun _ => onMachine_keepsStored _
  exact hrest { w with stored := config }

/-- A diff that sets networks under their own ports, on a stored configuration whose other networks
    are under theirs. -/
structure OwnPorts (stored : GatewayConfig) (diff : GatewayConfigPartial) : Prop where
  entries : diff.Keyed
  others : ∀ (port : UInt16) (network : NetworkState),
    stored[port]? = some network → diff[port]? = none → network.listen_port = port

theorem OwnPorts.keyed {stored : GatewayConfig} {diff : GatewayConfigPartial}
    (h : OwnPorts stored diff) : (stored.apply_partial diff).Keyed := by
  intro port network hget
  rw [GatewayConfig.get_apply_partial] at hget
  cases hd : diff[port]? with
  | none => rw [hd] at hget; exact h.others port network hget hd
  | some entry => rw [hd] at hget; subst hget; exact h.entries port network hd

theorem apply_partial_handsOwn {diff : GatewayConfigPartial} {w : World}
    (h : OwnPorts w.stored diff) (hw : HandedOwn w) :
    HandedOwn (final ((FractalGateway.apply_partial os deploy diff).run w)) := by
  have hentries : ∀ (names : List String) (e : UInt16 × Option NetworkState), e ∈ diff.toList →
      Always HandsOwn (apply_entry os deploy names e) := by
    intro names e he
    refine apply_entry_handsOwn fun network hn => h.entries e.1 network ?_
    rw [← hn]
    exact (OrdMap.mem_toList_iff diff e.1 e.2).mp he
  unfold apply_partial
  cases hprep : (onMachine (prepare os)).run w with
  | error e t =>
    rw [bind_of_error hprep]
    have := onMachine_handsOwn (prepare os) w
    rw [hprep] at this
    exact this hw
  | ok names t =>
    rw [bind_of_ok hprep]
    have ht := onMachine_handsOwn (prepare os) w
    rw [hprep] at ht
    have hloop := Always.forM (hentries names) t
    cases hrun : (forM diff.toList (apply_entry os deploy names)).run t with
    | error e u =>
      rw [bind_of_error hrun]
      rw [hrun] at hloop
      exact hloop (ht hw)
    | ok _ u =>
      -- the loop has stored the client's fold, and that is what nginx is given
      have hstored : u.stored = w.stored.apply_partial diff := by
        rw [apply_entries_stored hrun, onMachine_stored hprep]
        rfl
      rw [hrun] at hloop
      rw [bind_of_ok hrun]
      refine handNginx_handsOwn (fun e he => OfPort.of_listen_port ?_) u (hloop (ht hw))
      rw [hstored] at he
      exact h.keyed e.1 e.2 ((OrdMap.mem_toList_iff _ e.1 e.2).mp he)

end

/-! ### Runs -/

/-- Every diff of a run meets the condition, in the state it finds. -/
def Safe (os : Os) (deploy : Deployment) : List GatewayRequest → World → Prop
  | [], _ => True
  | .shutdown :: _, _ => True
  | .apply config :: requests, w =>
    Safe os deploy requests (final ((apply os deploy config).run w))
  | .applyPartial diff :: requests, w =>
    OwnPorts w.stored diff ∧
      Safe os deploy requests (final ((FractalGateway.apply_partial os deploy diff).run w))

theorem serve_handedOwn {os : Os} {deploy : Deployment} :
    ∀ {requests : List GatewayRequest} {w : World}, Safe os deploy requests w → HandedOwn w →
      HandedOwn (serve os deploy requests w)
  | [], _, _, hw => hw
  | .shutdown :: _, _, _, hw => hw
  | .apply config :: _, w, hs, hw => serve_handedOwn (w := final _) hs (apply_handsOwn config w hw)
  | .applyPartial _ :: _, _, hs, hw =>
    serve_handedOwn (w := final _) hs.2 (apply_partial_handsOwn hs.1 hw)

/-- In a run whose diffs set networks under their own ports and leave alone only stored networks
    that are under theirs, every network handed to `apply_network` or `apply_nginx` is that of the
    port it is stored under. -/
theorem handed_under_own_port (os : Os) (deploy : Deployment) (requests : List GatewayRequest)
    (w : World) (hw : w.handed = []) (hs : Safe os deploy requests w) :
    ∀ e ∈ (serve os deploy requests w).handed, OfPort e.1 e.2 := by
  refine serve_handedOwn hs fun e he => ?_
  rw [hw] at he
  cases he

theorem handed_under_own_port_replacing :
    HandedOwn (serve Bench.os Bench.deploy
      [.apply (Bench.config 5000 (Bench.network 0)),
        .applyPartial (Bench.diff 5000 (Bench.network 5000))] Bench.world) := by
  refine handed_under_own_port Bench.os Bench.deploy _ Bench.world rfl ⟨⟨?_, ?_⟩, trivial⟩
  · intro port network h
    obtain ⟨rfl, rfl⟩ := Bench.get_diff h
    rfl
  · intro port network hs hd
    rw [apply_stored] at hs
    obtain ⟨rfl, _⟩ := Bench.get_config hs
    simp [Bench.diff] at hd

/-- A diff whose network leaves its port out (which reads as 0) sets up port 0. -/
theorem handed_under_foreign_port :
    ¬∀ e ∈ (serve Bench.os Bench.deploy
      [.applyPartial (Bench.diff 5000 (Bench.bare 0))] Bench.world).handed,
      OfPort e.1 e.2 := by
  have hex : ∃ e ∈ (serve Bench.os Bench.deploy
      [.applyPartial (Bench.diff 5000 (Bench.bare 0))] Bench.world).handed,
      e.2.listen_port ≠ e.1 := by decide +kernel
  obtain ⟨e, he, hne⟩ := hex
  exact fun h => hne (h e he).listen_port

end FractalGateway
