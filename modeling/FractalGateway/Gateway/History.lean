import FractalGateway.Lib.Lockstep
import FractalGateway.Gateway.Effects
import FractalGateway.Gateway.Mirror

/-! The stored configuration and the running system, through failures.

    A full request stores its configuration before it has done anything for it, and a diff forgets a
    port before its namespace is deleted and stores one only after everything has been done for it.
    A command that fails in between leaves the two apart. `Kept` says where a request may be
    interrupted all the same, and in a run of such requests what is stored is what is running.

    What has been done for a network is not to be read off the machine. The requests are therefore
    run with a record of the networks whose `apply_network` has completed, each for as long as its
    namespace is there (`Recorded`); dropping the record gives back the requests. -/

namespace FractalGateway
open Std Exec

/-- A full request up to what it does for nginx. -/
def apply_networks (os : Os) (deploy : Deployment) (config : GatewayConfig) :
    EStateM Fail World Unit := do
  store fun _ => config
  let names ← onMachine (prepare os)
  onMachine (remove_surplus os names (config.rekeyed.map fun e => e.2.netns_name))
  forM config.rekeyed fun e => handNetwork os deploy e.1 e.2

theorem apply_eq (os : Os) (deploy : Deployment) (config : GatewayConfig) :
    apply os deploy config =
      apply_networks os deploy config >>= fun _ => handNginx os deploy config.rekeyed := by
  simp only [apply, apply_networks, bind_assoc]

/-! ### Requests with a record -/

/-- A world, and the networks completed since their namespaces were created. -/
structure Recorded where
  world : World
  completed : List NetworkState

namespace Recorded

/-- The record goes on in a new world, without the networks whose namespaces are gone. -/
def now (r : Recorded) (w : World) : Recorded where
  world := w
  completed := r.completed.filter fun network => decide (network.netns_name ∈ w.sys.netns)

/-- Part of a request, under observation. -/
def observed {α : Type} (x : EStateM Fail World α) : EStateM Fail Recorded α :=
  zoom Recorded.world (fun w r => r.now w) x

section
variable (os : Os) (deploy : Deployment)

/-- A network is handed on, and recorded when it is done. -/
def network (port : UInt16) (network : NetworkState) : EStateM Fail Recorded Unit := do
  observed (handNetwork os deploy port network)
  modify fun r => { r with completed := network :: r.completed }

def networks (config : GatewayConfig) : EStateM Fail Recorded Unit := do
  observed (store fun _ => config)
  let names ← observed (onMachine (prepare os))
  observed (onMachine (remove_surplus os names (config.rekeyed.map fun e => e.2.netns_name)))
  forM config.rekeyed fun e => network os deploy e.1 e.2

def apply (config : GatewayConfig) : EStateM Fail Recorded Unit := do
  networks os deploy config
  observed (handNginx os deploy config.rekeyed)

def entry (names : List String) : UInt16 × Option NetworkState → EStateM Fail Recorded Unit
  | (port, none) => observed (apply_entry os deploy names (port, none))
  | (port, some net) => do
    network os deploy port net
    observed (store fun stored => stored.insert port net)

def diff (diff : GatewayConfigPartial) : EStateM Fail Recorded Unit := do
  let names ← observed (onMachine (prepare os))
  forM diff.toList (entry os deploy names)
  let r ← get
  observed (handNginx os deploy r.world.stored.toList)

def respond : GatewayRequest → EStateM Fail Recorded Unit
  | .apply config => apply os deploy config
  | .applyPartial d => diff os deploy d
  | .shutdown => pure ()

def serve : List GatewayRequest → Recorded → Recorded
  | [], r => r
  | .shutdown :: _, r => r
  | request :: requests, r => serve requests (final ((respond os deploy request).run r))

/-! ### The record is only looked at -/

/-- The record aside, the same world. -/
def Is (r : Recorded) (w : World) : Prop := r.world = w

theorem observed_lockstep {α : Type} (x : EStateM Fail World α) : Lockstep Is (observed x) x := by
  rintro r _ rfl
  rw [observed, zoom_run]
  cases x.run r.world with
  | ok a w => exact .ok a rfl
  | error e w => exact .error e rfl

theorem network_lockstep (port : UInt16) (net : NetworkState) :
    Lockstep Is (network os deploy port net) (handNetwork os deploy port net) := by
  intro r w h
  have hstep := observed_lockstep (handNetwork os deploy port net) r w h
  rw [network]
  generalize hr : (observed (handNetwork os deploy port net)).run r = result at hstep
  generalize (handNetwork os deploy port net).run w = result' at hstep
  cases hstep with
  | ok a h' =>
    rw [bind_of_ok hr]
    exact .ok () h'
  | error e h' =>
    rw [bind_of_error hr]
    exact .error e h'

theorem networks_lockstep (config : GatewayConfig) :
    Lockstep Is (networks os deploy config) (apply_networks os deploy config) :=
  Lockstep.bind (observed_lockstep _) fun _ => Lockstep.bind (observed_lockstep _) fun _ =>
    Lockstep.bind (observed_lockstep _) fun _ =>
    Lockstep.forM fun e _ => network_lockstep os deploy e.1 e.2

theorem entry_lockstep (names : List String) : ∀ e : UInt16 × Option NetworkState,
    Lockstep Is (entry os deploy names e) (apply_entry os deploy names e)
  | (_, none) => observed_lockstep _
  | (port, some net) => Lockstep.bind (network_lockstep os deploy port net) fun _ =>
      observed_lockstep _

theorem respond_lockstep : ∀ request : GatewayRequest,
    Lockstep Is (respond os deploy request) (FractalGateway.respond os deploy request)
  | .shutdown => Lockstep.pure ()
  | .apply config => by
      rw [respond, FractalGateway.respond, apply_eq]
      exact Lockstep.bind (networks_lockstep os deploy config) fun _ => observed_lockstep _
  | .applyPartial d => by
      refine Lockstep.bind (observed_lockstep _) fun names =>
        Lockstep.bind (Lockstep.forM fun e _ => entry_lockstep os deploy names e) fun _ =>
        Lockstep.get fun r w h => ?_
      obtain rfl : r.world = w := h
      exact observed_lockstep _ r _ rfl

theorem respond_world (request : GatewayRequest) (r : Recorded) :
    (final ((respond os deploy request).run r)).world =
      final ((FractalGateway.respond os deploy request).run r.world) :=
  (respond_lockstep os deploy request).final (R := Is) rfl

theorem serve_world : ∀ (requests : List GatewayRequest) (r : Recorded),
    (serve os deploy requests r).world = FractalGateway.serve os deploy requests r.world
  | [], _ => rfl
  | .shutdown :: _, _ => rfl
  | .apply config :: requests, r =>
    (serve_world requests _).trans (congrArg (FractalGateway.serve os deploy requests)
      (respond_world os deploy (.apply config) r))
  | .applyPartial d :: requests, r =>
    (serve_world requests _).trans (congrArg (FractalGateway.serve os deploy requests)
      (respond_world os deploy (.applyPartial d) r))

end

end Recorded

/-! ### What a request may be interrupted at -/

section
variable (os : Os) (deploy : Deployment)

/-- An entry of a diff is carried out; or it sets up a port that is stored, or has not got to adding
    its namespace. -/
def EntryKept (names : List String) (w : World) (entry : UInt16 × Option NetworkState) : Prop :=
  returned ((apply_entry os deploy names entry).run w) = true ∨
    ∃ network, entry.2 = some network ∧
      (entry.1 ∈ w.stored ∨ returned ((apply_netns os network).run w.machine) = false)

/-- A full request gets as far as nginx, or asks for what is stored; a diff is interrupted at no
    entry but as above. -/
def Kept (w : World) : GatewayRequest → Prop
  | .apply config =>
    config = w.stored ∨ returned ((apply_networks os deploy config).run w) = true
  | .applyPartial diff => ∀ names t, (onMachine (prepare os)).run w = .ok names t →
    ∀ before entry after u, diff.toList = before ++ entry :: after →
      (forM before (apply_entry os deploy names)).run t = .ok () u →
      EntryKept os deploy names u entry
  | .shutdown => True

/-- So is every request of a run, in the world it finds. -/
def AllKept : List GatewayRequest → World → Prop
  | [], _ => True
  | .shutdown :: _, _ => True
  | request :: requests, w =>
    Kept os deploy w request ∧ AllKept requests (final ((respond os deploy request).run w))

end

/-- Every network of a request carries its own port. -/
def GatewayRequest.Keyed : GatewayRequest → Prop
  | .apply config => config.Keyed
  | .applyPartial diff => diff.Keyed
  | .shutdown => True

/-- What is stored is what is running: its ports have the namespaces, and everything has been done
    for its networks. -/
structure Truthful (r : Recorded) : Prop where
  keyed : r.world.stored.Keyed
  names : ∀ port : UInt16,
    portName NETNS_PREFIX port ∈ r.world.sys.netns ↔ port ∈ r.world.stored
  completed : ∀ (port : UInt16) (network : NetworkState),
    r.world.stored[port]? = some network → network ∈ r.completed

/-! ### Parts that keep the namespaces -/

/-- The same namespaces. -/
def SameNames (s s' : System) : Prop := ∀ n, n ∈ s'.netns ↔ n ∈ s.netns

theorem prepare_sameNames (os : Os) : Always (OnSys SameNames) (prepare os) :=
  fun m n => mem_netns_congr (prepare_leftAlone os n m).netns

theorem handNginx_sameNames (os : Os) (deploy : Deployment)
    (networks : List (UInt16 × NetworkState)) :
    Always (InWorld SameNames) (handNginx os deploy networks) := by
  intro w n
  have hleft : Always (InWorld (LeftAlone n)) (handNginx os deploy networks) :=
    Always.bind (modify_always fun _ => rfl) fun _ =>
      onMachine_always (Always.context _ (apply_nginx_leftAlone os deploy _ n))
  exact mem_netns_congr (hleft w).netns

/-- No namespace is gone. -/
def KeepsNames (s s' : System) : Prop := ∀ n, n ∈ s.netns → n ∈ s'.netns

instance : Std.Refl KeepsNames := ⟨fun _ _ h => h⟩
instance : IsTrans System KeepsNames := ⟨fun _ _ _ h h' n hn => h' n (h n hn)⟩

theorem System.alter_mem_netns (s : System) (f : Iface → Iface) (netns : Option String)
    (name n : String) : n ∈ (s.alter f netns name).netns ↔ n ∈ s.netns := by
  cases netns with
  | none => rfl
  | some netns =>
    simp only [System.alter, OrdMap.mem_iff_get, OrdMap.get_modify]
    split
    · cases s.netns[n]? <;> simp
    · rfl

theorem Change.keepsNames {deploy : Deployment} {network : NetworkState} {s s' : System}
    (h : Change deploy network s s') : KeepsNames s s' := by
  intro n hn
  cases h with
  | netns | wireguard | nat => exact (OrdMap.mem_insert _ _ _ _).mpr (Or.inr hn)
  | inner | outer | addrs => exact (System.alter_mem_netns _ _ _ _ n).mpr hn
  | file | veth => exact hn

section
variable {os : Os} {deploy : Deployment} {r r' : Recorded}

theorem Truthful.now (h : Truthful r) {w : World} (hstored : w.stored = r.world.stored)
    (hnames : ∀ port : UInt16, portName NETNS_PREFIX port ∈ w.sys.netns ↔
      portName NETNS_PREFIX port ∈ r.world.sys.netns) : Truthful (r.now w) := by
  refine ⟨?_, fun port => ?_, fun port network hget => ?_⟩
  · show w.stored.Keyed
    rw [hstored]
    exact h.keyed
  · show _ ↔ port ∈ w.stored
    rw [hstored, ← h.names port]
    exact hnames port
  · have hget : r.world.stored[port]? = some network := by
      rw [← hstored]
      exact hget
    refine List.mem_filter.mpr ⟨h.completed port network hget, decide_eq_true ?_⟩
    rw [NetworkState.netns_name, h.keyed port network hget]
    exact (hnames port).mpr ((h.names port).mpr ((OrdMap.mem_iff_get _ _).mpr ⟨network, hget⟩))

/-- A part of a request that changes neither what is stored nor the namespaces. -/
theorem Truthful.observed {α : Type} {x : EStateM Fail World α}
    (hstored : Always (fun w w' : World => w'.stored = w.stored) x)
    (hnames : Always (InWorld SameNames) x) (h : Truthful r) :
    Truthful (final ((Recorded.observed x).run r)) := by
  have hs := hstored r.world
  have hn := hnames r.world
  rw [Recorded.observed, zoom_run]
  cases hrun : x.run r.world with
  | ok a w =>
    rw [hrun] at hs hn
    exact h.now hs fun port => hn _
  | error e w =>
    rw [hrun] at hs hn
    exact h.now hs fun port => hn _

/-! ### Diffs -/

/-- A port is removed, if the listing told whether its namespace was there. -/
theorem Truthful.removed {names : List String} {port : UInt16} (h : Truthful r)
    (hlisted : portName NETNS_PREFIX port ∈ names ↔ port ∈ r.world.stored)
    (hrun : (Recorded.entry os deploy names (port, none)).run r = .ok () r') : Truthful r' := by
  obtain ⟨w, hw, rfl⟩ := zoom_ok_iff.mp hrun
  obtain ⟨_, t, hstore, hrest⟩ := bind_ok_iff.mp hw
  cases hstore
  obtain ⟨hdel, hstored⟩ := onMachine_ok hrest
  have hstored : w.stored = r.world.stored.erase port := hstored
  have hnames : ∀ q : UInt16, portName NETNS_PREFIX q ∈ w.sys.netns ↔
      port ≠ q ∧ portName NETNS_PREFIX q ∈ r.world.sys.netns := by
    intro q
    rcases skipIf_ok_iff.mp hdel with ⟨hnot, hsame⟩ | ⟨_, hdel⟩
    · have hsys : w.sys = r.world.sys := by rw [World.sys, ← hsame]
      rw [hsys, h.names q]
      refine ⟨fun hq => ⟨fun heq => ?_, hq⟩, fun hq => hq.2⟩
      rw [← heq] at hq
      exact hnot (hlisted.mpr hq)
    · obtain ⟨_, hsys⟩ := netns_del_ok hdel
      rw [World.sys, hsys, OrdMap.mem_erase, ne_eq, (portName_injective NETNS_PREFIX).eq_iff]
  refine ⟨?_, fun q => ?_, fun q network hget => ?_⟩
  · intro q network hget
    have hget : w.stored[q]? = some network := hget
    rw [hstored, OrdMap.get_erase] at hget
    split at hget
    · cases hget
    · exact h.keyed q network hget
  · show _ ↔ q ∈ w.stored
    rw [hstored, OrdMap.mem_erase, ← h.names q]
    exact hnames q
  · have hget : w.stored[q]? = some network := hget
    rw [hstored, OrdMap.get_erase] at hget
    split at hget
    · cases hget
    · next hne =>
      refine List.mem_filter.mpr ⟨h.completed q network hget, decide_eq_true ?_⟩
      rw [NetworkState.netns_name, h.keyed q network hget, hnames q, h.names q]
      exact ⟨hne, (OrdMap.mem_iff_get _ _).mpr ⟨network, hget⟩⟩

/-- A network is set up and recorded, and stored after that. -/
theorem Truthful.added {names : List String} {port : UInt16} {network : NetworkState}
    (h : Truthful r) (hport : network.listen_port = port)
    (hrun : (Recorded.entry os deploy names (port, some network)).run r = .ok () r') :
    Truthful r' := by
  obtain ⟨_, r₁, hnetwork, hstore⟩ := bind_ok_iff.mp hrun
  obtain ⟨_, r₀, hhand, hrecord⟩ := bind_ok_iff.mp hnetwork
  obtain ⟨w, hw, rfl⟩ := zoom_ok_iff.mp hhand
  cases hrecord
  obtain ⟨w', hw', rfl⟩ := zoom_ok_iff.mp hstore
  cases hw'
  obtain ⟨hplaced, hstored⟩ := handNetwork_ok hw
  have hnames := (apply_network_placed hplaced).names
  have hname : network.netns_name = portName NETNS_PREFIX port := by
    rw [NetworkState.netns_name, hport]
  have hkept : ∀ n, n ∈ r.world.sys.netns → n ∈ w.sys.netns := fun n hn => (hnames n).mpr (Or.inr hn)
  refine ⟨?_, fun q => ?_, fun q net hget => ?_⟩
  · intro q net hget
    have hget : (w.stored.insert port network)[q]? = some net := hget
    rw [OrdMap.get_insert, hstored] at hget
    split at hget
    · next heq =>
      cases hget
      rw [hport, heq]
    · exact h.keyed q net hget
  · show portName NETNS_PREFIX q ∈ w.sys.netns ↔ q ∈ w.stored.insert port network
    rw [OrdMap.mem_insert, hstored, ← h.names q]
    rw [show portName NETNS_PREFIX q ∈ w.sys.netns ↔ _ from hnames _, hname,
      (portName_injective NETNS_PREFIX).eq_iff]
    simp only [eq_comm (a := q)]
  · have hget : (w.stored.insert port network)[q]? = some net := hget
    rw [OrdMap.get_insert, hstored] at hget
    have hthere : net.netns_name ∈ w.sys.netns ∧ net ∈ network :: (r.now w).completed := by
      split at hget
      · cases hget
        exact ⟨(hnames _).mpr (Or.inl rfl), List.mem_cons_self⟩
      · have hin : net.netns_name ∈ w.sys.netns := by
          rw [NetworkState.netns_name, h.keyed q net hget]
          exact hkept _ ((h.names q).mpr ((OrdMap.mem_iff_get _ _).mpr ⟨net, hget⟩))
        exact ⟨hin, List.mem_cons_of_mem _
          (List.mem_filter.mpr ⟨h.completed q net hget, decide_eq_true hin⟩)⟩
    exact List.mem_filter.mpr ⟨hthere.2, decide_eq_true hthere.1⟩

theorem Truthful.entry_ok {names : List String} {e : UInt16 × Option NetworkState}
    (h : Truthful r) (hlisted : portName NETNS_PREFIX e.1 ∈ names ↔ e.1 ∈ r.world.stored)
    (hkeyed : ∀ network ∈ e.2, network.listen_port = e.1)
    (hrun : (Recorded.entry os deploy names e).run r = .ok () r') :
    Truthful r' ∧ r'.world.stored = r.world.stored.applyEntry e := by
  obtain ⟨_, hworld, rfl⟩ := (Recorded.entry_lockstep os deploy names e).ok rfl hrun
  refine ⟨?_, apply_entry_stored hworld⟩
  obtain ⟨port, _ | network⟩ := e
  · exact h.removed hlisted hrun
  · exact h.added (hkeyed network rfl) hrun

theorem handNetwork_error {port : UInt16} {network : NetworkState} {w w' : World} {e : Fail}
    (h : (handNetwork os deploy port network).run w = .error e w') :
    (apply_network os deploy network).run w.machine = .error e w'.machine := by
  rcases bind_error_iff.mp h with hhand | ⟨_, t, hhand, hrest⟩
  · cases hhand
  · cases hhand
    obtain ⟨m, hrun, rfl⟩ := zoom_error_iff.mp hrest
    exact hrun

/-- A namespace that could not be added has not been. -/
theorem apply_netns_error {network : NetworkState} {m m' : Machine} {e : Fail}
    (h : (apply_netns os network).run m = .error e m') : m'.sys = m.sys := by
  rcases bind_error_iff.mp h with hexists | ⟨present, t, hexists, hadd⟩
  · exact command_error hexists
  · obtain ⟨_, hsys⟩ := Prod.mk.inj (Option.some.inj (command_ok hexists))
    unfold skipIf at hadd
    split at hadd
    · cases hadd
    · exact (command_error hadd).trans hsys.symm

/-- Interrupting `apply_network` leaves the namespaces of a stored port alone, and those of any port
    before it has added one. -/
theorem apply_network_error_names {network : NetworkState} {m m' : Machine} {e : Fail}
    (h : (apply_network os deploy network).run m = .error e m')
    (hwhere : network.netns_name ∈ m.sys.netns ∨
      returned ((apply_netns os network).run m) = false) : SameNames m.sys m'.sys := by
  intro n
  rcases hwhere with hin | hstop
  · by_cases hn : n = network.netns_name
    · subst hn
      have hkeeps := (apply_network_always (S := KeepsNames) fun _ _ hc => hc.keepsNames).of_error h
      exact ⟨fun _ => hin, fun _ => hkeeps _ hin⟩
    · have hlocal := (apply_network_local os deploy network).of_error h
      exact mem_netns_congr (hlocal.netns n fun heq => hn (Option.some.inj heq))
  · obtain ⟨f, hnetns⟩ := error_of_not_returned hstop
    have hrun := h
    rw [apply_network, bind_of_error hnetns] at hrun
    cases hrun
    rw [apply_netns_error hnetns]

/-- An entry that is interrupted where it may be. -/
theorem Truthful.entry_error {names : List String} {e : UInt16 × Option NetworkState} {f : Fail}
    (h : Truthful r) (hkeyed : ∀ network ∈ e.2, network.listen_port = e.1)
    (hkept : EntryKept os deploy names r.world e)
    (hrun : (Recorded.entry os deploy names e).run r = .error f r') : Truthful r' := by
  have hworld := (Recorded.entry_lockstep os deploy names e) r r.world rfl
  rw [hrun] at hworld
  generalize hq : (apply_entry os deploy names e).run r.world = q at hworld
  rcases hkept with hret | ⟨network, he, hwhere⟩
  · rw [hq] at hret
    cases hworld
    cases hret
  · obtain ⟨port, entry⟩ := e
    obtain rfl : entry = some network := he
    have hport : network.listen_port = port := hkeyed network rfl
    rcases bind_error_iff.mp hrun with hnet | ⟨_, r₁, _, hstore⟩
    · rcases bind_error_iff.mp hnet with hhand | ⟨_, r₁, _, hrecord⟩
      · obtain ⟨w, hw, rfl⟩ := zoom_error_iff.mp hhand
        have hstored : w.stored = r.world.stored :=
          (handNetwork_keepsStored port network).of_error hw
        refine h.now hstored fun q => ?_
        refine apply_network_error_names (handNetwork_error hw) ?_ (portName NETNS_PREFIX q)
        refine hwhere.imp (fun hin => ?_) id
        rw [NetworkState.netns_name, hport]
        exact (h.names port).mpr hin
      · cases hrecord
    · cases hstore

/-- The entries of a diff one after the other, all carried out. -/
theorem Truthful.entries_ok {names : List String} :
    ∀ {entries : List (UInt16 × Option NetworkState)} {r r' : Recorded}, Truthful r →
      entries.Pairwise (fun a b => a.1 ≠ b.1) →
      (∀ e ∈ entries, portName NETNS_PREFIX e.1 ∈ names ↔ e.1 ∈ r.world.stored) →
      (∀ e ∈ entries, ∀ network ∈ e.2, network.listen_port = e.1) →
      (forM entries (Recorded.entry os deploy names)).run r = .ok () r' → Truthful r'
  | [], _, _, h, _, _, _, hrun => by
      obtain ⟨_, rfl⟩ := pure_ok_iff.mp hrun
      exact h
  | e :: entries, r, r', h, hd, hlisted, hkeyed, hrun => by
      obtain ⟨hhead, htail⟩ := List.pairwise_cons.mp hd
      obtain ⟨hlisted₁, hlisted⟩ := List.forall_mem_cons.mp hlisted
      obtain ⟨hkeyed₁, hkeyed⟩ := List.forall_mem_cons.mp hkeyed
      obtain ⟨_, t, hfirst, hrest⟩ := bind_ok_iff.mp hrun
      obtain ⟨ht, hstored⟩ := h.entry_ok hlisted₁ hkeyed₁ hfirst
      refine ht.entries_ok htail (fun e' he' => ?_) hkeyed hrest
      rw [hlisted e' he', hstored, OrdMap.mem_iff_get, OrdMap.mem_iff_get,
        GatewayConfig.get_applyEntry, if_neg (hhead e' he')]

/-- A diff that is interrupted where it may be. -/
theorem Truthful.diff {d : GatewayConfigPartial} (h : Truthful r) (hd : d.Keyed)
    (hkept : Kept os deploy r.world (.applyPartial d)) :
    Truthful (final ((Recorded.diff os deploy d).run r)) := by
  have hprep := h.observed (onMachine_keepsStored (prepare os))
    (onMachine_always (prepare_sameNames os))
  have hdistinct := OrdMap.toList_pairwise d
  have hkeyed := hd.entries
  rw [Recorded.diff]
  cases hr₁ : (Recorded.observed (onMachine (prepare os))).run r with
  | error e r₁ =>
    rw [bind_of_error hr₁]
    rw [hr₁] at hprep
    exact hprep
  | ok names r₁ =>
    rw [bind_of_ok hr₁]
    rw [hr₁] at hprep
    obtain ⟨w₁, hw₁, rfl⟩ := zoom_ok_iff.mp hr₁
    have hlisted : ∀ port : UInt16, portName NETNS_PREFIX port ∈ names ↔ port ∈ w₁.stored := by
      intro port
      rw [(prepare_ok (onMachine_ok hw₁).1).1]
      exact hprep.names port
    cases hr₂ : (forM d.toList (Recorded.entry os deploy names)).run (r.now w₁) with
    | error e r₂ =>
      rw [bind_of_error hr₂]
      obtain ⟨before, entry, after, u, hsplit, hbefore, hentry⟩ := forM_error hr₂
      rw [hsplit] at hdistinct hkeyed
      have hu := hprep.entries_ok (List.pairwise_append.mp hdistinct).1
        (fun e _ => hlisted e.1) (fun e he => hkeyed e (List.mem_append_left _ he)) hbefore
      obtain ⟨_, hworld, rfl⟩ := (Lockstep.forM fun e _ =>
        Recorded.entry_lockstep os deploy names e).ok rfl hbefore
      exact hu.entry_error (hkeyed entry (by simp))
        (hkept names w₁ hw₁ before entry after _ hsplit hworld) hentry
    | ok _ r₂ =>
      have h₂ := hprep.entries_ok hdistinct (fun e _ => hlisted e.1) hkeyed hr₂
      rw [bind_of_ok hr₂]
      exact h₂.observed (handNginx_keepsStored _) (handNginx_sameNames os deploy _)

/-! ### Full requests -/

/-- Networks set up one after the other are all recorded. -/
theorem networks_recorded :
    ∀ {list : List (UInt16 × NetworkState)} {r r' : Recorded},
      (forM list fun e => Recorded.network os deploy e.1 e.2).run r = .ok () r' →
      (∀ n, n ∈ r'.world.sys.netns ↔
        (∃ e ∈ list, n = e.2.netns_name) ∨ n ∈ r.world.sys.netns) ∧
      ∀ network, (∃ e ∈ list, network = e.2) ∨
        network ∈ r.completed ∧ network.netns_name ∈ r.world.sys.netns → network ∈ r'.completed
  | [], _, _, hrun => by
      obtain ⟨_, rfl⟩ := pure_ok_iff.mp hrun
      refine ⟨by simp, fun network h => ?_⟩
      rcases h with ⟨e, he, _⟩ | ⟨h, _⟩
      · cases he
      · exact h
  | e :: list, r, r', hrun => by
      obtain ⟨_, t, hfirst, hrest⟩ := bind_ok_iff.mp hrun
      obtain ⟨hnames, hcompleted⟩ := networks_recorded hrest
      obtain ⟨_, r₀, hhand, hrecord⟩ := bind_ok_iff.mp hfirst
      obtain ⟨w, hw, rfl⟩ := zoom_ok_iff.mp hhand
      cases hrecord
      have hplaced : ∀ n, n ∈ w.sys.netns ↔ n = e.2.netns_name ∨ n ∈ r.world.sys.netns :=
        (apply_network_placed (handNetwork_ok hw).1).names
      have hnames : ∀ n, n ∈ r'.world.sys.netns ↔
          (∃ e ∈ list, n = e.2.netns_name) ∨ n ∈ w.sys.netns := hnames
      refine ⟨fun n => ?_, fun network h => hcompleted network ?_⟩
      · rw [hnames n, hplaced n]
        simp only [List.mem_cons, exists_eq_or_imp, or_assoc, or_left_comm]
      · rcases h with ⟨e', he', rfl⟩ | ⟨hold, hthere⟩
        · rcases List.mem_cons.mp he' with rfl | he'
          · exact Or.inr ⟨List.mem_cons_self, (hplaced _).mpr (Or.inl rfl)⟩
          · exact Or.inl ⟨e', he', rfl⟩
        · have hin : network.netns_name ∈ w.sys.netns := (hplaced _).mpr (Or.inr hthere)
          exact Or.inr ⟨List.mem_cons_of_mem _ (List.mem_filter.mpr ⟨hold, decide_eq_true hin⟩), hin⟩

/-- A full request that gets as far as nginx. -/
theorem truthful_networks {config : GatewayConfig} (hconfig : config.Keyed)
    (hrun : (Recorded.networks os deploy config).run r = .ok () r') : Truthful r' := by
  have hstored : r'.world.stored = config := by
    obtain ⟨_, hworld, rfl⟩ := (Recorded.networks_lockstep os deploy config).ok rfl hrun
    obtain ⟨_, t₁, hstore, h⟩ := bind_ok_iff.mp hworld
    cases hstore
    obtain ⟨names, t₂, hprep, h⟩ := bind_ok_iff.mp h
    obtain ⟨_, t₃, hremove, hloop⟩ := bind_ok_iff.mp h
    have hkept := (Always.forM fun e _ => handNetwork_keepsStored e.1 e.2 :
      Always (fun w w' : World => w'.stored = w.stored)
        (forM config.rekeyed fun e => handNetwork os deploy e.1 e.2)) t₃
    rw [hloop] at hkept
    exact hkept.trans ((onMachine_ok hremove).2.trans (onMachine_ok hprep).2)
  obtain ⟨_, r₁, hstore, h⟩ := bind_ok_iff.mp hrun
  obtain ⟨names, r₂, hprep, h⟩ := bind_ok_iff.mp h
  obtain ⟨_, r₃, hremove, hloop⟩ := bind_ok_iff.mp h
  obtain ⟨w₁, _, rfl⟩ := zoom_ok_iff.mp hstore
  obtain ⟨w₂, hw₂, rfl⟩ := zoom_ok_iff.mp hprep
  obtain ⟨w₃, hw₃, rfl⟩ := zoom_ok_iff.mp hremove
  obtain ⟨hnames, hcompleted⟩ := networks_recorded hloop
  have hleft := remove_surplus_ok (prepare_ok (onMachine_ok hw₂).1).1 (onMachine_ok hw₃).1
  refine ⟨hstored ▸ hconfig, fun port => ?_, fun port network hget => hcompleted _ (Or.inl ?_)⟩
  · have hexpected : (∃ e ∈ config.rekeyed, portName NETNS_PREFIX port = e.2.netns_name) ↔
        port ∈ config := by
      rw [GatewayConfig.exists_rekeyed_iff]
      refine ⟨?_, fun hp => ⟨port, hp, rfl⟩⟩
      rintro ⟨q, hq, heq⟩
      rw [portName_injective _ heq]
      exact hq
    rw [hnames, hstored, ← hexpected]
    refine ⟨?_, Or.inl⟩
    rintro (hex | hold)
    · exact hex
    · obtain ⟨e, he, heq⟩ := List.mem_map.mp (hleft _ (starts_with_portName _ _) hold)
      exact ⟨e, he, heq.symm⟩
  · rw [hstored] at hget
    refine ⟨(port, { network with listen_port := port }),
      GatewayConfig.mem_rekeyed.mpr ⟨network, hget, rfl⟩, ?_⟩
    have hp := hconfig port network hget
    subst hp
    rfl

/-- The namespaces of a configuration are kept, and no other ports' come up. -/
structure Confined (config : GatewayConfig) (s s' : System) : Prop where
  kept : ∀ port ∈ config, portName NETNS_PREFIX port ∈ s.netns → portName NETNS_PREFIX port ∈ s'.netns
  new : ∀ port, portName NETNS_PREFIX port ∈ s'.netns →
    portName NETNS_PREFIX port ∈ s.netns ∨ port ∈ config

instance (config : GatewayConfig) : Std.Refl (Confined config) :=
  ⟨fun _ => ⟨fun _ _ h => h, fun _ h => Or.inl h⟩⟩

instance (config : GatewayConfig) : IsTrans System (Confined config) :=
  ⟨fun _ _ _ h h' => ⟨fun port hp hs => h'.kept port hp (h.kept port hp hs), fun port hs =>
    (h'.new port hs).elim (h.new port) Or.inr⟩⟩

theorem Confined.of_sameNames {config : GatewayConfig} {s s' : System}
    (h : SameNames s s') : Confined config s s' :=
  ⟨fun _ _ hs => (h _).mpr hs, fun _ hs => Or.inl ((h _).mp hs)⟩

/-- Applying a network of the configuration. -/
theorem Change.confined {config : GatewayConfig} {network : NetworkState} {s s' : System}
    (hnetwork : network.listen_port ∈ config) (h : Change deploy network s s') :
    Confined config s s' := by
  refine ⟨fun port _ hs => h.keepsNames _ hs, fun port hs => ?_⟩
  have hinsert : ∀ ns, portName NETNS_PREFIX port ∈ s.netns.insert network.netns_name ns →
      portName NETNS_PREFIX port ∈ s.netns ∨ port ∈ config := by
    intro ns hin
    rcases (OrdMap.mem_insert _ _ _ _).mp hin with heq | hin
    · rw [← portName_injective _ heq]
      exact Or.inr hnetwork
    · exact Or.inl hin
  cases h with
  | netns | wireguard | nat => exact hinsert _ hs
  | inner | outer | addrs => exact Or.inl ((System.alter_mem_netns _ _ _ _ _).mp hs)
  | file | veth => exact Or.inl hs

/-- Everything a full request does. -/
theorem Touch.confined {config : GatewayConfig} {s s' : System}
    (h : Touch deploy (fun n => ∀ port ∈ config, n ≠ portName NETNS_PREFIX port)
      (fun network => network.listen_port ∈ config) s s') : Confined config s s' := by
  cases h with
  | bridge | nginx_module | nginx_site => exact Confined.of_sameNames fun _ => Iff.rfl
  | outer f => exact Confined.of_sameNames fun n => System.alter_mem_netns _ _ _ _ n
  | delete hdoomed _ =>
    exact ⟨fun port hp hs => (OrdMap.mem_erase _ _ _).mpr ⟨hdoomed port hp, hs⟩,
      fun port hs => Or.inl ((OrdMap.mem_erase _ _ _).mp hs).2⟩
  | network hnetwork hchange => exact hchange.confined hnetwork

/-- So are the networks of the configuration in the record. -/
structure StillRecorded (config : GatewayConfig) (r r' : Recorded) : Prop where
  confined : Confined config r.world.sys r'.world.sys
  completed : ∀ network ∈ r.completed, network.listen_port ∈ config →
    network.netns_name ∈ r.world.sys.netns → network ∈ r'.completed

instance (config : GatewayConfig) : IsTrans Recorded (StillRecorded config) :=
  ⟨fun _ _ _ h h' => ⟨IsTrans.trans _ _ _ h.confined h'.confined, fun network hc hp hin =>
    h'.completed network (h.completed network hc hp hin) hp (h.confined.kept _ hp hin)⟩⟩

instance (config : GatewayConfig) : Std.Refl (StillRecorded config) :=
  ⟨fun _ => ⟨Std.Refl.refl _, fun _ hc _ _ => hc⟩⟩

theorem observed_stillRecorded {α : Type} {config : GatewayConfig} {x : EStateM Fail World α}
    (hx : Always (InWorld (Confined config)) x) :
    Always (StillRecorded config) (Recorded.observed x) :=
  Always.zoom (S := InWorld (Confined config)) (fun _ _ h => ⟨h, fun _ hc hp hin =>
    List.mem_filter.mpr ⟨hc, decide_eq_true (h.kept _ hp hin)⟩⟩) hx

theorem network_stillRecorded {config : GatewayConfig} {port : UInt16} {network : NetworkState}
    (hnetwork : network.listen_port ∈ config) :
    Always (StillRecorded config) (Recorded.network os deploy port network) :=
  Always.bind (observed_stillRecorded (handNetwork_always (fun _ _ => Touch.confined) port hnetwork))
    fun _ r => ⟨Std.Refl.refl r.world.sys, fun _ hc _ _ => List.mem_cons_of_mem _ hc⟩

/-- Asking again for what is stored takes nothing away, wherever the request is interrupted. -/
theorem Truthful.again {config : GatewayConfig} (h : Truthful r) (hsame : config = r.world.stored) :
    Truthful (final ((Recorded.apply os deploy config).run r)) := by
  have htouch : ∀ s s', Touch deploy (fun n => ∀ port ∈ config, n ≠ portName NETNS_PREFIX port)
      (fun network => network.listen_port ∈ config) s s' → Confined config s s' :=
    fun _ _ => Touch.confined
  have hstill : Always (StillRecorded config) (Recorded.apply os deploy config) := by
    refine Always.bind (Always.bind (observed_stillRecorded (modify_always fun _ => rfl)) fun _ =>
      Always.bind (observed_stillRecorded (onMachine_always (prepare_always htouch))) fun names =>
      Always.bind (observed_stillRecorded (onMachine_always
        (remove_surplus_always htouch fun n _ hn port hp heq => hn ?_))) fun _ =>
      Always.forM fun e he => network_stillRecorded ?_) fun _ =>
      observed_stillRecorded (handNginx_always htouch _)
    · obtain ⟨e, he, hname⟩ := GatewayConfig.exists_rekeyed_iff.mpr ⟨port, hp, heq⟩
      exact List.mem_map.mpr ⟨e, he, hname.symm⟩
    · obtain ⟨network, hget, heq⟩ := GatewayConfig.mem_rekeyed.mp he
      rw [heq]
      exact (OrdMap.mem_iff_get _ _).mpr ⟨network, hget⟩
  obtain ⟨hconfined, hcompleted⟩ := hstill r
  have hstored : (final ((Recorded.apply os deploy config).run r)).world.stored = config := by
    rw [show (final ((Recorded.apply os deploy config).run r)).world = _ from
      Recorded.respond_world os deploy (.apply config) r]
    exact apply_stored config r.world
  refine ⟨?_, fun port => ?_, fun port network hget => ?_⟩
  · rw [hstored, hsame]
    exact h.keyed
  · rw [hstored]
    refine ⟨fun hs => ?_, fun hp => hconfined.kept port hp ((h.names port).mpr (hsame ▸ hp))⟩
    rcases hconfined.new port hs with hold | hp
    · rw [hsame]
      exact (h.names port).mp hold
    · exact hp
  · rw [hstored] at hget
    have hp : port ∈ config := (OrdMap.mem_iff_get _ _).mpr ⟨network, hget⟩
    have hget' : r.world.stored[port]? = some network := hsame ▸ hget
    have hport := h.keyed port network hget'
    refine hcompleted network (h.completed port network hget') (hport.symm ▸ hp) ?_
    rw [NetworkState.netns_name, hport]
    exact (h.names port).mpr (hsame ▸ hp)

theorem Truthful.full {config : GatewayConfig} (h : Truthful r) (hconfig : config.Keyed)
    (hkept : Kept os deploy r.world (.apply config)) :
    Truthful (final ((Recorded.apply os deploy config).run r)) := by
  rcases hkept with hsame | hret
  · exact h.again hsame
  · have hworld := Recorded.networks_lockstep os deploy config r r.world rfl
    rw [ok_of_returned hret] at hworld
    rw [Recorded.apply]
    generalize hrun : (Recorded.networks os deploy config).run r = result at hworld
    cases hworld with
    | ok _ _ =>
      rw [bind_of_ok hrun]
      exact (truthful_networks hconfig hrun).observed (handNginx_keepsStored _)
        (handNginx_sameNames os deploy _)

end

/-! ### Runs -/

theorem Truthful.serve {os : Os} {deploy : Deployment} :
    ∀ {requests : List GatewayRequest} {r : Recorded}, Truthful r →
      (∀ request ∈ requests, request.Keyed) → AllKept os deploy requests r.world →
      Truthful (Recorded.serve os deploy requests r)
  | [], _, h, _, _ => h
  | .shutdown :: _, _, h, _, _ => h
  | .apply config :: requests, r, h, hkeyed, hkept => by
      obtain ⟨hkeyed₁, hkeyed⟩ := List.forall_mem_cons.mp hkeyed
      have hworld := Recorded.respond_world os deploy (.apply config) r
      exact Truthful.serve (r := final _) (h.full hkeyed₁ hkept.1) hkeyed (hworld ▸ hkept.2)
  | .applyPartial d :: requests, r, h, hkeyed, hkept => by
      obtain ⟨hkeyed₁, hkeyed⟩ := List.forall_mem_cons.mp hkeyed
      have hworld := Recorded.respond_world os deploy (.applyPartial d) r
      exact Truthful.serve (r := final _) (h.diff hkeyed₁ hkept.1) hkeyed (hworld ▸ hkept.2)

/-- In every run of requests that are interrupted, if at all, only where they may be, what is stored
    is what is running: the namespaces of the gateway are those of the stored ports, and everything
    has been done for each stored network since its namespace was created. -/
theorem stored_is_running (os : Os) (deploy : Deployment) (requests : List GatewayRequest)
    (w : World) (hw : w.stored = ∅)
    (hnone : ∀ n, starts_with n NETNS_PREFIX = true → n ∉ w.sys.netns)
    (hkeyed : ∀ request ∈ requests, request.Keyed) (hkept : AllKept os deploy requests w) :
    (Recorded.serve os deploy requests ⟨w, []⟩).world = serve os deploy requests w ∧
      Truthful (Recorded.serve os deploy requests ⟨w, []⟩) := by
  refine ⟨Recorded.serve_world os deploy requests _, Truthful.serve ⟨?_, fun port => ?_, ?_⟩ hkeyed hkept⟩
  · intro port network hget
    rw [hw] at hget
    simp at hget
  · refine iff_of_false (hnone _ (starts_with_portName _ _)) ?_
    rw [hw]
    exact ExtTreeMap.not_mem_empty
  · intro port network hget
    rw [hw] at hget
    simp at hget

theorem Bench.config_keyed (network : NetworkState) :
    (Bench.config network.listen_port network).Keyed := by
  intro port other hget
  obtain ⟨rfl, rfl⟩ := Bench.get_config hget
  rfl

namespace Bench

/-- The thirty-fourth command fails: nginx is reloaded after the first network. -/
def reloading : Os := { os with fails := fun n => decide (n = 33) }

/-- A network is applied, another one comes with a diff, and the first one goes. -/
def requests : List GatewayRequest :=
  [.apply (config 5000 (bare 5000)), .applyPartial (diff 6000 (bare 6000)),
    .applyPartial (removal 5000)]

/-- A diff of one entry, carried out, is kept. -/
theorem kept_of_entry {os : Os} {w : World} {d : GatewayConfigPartial}
    {entry : UInt16 × Option NetworkState} (hlist : d.toList = [entry])
    (hret : returned ((onMachine (prepare os) >>= fun names =>
      apply_entry os deploy names entry).run w) = true) : Kept os deploy w (.applyPartial d) := by
  intro names t hrun before e after u heq hbefore
  rw [bind_of_ok hrun] at hret
  rw [hlist] at heq
  obtain ⟨rfl, hcons⟩ | ⟨_, _, hnil⟩ := List.cons_eq_append_iff.mp heq
  · obtain ⟨rfl, _⟩ := List.cons.inj hcons
    cases hbefore
    exact Or.inl hret
  · simp at hnil

end Bench

/-- The first request is interrupted where it may be, when its network is up, and the diffs that follow
    find the machine as it is stored. -/
theorem stored_is_running_reloading :
    returned ((respond Bench.reloading Bench.deploy (Bench.requests.headD .shutdown)).run
        Bench.world) = false ∧
      Truthful (Recorded.serve Bench.reloading Bench.deploy Bench.requests ⟨Bench.world, []⟩) := by
  refine ⟨by decide +kernel, (stored_is_running Bench.reloading Bench.deploy Bench.requests
    Bench.world rfl (fun _ _ => ExtTreeMap.not_mem_empty) ?_ ?_).2⟩
  · intro request hin
    simp only [Bench.requests, List.mem_cons, List.not_mem_nil, or_false] at hin
    rcases hin with rfl | rfl | rfl
    · exact Bench.config_keyed (Bench.bare 5000)
    · intro port network hget
      obtain ⟨rfl, rfl⟩ := Bench.get_diff hget
      rfl
    · exact fun port network hget => absurd hget Bench.get_removal
  · exact ⟨Or.inr (by decide +kernel), Bench.kept_of_entry rfl (by decide +kernel),
      Bench.kept_of_entry rfl (by decide +kernel), trivial⟩

/-- The first command of the first request fails: its network is stored, and has no namespace. -/
theorem stored_before_running : ¬ ∀ (os : Os) (deploy : Deployment) (requests : List GatewayRequest)
    (w : World), w.stored = ∅ → (∀ n, starts_with n NETNS_PREFIX = true → n ∉ w.sys.netns) →
    (∀ request ∈ requests, request.Keyed) →
    Truthful (Recorded.serve os deploy requests ⟨w, []⟩) := by
  intro h
  have htruthful := h Bench.failing Bench.deploy [.apply (Bench.config 5000 (Bench.bare 5000))]
    Bench.world rfl (fun _ _ => ExtTreeMap.not_mem_empty) fun request hin => by
      obtain rfl := List.mem_singleton.mp hin
      exact Bench.config_keyed (Bench.bare 5000)
  exact absurd ((htruthful.names 5000).mpr (by decide +kernel)) (by decide +kernel)

end FractalGateway
