import FractalGateway.Watchdog.Poll
import Mathlib.Data.List.Nodup

/-! The event stream as a log of who is connected.

    While every send succeeds, a poll of a network leaves in the cache exactly what it read, with
    expired handshakes cleared, and the events it sends take the manager's entry for a peer from
    "connected as cached before" to "connected as cached now". Over a run on a fixed set of networks
    the replayed events are therefore the peers with a fresh handshake in the latest statistics. -/

namespace FractalGateway
open Std Exec

variable {w : ℕ}

/-- The handshake is not in the future, and in whole seconds at most the timeout old. -/
def PeerStats.fresh (peer : PeerStats w) (now : SystemTime) : Bool :=
  match peer.latest_handshake with
  | none => false
  | some handshake =>
    decide (handshake.nanos ≤ now.nanos ∧
      (now.nanos - handshake.nanos) / 1000000000 ≤ WIREGUARD_HANDSHAKE_TIMEOUT)

/-- The endpoint under which a cached peer counts as connected. -/
def PeerStats.connected (peer : PeerStats w) : Option SocketAddr :=
  if peer.latest_handshake.isSome then peer.endpoint else none

/-- A peer with a handshake has an endpoint. -/
def PeerStats.Announceable (peer : PeerStats w) : Prop :=
  peer.latest_handshake.isSome → peer.endpoint.isSome

instance (peer : PeerStats w) : Decidable peer.Announceable := inferInstanceAs (Decidable (_ → _))

/-- What is left of a handshake once expired ones are cleared. -/
theorem PeerStats.expire_isSome (peer : PeerStats w) (now : SystemTime) :
    (peer.expire now).latest_handshake.isSome = peer.fresh now := by
  rw [PeerStats.expire, PeerStats.fresh]
  cases hh : peer.latest_handshake with
  | none => simp [hh]
  | some handshake =>
    by_cases hle : handshake.nanos ≤ now.nanos
    · have hdur : now.duration_since handshake = some (now.nanos - handshake.nanos).toNat :=
        if_pos hle
      simp only [hdur]
      by_cases hlt : WIREGUARD_HANDSHAKE_TIMEOUT < as_secs (now.nanos - handshake.nanos).toNat
      · rw [if_pos hlt]
        simp only [Option.isSome_none, as_secs] at hlt ⊢
        symm
        rw [decide_eq_false_iff_not]
        omega
      · rw [if_neg hlt, hh]
        simp only [Option.isSome_some, as_secs] at hlt ⊢
        symm
        rw [decide_eq_true_eq]
        omega
    · have hdur : now.duration_since handshake = none := if_neg hle
      simp [hdur, hle]

theorem PeerStats.Announceable.expire {peer : PeerStats w} (h : peer.Announceable)
    (now : SystemTime) : (peer.expire now).Announceable := by
  intro hsome
  rw [PeerStats.expire_isSome, PeerStats.fresh] at hsome
  rw [PeerStats.expire_endpoint]
  apply h
  cases hh : peer.latest_handshake with
  | none => simp [hh] at hsome
  | some t => rfl

/-! ### One pair -/

/-- The announcements of a step take the entry from the old to the new state of the peer. -/
theorem announce_fold (k : Pubkey) {c : Option (PeerStats w)} {p : PeerStats w}
    (hc : ∀ q, c = some q → q.Announceable) (hp : p.Announceable) :
    (announce k c p).foldl GatewayEvent.fold (c.bind PeerStats.connected) = p.connected := by
  cases c with
  | none =>
    cases hh : p.latest_handshake with
    | none => simp [announce, PeerStats.connected, hh]
    | some t =>
      obtain ⟨addr, haddr⟩ := Option.isSome_iff_exists.mp (hp (by simp [hh]))
      simp [announce, PeerStats.connected, hh, haddr, GatewayEvent.fold]
  | some q =>
    have hq := hc q rfl
    cases hqh : q.latest_handshake with
    | none =>
      cases hh : p.latest_handshake with
      | none =>
        -- an endpoint change of a peer that is not connected changes nothing
        by_cases hne : p.endpoint = q.endpoint
        · simp [announce, PeerStats.connected, hqh, hh, hne]
        · cases he : p.endpoint <;>
            simp [announce, PeerStats.connected, hqh, hh, he ▸ hne, he, GatewayEvent.fold]
      | some t =>
        obtain ⟨addr, haddr⟩ := Option.isSome_iff_exists.mp (hp (by simp [hh]))
        simp [announce, PeerStats.connected, hqh, hh, haddr, GatewayEvent.fold]
    | some t' =>
      obtain ⟨old, hold⟩ := Option.isSome_iff_exists.mp (hq (by simp [hqh]))
      cases hh : p.latest_handshake with
      | none => simp [announce, PeerStats.connected, hqh, hh, GatewayEvent.fold]
      | some t =>
        obtain ⟨addr, haddr⟩ := Option.isSome_iff_exists.mp (hp (by simp [hh]))
        by_cases hne : addr = old
        · simp [announce, PeerStats.connected, hqh, hh, haddr, hold, hne]
        · simp [announce, PeerStats.connected, hqh, hh, haddr, hold, hne, GatewayEvent.fold]

/-- A poll without refusals caches what it read, and its events follow. -/
theorem PairPoll.follow {k x : Pubkey} {clockOk refused : Prop} {c l n : Option (PeerStats w)}
    {a : List (GatewayEvent × Delivery)} {item : Option (Traffic w)}
    (h : PairPoll k x clockOk refused c l a n item) (hclock : clockOk) (hr : ¬refused)
    (ha : Accepted a) (hc : ∀ q, c = some q → q.Announceable)
    (hl : ∀ p, l = some p → p.Announceable) :
    n = l ∧ (a.map Prod.fst).foldl GatewayEvent.fold (c.bind PeerStats.connected) =
      l.bind PeerStats.connected := by
  cases h with
  | stale ht _ => exact absurd hclock ht
  | refused hna _ => exact absurd ha hna
  | done _ hmem _ _ =>
    refine ⟨rfl, ?_⟩
    rw [hmem]
    exact announce_fold k hc (hl _ rfl)
  | absent hnone =>
    subst hnone
    exact ⟨rfl, rfl⟩
  | swept fate _ => exact ⟨rfl, rfl⟩
  | missed hm _ => exact absurd hm hr

/-! ### A fixed set of networks -/

/-- A network with the name of its namespace. -/
structure Net where
  name : String
  port : UInt16
  key : Pubkey
  deriving DecidableEq

/-- A set of networks, each with its own namespace, port and key. -/
structure Networks where
  nets : List Net
  named : ∀ n ∈ nets, starts_with n.name NETNS_PREFIX
  names : (nets.map (·.name)).Nodup
  ports : (nets.map (·.port)).Nodup
  keys : (nets.map (·.key)).Nodup

/-- A poll that finds exactly these networks, each under its key and port whenever its statistics
    can be fetched, and the peers of a network with distinct keys. -/
structure Networks.Polled (N : Networks) (poll : Poll w) : Prop where
  present : ∃ items, poll.netns_list = .ok items ∧
    ((items.map (·.name)).filter (starts_with · NETNS_PREFIX)).Perm (N.nets.map (·.name))
  stats : ∀ n ∈ N.nets, ∀ stats, poll.stats n.name = .ok stats →
    stats.public_key = n.key ∧ stats.listen_port = n.port ∧
      (stats.peers.map (·.public_key)).Nodup

theorem toOption_some {ε α : Type} {e : Except ε α} {a : α} :
    e.toOption = some a ↔ e = .ok a := by
  cases e <;> simp [Except.toOption]

/-- The names a poll asks for statistics. -/
def Poll.asked (poll : Poll w) : List String :=
  ((poll.netns_list.toOption.getD []).map (·.name)).filter (starts_with · NETNS_PREFIX)

theorem Poll.visits_eq_asked (poll : Poll w) :
    poll.visits = poll.asked.filterMap fun name => (poll.stats name).toOption := by
  rw [Poll.visits, Poll.asked, List.filterMap_filter, List.filterMap_map]
  rfl

section
variable {N : Networks} {poll : Poll w}

theorem Networks.Polled.asked_perm (h : N.Polled poll) :
    poll.asked.Perm (N.nets.map (·.name)) := by
  obtain ⟨items, hitems, hperm⟩ := h.present
  rw [Poll.asked, hitems]
  exact hperm

/-- Every visit is one of the networks. -/
theorem Networks.Polled.mem_visits (h : N.Polled poll) {stats : NetworkStats w}
    (hs : stats ∈ poll.visits) : ∃ n ∈ N.nets, poll.stats n.name = .ok stats := by
  rw [Poll.visits_eq_asked, List.mem_filterMap] at hs
  obtain ⟨name, hname, hstats⟩ := hs
  obtain ⟨n, hn, rfl⟩ := List.mem_map.mp (h.asked_perm.mem_iff.mp hname)
  exact ⟨n, hn, toOption_some.mp hstats⟩

/-- Nothing is fetched for a key of no network. -/
theorem Networks.Polled.foreign (h : N.Polled poll) {k : Pubkey} (hk : k ∉ N.nets.map (·.key)) :
    ∀ stats ∈ poll.visits, stats.public_key ≠ k := by
  rintro stats hst rfl
  obtain ⟨n, hn, hfetch⟩ := h.mem_visits hst
  exact hk (List.mem_map.mpr ⟨n, hn, (h.stats n hn stats hfetch).1.symm⟩)

/-- Nothing is sent about it either. -/
theorem Networks.Polled.silent (h : N.Polled poll) {g : Global} {k : Pubkey}
    (hk : k ∉ N.nets.map (·.key)) {new : List (GatewayEvent × Delivery)}
    (hsends : ∀ a ∈ new, poll.Sends g a) (x : Pubkey) : attemptsAbout k x new = [] := by
  refine attemptsAbout_eq_nil fun a ha hab => ?_
  obtain ⟨stats, hst, heq, _⟩ := hsends a ha
  exact h.foreign hk stats hst (heq.symm.trans hab.1)

/-- Networks with one key or one port are one network. -/
theorem Networks.eq_of_key (N : Networks) {a b : Net} (ha : a ∈ N.nets) (hb : b ∈ N.nets)
    (h : a.key = b.key) : a = b :=
  List.inj_on_of_nodup_map N.keys ha hb h

theorem Networks.eq_of_port (N : Networks) {a b : Net} (ha : a ∈ N.nets) (hb : b ∈ N.nets)
    (h : a.port = b.port) : a = b :=
  List.inj_on_of_nodup_map N.ports ha hb h

/-- Each network keeps its port to itself. -/
theorem Networks.Polled.resident (h : N.Polled poll) {n : Net} (hn : n ∈ N.nets) :
    Resident n.key n.port poll.visits where
  port_iff := by
    intro stats hs
    obtain ⟨m, hm, hfetch⟩ := h.mem_visits hs
    obtain ⟨hkey, hport, _⟩ := h.stats m hm stats hfetch
    rw [hkey, hport]
    constructor
    · intro heq
      rw [N.eq_of_key hm hn heq]
    · intro heq
      rw [N.eq_of_port hm hn heq]
  once := by
    have hnd : poll.asked.Nodup := h.asked_perm.nodup_iff.mpr N.names
    rw [Poll.visits_eq_asked, List.pairwise_filterMap]
    refine hnd.imp_of_mem ?_
    intro a b ha hb hab sa hsa sb hsb hka hkb
    -- two visits under one key would be two entries of one name
    obtain ⟨m, hm, rfl⟩ := List.mem_map.mp (h.asked_perm.mem_iff.mp ha)
    obtain ⟨m', hm', rfl⟩ := List.mem_map.mp (h.asked_perm.mem_iff.mp hb)
    have hk := (h.stats m hm sa (toOption_some.mp hsa)).1
    have hk' := (h.stats m' hm' sb (toOption_some.mp hsb)).1
    have heq : m = m' := N.eq_of_key hm hm' (by rw [← hk, ← hk', hka, hkb])
    exact hab (by rw [heq])
  peers := by
    intro stats hs hkey
    obtain ⟨m, hm, hfetch⟩ := h.mem_visits hs
    exact (h.stats m hm stats hfetch).2.2

end

/-! ### Runs -/

/-- The latest poll at which the statistics of network `k` could be fetched, with these. -/
def latest (k : Pubkey) (polls : List (Poll w)) : Option (Poll w × NetworkStats w) :=
  (polls.filterMap fun poll => (statsOf k poll.visits).map fun stats => (poll, stats)).getLast?

/-- The peers listed in the latest statistics of their network with a fresh handshake, with their
    endpoints. -/
def connectivity (polls : List (Poll w)) : PeerMap := fun k x =>
  (latest k polls).bind fun l => (listed l.2.peers x).bind fun p =>
    if p.fresh (l.1.clock k x).now then p.endpoint else none

/-- A peer as the latest statistics of its network leave it in the cache. -/
def seen (k x : Pubkey) (polls : List (Poll w)) : Option (PeerStats w) :=
  (latest k polls).bind fun l => (listed l.2.peers x).map (·.expire (l.1.clock k x).now)

theorem latest_concat (k : Pubkey) (polls : List (Poll w)) (poll : Poll w) :
    latest k (polls ++ [poll]) =
      match statsOf k poll.visits with
      | none => latest k polls
      | some stats => some (poll, stats) := by
  rw [latest, List.filterMap_append, List.getLast?_append]
  cases h : statsOf k poll.visits <;> simp [latest, h]

theorem seen_concat (k x : Pubkey) (polls : List (Poll w)) (poll : Poll w) :
    seen k x (polls ++ [poll]) =
      match statsOf k poll.visits with
      | none => seen k x polls
      | some stats => (listed stats.peers x).map (·.expire (poll.clock k x).now) := by
  rw [seen, latest_concat]
  cases statsOf k poll.visits <;> rfl

theorem seen_connected (k x : Pubkey) (polls : List (Poll w)) :
    (seen k x polls).bind PeerStats.connected = connectivity polls k x := by
  rw [seen, connectivity]
  cases latest k polls with
  | none => rfl
  | some l =>
    simp only [Option.bind_some]
    cases listed l.2.peers x with
    | none => rfl
    | some p => simp [PeerStats.connected, PeerStats.expire_isSome]

/-- Cache and replayed events agree with the latest statistics. -/
structure Tracks (N : Networks) (polls : List (Poll w)) (d : Daemon w) : Prop where
  cache : ∀ n ∈ N.nets, ∀ x, slot d.cache n.port x = seen n.key x polls
  announceable : ∀ k x q, seen k x polls = some q → q.Announceable
  events : replay PeerMap.empty (d.log.events.map Prod.fst) = connectivity polls

theorem tracks_start (N : Networks) : Tracks N [] (Daemon.start : Daemon w) where
  cache := fun _ _ x => slot_empty _ x
  announceable := by
    intro k x q h
    simp [seen, latest] at h
  events := rfl

/-- Every listed peer with a handshake has an endpoint. -/
def Poll.Announceable (poll : Poll w) : Prop :=
  ∀ stats ∈ poll.visits, ∀ p ∈ stats.peers, p.Announceable

instance (poll : Poll w) : Decidable poll.Announceable :=
  inferInstanceAs (Decidable (∀ stats ∈ poll.visits, ∀ p ∈ stats.peers, p.Announceable))

section
variable {g : Global} {N : Networks} {polls : List (Poll w)} {poll : Poll w} {d d' : Daemon w}

theorem replay_events_append (a b : List (GatewayEvent × Delivery)) (k x : Pubkey) :
    replay PeerMap.empty ((a ++ b).map Prod.fst) k x =
      ((attemptsAbout k x b).map Prod.fst).foldl GatewayEvent.fold
        (replay PeerMap.empty (a.map Prod.fst) k x) := by
  rw [List.map_append, replay_append, replay_pair k x (b.map Prod.fst), attemptsAbout,
    List.filter_map]
  rfl

/-- One poll keeps cache and events in step with the statistics. -/
theorem Tracks.step (h : Tracks N polls d) (hev : ∀ n, g.events_broadcast n ≠ .refused)
    (hpolled : N.Polled poll) (hann : poll.Announceable) (hclock : ∀ k x, (poll.clock k x).Ok)
    (hrun : (watchdog_run g poll).run d = .ok () d') : Tracks N (polls ++ [poll]) d' := by
  obtain ⟨_, s, hv, rfl⟩ := watchdog_run_ok hrun
  obtain ⟨new, hnew, hsends⟩ := hv.only.events
  have hacc : Accepted new := by
    refine (hv.only.mono ?_).accepted hev hnew
    rintro a ⟨_, _, _, hfate⟩
    exact hfate
  have hlisted : ∀ k x q, seen k x (polls ++ [poll]) = some q → q.Announceable := by
    intro k x q hq
    rw [seen_concat] at hq
    cases hs : statsOf k poll.visits with
    | none =>
      rw [hs] at hq
      exact h.announceable k x q hq
    | some stats =>
      rw [hs] at hq
      obtain ⟨p, hp, rfl⟩ := Option.map_eq_some_iff.mp hq
      exact (hann stats (statsOf_some hs).1 p (listed_some hp).1).expire _
  -- a network of the set: its pairs follow the poll
  have hpair : ∀ n ∈ N.nets, ∀ x,
      slot s.cache n.port x = seen n.key x (polls ++ [poll]) ∧
        ((attemptsAbout n.key x new).map Prod.fst).foldl GatewayEvent.fold
          ((seen n.key x polls).bind PeerStats.connected) =
          (seen n.key x (polls ++ [poll])).bind PeerStats.connected := by
    intro n hn x
    obtain ⟨item, hmove⟩ := hv.pair_of (hpolled.resident hn) hnew x
    have hnext := hlisted n.key x
    rw [h.cache n hn x] at hmove
    rw [seen_concat] at hnext ⊢
    cases hs : statsOf n.key poll.visits with
    | none =>
      rw [hs] at hmove
      obtain ⟨hnil, hcache, _⟩ := hmove
      rw [hnil]
      exact ⟨hcache, rfl⟩
    | some stats =>
      rw [hs] at hmove hnext
      exact PairPoll.follow hmove (hclock n.key x) (not_not.mpr hacc) hacc.about
        (h.announceable n.key x) hnext
  refine ⟨fun n hn x => (hpair n hn x).1, hlisted, ?_⟩
  funext k x
  show replay PeerMap.empty (s.log.events.map Prod.fst) k x = _
  rw [hnew, show d.watch.log.events = d.log.events from rfl, replay_events_append, h.events]
  by_cases hk : k ∈ N.nets.map (·.key)
  · obtain ⟨n, hn, rfl⟩ := List.mem_map.mp hk
    rw [← seen_connected, ← seen_connected]
    exact (hpair n hn x).2
  · have hnone : statsOf k poll.visits = none := statsOf_eq_none.mpr (hpolled.foreign hk)
    rw [hpolled.silent hk hsends x, connectivity, connectivity, latest_concat, hnone]
    rfl

/-- A release build does not panic on statistics in which handshakes come with endpoints. -/
theorem visit_calm (hbuild : g.build = .release) (clock : Pubkey → Pubkey → Clock)
    {stats : NetworkStats w} (hann : ∀ p ∈ stats.peers, p.Announceable) :
    Calm (visit g clock stats) := by
  have hevent : ∀ e, Calm (g.event e : EStateM Fail (Watch w (Entry w)) Unit) := by
    intro e s reason s' h
    rw [g.event_eq] at h
    split at h <;> cases h
  have hpeer : ∀ p ∈ stats.peers, ∀ c, Calm (watchdog_peer g stats c p) := by
    intro p hp c s reason s' h
    have hstep := watchdog_peer_step g stats c p s
    rw [h] at hstep
    cases hstep with
    | overflow _ _ ho => exact absurd (hbuild.symm.trans ho.1) (by decide)
    | unwrap _ _ hu =>
      have hsome := (hann p hp).expire c.now hu.1
      rw [hu.2.1] at hsome
      cases hsome
  have hpeers : Calm (watchdog_peers g stats (clock stats.public_key) stats.peers) :=
    Calm.forM fun p hp => (hpeer p hp _).logged
  have hsweep : ∀ dead, Calm (watchdog_sweep g stats dead) := fun dead =>
    Calm.forM fun x _ => Calm.bind (fun _ _ _ h => by cases h) fun _ => hevent _
  have hentry : Calm (watchdog_entry g stats (clock stats.public_key)) :=
    hpeers.bind fun _ => Calm.bind (fun _ _ _ h => by cases h) fun _ => hsweep _
  exact (Calm.zoom hentry).logged

/-- Such a poll returns `Ok`. -/
theorem watchdog_run_returns (hbuild : g.build = .release)
    (htr : ∀ n, g.traffic_broadcast n ≠ .refused) (hpolled : N.Polled poll)
    (hann : poll.Announceable) (d : Daemon w) : ∃ d', (watchdog_run g poll).run d = .ok () d' := by
  have hstep := watchdog_run_step g poll d
  have hcalm : Calm (forM poll.visits (visit g poll.clock)) :=
    Calm.forM fun stats hst => visit_calm hbuild poll.clock (hann stats hst)
  obtain ⟨items, hitems, _⟩ := hpolled.present
  generalize (watchdog_run g poll).run d = r at hstep
  cases hstep with
  | unlisted chain hl => rw [hitems] at hl; cases hl
  | panic reason hr hrun => exact absurd hrun (hcalm _ _ _)
  | refused chain hv hf => exact absurd hf (htr _)
  | sent hv hf => exact ⟨_, rfl⟩

/-- A run returns, and tracks the statistics. -/
theorem Tracks.run (hbuild : g.build = .release) (hev : ∀ n, g.events_broadcast n ≠ .refused)
    (htr : ∀ n, g.traffic_broadcast n ≠ .refused) :
    ∀ {polls before : List (Poll w)} {d : Daemon w}, Tracks N before d →
      (∀ poll ∈ polls, N.Polled poll) → (∀ poll ∈ polls, poll.Announceable) →
      (∀ poll ∈ polls, ∀ k x, (poll.clock k x).Ok) →
      ∃ d', (watchdog g polls).run d = .ok () d' ∧ Tracks N (before ++ polls) d'
  | [], before, d, h, _, _, _ => ⟨d, rfl, by rw [List.append_nil]; exact h⟩
  | poll :: polls, before, d, h, hpolled, hann, hclock => by
      obtain ⟨hpolled₁, hpolled⟩ := List.forall_mem_cons.mp hpolled
      obtain ⟨hann₁, hann⟩ := List.forall_mem_cons.mp hann
      obtain ⟨hclock₁, hclock⟩ := List.forall_mem_cons.mp hclock
      obtain ⟨t, hfirst⟩ := watchdog_run_returns hbuild htr hpolled₁ hann₁ d
      obtain ⟨d', hrest, htracks⟩ := Tracks.run hbuild hev htr
        (h.step hev hpolled₁ hann₁ hclock₁ hfirst) hpolled hann hclock
      refine ⟨d', (bind_of_ok hfirst).trans hrest, ?_⟩
      rw [List.append_assoc] at htracks
      exact htracks

end

/-- The event stream is a faithful log of connectivity: polling a fixed set of networks, every poll
    returns, and after each poll the events sent so far replay to the peers with a fresh handshake in
    the latest statistics of their network. -/
theorem replay_eq_connectivity (N : Networks) (g : Global) (polls : List (Poll w))
    (hbuild : g.build = .release) (hev : ∀ n, g.events_broadcast n ≠ .refused)
    (htr : ∀ n, g.traffic_broadcast n ≠ .refused) (hpolled : ∀ poll ∈ polls, N.Polled poll)
    (hann : ∀ poll ∈ polls, poll.Announceable)
    (hclock : ∀ poll ∈ polls, ∀ k x, (poll.clock k x).Ok) :
    ∀ n, ∃ d, (watchdog g (polls.take n)).run Daemon.start = .ok () d ∧
      replay PeerMap.empty (d.log.events.map Prod.fst) = connectivity (polls.take n) := by
  intro n
  obtain ⟨d, hrun, htracks⟩ := (tracks_start N).run hbuild hev htr
    (fun poll hp => hpolled poll (List.mem_of_mem_take hp))
    (fun poll hp => hann poll (List.mem_of_mem_take hp))
    (fun poll hp => hclock poll (List.mem_of_mem_take hp))
  exact ⟨d, hrun, htracks.events⟩

/-- Two networks, the first one with a peer. -/
def Sample.networks : Networks where
  nets := [⟨"network-5000", 5000, ⟨1⟩⟩, ⟨"network-5001", 5001, ⟨2⟩⟩]
  named := by decide
  names := by decide
  ports := by decide
  keys := by decide

/-- The peer is connected at the first poll; at the second its handshake has timed out and the
    statistics of the other network cannot be fetched. -/
def Sample.timeout : List (Poll 64) :=
  [Sample.poll 100 [("network-5000", Sample.stats 1 5000 [Sample.peer 7 (some 50) 0]),
     ("network-5001", Sample.stats 2 5001 [Sample.peer 7 (some 60) 0])],
   { Sample.poll 300 [("network-5000", Sample.stats 1 5000 [Sample.peer 7 (some 50) 0])] with
     netns_list := .ok [⟨"network-5001", none⟩, ⟨"network-5000", none⟩] }]

theorem Sample.timeout_polled : ∀ poll ∈ Sample.timeout, Sample.networks.Polled poll := by
  intro poll hp
  rcases List.mem_cons.mp hp with rfl | hp
  · refine ⟨⟨_, rfl, by decide⟩, fun n hn stats hst => ?_⟩
    rcases List.mem_cons.mp hn with rfl | hn
    · cases hst
      exact ⟨rfl, rfl, by decide⟩
    · obtain rfl := List.mem_singleton.mp hn
      cases hst
      exact ⟨rfl, rfl, by decide⟩
  · obtain rfl := List.mem_singleton.mp hp
    refine ⟨⟨_, rfl, by decide⟩, fun n hn stats hst => ?_⟩
    rcases List.mem_cons.mp hn with rfl | hn
    · cases hst
      exact ⟨rfl, rfl, by decide⟩
    · obtain rfl := List.mem_singleton.mp hn
      cases hst

theorem replay_eq_connectivity_timeout :
    (∃ d, (watchdog Sample.global (Sample.timeout.take 1)).run Daemon.start = .ok () d ∧
      replay PeerMap.empty (d.log.events.map Prod.fst) ⟨1⟩ ⟨7⟩ ≠ none) ∧
    ∃ d, (watchdog Sample.global (Sample.timeout.take 2)).run Daemon.start = .ok () d ∧
      replay PeerMap.empty (d.log.events.map Prod.fst) ⟨1⟩ ⟨7⟩ = none ∧
      replay PeerMap.empty (d.log.events.map Prod.fst) ⟨2⟩ ⟨7⟩ ≠ none := by
  have hclock : ∀ poll ∈ Sample.timeout, ∀ k x, (poll.clock k x).Ok := by
    intro poll hp k x
    rcases List.mem_cons.mp hp with rfl | hp
    · exact (by decide : (Sample.clock 100).Ok)
    · obtain rfl := List.mem_singleton.mp hp
      exact (by decide : (Sample.clock 300).Ok)
  have h := replay_eq_connectivity Sample.networks Sample.global Sample.timeout rfl
    (fun _ => Delivery.noConfusion) (fun _ => Delivery.noConfusion) Sample.timeout_polled
    (by decide) hclock
  obtain ⟨d, hd, hmap⟩ := h 1
  obtain ⟨d', hd', hmap'⟩ := h 2
  refine ⟨⟨d, hd, ?_⟩, d', hd', ?_, ?_⟩
  · rw [hmap]
    decide
  · rw [hmap']
    decide
  · rw [hmap']
    decide

end FractalGateway
