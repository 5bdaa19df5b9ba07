import FractalGateway.Lib.Lockstep
import FractalGateway.Watchdog.Visits

/-! Isolation of the networks: what a network's peers do shows in no other network's reports.

    A visit reads the cache of its port only, and writes the events and the traffic of its key only.
    So a run and the run with all other networks deleted go in lockstep at the visits of network
    `k`, as long as the cache of the visited port holds nothing that another network left there. -/

namespace FractalGateway
open Std Exec

variable {w : ℕ}

/-- The events of network `k` among the attempts. -/
def eventsOf (k : Pubkey) (l : List (GatewayEvent × Delivery)) : List GatewayEvent :=
  (l.map Prod.fst).filter fun e => decide (e.network = k)

theorem eventsOf_append (k : Pubkey) (a b : List (GatewayEvent × Delivery)) :
    eventsOf k (a ++ b) = eventsOf k a ++ eventsOf k b := by
  rw [eventsOf, List.map_append, List.filter_append]
  rfl

theorem eventsOf_eq_nil {k : Pubkey} {l : List (GatewayEvent × Delivery)}
    (h : ∀ a ∈ l, a.1.network ≠ k) : eventsOf k l = [] := by
  refine List.filter_eq_nil_iff.mpr fun e he => ?_
  obtain ⟨a, ha, rfl⟩ := List.mem_map.mp he
  simpa using h a ha

/-- Two states with the same cache entry that network `k` cannot tell apart. -/
structure SameFor (k : Pubkey) (s t : Watch w (Entry w)) : Prop where
  cache : s.cache = t.cache
  traffic : s.traffic.networks[k]? = t.traffic.networks[k]?
  events : eventsOf k s.log.events = eventsOf k t.log.events

/-! ### A visit of the network itself -/

section
variable {g : Global} {stats : NetworkStats w}

theorem Global.event_lockstep (hev : ∀ n, g.events_broadcast n ≠ .refused) (k : Pubkey)
    (e : GatewayEvent) : Lockstep (SameFor (w := w) k) (g.event e) (g.event e) := by
  intro s t h
  rw [g.event_eq, g.event_eq, if_neg (hev _), if_neg (hev _)]
  refine .ok () ⟨h.cache, h.traffic, ?_⟩
  simp only [Watch.sent_events, eventsOf_append, h.events]
  rfl

theorem Global.sub_lockstep (k : Pubkey) (x y : BitVec w) :
    Lockstep (SameFor k) (g.sub x y) (g.sub x y) := by
  rw [Global.sub]
  split
  · exact Lockstep.throw _
  · exact Lockstep.pure _

theorem Global.add_lockstep (k : Pubkey) (x y : BitVec w) :
    Lockstep (SameFor k) (g.add x y) (g.add x y) := by
  rw [Global.add]
  split
  · exact Lockstep.throw _
  · exact Lockstep.pure _

theorem TrafficInfo.networks_add_self (t : TrafficInfo w) (k device : Pubkey) (time : BitVec w)
    (traffic : Traffic w) : (t.add k device time traffic).networks[k]? =
      some ((t.networks[k]?.getD NetworkTraffic.default).add device time traffic) := by
  simp [TrafficInfo.add]

theorem watchdog_traffic_lockstep (time : BitVec w) (previous peer : PeerStats w) :
    Lockstep (SameFor stats.public_key) (watchdog_traffic g stats time previous peer)
      (watchdog_traffic g stats time previous peer) := by
  rw [watchdog_traffic]
  split
  · exact Lockstep.pure _
  · refine (g.sub_lockstep _ _ _).bind fun rx => (g.sub_lockstep _ _ _).bind fun tx =>
      (g.add_lockstep _ _ _).bind fun difference => ?_
    split
    · refine (g.sub_lockstep _ _ _).bind fun rx => (g.sub_lockstep _ _ _).bind fun tx =>
        Lockstep.modify fun s t h => ⟨h.cache, ?_, h.events⟩
      rw [TrafficInfo.networks_add_self, TrafficInfo.networks_add_self, h.traffic]
    · exact Lockstep.pure _

variable (hev : ∀ n, g.events_broadcast n ≠ .refused)
include hev

theorem watchdog_connected_lockstep (k : Pubkey) (peer : PeerStats w) :
    Lockstep (SameFor k) (watchdog_connected g stats peer) (watchdog_connected g stats peer) := by
  rw [watchdog_connected]
  refine Lockstep.bind ?_ fun addr => g.event_lockstep hev k _
  cases peer.endpoint with
  | none => exact Lockstep.throw _
  | some addr => exact Lockstep.pure _

theorem watchdog_compare_lockstep (clock : Clock) (peer : PeerStats w) :
    Lockstep (SameFor stats.public_key) (watchdog_compare g stats clock peer)
      (watchdog_compare g stats clock peer) := by
  refine Lockstep.get fun s t h => ?_
  rw [h.cache]
  cases t.cache[peer.public_key]? with
  | none =>
    simp only
    split
    · exact watchdog_connected_lockstep hev _ peer s t h
    · exact .ok () h
  | some previous =>
    have hsecs : Lockstep (SameFor (w := w) stats.public_key) clock.unix_secs clock.unix_secs := by
      rw [Clock.unix_secs]
      split
      · exact Lockstep.pure _
      · exact Lockstep.throw _
    have hendpoint : Lockstep (SameFor stats.public_key) (watchdog_endpoint g stats previous peer)
        (watchdog_endpoint g stats previous peer) := by
      rw [watchdog_endpoint]
      split
      · split
        · exact g.event_lockstep hev _ _
        · exact Lockstep.pure _
      · exact Lockstep.pure _
    have hhandshake : Lockstep (SameFor stats.public_key)
        (watchdog_handshake g stats previous peer) (watchdog_handshake g stats previous peer) := by
      rw [watchdog_handshake]
      split
      · exact g.event_lockstep hev _ _
      · exact watchdog_connected_lockstep hev _ peer
      · exact Lockstep.pure _
    exact (hsecs.bind fun time => (watchdog_traffic_lockstep time previous peer).bind fun _ =>
      hendpoint.bind fun _ => hhandshake) s t h

/-- A network's own visit does not look at anything but its cache entry. -/
theorem watchdog_entry_lockstep (clock : Pubkey → Clock) :
    Lockstep (SameFor stats.public_key) (watchdog_entry g stats clock)
      (watchdog_entry g stats clock) := by
  have hpeer : ∀ c p, Lockstep (SameFor stats.public_key) (watchdog_peer g stats c p)
      (watchdog_peer g stats c p) := by
    intro c p
    refine (watchdog_compare_lockstep hev c _).bind fun _ => Lockstep.modify fun s t h => ?_
    exact ⟨by simp [Watch.remember, h.cache], h.traffic, h.events⟩
  have hsweep : ∀ dead, Lockstep (SameFor stats.public_key) (watchdog_sweep g stats dead)
      (watchdog_sweep g stats dead) := by
    intro dead
    refine Lockstep.forM fun x _ => Lockstep.bind (Lockstep.modify fun s t h => ?_) fun _ =>
      g.event_lockstep hev _ _
    exact ⟨by simp [h.cache], h.traffic, h.events⟩
  have hpeers : Lockstep (SameFor stats.public_key) (watchdog_peers g stats clock stats.peers)
      (watchdog_peers g stats clock stats.peers) :=
    Lockstep.forM fun p _ => (hpeer _ p).logged
  refine hpeers.bind fun _ => Lockstep.get fun s t h => ?_
  rw [h.cache]
  exact hsweep _ s t h

end

/-! ### A run and the run of one network alone -/

/-- The poll with the statistics of all other networks deleted. -/
def Poll.only (poll : Poll w) (k : Pubkey) : Poll w :=
  { poll with
    netns_list := poll.netns_list.map fun items => items.filter fun item =>
      (poll.fetch item).all fun stats => decide (stats.public_key = k) }

theorem Poll.visits_only (poll : Poll w) (k : Pubkey) :
    (poll.only k).visits = poll.visits.filter fun v => decide (v.public_key = k) := by
  have hfetch : (poll.only k).fetch = poll.fetch := rfl
  rw [Poll.visits, hfetch, Poll.visits, List.filter_filterMap]
  cases hl : poll.netns_list with
  | error e => simp [Poll.only, hl, Except.map, Except.toOption]
  | ok items =>
    simp only [Poll.only, hl, Except.map, Except.toOption, Option.getD_some, List.filterMap_filter]
    congr 1
    funext item
    cases poll.fetch item with
    | none => rfl
    | some stats => by_cases h : stats.public_key = k <;> simp [Option.filter, h]

/-- The states of the two runs, after the same visits: where network `k` was polled last the caches
    agree, elsewhere the run of `k` alone has nothing cached, and `k` cannot tell the rest apart. -/
structure Isolated (k : Pubkey) (done : List (NetworkStats w)) (s t : Watch w (PeerCache w)) :
    Prop where
  accepted : Accepted s.log.events
  cached : CachedAsListed done s.cache
  own : ∀ port u, lastOn port done = some u → u.public_key = k →
    ∀ x, slot s.cache port x = slot t.cache port x
  other : ∀ port, (∀ u, lastOn port done = some u → u.public_key ≠ k) →
    ∀ x, slot t.cache port x = none
  traffic : s.traffic.networks[k]? = t.traffic.networks[k]?
  events : eventsOf k s.log.events = eventsOf k t.log.events

section
variable {g : Global} {k : Pubkey} {clock : Pubkey → Pubkey → Clock}

/-- No port was taken over from a network that still listed peers. -/
abbrev Vacated (visits : List (NetworkStats w)) : Prop := Handover (fun u => u.peers = []) visits

theorem entry_eq_of_slot {a b : PeerCache w} {port : UInt16}
    (h : ∀ x, slot a port x = slot b port x) : a[port]?.getD ∅ = b[port]?.getD ∅ := by
  refine ExtTreeMap.ext_getElem? fun x => ?_
  rw [slot_getD, slot_getD, h]

/-- Under the port of a visit nothing is cached that another network left there. -/
theorem Isolated.slot_eq {done : List (NetworkStats w)} {stats : NetworkStats w}
    {s t : Watch w (PeerCache w)} (h : Isolated k done s t) (hclean : Vacated (done ++ [stats]))
    (hk : stats.public_key = k) (x : Pubkey) :
    slot s.cache stats.listen_port x = slot t.cache stats.listen_port x := by
  by_cases hown : ∃ u, lastOn stats.listen_port done = some u ∧ u.public_key = k
  · obtain ⟨u, hu, huk⟩ := hown
    exact h.own _ u hu huk x
  · have hother : ∀ u, lastOn stats.listen_port done = some u → u.public_key ≠ k :=
      fun u hu huk => hown ⟨u, hu, huk⟩
    rw [h.other _ hother x]
    by_contra hne
    obtain ⟨u, hu, hx⟩ := (h.cached _ x).mp hne
    have hempty := hclean done stats [] rfl u hu (by rw [hk]; exact hother u hu)
    simp [NetworkStats.keys, hempty] at hx

theorem visit_accepted (hev : ∀ n, g.events_broadcast n ≠ .refused) {stats : NetworkStats w}
    {s s' : Watch w (PeerCache w)} (hok : (visit g clock stats).run s = .ok () s')
    (hacc : Accepted s.log.events) : Accepted s'.log.events := by
  have h := (visit_onlyEvents g clock stats).of_ok hok
  obtain ⟨new, hnew, _⟩ := h.events
  rw [hnew, accepted_append]
  exact ⟨hacc, (h.mono fun _ ha => ha.2).accepted hev hnew⟩

/-- A visit of network `k` is made by both runs. -/
theorem Isolated.visit_own (hev : ∀ n, g.events_broadcast n ≠ .refused)
    {done : List (NetworkStats w)} {stats : NetworkStats w} {s s' t : Watch w (PeerCache w)}
    (h : Isolated k done s t) (hclean : Vacated (done ++ [stats])) (hk : stats.public_key = k)
    (hok : (visit g clock stats).run s = .ok () s') :
    ∃ t', (visit g clock stats).run t = .ok () t' ∧ Isolated k (done ++ [stats]) s' t' := by
  have hacc := visit_accepted hev hok h.accepted
  obtain ⟨new, hkeys⟩ := visit_keys hok hacc
  obtain ⟨s₁, hrun, hs'⟩ := visit_ok hok
  subst hk
  have hsame : SameFor stats.public_key (s.at stats.listen_port) (t.at stats.listen_port) :=
    ⟨entry_eq_of_slot (h.slot_eq hclean rfl), h.traffic, h.events⟩
  obtain ⟨t₁, hrun', hsame'⟩ := (watchdog_entry_lockstep hev _).logged.ok hsame hrun
  refine ⟨{ t₁ with cache := t.cache.insert stats.listen_port t₁.cache }, ?_, ?_⟩
  · rw [visit, atPort, logged_zoom, zoom_ok_iff]
    exact ⟨t₁, hrun', rfl⟩
  · have hslot : ∀ port x, slot (t.cache.insert stats.listen_port t₁.cache) port x =
        if stats.listen_port = port then t₁.cache[x]? else slot t.cache port x := by
      intro port x
      by_cases hp : stats.listen_port = port <;> simp [slot, hp]
    have hslot' : ∀ port x, slot s'.cache port x =
        if stats.listen_port = port then t₁.cache[x]? else slot s.cache port x := by
      intro port x
      subst hs'
      by_cases hp : stats.listen_port = port <;> simp [slot, hp, hsame'.cache]
    refine ⟨hacc, h.cached.visit hkeys, fun port u hu huk x => ?_, fun port hno x => ?_, ?_, ?_⟩
    · rw [hslot', hslot]
      rw [lastOn_concat] at hu
      by_cases hp : stats.listen_port = port
      · rw [if_pos hp, if_pos hp]
      · rw [if_neg hp] at hu
        rw [if_neg hp, if_neg hp]
        exact h.own port u hu huk x
    · rw [hslot]
      rw [lastOn_concat] at hno
      by_cases hp : stats.listen_port = port
      · exact absurd rfl (hno stats (if_pos hp))
      · rw [if_neg hp] at hno
        rw [if_neg hp]
        exact h.other port hno x
    · rw [hs']
      exact hsame'.traffic
    · rw [hs']
      exact hsame'.events

/-- A visit of another network is made by the full run only, and `k` does not notice. -/
theorem Isolated.visit_other (hev : ∀ n, g.events_broadcast n ≠ .refused)
    {done : List (NetworkStats w)} {stats : NetworkStats w} {s s' t : Watch w (PeerCache w)}
    (h : Isolated k done s t) (hclean : Vacated (done ++ [stats])) (hk : stats.public_key ≠ k)
    (hok : (visit g clock stats).run s = .ok () s') : Isolated k (done ++ [stats]) s' t := by
  have hacc := visit_accepted hev hok h.accepted
  obtain ⟨new, hkeys⟩ := visit_keys hok hacc
  refine ⟨hacc, h.cached.visit hkeys, fun port u hu huk x => ?_, fun port hno x => ?_, ?_, ?_⟩
  · rw [lastOn_concat] at hu
    by_cases hp : stats.listen_port = port
    · rw [if_pos hp] at hu
      exact absurd huk (Option.some.inj hu ▸ hk)
    · rw [if_neg hp] at hu
      rw [slot, hkeys.others port (Ne.symm hp), ← slot]
      exact h.own port u hu huk x
  · rw [lastOn_concat] at hno
    by_cases hp : stats.listen_port = port
    · subst hp
      by_cases hown : ∃ u, lastOn stats.listen_port done = some u ∧ u.public_key = k
      · -- `k` vacated the port, so neither run has anything cached there
        obtain ⟨u, hu, huk⟩ := hown
        have hempty := hclean done stats [] rfl u hu (by rw [huk]; exact Ne.symm hk)
        rw [← h.own _ u hu huk x]
        by_contra hne
        obtain ⟨u', hu', hx⟩ := (h.cached _ x).mp hne
        obtain rfl : u = u' := Option.some.inj (hu.symm.trans hu')
        simp [NetworkStats.keys, hempty] at hx
      · exact h.other _ (fun u hu huk => hown ⟨u, hu, huk⟩) x
    · rw [if_neg hp] at hno
      exact h.other port hno x
  · rw [hkeys.only.traffic k (Ne.symm hk)]
    exact h.traffic
  · have hnil : eventsOf k new = [] := by
      refine eventsOf_eq_nil fun a ha heq => hk ?_
      rw [← heq, hkeys.only.network a ha]
    rw [hkeys.only.events, eventsOf_append, hnil, List.append_nil]
    exact h.events

/-- The visits of a poll, in both runs. -/
theorem Isolated.visits (hev : ∀ n, g.events_broadcast n ≠ .refused) :
    ∀ {visits done : List (NetworkStats w)} {s s' t : Watch w (PeerCache w)},
      Isolated k done s t → Vacated (done ++ visits) →
      (forM visits (visit g clock)).run s = .ok () s' →
      ∃ t', (forM (visits.filter fun v => decide (v.public_key = k)) (visit g clock)).run t =
          .ok () t' ∧ Isolated k (done ++ visits) s' t'
  | [], done, s, s', t, h, _, hok => by
      obtain ⟨_, rfl⟩ := pure_ok_iff.mp hok
      rw [List.append_nil]
      exact ⟨t, rfl, h⟩
  | stats :: visits, done, s, s', t, h, hclean, hok => by
      obtain ⟨_, s₁, hfirst, hrest⟩ := bind_ok_iff.mp hok
      have hassoc : done ++ stats :: visits = (done ++ [stats]) ++ visits := by simp
      rw [hassoc] at hclean ⊢
      by_cases hk : stats.public_key = k
      · obtain ⟨t₁, hfirst', h₁⟩ := h.visit_own hev hclean.left hk hfirst
        obtain ⟨t', hrest', h'⟩ := h₁.visits hev hclean hrest
        refine ⟨t', ?_, h'⟩
        rw [List.filter_cons_of_pos (by simpa using hk)]
        exact (bind_of_ok hfirst').trans hrest'
      · obtain ⟨t', hrest', h'⟩ := (h.visit_other hev hclean.left hk hfirst).visits hev hclean hrest
        refine ⟨t', ?_, h'⟩
        rw [List.filter_cons_of_neg (by simpa using hk)]
        exact hrest'

/-- The traffic attributed to network `k` in each report. -/
def reportsOf (k : Pubkey) (l : List (TrafficInfo w × Delivery)) : List (Option (NetworkTraffic w)) :=
  l.map fun r => r.1.networks[k]?

/-- A poll that completes its visits and gets its report out returns `Ok`. -/
theorem watchdog_run_of_visits {poll : Poll w} {d : Daemon w} {s : Watch w (PeerCache w)}
    (hl : ∃ items, poll.netns_list = .ok items)
    (hrun : (forM poll.visits (visit g poll.clock)).run d.watch = .ok () s)
    (hf : g.reportFate d ≠ .refused) :
    (watchdog_run g poll).run d = .ok () (s.broadcast (g.reportFate d)) := by
  have hstep := watchdog_run_step g poll d
  obtain ⟨items, hl⟩ := hl
  generalize (watchdog_run g poll).run d = r at hstep
  cases hstep with
  | unlisted chain he => rw [hl] at he; cases he
  | panic reason _ hp => rw [hrun] at hp; cases hp
  | refused chain _ hr => exact absurd hr hf
  | sent hv _ =>
    have heq := hv.run
    rw [hrun] at heq
    cases heq
    rfl

/-- The two runs, from poll to poll. -/
theorem Isolated.run (hev : ∀ n, g.events_broadcast n ≠ .refused)
    (htr : ∀ n, g.traffic_broadcast n ≠ .refused) :
    ∀ {polls : List (Poll w)} {done : List (NetworkStats w)} {d d' e : Daemon w},
      Isolated k done d.watch e.watch → reportsOf k d.log.traffic = reportsOf k e.log.traffic →
      Vacated (done ++ visitsOf polls) → (watchdog g polls).run d = .ok () d' →
      ∃ e', (watchdog g (polls.map (·.only k))).run e = .ok () e' ∧
        reportsOf k d'.log.traffic = reportsOf k e'.log.traffic ∧
        eventsOf k d'.log.events = eventsOf k e'.log.events
  | [], done, d, d', e, h, hreports, _, hok => by
      obtain ⟨_, rfl⟩ := pure_ok_iff.mp hok
      exact ⟨e, rfl, hreports, h.events⟩
  | poll :: polls, done, d, d', e, h, hreports, hclean, hok => by
      obtain ⟨_, d₁, hfirst, hrest⟩ := bind_ok_iff.mp hok
      obtain ⟨_, s, hv, rfl⟩ := watchdog_run_ok hfirst
      obtain ⟨items, hitems⟩ := hv.listed
      rw [visitsOf, List.flatMap_cons, ← visitsOf, ← List.append_assoc] at hclean
      obtain ⟨t, ht, hst⟩ := h.visits hev hclean.left hv.run
      rw [← Poll.visits_only] at ht
      have hrun : (watchdog_run g (poll.only k)).run e = .ok () (t.broadcast (g.reportFate e)) := by
        have hlist : ∃ items, (poll.only k).netns_list = .ok items := by
          rw [Poll.only, hitems]
          exact ⟨_, rfl⟩
        exact watchdog_run_of_visits hlist ht (htr _)
      have honly := visits_onlyEvents g (poll.only k) e.watch
      rw [show (poll.only k).clock = poll.clock from rfl, ht] at honly
      have hnext : Isolated k (done ++ poll.visits) (s.broadcast (g.reportFate d)).watch
          (t.broadcast (g.reportFate e)).watch :=
        ⟨hst.accepted, hst.cached, hst.own, hst.other, rfl, hst.events⟩
      have hnext' : reportsOf k (s.broadcast (g.reportFate d)).log.traffic =
          reportsOf k (t.broadcast (g.reportFate e)).log.traffic := by
        have hs : s.log.traffic = d.log.traffic := hv.only.reports
        have ht' : t.log.traffic = e.log.traffic := honly.reports
        simp only [Watch.broadcast, reportsOf, List.map_append, List.map_cons, List.map_nil, hs, ht',
          hst.traffic]
        rw [← reportsOf, ← reportsOf, hreports]
      obtain ⟨e', he', hview⟩ := hnext.run hev htr hnext' hclean hrest
      exact ⟨e', (bind_of_ok hrun).trans he', hview⟩

end

/-- Two networks on two ports that share a peer key. -/
def Sample.tenants : List (Poll 64) :=
  [Sample.poll 100 [("network-5000", Sample.stats 1 5000 [Sample.peer 7 (some 50) 0]),
     ("network-5001", Sample.stats 2 5001 [Sample.peer 7 (some 50) 9])],
   Sample.poll 110 [("network-5001", Sample.stats 2 5001 [Sample.peer 7 (some 50) 10]),
     ("network-5000", Sample.stats 1 5000 [Sample.peer 7 none 20])]]

/-- Network 2 takes over the port of network 1 and lists the same peer key with higher counters. -/
def Sample.takeover : List (Poll 64) :=
  [Sample.poll 100 [("network-5000", Sample.stats 1 5000 [Sample.peer 7 none 10])],
   Sample.poll 110 [("network-5000", Sample.stats 2 5000 [Sample.peer 7 none 60])]]

end FractalGateway
