import FractalGateway.Lib.Lockstep
import FractalGateway.Watchdog.Poll

/-! What the watchdog reports depends on nothing it has no business with.

    The statistics it reads carry the private key of the interface, the preshared keys of the peers,
    firewall marks, allowed networks and keepalive intervals. None of these may show in an event or
    a report. Two runs whose polls differ in them only go in lockstep, with caches that differ in
    them only, through every comparison, every failed send and every restart. -/

namespace FractalGateway
open Std Exec OrdMap

variable {w : ℕ}

/-- A peer without what the watchdog does not look at. -/
def PeerStats.seen (peer : PeerStats w) : PeerStats w :=
  { peer with preshared_key := none, allowed_ips := [], persistent_keepalive := none }

/-- A network without what the watchdog does not look at. -/
def NetworkStats.seen (stats : NetworkStats w) : NetworkStats w :=
  { stats with private_key := ⟨0⟩, fwmark := none, peers := stats.peers.map PeerStats.seen }

/-- A poll that is told no more than the watchdog looks at. -/
def Poll.seen (poll : Poll w) : Poll w :=
  { poll with
    wireguard_stats := fun netns wgif => (poll.wireguard_stats netns wgif).map NetworkStats.seen }

section
variable {peer peer' : PeerStats w} {stats stats' : NetworkStats w} {poll poll' : Poll w}

theorem PeerStats.key_of_seen (h : peer.seen = peer'.seen) : peer.public_key = peer'.public_key := by
  injection h

theorem PeerStats.handshake_of_seen (h : peer.seen = peer'.seen) :
    peer.latest_handshake = peer'.latest_handshake := by
  injection h

theorem NetworkStats.key_of_seen (h : stats.seen = stats'.seen) :
    stats.public_key = stats'.public_key := by
  injection h

theorem NetworkStats.port_of_seen (h : stats.seen = stats'.seen) :
    stats.listen_port = stats'.listen_port := by
  injection h

theorem Poll.netns_list_of_seen (h : poll.seen = poll'.seen) : poll.netns_list = poll'.netns_list := by
  injection h

theorem Poll.clock_of_seen (h : poll.seen = poll'.seen) : poll.clock = poll'.clock := by
  injection h

end

theorem PeerStats.seen_expire (peer : PeerStats w) (now : SystemTime) :
    (peer.expire now).seen = peer.seen.expire now := by
  have hseen : peer.seen.latest_handshake = peer.latest_handshake := rfl
  rw [PeerStats.expire, PeerStats.expire, hseen]
  cases peer.latest_handshake with
  | none => rfl
  | some handshake =>
    simp only
    cases now.duration_since handshake with
    | none => rfl
    | some duration => by_cases h : WIREGUARD_HANDSHAKE_TIMEOUT < as_secs duration <;> simp [h, seen]

theorem Poll.seen_visits (poll : Poll w) : poll.seen.visits = poll.visits.map NetworkStats.seen := by
  rw [Poll.visits, Poll.visits, List.map_filterMap]
  congr 1
  funext item
  rw [Poll.fetch, Poll.fetch]
  by_cases hp : starts_with item.name NETNS_PREFIX
  · rw [if_pos hp, if_pos hp]
    show ((poll.stats item.name).map NetworkStats.seen).toOption = _
    cases poll.stats item.name <;> rfl
  · rw [if_neg hp, if_neg hp]
    rfl

/-! ### One visit -/

/-- The same report and the same sends, from cache entries that look the same. -/
structure LooksAlike (s t : Watch w (Entry w)) : Prop where
  traffic : s.traffic = t.traffic
  log : s.log = t.log
  cache : AgreeBy PeerStats.seen s.cache t.cache

theorem LooksAlike.sent {s t : Watch w (Entry w)} (h : LooksAlike s t)
    (new : List (GatewayEvent × Delivery)) : LooksAlike (s.sent new) (t.sent new) :=
  ⟨h.traffic, by simp only [Watch.sent, h.log], h.cache⟩

section
variable {g : Global} {stats stats' : NetworkStats w} {peer peer' : PeerStats w}

theorem Global.event_alike (g : Global) (e : GatewayEvent) :
    Lockstep (LooksAlike (w := w)) (g.event e) (g.event e) := by
  intro s t h
  rw [g.event_eq, g.event_eq, h.log]
  split
  · exact .error _ (h.sent _)
  · exact .ok () (h.sent _)

theorem Global.sub_alike (g : Global) (x y : BitVec w) :
    Lockstep LooksAlike (g.sub x y) (g.sub x y) := by
  rw [Global.sub]
  split
  · exact Lockstep.throw _
  · exact Lockstep.pure _

theorem Global.add_alike (g : Global) (x y : BitVec w) :
    Lockstep LooksAlike (g.add x y) (g.add x y) := by
  rw [Global.add]
  split
  · exact Lockstep.throw _
  · exact Lockstep.pure _

theorem watchdog_traffic_alike (stats : NetworkStats w) (time : BitVec w) (previous peer : PeerStats w) :
    Lockstep LooksAlike (watchdog_traffic g stats time previous peer)
      (watchdog_traffic g stats time previous peer) := by
  rw [watchdog_traffic]
  split
  · exact Lockstep.pure _
  · refine (g.sub_alike _ _).bind fun rx => (g.sub_alike _ _).bind fun tx =>
      (g.add_alike _ _).bind fun difference => ?_
    split
    · refine (g.sub_alike _ _).bind fun rx => (g.sub_alike _ _).bind fun tx =>
        Lockstep.modify fun s t h => ⟨?_, h.log, h.cache⟩
      exact congrArg (TrafficInfo.add · stats.public_key peer.public_key time ⟨rx, tx⟩) h.traffic
    · exact Lockstep.pure _

theorem watchdog_connected_alike (stats : NetworkStats w) (peer : PeerStats w) :
    Lockstep LooksAlike (watchdog_connected g stats peer) (watchdog_connected g stats peer) := by
  rw [watchdog_connected]
  refine Lockstep.bind ?_ fun addr => g.event_alike _
  cases peer.endpoint with
  | none => exact Lockstep.throw _
  | some addr => exact Lockstep.pure _

theorem watchdog_endpoint_alike (stats : NetworkStats w) (previous peer : PeerStats w) :
    Lockstep LooksAlike (watchdog_endpoint g stats previous peer)
      (watchdog_endpoint g stats previous peer) := by
  rw [watchdog_endpoint]
  split
  · split
    · exact g.event_alike _
    · exact Lockstep.pure _
  · exact Lockstep.pure _

theorem watchdog_handshake_alike (stats : NetworkStats w) (previous peer : PeerStats w) :
    Lockstep LooksAlike (watchdog_handshake g stats previous peer)
      (watchdog_handshake g stats previous peer) := by
  rw [watchdog_handshake]
  split
  · exact g.event_alike _
  · exact watchdog_connected_alike stats peer
  · exact Lockstep.pure _

/-- What is known of a peer already, compared with the peer. -/
def watchdog_differences (g : Global) (stats : NetworkStats w) (clock : Clock)
    (previous peer : PeerStats w) : EStateM Fail (Watch w (Entry w)) Unit := do
  let time ← clock.unix_secs
  watchdog_traffic g stats time previous peer
  watchdog_endpoint g stats previous peer
  watchdog_handshake g stats previous peer

/-- None of the comparisons looks at what is hidden. -/
theorem watchdog_differences_seen (g : Global) (stats : NetworkStats w) (clock : Clock)
    (previous peer : PeerStats w) : watchdog_differences g stats clock previous peer =
      watchdog_differences g stats.seen clock previous.seen peer.seen := rfl

theorem watchdog_differences_alike (stats : NetworkStats w) (clock : Clock) (previous peer : PeerStats w) :
    Lockstep LooksAlike (watchdog_differences g stats clock previous peer)
      (watchdog_differences g stats clock previous peer) := by
  have hsecs : Lockstep (LooksAlike (w := w)) clock.unix_secs clock.unix_secs := by
    rw [Clock.unix_secs]
    split
    · exact Lockstep.pure _
    · exact Lockstep.throw _
  exact hsecs.bind fun time => (watchdog_traffic_alike stats time previous peer).bind fun _ =>
    (watchdog_endpoint_alike stats previous peer).bind fun _ =>
      watchdog_handshake_alike stats previous peer

variable (hstats : stats.seen = stats'.seen)
include hstats

theorem watchdog_compare_alike (clock : Clock) (hpeer : peer.seen = peer'.seen) :
    Lockstep LooksAlike (watchdog_compare g stats clock peer)
      (watchdog_compare g stats' clock peer') := by
  have hkey := PeerStats.key_of_seen hpeer
  have hhand := PeerStats.handshake_of_seen hpeer
  have hconnected : watchdog_connected g stats peer = watchdog_connected g stats' peer' := by
    show watchdog_connected g stats.seen peer.seen = watchdog_connected g stats'.seen peer'.seen
    rw [hstats, hpeer]
  refine Lockstep.get fun s t h => ?_
  have hcache := h.cache peer.public_key
  rw [hhand, hconnected]
  rw [hkey] at hcache ⊢
  cases hs : s.cache[peer'.public_key]? with
  | none =>
    rw [hs, Option.map_none] at hcache
    rw [Option.map_eq_none_iff.mp hcache.symm]
    simp only
    split
    · exact watchdog_connected_alike _ _ s t h
    · exact .ok () h
  | some previous =>
    rw [hs, Option.map_some] at hcache
    obtain ⟨previous', ht, hprevious⟩ := Option.map_eq_some_iff.mp hcache.symm
    rw [ht]
    show Parallel LooksAlike ((watchdog_differences g stats clock previous peer).run s)
      ((watchdog_differences g stats' clock previous' peer').run t)
    rw [watchdog_differences_seen g stats, watchdog_differences_seen g stats', hstats, hpeer, hprevious]
    exact watchdog_differences_alike _ clock _ _ s t h

theorem watchdog_peer_alike (clock : Clock) (hpeer : peer.seen = peer'.seen) :
    Lockstep LooksAlike (watchdog_peer g stats clock peer) (watchdog_peer g stats' clock peer') := by
  have hexpire : (peer.expire clock.now).seen = (peer'.expire clock.now).seen := by
    rw [PeerStats.seen_expire, PeerStats.seen_expire, hpeer]
  refine (watchdog_compare_alike hstats clock hexpire).bind fun _ => Lockstep.modify fun s t h => ?_
  refine ⟨h.traffic, h.log, ?_⟩
  show AgreeBy PeerStats.seen (s.cache.insert (peer.expire clock.now).public_key _)
    (t.cache.insert (peer'.expire clock.now).public_key _)
  rw [PeerStats.key_of_seen hexpire]
  exact h.cache.insert _ hexpire

/-- A visit is the same for networks that look the same. -/
theorem watchdog_entry_alike (clock : Pubkey → Clock) :
    Lockstep LooksAlike (watchdog_entry g stats clock) (watchdog_entry g stats' clock) := by
  have hpublic := NetworkStats.key_of_seen hstats
  have hseen : stats.peers.map PeerStats.seen = stats'.peers.map PeerStats.seen :=
    congrArg NetworkStats.peers hstats
  have hkeys : stats.peers.map (·.public_key) = stats'.peers.map (·.public_key) := by
    have h := congrArg (List.map PeerStats.public_key) hseen
    rwa [List.map_map, List.map_map] at h
  have hpeers : Lockstep LooksAlike (watchdog_peers g stats clock stats.peers)
      (watchdog_peers g stats' clock stats'.peers) := by
    refine Lockstep.forM_map (fun p q hpq => ?_) hseen
    rw [PeerStats.key_of_seen hpq]
    exact (watchdog_peer_alike hstats _ hpq).logged
  have hsweep : ∀ dead, Lockstep LooksAlike (watchdog_sweep g stats dead)
      (watchdog_sweep g stats' dead) := by
    intro dead
    refine Lockstep.forM fun x _ => Lockstep.bind (Lockstep.modify fun s t h => ?_) fun _ => ?_
    · exact ⟨h.traffic, h.log, h.cache.erase x⟩
    · rw [hpublic]
      exact g.event_alike _
  refine hpeers.bind fun _ => Lockstep.get fun s t h => ?_
  rw [h.cache.keys, hkeys]
  exact hsweep _ s t h

end

/-! ### Polls and runs -/

/-- The same report and the same sends, from caches that look the same under every port. -/
structure WatchAlike (s t : Watch w (PeerCache w)) : Prop where
  traffic : s.traffic = t.traffic
  log : s.log = t.log
  cache : ∀ port : UInt16,
    AgreeBy PeerStats.seen (s.cache[port]?.getD ∅) (t.cache[port]?.getD ∅)

theorem visit_alike (g : Global) (clock : Pubkey → Pubkey → Clock) {stats stats' : NetworkStats w}
    (hstats : stats.seen = stats'.seen) :
    Lockstep WatchAlike (visit g clock stats) (visit g clock stats') := by
  have hpublic := NetworkStats.key_of_seen hstats
  have hport := NetworkStats.port_of_seen hstats
  rw [visit, visit, hpublic, hport]
  refine (Lockstep.zoom (fun s t h => ?_) (fun s t s' t' h h' => ?_)
    (watchdog_entry_alike hstats (clock stats'.public_key))).logged
  · exact ⟨h.traffic, h.log, h.cache stats'.listen_port⟩
  · refine ⟨h'.traffic, h'.log, fun port => ?_⟩
    by_cases hp : stats'.listen_port = port
    · simpa [hp] using h'.cache
    · simpa [hp] using h.cache port

/-- The same sends, from caches that look the same. -/
structure DaemonAlike (d d' : Daemon w) : Prop where
  log : d.log = d'.log
  cache : ∀ port : UInt16,
    AgreeBy PeerStats.seen (d.cache[port]?.getD ∅) (d'.cache[port]?.getD ∅)

theorem watchdog_run_alike (g : Global) {poll poll' : Poll w} (h : poll.seen = poll'.seen) :
    Lockstep DaemonAlike (watchdog_run g poll) (watchdog_run g poll') := by
  have hlist := Poll.netns_list_of_seen h
  have hclock := Poll.clock_of_seen h
  have hvisits : poll.visits.map NetworkStats.seen = poll'.visits.map NetworkStats.seen := by
    rw [← Poll.seen_visits, h, Poll.seen_visits]
  refine Lockstep.zoom (R := WatchAlike) (fun d d' hd => ⟨rfl, hd.log, hd.cache⟩)
    (fun d d' s t _ hs => ⟨hs.log, hs.cache⟩) ?_
  rw [hlist]
  cases hl : poll'.netns_list with
  | error e => exact Lockstep.throw _
  | ok items =>
    have hitems : poll.visits = items.filterMap poll.fetch := by rw [Poll.visits, hlist, hl]; rfl
    have hitems' : poll'.visits = items.filterMap poll'.fetch := by rw [Poll.visits, hl]; rfl
    simp only
    rw [watchdog_items_eq, watchdog_items_eq, ← hitems, ← hitems', hclock]
    refine (Lockstep.forM_map (fun _ _ => visit_alike g poll'.clock) hvisits).bind fun _ => ?_
    intro s t hst
    simp only [Global.report, EStateM.run, hst.traffic, hst.log]
    split
    · exact .error _ ⟨rfl, rfl, hst.cache⟩
    · exact .ok () ⟨rfl, rfl, hst.cache⟩

theorem Global.watchdog_alike (g : Global) : ∀ {polls polls' : List (Poll w)} {d d' : Daemon w},
    polls.map Poll.seen = polls'.map Poll.seen → DaemonAlike d d' →
      (g.watchdog polls d).log = (g.watchdog polls' d').log
  | [], [], _, _, _, hd => hd.log
  | poll :: polls, poll' :: polls', d, d', hl, hd => by
      obtain ⟨hpoll, hl⟩ := List.cons.inj hl
      have hrun := watchdog_run_alike g hpoll d d' hd
      rw [Global.watchdog, Global.watchdog]
      generalize (watchdog_run g poll).run d = r at hrun
      generalize (watchdog_run g poll').run d' = q at hrun
      cases hrun with
      | ok a h => exact g.watchdog_alike hl h
      | error e h =>
        cases e with
        | err chain => exact g.watchdog_alike hl ⟨h.log, fun port a => rfl⟩
        | panic reason => exact h.log

/-- Whatever the secrets, marks, allowed networks and keepalive intervals are, the watchdog sends
    the same events and the same reports, with the same fates. -/
theorem watchdog_keeps_secrets (g : Global) (polls polls' : List (Poll w))
    (h : polls.map Poll.seen = polls'.map Poll.seen) :
    (g.watchdog polls Daemon.start).log = (g.watchdog polls' Daemon.start).log :=
  g.watchdog_alike h ⟨rfl, fun _ _ => rfl⟩

/-- A network with one peer that connects and disconnects, with a private and a preshared key. -/
def Sample.keyed (private_key preshared_key : BitVec 256) : List (Poll 64) :=
  [some 50, none].map fun handshake => Sample.poll 100 [("network-5000",
    { Sample.stats 1 5000 [{ Sample.peer 7 handshake 0 with preshared_key := some ⟨preshared_key⟩ }] with
      private_key := ⟨private_key⟩ })]

theorem Sample.poll_seen (secs : ℤ) (netns : String) {stats stats' : NetworkStats 64}
    (h : stats.seen = stats'.seen) :
    (Sample.poll secs [(netns, stats)]).seen = (Sample.poll secs [(netns, stats')]).seen := by
  have hfetch : ∀ name wgif,
      ((Sample.poll secs [(netns, stats)]).wireguard_stats name wgif).map NetworkStats.seen =
        ((Sample.poll secs [(netns, stats')]).wireguard_stats name wgif).map NetworkStats.seen := by
    intro name wgif
    by_cases hn : netns = name <;> simp [Sample.poll, hn, Except.map, h]
  simp only [Poll.seen, hfetch]
  rfl

theorem watchdog_keeps_secrets_of_one_peer :
    (Sample.global.watchdog (Sample.keyed 11 12) Daemon.start).log =
        (Sample.global.watchdog (Sample.keyed 21 22) Daemon.start).log ∧
      (Sample.global.watchdog (Sample.keyed 11 12) Daemon.start).log.events.length = 2 := by
  refine ⟨watchdog_keeps_secrets Sample.global _ _ ?_, by decide +kernel⟩
  simp only [Sample.keyed, List.map_cons, List.map_nil, List.cons.injEq, and_true]
  exact ⟨Sample.poll_seen 100 _ rfl, Sample.poll_seen 100 _ rfl⟩

end FractalGateway
