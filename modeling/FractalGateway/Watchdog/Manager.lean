import FractalGateway.Watchdog.Connectivity

/-! The manager's map across sessions.

    The manager folds in what its sessions pass on, and keeps the map while no session is connected.
    The daemon does not know that: it compares each poll with its cache, which a failed poll throws
    away. So a poll whose events all arrive repairs the map of a pair only as far as the cache still
    tells that there is something to say about it; `Ready` is that condition. -/

namespace FractalGateway
open Std Exec

variable {w : ℕ}

/-- The map of a manager that folded in every event that was passed on to it. -/
def manager (d : Daemon w) : PeerMap :=
  replay PeerMap.empty ((d.log.events.filter fun a => decide (a.2 = .delivered)).map Prod.fst)

/-- The peer is listed with a fresh handshake. -/
def FreshNow (poll : Poll w) (k x : Pubkey) : Prop :=
  ((statsOf k poll.visits).bind fun stats => listed stats.peers x).any
    (·.fresh (poll.clock k x).now)

instance (poll : Poll w) (k x : Pubkey) : Decidable (FreshNow poll k x) :=
  inferInstanceAs (Decidable (_ = true))

/-- The peer is cached as connected. -/
def CachedConnected (cache : PeerCache w) (port : UInt16) (x : Pubkey) : Prop :=
  (slot cache port x).any (·.latest_handshake.isSome)

instance (cache : PeerCache w) (port : UInt16) (x : Pubkey) :
    Decidable (CachedConnected cache port x) :=
  inferInstanceAs (Decidable (_ = true))

/-- The peer is listed in the statistics of its network. -/
def Listed (poll : Poll w) (k x : Pubkey) : Prop :=
  ((statsOf k poll.visits).bind fun stats => listed stats.peers x).isSome

/-- Before a poll, a pair is ready for it: a peer that is fresh now and that the poll will not
    announce is already in the map, and a peer in the map that is not fresh now is cached so that
    the poll will announce its disconnection. -/
structure Ready (poll : Poll w) (k x : Pubkey) (port : UInt16) (d : Daemon w) : Prop where
  stays : FreshNow poll k x →
    CachedConnected d.cache port x ∨ (slot d.cache port x).isSome ∧ ¬(poll.clock k x).Ok →
    (manager d k x).isSome
  leaves : (manager d k x).isSome → ¬FreshNow poll k x →
    (slot d.cache port x).isSome ∧ ¬Listed poll k x ∨
      CachedConnected d.cache port x ∧ (poll.clock k x).Ok

/-- What the announcements of a step leave of a pair's presence in the map. -/
theorem announce_isSome (k : Pubkey) (m : Option SocketAddr) {c : Option (PeerStats w)}
    {p : PeerStats w} (hu : ¬Unannounceable c p) :
    ((announce k c p).foldl GatewayEvent.fold m).isSome =
      if p.latest_handshake.isSome then (if c.any (·.latest_handshake.isSome) then m.isSome else true)
      else (if c.any (·.latest_handshake.isSome) then false else m.isSome) := by
  cases c with
  | none =>
    cases hh : p.latest_handshake with
    | none => simp [announce, hh]
    | some t =>
      cases ha : p.endpoint with
      | none => exact absurd ⟨by simp [hh], ha, rfl⟩ hu
      | some addr => simp [announce, hh, ha, GatewayEvent.fold]
  | some q =>
    -- an endpoint event overwrites an entry and never makes one
    have hendpoint : ((if p.endpoint ≠ q.endpoint then
        p.endpoint.toList.map (GatewayEvent.endpoint k p.public_key) else []).foldl
        GatewayEvent.fold m).isSome = m.isSome := by
      by_cases hne : p.endpoint = q.endpoint
      · simp [hne]
      · rw [if_pos hne]
        cases p.endpoint <;> simp [GatewayEvent.fold]
    rw [announce, List.foldl_append]
    cases hqh : q.latest_handshake with
    | none =>
      cases hh : p.latest_handshake with
      | none => simpa [hqh] using hendpoint
      | some t =>
        cases ha : p.endpoint with
        | none => exact absurd ⟨by simp [hh], ha, by simp [hqh]⟩ hu
        | some addr => simp [hqh, GatewayEvent.fold]
    | some t' =>
      cases hh : p.latest_handshake with
      | none => simp [hqh, GatewayEvent.fold]
      | some t => simpa [hqh] using hendpoint

/-- One pair through a poll whose sends about it succeed: the map is right after it exactly when the
    pair was ready before. -/
theorem PairPoll.ready_iff {k x : Pubkey} {clockOk refused : Prop} {c l c' : Option (PeerStats w)}
    {now : SystemTime} {a : List (GatewayEvent × Delivery)} {item : Option (Traffic w)}
    (h : PairPoll k x clockOk refused c (l.map (·.expire now)) a c' item) (hr : ¬refused)
    (hacc : Accepted a) (m : Option SocketAddr) :
    (((a.map Prod.fst).foldl GatewayEvent.fold m).isSome ↔ l.any (·.fresh now)) ↔
      (l.any (·.fresh now) → c.any (·.latest_handshake.isSome) ∨ c.isSome ∧ ¬clockOk → m.isSome) ∧
      (m.isSome → ¬l.any (·.fresh now) →
        c.isSome ∧ ¬l.isSome ∨ c.any (·.latest_handshake.isSome) ∧ clockOk) := by
  generalize hl : l.map (·.expire now) = l' at h
  cases h with
  | stale ht hc =>
    -- the step was skipped, so the entry has to be right already
    obtain ⟨p, rfl, rfl⟩ := Option.map_eq_some_iff.mp hl
    obtain ⟨q, rfl⟩ := Option.ne_none_iff_exists'.mp hc
    simp only [List.map_nil, List.foldl_nil, Option.isSome_some, not_true]
    tauto
  | refused hna hmem => exact absurd hacc hna
  | done ha hmem hu ht =>
    obtain ⟨p, rfl, rfl⟩ := Option.map_eq_some_iff.mp hl
    rw [hmem, announce_isSome k m hu, PeerStats.expire_isSome]
    simp only [Option.any_some, Option.isSome_some, not_true]
    rcases ht with rfl | ht
    · cases p.fresh now <;> simp
    · cases p.fresh now <;> cases c.any (·.latest_handshake.isSome) <;> simp [ht]
  | absent hc =>
    obtain rfl := Option.map_eq_none_iff.mp hl
    subst hc
    simp
  | swept fate hc =>
    obtain rfl := Option.map_eq_none_iff.mp hl
    obtain ⟨q, rfl⟩ := Option.ne_none_iff_exists'.mp hc
    simp [GatewayEvent.fold]
  | missed hm hc => exact absurd hm hr

/-! ### Runs -/

section
variable {g : Global}

/-- Of the events a manager folds in, those of a stretch of the log. -/
theorem manager_append {d d' : Daemon w} {new : List (GatewayEvent × Delivery)}
    (hlog : d'.log.events = d.log.events ++ new) (hdel : ∀ a ∈ new, a.2 = .delivered) (k x : Pubkey) :
    manager d' k x =
      ((attemptsAbout k x new).map Prod.fst).foldl GatewayEvent.fold (manager d k x) := by
  have hnew : new.filter (fun a => decide (a.2 = .delivered)) = new :=
    List.filter_eq_self.mpr fun a ha => decide_eq_true (hdel a ha)
  rw [manager, hlog, List.filter_append, hnew, List.map_append, replay_append, ← manager,
    replay_pair, attemptsAbout, List.filter_map]
  rfl

/-- Every event the daemon ever attempts is about a network that one of its polls visited. -/
theorem watchdog_networks {P : Pubkey → Prop} : ∀ {polls : List (Poll w)} {d : Daemon w},
    (∀ poll ∈ polls, ∀ stats ∈ poll.visits, P stats.public_key) →
    (∀ a ∈ d.log.events, P a.1.network) → ∀ a ∈ (g.watchdog polls d).log.events, P a.1.network
  | [], _, _, hd => hd
  | poll :: polls, d, hpolls, hd => by
      obtain ⟨hpoll, hpolls⟩ := List.forall_mem_cons.mp hpolls
      obtain ⟨new, hnew, hsends⟩ := watchdog_run_events g poll d
      have hnext : ∀ a ∈ (final ((watchdog_run g poll).run d)).log.events, P a.1.network := by
        intro a ha
        rw [hnew] at ha
        rcases List.mem_append.mp ha with ha | ha
        · exact hd a ha
        · obtain ⟨stats, hst, hk, _⟩ := hsends a ha
          rw [hk]
          exact hpoll stats hst
      rw [Global.watchdog]
      cases hr : (watchdog_run g poll).run d with
      | ok _ d' =>
        rw [hr] at hnext
        exact watchdog_networks hpolls hnext
      | error e d' =>
        rw [hr] at hnext
        cases e with
        | err chain => exact watchdog_networks hpolls hnext
        | panic reason => exact hnext

/-- A manager knows nothing about a network without events. -/
theorem manager_none {d : Daemon w} {k : Pubkey} (h : ∀ a ∈ d.log.events, a.1.network ≠ k)
    (x : Pubkey) : manager d k x = none := by
  have hnil : ((d.log.events.filter fun a => decide (a.2 = .delivered)).map Prod.fst).filter
      (·.about k x) = [] := by
    refine List.filter_eq_nil_iff.mpr fun e he => ?_
    obtain ⟨a, ha, rfl⟩ := List.mem_map.mp he
    have hne := h a (List.mem_filter.mp ha).1
    simp [GatewayEvent.about, hne]
  rw [manager, replay_pair, hnil]
  rfl

end

/-- A network whose statistics could be fetched is visited. -/
theorem Networks.Polled.statsOf_some {N : Networks} {poll : Poll w} (h : N.Polled poll) {n : Net}
    (hn : n ∈ N.nets) (hf : (poll.stats n.name).toOption.isSome) :
    ∃ stats, statsOf n.key poll.visits = some stats := by
  obtain ⟨stats, hstats⟩ := Option.isSome_iff_exists.mp hf
  have hmem : stats ∈ poll.visits := by
    rw [Poll.visits_eq_asked, List.mem_filterMap]
    exact ⟨n.name, h.asked_perm.mem_iff.mpr (List.mem_map_of_mem hn), hstats⟩
  have hkey := (h.stats n hn stats (toOption_some.mp hstats)).1
  refine Option.isSome_iff_exists.mp (List.find?_isSome.mpr ⟨stats, hmem, ?_⟩)
  exact decide_eq_true hkey

/-- A pair through a poll that fetched its network's statistics and lost no event. -/
theorem PairMove.ready_iff {poll : Poll w} {k x : Pubkey} {port : UInt16} {d : Daemon w}
    {stats : NetworkStats w} {new : List (GatewayEvent × Delivery)} {c' : Option (PeerStats w)}
    {item : Option (Traffic w)} (hstats : statsOf k poll.visits = some stats)
    (h : PairMove k x (poll.clock k x) (¬Accepted new) (statsOf k poll.visits)
      (slot d.cache port x) (attemptsAbout k x new) c' item) (hacc : Accepted new) :
    ((((attemptsAbout k x new).map Prod.fst).foldl GatewayEvent.fold (manager d k x)).isSome ↔
      FreshNow poll k x) ↔ Ready poll k x port d := by
  have hfresh : FreshNow poll k x ↔
      (listed stats.peers x).any (·.fresh (poll.clock k x).now) := by
    rw [FreshNow, hstats, Option.bind_some]
  have hlisted : Listed poll k x ↔ (listed stats.peers x).isSome := by
    rw [Listed, hstats, Option.bind_some]
  rw [hstats] at h
  rw [hfresh, PairPoll.ready_iff h (not_not.mpr hacc) hacc.about (manager d k x)]
  constructor
  · rintro ⟨hstays, hleaves⟩
    refine ⟨?_, ?_⟩
    · rw [hfresh]
      exact hstays
    · rw [hfresh, hlisted]
      exact hleaves
  · rintro ⟨hstays, hleaves⟩
    rw [hfresh] at hstays
    rw [hfresh, hlisted] at hleaves
    exact ⟨hstays, hleaves⟩

/-- The manager's view after a poll during which one session stayed connected and passed on every
    event: it has exactly the peers with a fresh handshake if and only if every pair was ready
    before the poll. The polls before may have failed, and their events may have been lost, in any
    way. -/
theorem manager_view_iff (N : Networks) (g : Global) (polls : List (Poll w)) (poll : Poll w)
    (d' : Daemon w)
    (hkeys : ∀ p ∈ polls, ∀ stats ∈ p.visits, stats.public_key ∈ N.nets.map (·.key))
    (hpolled : N.Polled poll) (hfetched : ∀ n ∈ N.nets, (poll.stats n.name).toOption.isSome)
    (hrun : (watchdog_run g poll).run (g.watchdog polls Daemon.start) = .ok () d')
    (hdel : ∀ a ∈ g.attempted poll (g.watchdog polls Daemon.start), a.2 = .delivered) :
    (∀ k x, (manager d' k x).isSome ↔ FreshNow poll k x) ↔
      ∀ n ∈ N.nets, ∀ x, Ready poll n.key x n.port (g.watchdog polls Daemon.start) := by
  generalize hd : g.watchdog polls Daemon.start = d at hrun hdel
  obtain ⟨_, s, hv, rfl⟩ := watchdog_run_ok hrun
  obtain ⟨new, hnew, hsends⟩ := hv.only.events
  have hatt : g.attempted poll d = new := by
    rw [Global.attempted, hrun]
    show s.log.events.drop _ = new
    rw [hnew]
    exact List.drop_left
  rw [hatt] at hdel
  have hacc : Accepted new := fun a ha h => by
    rw [hdel a ha] at h
    cases h
  have hmap : ∀ k x, manager (s.broadcast (g.reportFate d)) k x =
      ((attemptsAbout k x new).map Prod.fst).foldl GatewayEvent.fold (manager d k x) :=
    manager_append hnew hdel
  -- a pair of one of the networks
  have hpair : ∀ n ∈ N.nets, ∀ x,
      ((manager (s.broadcast (g.reportFate d)) n.key x).isSome ↔ FreshNow poll n.key x) ↔
        Ready poll n.key x n.port d := by
    intro n hn x
    obtain ⟨stats, hstats⟩ := hpolled.statsOf_some hn (hfetched n hn)
    obtain ⟨item, hmove⟩ := hv.pair_of (hpolled.resident hn) hnew x
    rw [hmap]
    exact hmove.ready_iff hstats hacc
  -- a key of no network is neither in the map nor listed
  have hother : ∀ k x, k ∉ N.nets.map (·.key) →
      ((manager (s.broadcast (g.reportFate d)) k x).isSome ↔ FreshNow poll k x) := by
    intro k x hk
    have hbefore : manager d k x = none := by
      refine manager_none (fun a ha heq => hk ?_) x
      rw [← hd] at ha
      rw [← heq]
      exact watchdog_networks (P := fun k => k ∈ N.nets.map (·.key)) hkeys (by simp [Daemon.start]) a ha
    have hnone : statsOf k poll.visits = none := statsOf_eq_none.mpr (hpolled.foreign hk)
    simp [hmap, hpolled.silent hk hsends x, hbefore, FreshNow, hnone]
  constructor
  · intro h n hn x
    exact (hpair n hn x).mp (h n.key x)
  · intro h k x
    by_cases hk : k ∈ N.nets.map (·.key)
    · obtain ⟨n, hn, rfl⟩ := List.mem_map.mp hk
      exact (hpair n hn x).mpr (h n hn x)
    · exact hother k x hk

/-- One network with one peer. -/
def Sample.network : Networks where
  nets := [⟨"network-5000", 5000, ⟨1⟩⟩]
  named := by decide
  names := by decide
  ports := by decide
  keys := by decide

/-- The peer is connected at two polls and has timed out at the last one. -/
def Sample.before : List (Poll 64) :=
  [Sample.poll 100 [("network-5000", Sample.stats 1 5000 [Sample.peer 7 (some 50) 0])],
   Sample.poll 200 [("network-5000", Sample.stats 1 5000 [Sample.peer 7 (some 50) 0])]]

def Sample.last : Poll 64 :=
  Sample.poll 300 [("network-5000", Sample.stats 1 5000 [Sample.peer 7 (some 50) 0])]

theorem Sample.last_polled : Sample.network.Polled Sample.last := by
  refine ⟨⟨_, rfl, by decide⟩, fun n hn stats hst => ?_⟩
  obtain rfl := List.mem_singleton.mp hn
  cases hst
  exact ⟨rfl, rfl, by decide⟩

/-- No session is connected at the end of the second poll. -/
def Sample.gap : Global :=
  ⟨.release, fun _ => .delivered, fun n => if n = 1 then .refused else .delivered⟩

theorem manager_view_without_gap :
    ∃ d', (watchdog_run Sample.global Sample.last).run
        (Sample.global.watchdog Sample.before Daemon.start) = .ok () d' ∧
      ∀ k x, (manager d' k x).isSome ↔ FreshNow Sample.last k x := by
  refine ⟨_, rfl, ?_⟩
  refine (manager_view_iff Sample.network Sample.global Sample.before Sample.last _ (by decide)
    Sample.last_polled (by decide) rfl (by decide)).mpr fun n hn x => ?_
  obtain rfl := List.mem_singleton.mp hn
  by_cases hx : x = ⟨7⟩
  · subst hx
    exact ⟨by decide, fun _ _ => Or.inr (by decide)⟩
  · have hlisted : ¬FreshNow Sample.last ⟨1⟩ x := by
      show ¬(Option.any _ (listed [Sample.peer 7 (some 50) 0] x) = true)
      have hnone : listed [Sample.peer 7 (some 50) 0] x = none :=
        listed_none_iff.mpr (by simpa [Sample.peer] using hx)
      rw [hnone, Option.any_none]
      exact Bool.false_ne_true
    have hmap : manager (Sample.global.watchdog Sample.before Daemon.start) ⟨1⟩ x = none := by
      show PeerMap.fold PeerMap.empty (.peerConnected ⟨1⟩ ⟨7⟩ _) ⟨1⟩ x = none
      refine if_neg ?_
      rw [GatewayEvent.about, decide_eq_true_eq]
      exact fun h => hx h.2.symm
    refine ⟨fun h => absurd h hlisted, fun h => ?_⟩
    rw [hmap] at h
    cases h

/-- After the gap the cache is gone and the timeout is never announced. -/
theorem manager_view_stale_after_gap :
    Sample.network.Polled Sample.last ∧
      ∃ d', (watchdog_run Sample.gap Sample.last).run
          (Sample.gap.watchdog Sample.before Daemon.start) = .ok () d' ∧
        (∀ a ∈ Sample.gap.attempted Sample.last (Sample.gap.watchdog Sample.before Daemon.start),
          a.2 = .delivered) ∧
        (manager d' ⟨1⟩ ⟨7⟩).isSome ∧ ¬FreshNow Sample.last ⟨1⟩ ⟨7⟩ :=
  ⟨Sample.last_polled, _, rfl, by decide, by decide, by decide⟩

end FractalGateway
