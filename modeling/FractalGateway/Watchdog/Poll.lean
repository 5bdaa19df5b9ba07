import FractalGateway.Watchdog.Pair

/-! One poll, and runs of polls, as the networks they visit.

    A poll is a list of visits: the statistics of the prefixed namespaces that could be fetched, in
    the order of the namespace list. A visit touches the cache of its own port, the events and the
    traffic of its own key, and nothing else, so a network that keeps its port to itself can be
    followed from poll to poll (`run_pair`). -/

namespace FractalGateway
open Std Exec

variable {w : ℕ}

/-- The statistics a poll gets for an entry of the namespace list: namespaces without the prefix
    are not asked, and a failed fetch is only logged. -/
def Poll.fetch (poll : Poll w) (item : NetnsItem) : Option (NetworkStats w) :=
  if starts_with item.name NETNS_PREFIX then (poll.stats item.name).toOption else none

/-- The networks a poll visits, in order. -/
def Poll.visits (poll : Poll w) : List (NetworkStats w) :=
  (poll.netns_list.toOption.getD []).filterMap poll.fetch

/-- One visit, its errors logged. -/
def visit (g : Global) (clock : Pubkey → Pubkey → Clock) (stats : NetworkStats w) :
    EStateM Fail (Watch w (PeerCache w)) Unit :=
  logged (atPort stats.listen_port (watchdog_entry g stats (clock stats.public_key)))

theorem watchdog_items_eq (g : Global) (poll : Poll w) : ∀ items : List NetnsItem,
    watchdog_items g poll items = forM (items.filterMap poll.fetch) (visit g poll.clock)
  | [] => rfl
  | item :: items => by
      have ih := watchdog_items_eq g poll items
      rw [watchdog_items] at ih ⊢
      rw [List.forM_cons, ih, List.filterMap_cons, Poll.fetch]
      by_cases hp : starts_with item.name NETNS_PREFIX
      · rw [if_pos hp, if_pos hp, watchdog_netns]
        cases hs : poll.stats item.name with
        | error e =>
          show (do logged (throw (Fail.err _)); _) = _
          funext s
          rfl
        | ok stats => rfl
      · rw [if_neg hp, if_neg hp]
        exact pure_bind _ _

/-! ### One visit -/

/-- What is cached of a peer under a port. -/
def slot (cache : PeerCache w) (port : UInt16) (x : Pubkey) : Option (PeerStats w) :=
  cache[port]?.bind (·[x]?)

theorem slot_getD (cache : PeerCache w) (port : UInt16) (x : Pubkey) :
    (cache[port]?.getD ∅)[x]? = slot cache port x := by
  cases h : cache[port]? <;> simp [slot, h]

theorem slot_empty (port : UInt16) (x : Pubkey) : slot (∅ : PeerCache w) port x = none := by
  simp [slot]

/-- The state a visit starts its network's entry from. -/
def Watch.at (s : Watch w (PeerCache w)) (port : UInt16) : Watch w (Entry w) :=
  { s with cache := s.cache[port]?.getD ∅ }

/-- A visit that did not panic works on the entry of its port. -/
theorem visit_ok {g : Global} {clock : Pubkey → Pubkey → Clock} {stats : NetworkStats w}
    {s s' : Watch w (PeerCache w)} (hok : (visit g clock stats).run s = .ok () s') :
    ∃ t, (logged (watchdog_entry g stats (clock stats.public_key))).run (s.at stats.listen_port) =
        .ok () t ∧
      s' = { t with cache := s.cache.insert stats.listen_port t.cache } := by
  rw [visit, atPort, logged_zoom, zoom_ok_iff] at hok
  obtain ⟨t, hrun, rfl⟩ := hok
  exact ⟨t, hrun, rfl⟩

/-- A visit works for its network and its port alone. -/
theorem visit_only {g : Global} {clock : Pubkey → Pubkey → Clock} {stats : NetworkStats w}
    {s s' : Watch w (PeerCache w)} (hok : (visit g clock stats).run s = .ok () s') :
    (∃ new, OnlyNetwork stats.public_key new s s') ∧
      ∀ port, port ≠ stats.listen_port → s'.cache[port]? = s.cache[port]? := by
  obtain ⟨t, hrun, rfl⟩ := visit_ok hok
  obtain ⟨new, hon⟩ := watchdog_entry_only g stats hrun
  refine ⟨⟨new, hon.events, hon.reports, hon.network, hon.traffic⟩, fun port hport => ?_⟩
  simp [Ne.symm hport]

/-- What a visit does to each peer of its network. -/
theorem visit_view {g : Global} {clock : Pubkey → Pubkey → Clock} {stats : NetworkStats w}
    (hnd : (stats.peers.map (·.public_key)).Nodup) {s s' : Watch w (PeerCache w)}
    (hok : (visit g clock stats).run s = .ok () s') :
    ∃ new, OnlyNetwork stats.public_key new s s' ∧
      ∀ x, ∃ item, PairPoll stats.public_key x (clock stats.public_key x).Ok (¬Accepted new)
          (slot s.cache stats.listen_port x)
          ((listed stats.peers x).map (·.expire (clock stats.public_key x).now))
          (attemptsAbout stats.public_key x new) (slot s'.cache stats.listen_port x) item ∧
        s'.traffic.device stats.public_key x =
          (s.traffic.device stats.public_key x).plus item := by
  obtain ⟨t, hrun, rfl⟩ := visit_ok hok
  obtain ⟨new, hon, hview⟩ := watchdog_entry_view g stats hnd hrun
  refine ⟨new, ⟨hon.events, hon.reports, hon.network, hon.traffic⟩, fun x => ?_⟩
  obtain ⟨item, hpair, hdev⟩ := hview x
  refine ⟨item, ?_, hdev⟩
  have hafter : slot (s.cache.insert stats.listen_port t.cache) stats.listen_port x =
      t.cache[x]? := by simp [slot]
  rw [← slot_getD, hafter]
  exact hpair

/-! ### All visits of a poll -/

/-- Network `k` keeps port `port` to itself: it is visited at most once, on that port, no other
    network is visited there, and its peers have distinct keys. -/
structure Resident (k : Pubkey) (port : UInt16) (visits : List (NetworkStats w)) : Prop where
  port_iff : ∀ stats ∈ visits, stats.public_key = k ↔ stats.listen_port = port
  once : visits.Pairwise fun a b => a.public_key = k → b.public_key ≠ k
  peers : ∀ stats ∈ visits, stats.public_key = k → (stats.peers.map (·.public_key)).Nodup

instance (k : Pubkey) (port : UInt16) (visits : List (NetworkStats w)) :
    Decidable (Resident k port visits) :=
  decidable_of_iff
    ((∀ stats ∈ visits, stats.public_key = k ↔ stats.listen_port = port) ∧
      (visits.Pairwise fun a b => a.public_key = k → b.public_key ≠ k) ∧
      ∀ stats ∈ visits, stats.public_key = k → (stats.peers.map (·.public_key)).Nodup)
    ⟨fun ⟨h, h', h''⟩ => ⟨h, h', h''⟩, fun h => ⟨h.port_iff, h.once, h.peers⟩⟩

theorem Resident.tail {k : Pubkey} {port : UInt16} {stats : NetworkStats w}
    {visits : List (NetworkStats w)} (h : Resident k port (stats :: visits)) :
    Resident k port visits where
  port_iff := fun st hst => h.port_iff st (List.mem_cons_of_mem _ hst)
  once := (List.pairwise_cons.mp h.once).2
  peers := fun st hst => h.peers st (List.mem_cons_of_mem _ hst)

/-- The visit of network `k`, if there is one. -/
def statsOf (k : Pubkey) (visits : List (NetworkStats w)) : Option (NetworkStats w) :=
  visits.find? fun stats => decide (stats.public_key = k)

theorem statsOf_eq_none {k : Pubkey} {visits : List (NetworkStats w)} :
    statsOf k visits = none ↔ ∀ stats ∈ visits, stats.public_key ≠ k := by
  simp [statsOf, List.find?_eq_none]

theorem statsOf_some {k : Pubkey} {visits : List (NetworkStats w)} {stats : NetworkStats w}
    (h : statsOf k visits = some stats) : stats ∈ visits ∧ stats.public_key = k :=
  ⟨List.mem_of_find?_eq_some h, by simpa using List.find?_some h⟩

/-- What a poll can do to a pair: nothing when its network is not visited, else a `PairPoll`. -/
def PairMove (k x : Pubkey) (clock : Clock) (refused : Prop) (stats : Option (NetworkStats w))
    (c : Option (PeerStats w)) (new : List (GatewayEvent × Delivery)) (c' : Option (PeerStats w))
    (item : Option (Traffic w)) : Prop :=
  match stats with
  | none => new = [] ∧ c' = c ∧ item = none
  | some stats =>
    PairPoll k x clock.Ok refused c ((listed stats.peers x).map (·.expire clock.now)) new c' item

theorem PairMove.mono {k x : Pubkey} {clock : Clock} {r r' : Prop}
    {stats : Option (NetworkStats w)} {c c' : Option (PeerStats w)}
    {new : List (GatewayEvent × Delivery)} {item : Option (Traffic w)} (hr : r → r')
    (h : PairMove k x clock r stats c new c' item) : PairMove k x clock r' stats c new c' item := by
  cases stats with
  | none => exact h
  | some stats => exact PairPoll.mono hr h

theorem TrafficInfo.device_congr {a b : TrafficInfo w} {k : Pubkey}
    (h : a.networks[k]? = b.networks[k]?) (x : Pubkey) : a.device k x = b.device k x := by
  rw [TrafficInfo.device, TrafficInfo.device, h]

/-- The visits of a poll, seen at the peers of one network. -/
theorem visits_view {g : Global} {clock : Pubkey → Pubkey → Clock} {k : Pubkey} {port : UInt16} :
    ∀ {visits : List (NetworkStats w)} {s s' : Watch w (PeerCache w)}, Resident k port visits →
      (forM visits (visit g clock)).run s = .ok () s' →
      ∃ new, s'.log.events = s.log.events ++ new ∧ s'.log.traffic = s.log.traffic ∧
        ∀ x, ∃ item, PairMove k x (clock k x) (¬Accepted new) (statsOf k visits)
            (slot s.cache port x) (attemptsAbout k x new) (slot s'.cache port x) item ∧
          s'.traffic.device k x = (s.traffic.device k x).plus item
  | [], s, s', _, hok => by
      obtain ⟨_, rfl⟩ := pure_ok_iff.mp hok
      exact ⟨[], by simp, rfl, fun x => ⟨none, ⟨rfl, rfl, rfl⟩, rfl⟩⟩
  | stats :: visits, s, s', hres, hok => by
      obtain ⟨_, t, hfirst, hrest⟩ := bind_ok_iff.mp hok
      obtain ⟨b, hevb, htrb, hview⟩ := visits_view hres.tail hrest
      by_cases hk : stats.public_key = k
      · -- the visit of `k`: no later one touches its peers
        have hnone : statsOf k visits = none :=
          statsOf_eq_none.mpr fun st hst => (List.pairwise_cons.mp hres.once).1 st hst hk
        have hport := (hres.port_iff stats List.mem_cons_self).mp hk
        obtain ⟨a, hona, hpair⟩ := visit_view (hres.peers stats List.mem_cons_self hk) hfirst
        have hself : statsOf k (stats :: visits) = some stats := by simp [statsOf, hk]
        refine ⟨a ++ b, by rw [hevb, hona.events, List.append_assoc],
          htrb.trans hona.reports, fun x => ?_⟩
        obtain ⟨item, hx, hdev⟩ := hpair x
        obtain ⟨item', hx', hdev'⟩ := hview x
        rw [hnone] at hx'
        obtain ⟨hbn, hcache, rfl⟩ := hx'
        refine ⟨item, ?_, ?_⟩
        · rw [hself, attemptsAbout_append, hbn, List.append_nil, hcache]
          subst hk hport
          exact hx.mono fun h h' => h (accepted_append.mp h').1
        · subst hk
          rw [hdev', hdev]
          rfl
      · -- another network's visit: another port, other events, other traffic
        obtain ⟨⟨a, hona⟩, hother⟩ := visit_only hfirst
        have hport : port ≠ stats.listen_port := fun h =>
          hk ((hres.port_iff stats List.mem_cons_self).mpr h.symm)
        have hrest' : statsOf k (stats :: visits) = statsOf k visits := by simp [statsOf, hk]
        refine ⟨a ++ b, by rw [hevb, hona.events, List.append_assoc],
          htrb.trans hona.reports, fun x => ?_⟩
        obtain ⟨item, hx, hdev⟩ := hview x
        have han : attemptsAbout k x a = [] :=
          attemptsAbout_eq_nil fun e he h => hk ((hona.network e he).symm.trans h.1)
        have hcache : slot t.cache port x = slot s.cache port x := by
          rw [slot, slot, hother port hport]
        refine ⟨item, ?_, ?_⟩
        · rw [hrest', attemptsAbout_append, han, List.nil_append, ← hcache]
          exact hx.mono fun h h' => h (accepted_append.mp h').2
        · rw [hdev, TrafficInfo.device_congr (hona.traffic k (Ne.symm hk))]

/-! ### One poll -/

/-- Sends that meet `P` may have been attempted, and no report was. -/
structure OnlyEvents {κ : Type} (P : GatewayEvent × Delivery → Prop) (s s' : Watch w κ) : Prop where
  events : ∃ new, s'.log.events = s.log.events ++ new ∧ ∀ a ∈ new, P a
  reports : s'.log.traffic = s.log.traffic

section
variable {κ : Type} {P : GatewayEvent × Delivery → Prop} {s s' : Watch w κ}

theorem OnlyEvents.of_log (h : s'.log = s.log) : OnlyEvents P s s' :=
  ⟨⟨[], by simp [h], by simp⟩, by rw [h]⟩

instance : Std.Refl (@OnlyEvents w κ P) := ⟨fun _ => .of_log rfl⟩

instance : IsTrans (Watch w κ) (OnlyEvents P) where
  trans := by
    rintro s t u ⟨⟨a, hsa, ha⟩, hrs⟩ ⟨⟨b, htb, hb⟩, hrt⟩
    refine ⟨⟨a ++ b, by rw [htb, hsa, List.append_assoc], fun e he => ?_⟩, hrt.trans hrs⟩
    rcases List.mem_append.mp he with he | he
    · exact ha e he
    · exact hb e he

theorem OnlyEvents.mono {Q : GatewayEvent × Delivery → Prop} (hPQ : ∀ a, P a → Q a)
    (h : OnlyEvents P s s') : OnlyEvents Q s s' := by
  obtain ⟨⟨new, hnew, hP⟩, hr⟩ := h
  exact ⟨⟨new, hnew, fun a ha => hPQ a (hP a ha)⟩, hr⟩

theorem OnlyEvents.events_prefix (h : OnlyEvents P s s') : s.log.events <+: s'.log.events := by
  obtain ⟨new, hnew, _⟩ := h.events
  exact ⟨new, hnew.symm⟩

end

/-- A send about network `k` with a fate of the channel. -/
def Global.Sends (g : Global) (k : Pubkey) (a : GatewayEvent × Delivery) : Prop :=
  a.1.network = k ∧ ∃ n, a.2 = g.events_broadcast n

/-- Where no send is refused, everything sent is accepted. -/
theorem OnlyEvents.accepted {κ : Type} {g : Global} {s t : Watch w κ}
    {new : List (GatewayEvent × Delivery)}
    (h : OnlyEvents (fun a => ∃ n, a.2 = g.events_broadcast n) s t)
    (hev : ∀ n, g.events_broadcast n ≠ .refused) (hnew : t.log.events = s.log.events ++ new) :
    Accepted new := by
  obtain ⟨⟨new', hnew', hfate⟩, _⟩ := h
  obtain rfl := List.append_cancel_left (hnew.symm.trans hnew')
  intro a ha
  obtain ⟨n, hn⟩ := hfate a ha
  rw [hn]
  exact hev n

theorem Global.event_only {κ : Type} (g : Global) (e : GatewayEvent) :
    Always (OnlyEvents (g.Sends e.network)) (g.event e : EStateM Fail (Watch w κ) Unit) := by
  intro s
  rw [g.event_eq]
  split
  · rename_i hf
    exact ⟨⟨_, rfl, by simp [Global.Sends, ← hf]⟩, rfl⟩
  · exact ⟨⟨_, rfl, by simp [Global.Sends]⟩, rfl⟩

theorem watchdog_peer_onlyEvents (g : Global) (stats : NetworkStats w) (clock : Clock)
    (peer : PeerStats w) :
    Always (OnlyEvents (g.Sends stats.public_key)) (watchdog_peer g stats clock peer) := by
  intro s
  have hstep := watchdog_peer_step g stats clock peer s
  have hon := onlyNetwork_reported g stats clock peer s
  have honly : OnlyEvents (g.Sends stats.public_key) s
      ((s.reported stats clock peer).sent (g.peerAttempts stats clock peer s)) :=
    ⟨⟨_, hon.events, fun a ha => ⟨hon.network a ha, g.attempts_fate _ _ a ha⟩⟩, hon.reports⟩
  generalize (watchdog_peer g stats clock peer).run s = r at hstep
  cases hstep with
  | clock chain hp ht => exact Std.Refl.refl s
  | overflow reason hp ho => exact Std.Refl.refl s
  | refused chain ha => exact honly
  | unwrap reason ha hu => exact honly
  | done ha hu ht => exact ⟨honly.events, honly.reports⟩

theorem watchdog_peers_onlyEvents (g : Global) (stats : NetworkStats w) (clock : Pubkey → Clock)
    (peers : List (PeerStats w)) :
    Always (OnlyEvents (g.Sends stats.public_key)) (watchdog_peers g stats clock peers) :=
  Always.forM fun p _ => (watchdog_peer_onlyEvents g stats _ p).logged

/-- A visit sends events of its network and broadcasts no report, however it ends. -/
theorem visit_onlyEvents (g : Global) (clock : Pubkey → Pubkey → Clock) (stats : NetworkStats w) :
    Always (OnlyEvents (g.Sends stats.public_key)) (visit g clock stats) := by
  have hsweep : ∀ dead,
      Always (OnlyEvents (g.Sends stats.public_key)) (watchdog_sweep g stats dead) := fun dead =>
    Always.forM fun x _ => Always.bind (fun _ => .of_log rfl) fun _ =>
      g.event_only (.peerDisconnected stats.public_key x)
  have hpeers := watchdog_peers_onlyEvents g stats (clock stats.public_key) stats.peers
  have hentry : Always (OnlyEvents (g.Sends stats.public_key))
      (watchdog_entry g stats (clock stats.public_key)) :=
    hpeers.bind fun _ => Always.bind (fun _ => .of_log rfl) fun _ => hsweep _
  have hport : Always (OnlyEvents (g.Sends stats.public_key))
      (atPort stats.listen_port (watchdog_entry g stats (clock stats.public_key))) :=
    Always.zoom (fun _ _ h => ⟨h.events, h.reports⟩) hentry
  exact hport.logged

/-- A send about a network the poll visits. -/
def Poll.Sends (poll : Poll w) (g : Global) (a : GatewayEvent × Delivery) : Prop :=
  ∃ stats ∈ poll.visits, g.Sends stats.public_key a

theorem visits_onlyEvents (g : Global) (poll : Poll w) :
    Always (OnlyEvents (poll.Sends g)) (forM poll.visits (visit g poll.clock)) :=
  Always.forM fun stats hst => (visit_onlyEvents g poll.clock stats).mono fun _ _ h =>
    h.mono fun _ ha => ⟨stats, hst, ha⟩

/-- The state a poll starts from. -/
def Daemon.watch (d : Daemon w) : Watch w (PeerCache w) :=
  { traffic := TrafficInfo.new 0, cache := d.cache, log := d.log }

/-- What is left of a poll's state after its broadcast. -/
def Watch.broadcast (s : Watch w (PeerCache w)) (fate : Delivery) : Daemon w :=
  { cache := s.cache, log := { s.log with traffic := s.log.traffic ++ [(s.traffic, fate)] } }

/-- The fate of a poll's broadcast. -/
def Global.reportFate (g : Global) (d : Daemon w) : Delivery :=
  g.traffic_broadcast d.log.traffic.length

/-- A poll that got as far as its broadcast. -/
structure Visited (g : Global) (poll : Poll w) (d : Daemon w) (s : Watch w (PeerCache w)) : Prop where
  listed : ∃ items, poll.netns_list = .ok items
  run : (forM poll.visits (visit g poll.clock)).run d.watch = .ok () s
  only : OnlyEvents (poll.Sends g) d.watch s

/-- The ways a poll can end. -/
inductive RunStep (g : Global) (poll : Poll w) (d : Daemon w) :
    EStateM.Result Fail (Daemon w) Unit → Prop
  | unlisted {e : String} (chain : List String) (hl : poll.netns_list = .error e) :
      RunStep g poll d (.error (.err chain) d)
  | panic (reason : String) {s : Watch w (PeerCache w)} (hr : OnlyEvents (poll.Sends g) d.watch s)
      (hrun : (forM poll.visits (visit g poll.clock)).run d.watch = .error (.panic reason) s) :
      RunStep g poll d (.error (.panic reason) ⟨s.cache, s.log⟩)
  | refused (chain : List String) {s : Watch w (PeerCache w)} (hv : Visited g poll d s)
      (hf : g.reportFate d = .refused) :
      RunStep g poll d (.error (.err chain) (s.broadcast (g.reportFate d)))
  | sent {s : Watch w (PeerCache w)} (hv : Visited g poll d s) (hf : g.reportFate d ≠ .refused) :
      RunStep g poll d (.ok () (s.broadcast (g.reportFate d)))

/-- One poll ends in one of these ways. -/
theorem watchdog_run_step (g : Global) (poll : Poll w) (d : Daemon w) :
    RunStep g poll d ((watchdog_run g poll).run d) := by
  rw [watchdog_run, zoom_run]
  cases hl : poll.netns_list with
  | error e => exact RunStep.unlisted _ hl
  | ok items =>
    have hvisits : poll.visits = items.filterMap poll.fetch := by rw [Poll.visits, hl]; rfl
    have honly := visits_onlyEvents g poll d.watch
    simp only
    rw [watchdog_items_eq, ← hvisits]
    cases hrun : (forM poll.visits (visit g poll.clock)).run d.watch with
    | error e s =>
      rw [hrun] at honly
      rw [← Daemon.watch, bind_of_error hrun]
      cases e with
      | err chain => exact absurd hrun (forM_logged_ne_err _ _ _ _ _)
      | panic reason => exact RunStep.panic _ honly hrun
    | ok a s =>
      rw [hrun] at honly
      have hv : Visited g poll d s := ⟨⟨items, hl⟩, hrun, honly⟩
      have hfate : g.traffic_broadcast s.log.traffic.length = g.reportFate d := by
        rw [Global.reportFate, hv.only.reports]
        rfl
      have hreport : g.report.run s = if g.reportFate d = .refused then
          .error (.err ["channel closed"]) { s with log := (s.broadcast (g.reportFate d)).log }
          else .ok () { s with log := (s.broadcast (g.reportFate d)).log } := by
        simp only [Global.report, EStateM.run, hfate, Watch.broadcast]
      rw [← Daemon.watch, bind_of_ok hrun, hreport]
      by_cases hf : g.reportFate d = .refused
      · rw [if_pos hf]
        exact RunStep.refused _ hv hf
      · rw [if_neg hf]
        exact RunStep.sent hv hf

/-- However a poll ends, it has only added sends about the networks it visits to the log. -/
theorem watchdog_run_events (g : Global) (poll : Poll w) (d : Daemon w) :
    ∃ new, (final ((watchdog_run g poll).run d)).log.events = d.log.events ++ new ∧
      ∀ a ∈ new, poll.Sends g a := by
  have hstep := watchdog_run_step g poll d
  generalize (watchdog_run g poll).run d = r at hstep
  cases hstep with
  | unlisted chain hl => exact ⟨[], by simp, by simp⟩
  | panic reason hr hrun => exact hr.events
  | refused chain hv hf => exact hv.only.events
  | sent hv hf => exact hv.only.events

theorem watchdog_events (g : Global) : ∀ (polls : List (Poll w)) {d d' : Daemon w},
    (watchdog g polls).run d = .ok () d' → d.log.events <+: d'.log.events
  | [], d, d', hok => by
      obtain ⟨_, rfl⟩ := pure_ok_iff.mp hok
      exact List.prefix_rfl
  | poll :: polls, d, d', hok => by
      obtain ⟨_, t, hfirst, hrest⟩ := bind_ok_iff.mp hok
      obtain ⟨new, hnew, _⟩ := watchdog_run_events g poll d
      rw [hfirst] at hnew
      exact List.IsPrefix.trans ⟨new, hnew.symm⟩ (watchdog_events g polls hrest)

/-- A poll that returned `Ok` visited its networks and got its report out. -/
theorem watchdog_run_ok {g : Global} {poll : Poll w} {d d' : Daemon w}
    (hok : (watchdog_run g poll).run d = .ok () d') :
    g.reportFate d ≠ .refused ∧ ∃ s, Visited g poll d s ∧ d' = s.broadcast (g.reportFate d) := by
  have hstep := watchdog_run_step g poll d
  rw [hok] at hstep
  cases hstep with
  | sent hv hf => exact ⟨hf, _, hv, rfl⟩

/-- The sends a poll attempts. -/
def Global.attempted (g : Global) (poll : Poll w) (d : Daemon w) :
    List (GatewayEvent × Delivery) :=
  (final ((watchdog_run g poll).run d)).log.events.drop d.log.events.length

/-- Every poll the daemon makes meets `P` in the state it starts from. -/
def Global.AllPolls (g : Global) (P : Poll w → Daemon w → Prop) : List (Poll w) → Daemon w → Prop
  | [], _ => True
  | poll :: polls, d => P poll d ∧
    match (watchdog_run g poll).run d with
    | .ok _ d' => g.AllPolls P polls d'
    | .error (.err _) d' => g.AllPolls P polls { d' with cache := ∅ }
    | .error (.panic _) _ => True

instance instDecidableAllPollsOf (g : Global) (P : Poll w → Daemon w → Prop)
    [∀ poll d, Decidable (P poll d)] : ∀ polls d, Decidable (g.AllPolls P polls d)
  | [], _ => isTrue trivial
  | poll :: polls, d =>
    match h : (watchdog_run g poll).run d with
    | .ok _ d' =>
      have := instDecidableAllPollsOf g P polls d'
      decidable_of_iff (P poll d ∧ g.AllPolls P polls d') (by rw [Global.AllPolls, h])
    | .error (.err _) d' =>
      have := instDecidableAllPollsOf g P polls { d' with cache := ∅ }
      decidable_of_iff (P poll d ∧ g.AllPolls P polls { d' with cache := ∅ })
        (by rw [Global.AllPolls, h])
    | .error (.panic _) _ => decidable_of_iff (P poll d) (by rw [Global.AllPolls, h, and_true])

/-- A visited poll, seen at the peers of one network: the sends, the cache and the report. -/
theorem Visited.pair {g : Global} {poll : Poll w} {d : Daemon w} {s : Watch w (PeerCache w)}
    (hv : Visited g poll d s) {k : Pubkey} {port : UInt16} (hres : Resident k port poll.visits) :
    ∃ new, s.log.events = d.log.events ++ new ∧
      ∀ x, ∃ item, PairMove k x (poll.clock k x) (¬Accepted new) (statsOf k poll.visits)
          (slot d.cache port x) (attemptsAbout k x new) (slot s.cache port x) item ∧
        s.traffic.device k x = Traffic.default.plus item := by
  obtain ⟨new, hev, _, hview⟩ := visits_view hres hv.run
  refine ⟨new, hev, fun x => ?_⟩
  obtain ⟨item, hx, hdev⟩ := hview x
  refine ⟨item, hx, ?_⟩
  rw [hdev, Daemon.watch, TrafficInfo.device_new]

/-- The same, of given sends. -/
theorem Visited.pair_of {g : Global} {poll : Poll w} {d : Daemon w} {s : Watch w (PeerCache w)}
    (hv : Visited g poll d s) {k : Pubkey} {port : UInt16} (hres : Resident k port poll.visits)
    {new : List (GatewayEvent × Delivery)} (hnew : s.log.events = d.log.events ++ new) (x : Pubkey) :
    ∃ item, PairMove k x (poll.clock k x) (¬Accepted new) (statsOf k poll.visits)
      (slot d.cache port x) (attemptsAbout k x new) (slot s.cache port x) item := by
  obtain ⟨new', hnew', hview⟩ := hv.pair hres
  obtain rfl := List.append_cancel_left (hnew.symm.trans hnew')
  obtain ⟨item, hmove, _⟩ := hview x
  exact ⟨item, hmove⟩

/-! ### A small deployment, for concrete runs -/

namespace Sample

/-- A peer with an endpoint, a handshake time and a receive counter. -/
def peer (x : BitVec 256) (handshake : Option ℤ) (rx : BitVec 64) : PeerStats 64 where
  public_key := ⟨x⟩
  preshared_key := none
  endpoint := some (.v4 (Ipv4Addr.new 192 0 2 1) 51820)
  allowed_ips := []
  latest_handshake := handshake.map fun secs => ⟨secs * 1000000000⟩
  transfer_rx := rx
  transfer_tx := 0
  persistent_keepalive := none

/-- The statistics of a network on a port. -/
def stats (k : BitVec 256) (port : UInt16) (peers : List (PeerStats 64)) : NetworkStats 64 where
  private_key := ⟨k⟩
  public_key := ⟨k⟩
  listen_port := port
  fwmark := none
  peers := peers

/-- A clock that stands at a time. -/
def clock (secs : ℤ) : Clock := ⟨⟨secs * 1000000000⟩, ⟨secs * 1000000000⟩⟩

/-- A poll at a time, with the statistics found in each namespace. -/
def poll (secs : ℤ) (networks : List (String × NetworkStats 64)) : Poll 64 where
  netns_list := .ok (networks.map fun n => ⟨n.1, none⟩)
  wireguard_stats := fun netns _ =>
    match networks.find? fun n => decide (n.1 = netns) with
    | some n => .ok n.2
    | none => .error "No such device"
  clock := fun _ _ => clock secs

/-- One session stays connected and passes everything on. -/
def global : Global := ⟨.release, fun _ => .delivered, fun _ => .delivered⟩

end Sample

end FractalGateway
