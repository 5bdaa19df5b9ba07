import FractalGateway.Watchdog.Refusals
import Mathlib.Data.List.Chain

/-! Connects and disconnects of a peer take turns.

    The cache entry of a peer says whether its last turn was a connect. A listed peer's step takes a
    turn just when its handshake appears or disappears, so it keeps that in step. The sweep does not
    look: it announces a disconnect for every entry it removes, connected or not, and a restart drops
    the entry without a word. Runs in which neither happens to a peer at the wrong moment alternate. -/

namespace FractalGateway
open Std Exec

variable {w : ℕ}

/-! ### Turns -/

/-- What an event says about the connection of its peer. -/
def GatewayEvent.turn : GatewayEvent → Option Bool
  | .peerConnected _ _ _ => some true
  | .peerDisconnected _ _ => some false
  | .endpoint _ _ _ => none

/-- The connects (`true`) and disconnects (`false`) of peer `x` of network `k`, in order. -/
def turns (k x : Pubkey) (l : List (GatewayEvent × Delivery)) : List Bool :=
  (attemptsAbout k x l).filterMap fun a => a.1.turn

/-- A connect first, and then by turns. -/
def Alternating (l : List Bool) : Prop := (false :: l).IsChain (· ≠ ·)

instance (l : List Bool) : Decidable (Alternating l) := inferInstanceAs (Decidable (List.IsChain _ _))

theorem turns_append (k x : Pubkey) (a b : List (GatewayEvent × Delivery)) :
    turns k x (a ++ b) = turns k x a ++ turns k x b := by
  simp [turns, attemptsAbout_append]

theorem turns_eq_nil {k x : Pubkey} {l : List (GatewayEvent × Delivery)}
    (h : attemptsAbout k x l = []) : turns k x l = [] := by
  rw [turns, h]
  rfl

/-- The turn that takes a peer from one state to another. -/
def change (a b : Bool) : List Bool := if a = b then [] else [b]

theorem Alternating.change {l : List Bool} {a : Bool} (h : Alternating l)
    (hlast : (false :: l).getLast? = some a) (b : Bool) :
    Alternating (l ++ change a b) ∧ (false :: (l ++ change a b)).getLast? = some b := by
  rw [FractalGateway.change]
  split
  · next heq =>
    rw [List.append_nil, ← heq]
    exact ⟨h, hlast⟩
  · next hne =>
    rw [Alternating, ← List.cons_append]
    refine ⟨List.isChain_append.mpr ⟨h, List.isChain_singleton b, ?_⟩, List.getLast?_concat⟩
    intro c hc d hd
    obtain rfl : a = c := Option.some.inj (hlast.symm.trans hc)
    obtain rfl : b = d := by simpa using hd
    exact hne

/-- A peer as cached has a handshake. -/
def up (c : Option (PeerStats w)) : Bool := (c.bind (·.latest_handshake)).isSome

/-! ### One peer in one poll -/

/-- The announcements of a step are the turn from the old to the new state. -/
theorem announce_turns (k : Pubkey) {c : Option (PeerStats w)} {p : PeerStats w}
    (hu : ¬Unannounceable c p) :
    (announce k c p).filterMap GatewayEvent.turn = change (up c) (up (some p)) := by
  have hendpoint : p.latest_handshake.isSome → c.bind (·.latest_handshake) = none →
      ∃ addr, p.endpoint = some addr := by
    intro hp hc
    exact Option.ne_none_iff_exists'.mp fun hnone => hu ⟨hp, hnone, hc⟩
  have hmoves : ∀ q : PeerStats w, (if p.endpoint ≠ q.endpoint then
      p.endpoint.toList.map (.endpoint k p.public_key) else []).filterMap
        GatewayEvent.turn = [] := by
    intro q
    split
    · cases p.endpoint <;> simp [GatewayEvent.turn]
    · rfl
  cases c with
  | none =>
    cases hp : p.latest_handshake with
    | none => simp [announce, hp, up, change]
    | some t =>
      obtain ⟨addr, haddr⟩ := hendpoint (by simp [hp]) rfl
      simp [announce, hp, haddr, up, change, GatewayEvent.turn]
  | some q =>
    rw [announce, List.filterMap_append, hmoves q, List.nil_append]
    cases hq : q.latest_handshake with
    | none =>
      cases hp : p.latest_handshake with
      | none => simp [hp, hq, up, change]
      | some t =>
        obtain ⟨addr, haddr⟩ := hendpoint (by simp [hp]) hq
        simp [hp, hq, haddr, up, change, GatewayEvent.turn]
    | some t' => cases hp : p.latest_handshake <;> simp [hp, hq, up, change, GatewayEvent.turn]

/-- What a poll sends about a pair is the turn its cache entry takes, if a swept entry was
    connected. -/
theorem PairPoll.turn {k x : Pubkey} {clockOk refused : Prop} {c l n : Option (PeerStats w)}
    {a : List (GatewayEvent × Delivery)} {item : Option (Traffic w)}
    (h : PairPoll k x clockOk refused c l a n item) (ha : Accepted a) (hr : ¬refused)
    (hleave : l = none → c ≠ none → up c = true) :
    a.filterMap (fun a => a.1.turn) = change (up c) (up n) := by
  cases h with
  | stale ht hc => simp [change]
  | refused hna _ => exact absurd ha hna
  | done _ hl hu _ =>
    rw [← announce_turns k hu, ← hl, List.filterMap_map]
    rfl
  | absent hc => simp [hc, change]
  | swept fate hc =>
    rw [hleave rfl hc]
    rfl
  | missed hm _ => exact absurd hm hr

theorem PairMove.turn {k x : Pubkey} {clock : Clock} {refused : Prop}
    {stats : Option (NetworkStats w)} {c c' : Option (PeerStats w)}
    {new : List (GatewayEvent × Delivery)} {item : Option (Traffic w)}
    (h : PairMove k x clock refused stats c new c' item) (ha : Accepted new) (hr : ¬refused)
    (hleave : ∀ st, stats = some st → listed st.peers x = none → c ≠ none → up c = true) :
    new.filterMap (fun a => a.1.turn) = change (up c) (up c') := by
  cases stats with
  | none =>
    obtain ⟨rfl, rfl, _⟩ := h
    simp [change]
  | some st =>
    refine PairPoll.turn h ha hr fun hl hc => hleave st rfl ?_ hc
    exact Option.map_eq_none_iff.mp hl

/-! ### One poll, however it ends -/

theorem Resident.left {k : Pubkey} {port : UInt16} {before after : List (NetworkStats w)}
    (h : Resident k port (before ++ after)) : Resident k port before where
  port_iff := fun st hst => h.port_iff st (List.mem_append_left _ hst)
  once := (List.pairwise_append.mp h.once).1
  peers := fun st hst => h.peers st (List.mem_append_left _ hst)

section
variable {g : Global} {k x : Pubkey} {port : UInt16}

/-- A visit that panicked had sent what its loop sends for the peers before the one it panicked
    at. -/
theorem visit_panic {clock : Pubkey → Pubkey → Clock} {stats : NetworkStats w}
    {s s' : Watch w (PeerCache w)} {reason : String}
    (h : (visit g clock stats).run s = .error (.panic reason) s') :
    ∃ before after u, stats.peers = before ++ after ∧
      (watchdog_peers g stats (clock stats.public_key) before).run (s.at stats.listen_port) =
        .ok () u ∧ s'.log.events = u.log.events := by
  rw [visit, logged_panic_iff, atPort, zoom_run, ← Watch.at] at h
  cases hentry : (watchdog_entry g stats (clock stats.public_key)).run
      (s.at stats.listen_port) with
  | ok a f => simp [hentry] at h
  | error e f =>
    simp only [hentry] at h
    cases h
    cases hloop : (watchdog_peers g stats (clock stats.public_key) stats.peers).run
        (s.at stats.listen_port) with
    | ok a t =>
      -- the sweep does not panic
      rw [watchdog_entry, bind_of_ok hloop] at hentry
      obtain ⟨_, _, hrun⟩ := watchdog_sweep_run g stats (deadPeers stats t) t
      have hsweep : (watchdog_sweep g stats (deadPeers stats t)).run t =
          .error (.panic reason) f := hentry
      rw [hrun] at hsweep
      split at hsweep <;> cases hsweep
    | error e t =>
      rw [watchdog_entry, bind_of_error hloop] at hentry
      cases hentry
      obtain ⟨before, p, after, u, hpeers, hbefore, hp⟩ := forM_error hloop
      refine ⟨before, p :: after, u, hpeers, hbefore, ?_⟩
      by_cases hc : g.Crashes (clock stats.public_key) u.cache p
      · obtain ⟨_, f', hrun, hlog, _⟩ := peerStep_crash stats hc
        cases hp.symm.trans hrun
        exact hlog
      · obtain ⟨_, hrun, _⟩ := peerStep_ok stats hc
        cases hp.symm.trans hrun

/-- The peers of network `k` that a panicking visit had come to take their turns. -/
theorem visit_panic_turns {clock : Pubkey → Pubkey → Clock} {stats : NetworkStats w}
    {s s' : Watch w (PeerCache w)} {reason : String} (hev : ∀ n, g.events_broadcast n ≠ .refused)
    (hnd : (stats.peers.map (·.public_key)).Nodup)
    (h : (visit g clock stats).run s = .error (.panic reason) s') :
    ∃ c' : Option (PeerStats w), turns stats.public_key x s'.log.events = turns stats.public_key x s.log.events ++
      change (up (slot s.cache stats.listen_port x)) (up c') := by
  obtain ⟨before, after, u, hpeers, hrun, hlog⟩ := visit_panic h
  rw [hpeers, List.map_append] at hnd
  obtain ⟨new, hon, _, hview⟩ := watchdog_peers_view g stats (clock stats.public_key)
    (List.nodup_append.mp hnd).1 hrun
  have honly := (watchdog_peers_onlyEvents g stats (clock stats.public_key) before).of_ok hrun
  have hacc : Accepted new := (honly.mono fun _ ha => ha.2).accepted hev hon.events
  have hslot : (s.at stats.listen_port).cache[x]? = slot s.cache stats.listen_port x :=
    slot_getD s.cache stats.listen_port x
  have hx := hview x
  rw [hlog, hon.events]
  cases hl : listed before x with
  | none =>
    rw [hl] at hx
    refine ⟨slot s.cache stats.listen_port x, ?_⟩
    rw [turns_append, turns_eq_nil hx.1]
    simp [Watch.at, change]
  | some p =>
    rw [hl] at hx
    obtain ⟨item, hpair, _⟩ := hx
    rw [hslot] at hpair
    refine ⟨u.cache[x]?, ?_⟩
    rw [turns_append, ← hpair.turn hacc.about (fun h => h) (by simp)]
    rfl

/-- After visits that return, the pair's turns have gone from its old cache entry to its new one. -/
theorem visits_return_turns {clock : Pubkey → Pubkey → Clock} {visits : List (NetworkStats w)}
    {s t : Watch w (PeerCache w)} (hres : Resident k port visits)
    (hev : ∀ n, g.events_broadcast n ≠ .refused)
    (hleave : ∀ stats ∈ visits, stats.public_key = k → listed stats.peers x = none →
      slot s.cache port x ≠ none → up (slot s.cache port x) = true)
    (hrun : (forM visits (visit g clock)).run s = .ok () t) :
    turns k x t.log.events =
      turns k x s.log.events ++ change (up (slot s.cache port x)) (up (slot t.cache port x)) := by
  obtain ⟨new, hnew, _, hview⟩ := visits_view hres hrun
  have honly : Always (OnlyEvents fun a => ∃ n, a.2 = g.events_broadcast n)
      (forM visits (visit g clock)) :=
    Always.forM fun stats _ => (visit_onlyEvents g clock stats).mono fun _ _ h =>
      h.mono fun _ ha => ha.2
  have hacc : Accepted new := (honly.of_ok hrun).accepted hev hnew
  obtain ⟨item, hmove, _⟩ := hview x
  rw [hnew, turns_append, ← hmove.turn hacc.about (not_not.mpr hacc) ?_]
  · rfl
  · intro stats hs
    obtain ⟨hmem, hkey⟩ := statsOf_some hs
    exact hleave stats hmem hkey

/-- Visits before that of network `k` leave the pair alone. -/
theorem visits_before_turns {clock : Pubkey → Pubkey → Clock}
    {before after : List (NetworkStats w)} {stats : NetworkStats w} {s u : Watch w (PeerCache w)}
    (hres : Resident k port (before ++ stats :: after)) (hk : stats.public_key = k)
    (hrun : (forM before (visit g clock)).run s = .ok () u) :
    turns k x u.log.events = turns k x s.log.events ∧ slot u.cache port x = slot s.cache port x := by
  have hnone : statsOf k before = none := statsOf_eq_none.mpr fun st hst h =>
    (List.pairwise_append.mp hres.once).2.2 st hst stats List.mem_cons_self h hk
  obtain ⟨_, hnew, _, hview⟩ := visits_view hres.left hrun
  obtain ⟨_, hmove, _⟩ := hview x
  rw [hnone] at hmove
  obtain ⟨hnil, hslot, _⟩ := hmove
  refine ⟨?_, hslot⟩
  rw [hnew, turns_append, turns_eq_nil hnil, List.append_nil]

/-- However the visits of a poll end, the pair's turns go on from its cache entry. -/
theorem visits_turns (clock : Pubkey → Pubkey → Clock) {visits : List (NetworkStats w)}
    {s : Watch w (PeerCache w)} (hres : Resident k port visits)
    (hev : ∀ n, g.events_broadcast n ≠ .refused)
    (hleave : ∀ stats ∈ visits, stats.public_key = k → listed stats.peers x = none →
      slot s.cache port x ≠ none → up (slot s.cache port x) = true) :
    ∃ c' : Option (PeerStats w), turns k x (final ((forM visits (visit g clock)).run s)).log.events =
        turns k x s.log.events ++ change (up (slot s.cache port x)) (up c') ∧
      ∀ t, (forM visits (visit g clock)).run s = .ok () t → slot t.cache port x = c' := by
  cases hrun : (forM visits (visit g clock)).run s with
  | ok a t =>
    refine ⟨slot t.cache port x, visits_return_turns hres hev hleave hrun, ?_⟩
    rintro _ ⟨⟩
    rfl
  | error e t =>
    obtain ⟨before, stats, after, u, rfl, hbefore, hpanic⟩ := forM_error hrun
    obtain ⟨reason, rfl⟩ : ∃ reason, e = .panic reason := by
      cases e with
      | err chain => exact absurd hpanic (logged_ne_err _ _ _ _)
      | panic reason => exact ⟨reason, rfl⟩
    by_cases hk : stats.public_key = k
    · -- the visit of `k` itself
      have hin : stats ∈ before ++ stats :: after := by simp
      have hport := (hres.port_iff stats hin).mp hk
      obtain ⟨hsame, hslot⟩ := visits_before_turns (x := x) hres hk hbefore
      obtain ⟨c', hturns⟩ := visit_panic_turns (x := x) hev (hres.peers stats hin hk) hpanic
      rw [hk, hport, hslot, hsame] at hturns
      exact ⟨c', hturns, by rintro _ ⟨⟩⟩
    · -- a visit of another network sends nothing about `k`
      have hfirst := visits_return_turns hres.left hev
        (fun st hst => hleave st (List.mem_append_left _ hst)) hbefore
      obtain ⟨⟨new, hnew, hsends⟩, _⟩ := (visit_onlyEvents g clock stats).of_error hpanic
      have hnil : attemptsAbout k x new = [] :=
        attemptsAbout_eq_nil fun a ha hab => hk ((hsends a ha).1.symm.trans hab.1)
      refine ⟨slot u.cache port x, ?_, by rintro _ ⟨⟩⟩
      rw [final_error, hnew, turns_append, turns_eq_nil hnil, List.append_nil, hfirst]

/-! ### Runs -/

/-- The turns so far alternate, and the cache knows the last one. -/
structure InTurn (k x : Pubkey) (port : UInt16) (d : Daemon w) : Prop where
  alternating : Alternating (turns k x d.log.events)
  last : (false :: turns k x d.log.events).getLast? = some (up (slot d.cache port x))

/-- A poll at which the peer is not dropped out of turn: if the namespaces cannot be listed, which
    restarts the daemon, it is not cached as connected; and if its network no longer lists it, it is
    not cached as disconnected. -/
structure LeavesInTurn (k x : Pubkey) (port : UInt16) (poll : Poll w) (d : Daemon w) : Prop where
  listing : poll.netns_list.toOption = none → up (slot d.cache port x) = false
  leaving : ∀ stats ∈ poll.visits, stats.public_key = k → listed stats.peers x = none →
    slot d.cache port x ≠ none → up (slot d.cache port x) = true

instance (poll : Poll w) (d : Daemon w) : Decidable (LeavesInTurn k x port poll d) :=
  decidable_of_iff
    ((poll.netns_list.toOption = none → up (slot d.cache port x) = false) ∧
      ∀ stats ∈ poll.visits, stats.public_key = k → listed stats.peers x = none →
        slot d.cache port x ≠ none → up (slot d.cache port x) = true)
    ⟨fun ⟨h, h'⟩ => ⟨h, h'⟩, fun h => ⟨h.listing, h.leaving⟩⟩

theorem InTurn.run (hev : ∀ n, g.events_broadcast n ≠ .refused)
    (htr : ∀ n, g.traffic_broadcast n ≠ .refused) : ∀ {polls : List (Poll w)} {d : Daemon w},
    InTurn k x port d → (∀ poll ∈ polls, Resident k port poll.visits) →
    g.AllPolls (LeavesInTurn k x port) polls d →
    Alternating (turns k x (g.watchdog polls d).log.events)
  | [], d, h, _, _ => h.alternating
  | poll :: polls, d, h, hres, hall => by
      obtain ⟨hres₁, hres⟩ := List.forall_mem_cons.mp hres
      obtain ⟨hleaves, hall⟩ := hall
      obtain ⟨c', hturns, hslot⟩ := visits_turns (g := g) poll.clock (s := d.watch) hres₁
        hev hleaves.leaving
      have hturns : turns k x (final ((forM poll.visits (visit g poll.clock)).run
          d.watch)).log.events =
            turns k x d.log.events ++ change (up (slot d.cache port x)) (up c') := hturns
      obtain ⟨halt, hlast⟩ := h.alternating.change h.last (up c')
      rw [← hturns] at halt hlast
      have hstep := watchdog_run_step g poll d
      rw [Global.watchdog]
      generalize hr : (watchdog_run g poll).run d = r at hstep hall
      cases hstep with
      | unlisted chain hl =>
        refine InTurn.run hev htr ⟨h.alternating, ?_⟩ hres hall
        rw [h.last, hleaves.listing (by rw [hl]; rfl), slot_empty]
        rfl
      | refused chain hv hf => exact absurd hf (htr _)
      | sent hv hf =>
        rw [hv.run, final_ok] at halt hlast
        rw [← hslot _ hv.run] at hlast
        exact InTurn.run hev htr ⟨halt, hlast⟩ hres hall
      | panic reason hpanic hrun =>
        rw [hrun, final_error] at halt
        exact halt

end

/-- Connects and disconnects alternate: in every run of the daemon in which all sends succeed, and
    in which the peer is never dropped out of turn, its events begin with a connect and take
    turns. -/
theorem connects_alternate (g : Global) (k x : Pubkey) (port : UInt16) (polls : List (Poll w))
    (hres : ∀ poll ∈ polls, Resident k port poll.visits)
    (hev : ∀ n, g.events_broadcast n ≠ .refused) (htr : ∀ n, g.traffic_broadcast n ≠ .refused)
    (hleave : g.AllPolls (LeavesInTurn k x port) polls Daemon.start) :
    Alternating (turns k x (g.watchdog polls Daemon.start).log.events) := by
  refine InTurn.run hev htr ⟨?_, ?_⟩ hres hleave
  · exact List.isChain_singleton false
  · exact congrArg (fun c => some (up c)) (slot_empty (w := w) port x).symm

/-- A peer connects, times out and comes back, and another one is listed without a handshake. -/
def Sample.returning : List (Poll 64) :=
  [Sample.poll 100 [("network-5000", Sample.stats 1 5000
     [Sample.peer 7 (some 50) 0, Sample.peer 8 none 0])],
   Sample.poll 300 [("network-5000", Sample.stats 1 5000
     [Sample.peer 7 (some 50) 0, Sample.peer 8 none 0])],
   Sample.poll 400 [("network-5000", Sample.stats 1 5000
     [Sample.peer 7 (some 390) 0, Sample.peer 8 none 0])],
   Sample.poll 500 [("network-5000", Sample.stats 1 5000 [])]]

theorem connects_alternate_returning :
    Alternating (turns ⟨1⟩ ⟨7⟩
        (Sample.global.watchdog Sample.returning Daemon.start).log.events) ∧
      turns ⟨1⟩ ⟨7⟩ (Sample.global.watchdog Sample.returning Daemon.start).log.events =
        [true, false, true, false] :=
  ⟨connects_alternate Sample.global ⟨1⟩ ⟨7⟩ 5000 Sample.returning (by decide)
    (fun _ => Delivery.noConfusion) (fun _ => Delivery.noConfusion) (by decide +kernel),
    by decide +kernel⟩

/-- The other peer never connects, and is announced as disconnected when it leaves. -/
theorem disconnects_out_of_turn :
    (∀ poll ∈ Sample.returning, Resident ⟨1⟩ 5000 poll.visits) ∧
      ¬Alternating (turns ⟨1⟩ ⟨8⟩
        (Sample.global.watchdog Sample.returning Daemon.start).log.events) :=
  ⟨by decide, by decide +kernel⟩

end FractalGateway
