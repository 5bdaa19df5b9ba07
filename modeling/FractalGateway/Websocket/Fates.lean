import FractalGateway.Watchdog.Manager
import FractalGateway.Watchdog.Sends
import FractalGateway.Websocket.Connect

/-! The watchdog and the sessions together.

    The watchdog was described with a fate for each of its sends, given from outside; the sessions with
    broadcasts that come from outside. Here the two halves meet. A run of `connect` realises fates: a
    send was refused where no session held a receiver, and the sends that were passed on are those the
    sessions have sent to the manager. Every run of `connect` realises some fates, and a watchdog that
    runs under them and makes the sends of that run is the other half of it. So what was shown of the
    watchdog for arbitrary fates holds of it beside any sessions, and what the manager has received
    over all its sessions is what the watchdog's log says it has. -/

namespace FractalGateway
open Std Exec Broadcast

variable {w : ℕ}

/-- A fate for each of the sends on a channel: the refused ones are those that were not taken, and
    `passed` is what was passed on. -/
structure Fates {α : Type} (sends : List (α × Bool)) (passed : List α) (l : List (α × Delivery)) :
    Prop where
  sends : l.map (fun a => (a.1, decide (a.2 ≠ .refused))) = sends
  passed : (l.filter fun a => decide (a.2 = .delivered)).map Prod.fst = passed

theorem Fates.cons {α : Type} {sends : List (α × Bool)} {passed : List α} {l : List (α × Delivery)}
    (h : Fates sends passed l) (a : α) (fate : Delivery) :
    Fates ((a, decide (fate ≠ .refused)) :: sends)
      (if fate = .delivered then a :: passed else passed) ((a, fate) :: l) where
  sends := congrArg (List.cons _) h.sends
  passed := by cases fate <;> simp [← h.passed]

theorem Fates.fst {α : Type} {sends : List (α × Bool)} {passed : List α} {l : List (α × Delivery)}
    (h : Fates sends passed l) : sends.map Prod.fst = l.map Prod.fst := by
  rw [← h.sends, List.map_map]
  rfl

/-- There are fates wherever what was passed on was taken, in that order. -/
theorem exists_fates {α : Type} : ∀ {sends : List (α × Bool)} {passed : List α},
    passed.Sublist (taken sends) → ∃ l, Fates sends passed l
  | [], passed, h => by
      rw [List.sublist_nil.mp h]
      exact ⟨[], rfl, rfl⟩
  | (a, false) :: sends, passed, h => by
      obtain ⟨l, hl⟩ := exists_fates (show passed.Sublist (taken sends) from h)
      exact ⟨_, hl.cons a .refused⟩
  | (a, true) :: sends, passed, h => by
      have hsub : passed.Sublist (a :: taken sends) := h
      rcases List.sublist_cons_iff.mp hsub with hlost | ⟨rest, rfl, hrest⟩
      · obtain ⟨l, hl⟩ := exists_fates hlost
        exact ⟨_, hl.cons a .lost⟩
      · obtain ⟨l, hl⟩ := exists_fates hrest
        exact ⟨_, hl.cons a .delivered⟩

/-- The channels' fates are those of the sends of a run of `connect`. -/
structure Global.Realises (g : Global) (c : Connect w) : Prop where
  events : ∃ l, Fates c.events (c.sessions.flatMap Feed.events.passed) l ∧
    ∀ n a, l[n]? = some a → a.2 = g.events_broadcast n
  traffic : ∃ l, Fates c.traffic (c.sessions.flatMap Feed.traffic.passed) l ∧
    ∀ n a, l[n]? = some a → a.2 = g.traffic_broadcast n

theorem flatMap_sublist_flatten {α β : Type} {f : β → List α} : ∀ {l : List β} {windows : List (List α)},
    List.Forall₂ (fun b window => f b <+: window) l windows → (l.flatMap f).Sublist windows.flatten
  | _, _, .nil => List.Sublist.refl _
  | _, _, .cons hb h => by
      rw [List.flatMap_cons, List.flatten_cons]
      exact hb.sublist.append (flatMap_sublist_flatten h)

/-- What the sessions have passed on was taken, in that order. -/
theorem Feed.Tiled.sublist {α : Type} {f : Feed w α} {c : Connect w} {windows : List (List α)}
    (h : f.Tiled c windows) :
    (c.sessions.flatMap f.passed).Sublist (FractalGateway.taken (f.sends c)) := by
  rw [h.taken, ← h.flatten]
  exact flatMap_sublist_flatten (List.rel_append h.earlier (.cons h.session.passed .nil))

/-- The channels that give out the fates of two lists. -/
def Global.ofFates (build : Build) (events : List (GatewayEvent × Delivery))
    (traffic : List (TrafficInfo w × Delivery)) : Global where
  build := build
  events_broadcast n := (events[n]?.map Prod.snd).getD .refused
  traffic_broadcast n := (traffic[n]?.map Prod.snd).getD .refused

/-- Logs that agree on what was sent and on the fates are equal. -/
theorem log_eq_of_fates {α : Type} {fate : ℕ → Delivery} {l l' : List (α × Delivery)}
    (hfst : l.map Prod.fst = l'.map Prod.fst) (h : ∀ n a, l[n]? = some a → a.2 = fate n)
    (h' : ∀ n a, l'[n]? = some a → a.2 = fate n) : l = l' := by
  refine List.ext_getElem? fun n => ?_
  have hn : (l[n]?).map Prod.fst = (l'[n]?).map Prod.fst := by
    rw [← List.getElem?_map, ← List.getElem?_map, hfst]
  cases ha : l[n]? with
  | none =>
    rw [ha, Option.map_none] at hn
    exact (Option.map_eq_none_iff.mp hn.symm).symm
  | some a =>
    rw [ha, Option.map_some] at hn
    obtain ⟨b, hb, hab⟩ := Option.map_eq_some_iff.mp hn.symm
    rw [hb]
    exact congrArg some (Prod.ext hab.symm ((h n a ha).trans (h' n b hb).symm))

/-- Every run of `connect` realises fates. And a watchdog under such fates whose sends are those of the
    run has had exactly the sends refused that no session was there to take; over all their sessions
    the manager's map and the reports it has received are those of the watchdog's log. -/
theorem sessions_realise_fates (os : Os) (deploy : Deployment) (wire : Wire w) (world : World)
    (turns : List (Turn w)) (build : Build) :
    (∃ g : Global, g.build = build ∧ g.Realises ((Connect.start world).run os deploy wire turns)) ∧
      ∀ (g : Global) (polls : List (Poll w)),
        g.Realises ((Connect.start world).run os deploy wire turns) →
        (g.watchdog polls Daemon.start).log.events.map Prod.fst =
          ((Connect.start world).run os deploy wire turns).events.map Prod.fst →
        (g.watchdog polls Daemon.start).log.traffic.map Prod.fst =
          ((Connect.start world).run os deploy wire turns).traffic.map Prod.fst →
        Fates ((Connect.start world).run os deploy wire turns).events
            (((Connect.start world).run os deploy wire turns).sessions.flatMap Feed.events.passed)
            (g.watchdog polls Daemon.start).log.events ∧
          Fates ((Connect.start world).run os deploy wire turns).traffic
            (((Connect.start world).run os deploy wire turns).sessions.flatMap Feed.traffic.passed)
            (g.watchdog polls Daemon.start).log.traffic ∧
          manager (g.watchdog polls Daemon.start) = replay PeerMap.empty
            (((Connect.start world).run os deploy wire turns).sessions.flatMap
              Feed.events.passed) := by
  obtain ⟨⟨_, htraffic⟩, ⟨_, hevents⟩⟩ := Connect.tiled os deploy wire world turns
  generalize (Connect.start world).run os deploy wire turns = c at *
  refine ⟨?_, fun g polls hg hsync hsync' => ?_⟩
  · obtain ⟨events, he⟩ := exists_fates hevents.sublist
    obtain ⟨traffic, ht⟩ := exists_fates htraffic.sublist
    refine ⟨Global.ofFates build events traffic, rfl, ⟨events, he, fun n a ha => ?_⟩,
      ⟨traffic, ht, fun n a ha => ?_⟩⟩
    · simp [Global.ofFates, ha]
    · simp [Global.ofFates, ha]
  · obtain ⟨events, he, hefate⟩ := hg.events
    obtain ⟨traffic, ht, htfate⟩ := hg.traffic
    have hfated := g.watchdog_fated polls
    have hevents := log_eq_of_fates (hsync.trans he.fst) hfated.events hefate
    have htraffic := log_eq_of_fates (hsync'.trans ht.fst) hfated.traffic htfate
    refine ⟨hevents ▸ he, htraffic ▸ ht, ?_⟩
    rw [manager, hevents, he.passed]

/-- A session passes an event on and is closed with a report still unread; then nobody is there. -/
def Bench.passing : List (Turn 64) :=
  [.input (.connect (.ok ())), .input .subscribe, .input .subscribe, .input (.event Bench.up),
    .input (.traffic (TrafficInfo.new 0)), .input .recv_event, .input (.sent .ok),
    .input (.message .closed), .retry, .input (.traffic (TrafficInfo.new 0))]

/-- The first event is passed on, the first report is lost, and the second one finds nobody. -/
def Sample.passing : Global :=
  ⟨.release, fun n => if n = 0 then .delivered else .refused,
    fun n => if n = 0 then .lost else .refused⟩

/-- Two polls of one peer that is connected. -/
def Sample.pair : List (Poll 64) :=
  [Sample.poll 100 [("network-5000", Sample.stats 1 5000 [Sample.peer 7 (some 50) 0])],
    Sample.poll 160 [("network-5000", Sample.stats 1 5000 [Sample.peer 7 (some 110) 0])]]
theorem sessions_realise_fates_of_one_session :
    manager (Sample.passing.watchdog Sample.pair Daemon.start) ⟨1⟩ ⟨7⟩ =
      some (.v4 (Ipv4Addr.new 192 0 2 1) 51820) := by
  have hevents : ∀ n a, [(Bench.up, Delivery.delivered)][n]? = some a →
      a.2 = Sample.passing.events_broadcast n := by
    rintro (_ | n) a ha
    · cases ha
      rfl
    · simp at ha
  have htraffic : ∀ n a, [(TrafficInfo.new (0 : BitVec 64), Delivery.lost),
      (TrafficInfo.new 0, .refused)][n]? = some a → a.2 = Sample.passing.traffic_broadcast n := by
    rintro (_ | _ | n) a ha
    · cases ha
      rfl
    · cases ha
      rfl
    · simp at ha
  have hrealises : Sample.passing.Realises ((Connect.start Bench.world).run Bench.os Bench.deploy
      Bench.wire Bench.passing) :=
    ⟨⟨_, ⟨rfl, rfl⟩, hevents⟩, ⟨_, ⟨rfl, rfl⟩, htraffic⟩⟩
  have h := ((sessions_realise_fates Bench.os Bench.deploy Bench.wire Bench.world Bench.passing
    .release).2 Sample.passing Sample.pair hrealises rfl rfl).2.2
  rw [h]
  rfl

end FractalGateway
