import FractalGateway.Watchdog.Poll

/-! What every send keeps, a run keeps.

    The log of a run grows by one entry at a time: an event with the fate of its channel, or a report
    with the fate of its. A property of logs that both kinds of growth keep holds at the end of every
    run, however its polls end; the rest of the program does not touch the log. -/

namespace FractalGateway
open Std Exec

variable {w : ℕ}

/-- The log after one more send of an event. -/
def Log.event (log : Log w) (e : GatewayEvent) (fate : Delivery) : Log w :=
  { log with events := log.events ++ [(e, fate)] }

/-- The log after one more report. -/
def Log.report (log : Log w) (info : TrafficInfo w) (fate : Delivery) : Log w :=
  { log with traffic := log.traffic ++ [(info, fate)] }

/-- Every send keeps `P`. -/
structure Global.Keeps (g : Global) (P : Log w → Prop) : Prop where
  event : ∀ log e, P log → P (log.event e (g.events_broadcast log.events.length))
  report : ∀ log info, P log → P (log.report info (g.traffic_broadcast log.traffic.length))

/-- `P` held before, so it holds after. -/
def LogKept {κ : Type} (P : Log w → Prop) (s s' : Watch w κ) : Prop := P s.log → P s'.log

instance {κ : Type} (P : Log w → Prop) : Std.Refl (@LogKept w κ P) := ⟨fun _ h => h⟩

instance {κ : Type} (P : Log w → Prop) : IsTrans (Watch w κ) (LogKept P) :=
  ⟨fun _ _ _ h h' hs => h' (h hs)⟩

section
variable {g : Global} {P : Log w → Prop} (h : g.Keeps P)
include h

theorem Global.Keeps.send {κ : Type} (e : GatewayEvent) :
    Always (LogKept P) (g.event e : EStateM Fail (Watch w κ) Unit) := by
  intro s
  simp only [Global.event, EStateM.run]
  split
  · exact h.event s.log e
  · exact h.event s.log e

/-- Sends in a row. -/
theorem Global.Keeps.attempts : ∀ (events : List GatewayEvent) (log : Log w), P log →
    P { log with events := log.events ++ g.attempts log.events.length events }
  | [], log, hP => by simpa [Global.attempts] using hP
  | e :: events, log, hP => by
      have hnext := h.event log e hP
      rw [Global.attempts]
      split
      · exact hnext
      · have hrest := Global.Keeps.attempts events _ hnext
        simpa [Log.event] using hrest

theorem Global.Keeps.peer (stats : NetworkStats w) (clock : Clock) (peer : PeerStats w) :
    Always (LogKept P) (watchdog_peer g stats clock peer) := by
  intro s
  have hstep := watchdog_peer_step g stats clock peer s
  have hlog : ((s.reported stats clock peer).sent (g.peerAttempts stats clock peer s)).log =
      { s.log with events := s.log.events ++ g.peerAttempts stats clock peer s } := by
    rw [Watch.sent, Watch.reported, Watch.billed_log]
  have hsent : LogKept P s
      ((s.reported stats clock peer).sent (g.peerAttempts stats clock peer s)) := by
    intro hP
    rw [hlog]
    exact h.attempts _ _ hP
  generalize (watchdog_peer g stats clock peer).run s = r at hstep
  cases hstep with
  | clock chain hp ht => exact id
  | overflow reason hp ho => exact id
  | refused chain ha => exact hsent
  | unwrap reason ha hu => exact hsent
  | done ha hu ht => exact hsent

theorem Global.Keeps.visit (clock : Pubkey → Pubkey → Clock) (stats : NetworkStats w) :
    Always (LogKept P) (visit g clock stats) := by
  have hsweep : ∀ dead, Always (LogKept P) (watchdog_sweep g stats dead) := fun dead =>
    Always.forM fun x _ => Always.bind (fun _ => id) fun _ =>
      h.send (.peerDisconnected stats.public_key x)
  have hpeers : Always (LogKept P) (watchdog_peers g stats (clock stats.public_key) stats.peers) :=
    Always.forM fun p _ => (h.peer stats _ p).logged
  have hentry : Always (LogKept P) (watchdog_entry g stats (clock stats.public_key)) :=
    hpeers.bind fun _ => Always.bind (fun _ => id) fun _ => hsweep _
  have hport : Always (LogKept P)
      (atPort stats.listen_port (watchdog_entry g stats (clock stats.public_key))) :=
    Always.zoom (fun _ _ hs => hs) hentry
  exact hport.logged

/-- However a poll ends. -/
theorem Global.Keeps.poll (poll : Poll w) {d : Daemon w} (hd : P d.log) :
    P (final ((watchdog_run g poll).run d)).log := by
  have hvisits : Always (LogKept P) (forM poll.visits (FractalGateway.visit g poll.clock)) :=
    Always.forM fun stats _ => h.visit poll.clock stats
  have hsent : ∀ {s}, Visited g poll d s → P (s.broadcast (g.reportFate d)).log := by
    intro s hv
    have hfate : g.reportFate d = g.traffic_broadcast s.log.traffic.length := by
      rw [Global.reportFate, hv.only.reports]
      rfl
    rw [hfate]
    exact h.report s.log s.traffic (hvisits.of_ok hv.run hd)
  have hstep := watchdog_run_step g poll d
  generalize (watchdog_run g poll).run d = r at hstep
  cases hstep with
  | unlisted chain hl => exact hd
  | panic reason hr hrun => exact hvisits.of_error hrun hd
  | refused chain hv hf => exact hsent hv
  | sent hv hf => exact hsent hv

/-- However the polls end, restarts and all. -/
theorem Global.Keeps.run : ∀ (polls : List (Poll w)) {d : Daemon w}, P d.log →
    P (g.watchdog polls d).log
  | [], _, hd => hd
  | poll :: polls, d, hd => by
      have hpoll := h.poll poll hd
      rw [Global.watchdog]
      cases hrun : (watchdog_run g poll).run d with
      | ok a d' =>
        rw [hrun] at hpoll
        exact Global.Keeps.run polls hpoll
      | error e d' =>
        rw [hrun] at hpoll
        cases e with
        | err chain => exact Global.Keeps.run polls (d := { d' with cache := ∅ }) hpoll
        | panic reason => exact hpoll

end

/-- The fates in a log are those of the channels, one after the other. -/
structure Log.Fated (g : Global) (log : Log w) : Prop where
  events : ∀ n a, log.events[n]? = some a → a.2 = g.events_broadcast n
  traffic : ∀ n a, log.traffic[n]? = some a → a.2 = g.traffic_broadcast n

theorem fated_concat {α : Type} {fate : ℕ → Delivery} {l : List (α × Delivery)} (a : α)
    (h : ∀ n b, l[n]? = some b → b.2 = fate n) (n : ℕ) (b : α × Delivery)
    (hb : (l ++ [(a, fate l.length)])[n]? = some b) : b.2 = fate n := by
  rcases Nat.lt_trichotomy n l.length with hlt | rfl | hgt
  · rw [List.getElem?_append_left hlt] at hb
    exact h n b hb
  · rw [List.getElem?_concat_length] at hb
    cases hb
    rfl
  · rw [List.getElem?_eq_none (by rw [List.length_append]; exact hgt)] at hb
    cases hb

theorem Global.keeps_fated (g : Global) : g.Keeps (Log.Fated (w := w) g) where
  event _ e h := ⟨fated_concat e h.events, h.traffic⟩
  report _ info h := ⟨h.events, fated_concat info h.traffic⟩

theorem Global.watchdog_fated (g : Global) (polls : List (Poll w)) :
    (g.watchdog polls Daemon.start).log.Fated g :=
  g.keeps_fated.run polls ⟨nofun, nofun⟩

end FractalGateway
