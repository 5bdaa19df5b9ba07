import FractalGateway.Websocket.Connect

/-! A session that has fallen too far behind.

    The events channel keeps `BROADCAST_QUEUE_EVENTS` values. While a request is handled or a message
    is on its way out nothing is read, so a poll that announces more peers than that in the meantime
    overruns the receiver, and the next read finds the gap and ends the session. From the moment the
    receiver is overrun the session therefore passes on no further event: not one of those that wait,
    although the channel still holds the last sixteen of them. -/

namespace FractalGateway
open Exec Broadcast

variable {w : ℕ}

/-- The events that are ahead of the receiver. -/
def Session.unread (s : Session w) : List GatewayEvent :=
  s.events_broadcast.values.drop s.events_sub.next

/-- More events wait than the channel keeps. -/
def Session.Overrun (s : Session w) : Prop :=
  s.events_sub.next + s.events_broadcast.capacity < s.events_broadcast.values.length

/-- The session listens and is overrun, or it is over; it has passed on no event but those of `told`,
    counting the one on its way out. -/
structure Session.Stuck (told : List GatewayEvent) (s : Session w) : Prop where
  alive : s.phase.over = true ∨ s.phase.hears_events = true ∧ s.Overrun
  told : (s.sent ++ s.phase.held).filterMap GatewayResponse.event? <+: told

section
variable {os : Os} {deploy : Deployment} {wire : Wire w} {told : List GatewayEvent} {s s' : Session w}

theorem Session.Stuck.passed (h : s.Stuck told) :
    s.sent.filterMap GatewayResponse.event? <+: told := by
  refine List.IsPrefix.trans ?_ h.told
  rw [List.filterMap_append]
  exact List.prefix_append _ _

theorem Session.stuck_fail (h : s.sent.filterMap GatewayResponse.event? <+: told) (message : String) :
    (s.fail message).Stuck told :=
  ⟨Or.inl rfl, by simpa [Session.fail, Phase.held] using h⟩

/-- Beginning to send what is not an event. -/
theorem Session.stuck_send (hov : s.Overrun) (h : s.sent.filterMap GatewayResponse.event? <+: told)
    {message : GatewayResponse w} (hmessage : message.event? = none) :
    (s.send wire message).Stuck told := by
  unfold Session.send
  split
  · refine ⟨Or.inr ⟨rfl, hov⟩, ?_⟩
    simpa [Phase.held, hmessage] using h
  · exact Session.stuck_fail h _

/-- A read by an overrun receiver finds the gap. -/
theorem Session.Overrun.recv (h : s.Overrun) :
    ∃ missed, s.events_broadcast.recv s.events_sub = .lagged missed :=
  ⟨_, if_pos h⟩

theorem Session.Stuck.receive (h : s.Stuck told) (hov : s.Overrun) (message : Incoming) :
    (s.receive wire message).Stuck told := by
  have hsent := h.passed
  cases message with
  | text text =>
    simp only [Session.receive]
    split
    · exact ⟨Or.inl rfl, by simpa [Phase.held] using hsent⟩
    · exact ⟨Or.inr ⟨rfl, hov⟩, by simpa [Phase.held] using hsent⟩
    · exact Session.stuck_fail hsent _
  | other => exact h
  | error e => exact Session.stuck_fail hsent e
  | closed => exact Session.stuck_fail hsent _

theorem Session.Stuck.answer (h : s.Stuck told) (hov : s.Overrun) (request : GatewayRequest) :
    (s.answer os deploy wire request).Stuck told := by
  have hsent := h.passed
  unfold Session.answer
  split
  · next world _ => exact Session.stuck_send (s := { s with world := world }) hov hsent rfl
  · next world _ => exact Session.stuck_send (s := { s with world := world }) hov hsent rfl
  · exact ⟨Or.inl rfl, by simpa [Phase.held] using hsent⟩

theorem Session.Stuck.finish (h : s.Stuck told) {message : GatewayResponse w}
    (hp : s.phase = .sending message) (hov : s.Overrun) (sending : Sending) :
    (s.finish message sending).Stuck told := by
  have hout : (s.sent ++ [message]).filterMap GatewayResponse.event? <+: told := by
    have htold := h.told
    rwa [hp] at htold
  cases sending with
  | ok => exact ⟨Or.inr ⟨rfl, hov⟩, by simpa [Session.finish, Phase.held] using hout⟩
  | failed out e =>
    cases out with
    | true => exact Session.stuck_fail (s := { s with sent := s.sent ++ [message] }) hout e
    | false => exact Session.stuck_fail h.passed e

theorem Session.Stuck.step (h : s.Stuck told) (input : Input w) :
    (s.step os deploy wire input).Stuck told := by
  rcases h.alive with hover | ⟨hears, hov⟩
  · rcases input.broadcast_or_quiet with ⟨info, rfl⟩ | ⟨event, rfl⟩ | hq
    · exact ⟨Or.inl hover, h.told⟩
    · exact ⟨Or.inl hover, h.told⟩
    · rw [Session.step_over hover hq]
      exact h
  · cases input with
    | traffic info => exact ⟨Or.inr ⟨hears, hov⟩, h.told⟩
    | event event =>
      refine ⟨Or.inr ⟨hears, ?_⟩, h.told⟩
      have hlen : (s.events_broadcast.send event).values.length =
          s.events_broadcast.values.length + 1 := List.length_append
      exact lt_of_lt_of_eq (Nat.lt_succ_of_lt hov) hlen.symm
    | connect result =>
      simp only [Session.step]
      split
      · next hp => rw [hp] at hears; cases hears
      · next hp => rw [hp] at hears; cases hears
      · exact h
    | subscribe =>
      simp only [Session.step]
      split
      · next hp => rw [hp] at hears; cases hears
      · next hp => rw [hp] at hears; cases hears
      · exact h
    | message message =>
      simp only [Session.step]
      split
      · exact h.receive hov message
      · exact h
    | recv_traffic =>
      simp only [Session.step]
      split
      · next hp =>
        cases hrecv : s.traffic_broadcast.recv s.traffic_sub with
        | pending => exact h
        | lagged missed => exact Session.stuck_fail h.passed _
        | value info sub =>
          exact Session.stuck_send (s := { s with traffic_sub := sub }) hov h.passed rfl
      · exact h
    | recv_event =>
      simp only [Session.step]
      split
      · obtain ⟨missed, hrecv⟩ := hov.recv
        rw [hrecv]
        exact Session.stuck_fail h.passed _
      · exact h
    | handled =>
      simp only [Session.step]
      split
      · next request hp => exact h.answer hov request
      · exact h
    | sent sending =>
      simp only [Session.step]
      split
      · next hp => exact h.finish hp hov sending
      · exact h

theorem Session.Stuck.run (h : s.Stuck told) (inputs : List (Input w)) :
    (s.run os deploy wire inputs).Stuck told := by
  induction inputs generalizing s with
  | nil => exact h
  | cons input inputs ih => exact ih (h.step input)

/-- The channel keeps as many events as it was made for. -/
theorem Session.run_capacity (inputs : List (Input w)) : ∀ s : Session w,
    (s.run os deploy wire inputs).events_broadcast.capacity = s.events_broadcast.capacity := by
  induction inputs with
  | nil => exact fun _ => rfl
  | cons input inputs ih =>
    intro s
    refine (ih (s.step os deploy wire input)).trans ?_
    rcases input.broadcast_or_quiet with ⟨info, rfl⟩ | ⟨event, rfl⟩ | hq
    · rfl
    · rfl
    · have hstep : FeedStep Feed.events s (s.step os deploy wire input) := Feed.events_step hq
      cases hstep with
      | kept hchannel => exact congrArg Channel.capacity hchannel
      | subscribed hchannel => exact congrArg Channel.capacity hchannel

end

/-- On every schedule: once more than `BROADCAST_QUEUE_EVENTS` events wait for a session, it passes on
    no further event, the one on its way out apart, whatever happens after that; and its next read of
    the events ends it with an error. -/
theorem overrun_session_passes_nothing_on (os : Os) (deploy : Deployment) (wire : Wire w)
    (traffic : List (TrafficInfo w)) (events : List GatewayEvent) (world : World)
    (inputs later : List (Input w))
    (hears : ((Session.start traffic events world).run os deploy wire inputs).phase.hears_events = true)
    (hunread : BROADCAST_QUEUE_EVENTS <
      ((Session.start traffic events world).run os deploy wire inputs).unread.length) :
    Feed.events.passed ((Session.start traffic events world).run os deploy wire (inputs ++ later)) <+:
        (((Session.start traffic events world).run os deploy wire inputs).sent ++
          ((Session.start traffic events world).run os deploy wire inputs).phase.held).filterMap
            GatewayResponse.event? ∧
      (((Session.start traffic events world).run os deploy wire (inputs ++ later)).phase = .selecting →
        ∃ message, (((Session.start traffic events world).run os deploy wire (inputs ++ later)).step
          os deploy wire .recv_event).phase = .ended (.error (.err [message]))) := by
  have hrun : (Session.start traffic events world).run os deploy wire (inputs ++ later) =
      ((Session.start traffic events world).run os deploy wire inputs).run os deploy wire later := by
    rw [Session.run, List.foldl_append]
    rfl
  have hcapacity : ((Session.start traffic events world).run os deploy wire
      inputs).events_broadcast.capacity = BROADCAST_QUEUE_EVENTS := Session.run_capacity inputs _
  rw [hrun]
  generalize (Session.start traffic events world).run os deploy wire inputs = s at *
  have hov : s.Overrun := by
    rw [Session.unread, List.length_drop] at hunread
    rw [Session.Overrun, hcapacity]
    omega
  have hstuck : (s.run os deploy wire later).Stuck
      ((s.sent ++ s.phase.held).filterMap GatewayResponse.event?) :=
    Session.Stuck.run ⟨Or.inr ⟨hears, hov⟩, List.prefix_refl _⟩ later
  refine ⟨hstuck.passed, fun hp => ?_⟩
  rcases hstuck.alive with hover | ⟨_, hov'⟩
  · rw [hp] at hover
    cases hover
  · obtain ⟨missed, hrecv⟩ := hov'.recv
    simp only [Session.step, hp, hrecv]
    exact ⟨_, rfl⟩

/-- Seventeen peers leave while a configuration is applied. -/
def Bench.overrun : List (Input 64) :=
  [.connect (.ok ()), .subscribe, .subscribe, .message (.text "\x7b\"Apply\":\x7b\x7d\x7d")] ++
    (List.range 17).map fun i => .event (.peerDisconnected ⟨1⟩ ⟨BitVec.ofNat 256 i⟩)

theorem overrun_session_ends :
    Feed.events.passed ((Session.start [] [] Bench.world).run Bench.os Bench.deploy Bench.wire
        (Bench.overrun ++ [.handled, .sent .ok])) <+: [] ∧
      ∃ message, (((Session.start [] [] Bench.world).run Bench.os Bench.deploy Bench.wire
        (Bench.overrun ++ [.handled, .sent .ok])).step Bench.os Bench.deploy Bench.wire
          .recv_event).phase = .ended (.error (.err [message])) := by
  have h := overrun_session_passes_nothing_on Bench.os Bench.deploy Bench.wire [] [] Bench.world
    Bench.overrun [.handled, .sent .ok] (by decide +kernel) (by decide +kernel)
  exact ⟨h.1, h.2 rfl⟩

end FractalGateway
