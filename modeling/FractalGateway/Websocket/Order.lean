import FractalGateway.Websocket.Session

/-! Nothing is dropped, doubled, reordered or mismatched on a session.

    The messages sent fall into three kinds. The invariant says what each kind is, counting the
    message that is just being sent (`held`) as sent: the traffic and the events are those given by
    the channels, and the answers are the outcomes of the requests whose handlers have returned. A
    phase holds back one message or one request at most, and only an error can make that final. -/

namespace FractalGateway
open Exec Broadcast

variable {w : ℕ}

/-! ### The three kinds of messages -/

def GatewayResponse.traffic? : GatewayResponse w → Option (TrafficInfo w)
  | .traffic info => some info
  | _ => none

def GatewayResponse.event? : GatewayResponse w → Option GatewayEvent
  | .event e => some e
  | _ => none

def GatewayResponse.outcome? : GatewayResponse w → Option (Except String Unit)
  | .apply result => some result
  | _ => none

/-! ### What requests are answered -/

/-- The answer to a request by how it went: a panic has none. -/
def outcome : EStateM.Result Fail World Unit → Option (Except String Unit)
  | .ok _ _ => some (.ok ())
  | .error (.err chain) _ => some (.error (chain.headD ""))
  | .error (.panic _) _ => none

section
variable (os : Os) (deploy : Deployment)

/-- The world after requests, one after the other. -/
def worldAfter : List GatewayRequest → World → World
  | [], world => world
  | request :: requests, world =>
    worldAfter requests (final ((respond os deploy request).run world))

/-- The answers to requests, one after the other. -/
def outcomes : List GatewayRequest → World → List (Option (Except String Unit))
  | [], _ => []
  | request :: requests, world => outcome ((respond os deploy request).run world) ::
    outcomes requests (final ((respond os deploy request).run world))

theorem outcomes_append (more : List GatewayRequest) :
    ∀ (requests : List GatewayRequest) (world : World),
      outcomes os deploy (requests ++ more) world =
        outcomes os deploy requests world ++
          outcomes os deploy more (worldAfter os deploy requests world)
  | [], _ => rfl
  | request :: requests, world => by
      rw [List.cons_append, outcomes, outcomes, worldAfter, outcomes_append more requests,
        List.cons_append]

theorem worldAfter_append (more : List GatewayRequest) :
    ∀ (requests : List GatewayRequest) (world : World),
      worldAfter os deploy (requests ++ more) world =
        worldAfter os deploy more (worldAfter os deploy requests world)
  | [], _ => rfl
  | request :: requests, world => by
      rw [List.cons_append, worldAfter, worldAfter, worldAfter_append more requests]

theorem outcomes_length :
    ∀ (requests : List GatewayRequest) (world : World),
      (outcomes os deploy requests world).length = requests.length
  | [], _ => rfl
  | request :: requests, world => by
      rw [outcomes, List.length_cons, List.length_cons, outcomes_length requests]

end

/-! ### The invariant -/

/-- What a phase holds back: a message on its way out, a request in its handler. An error leaves at
    most one of the two behind. -/
def Phase.Holds : Phase w → List (GatewayResponse w) → List GatewayRequest → Prop
  | .handling request, held, unanswered => held = [] ∧ unanswered = [request]
  | .sending message, held, unanswered => held = [message] ∧ unanswered = []
  | .ended (.error _), held, unanswered => held.length + unanswered.length ≤ 1
  | _, held, unanswered => held = [] ∧ unanswered = []

/-- The session has not come to its loop yet. -/
def Phase.Early : Phase w → Prop
  | .connecting | .connected | .subscribed => True
  | _ => False

section
variable (os : Os) (deploy : Deployment) (world : World)

/-- The messages `out`, sent or on their way, are those of the channels and the answers to the
    requests `done`. -/
structure Told (s : Session w) (out : List (GatewayResponse w)) (done : List GatewayRequest) :
    Prop where
  traffic : Given s.traffic_broadcast s.traffic_sub (out.filterMap GatewayResponse.traffic?)
  events : Given s.events_broadcast s.events_sub (out.filterMap GatewayResponse.event?)
  answers : (out.filterMap GatewayResponse.outcome?).map some = outcomes os deploy done world
  world : (∀ result, s.phase ≠ .ended result) → s.world = worldAfter os deploy done world

/-- A session in order. -/
structure Session.Sound (s : Session w) : Prop where
  told : ∃ held unanswered done, s.phase.Holds held unanswered ∧ s.requests = done ++ unanswered ∧
    Told os deploy world s (s.sent ++ held) done
  early : s.phase.Early → s.sent = []
  shutdown : s.shutdown = true ↔ s.phase = .ended (.ok ())

end

/-! ### Steps -/

section
variable {os : Os} {deploy : Deployment} {world : World} {wire : Wire w} {s : Session w}

/-- A phase that holds nothing back. -/
def Phase.Idle (phase : Phase w) : Prop :=
  ∀ held unanswered, phase.Holds held unanswered → held = [] ∧ unanswered = []

theorem Session.Sound.idle (h : s.Sound os deploy world) (hidle : s.phase.Idle) :
    Told os deploy world s s.sent s.requests := by
  obtain ⟨held, unanswered, done, hholds, hreq, htold⟩ := h.told
  obtain ⟨rfl, rfl⟩ := hidle _ _ hholds
  rw [List.append_nil] at htold hreq
  rw [hreq]
  exact htold

theorem Session.Sound.running (h : s.Sound os deploy world) (hp : s.phase ≠ .ended (.ok ())) :
    s.shutdown = false := by
  rw [← Bool.not_eq_true, h.shutdown]
  exact hp

/-- An error keeps what has been sent, and loses at most the message on its way. -/
theorem Told.fail {held : List (GatewayResponse w)}
    (h : Told os deploy world s (s.sent ++ held) s.requests) (hheld : held.length ≤ 1)
    (hs : s.shutdown = false) (message : String) : (s.fail message).Sound os deploy world := by
  refine ⟨⟨held, [], s.requests, hheld, (List.append_nil _).symm,
    h.traffic, h.events, h.answers, fun hrun => absurd rfl (hrun _)⟩, fun he => he.elim, ?_⟩
  simp [Session.fail, hs]

/-- Beginning to send a message that is owed. -/
theorem Told.send {message : GatewayResponse w}
    (h : Told os deploy world s (s.sent ++ [message]) s.requests) (hs : s.shutdown = false)
    (hw : s.world = worldAfter os deploy s.requests world) :
    (s.send wire message).Sound os deploy world := by
  unfold Session.send
  split
  · refine ⟨⟨[message], [], s.requests, ⟨rfl, rfl⟩, (List.append_nil _).symm,
      h.traffic, h.events, h.answers, fun _ => hw⟩, fun he => he.elim, ?_⟩
    simp [hs]
  · exact h.fail (Nat.le_refl _) hs _

section Selecting
variable (h : s.Sound os deploy world) (hp : s.phase = .selecting)
include h hp

theorem Session.Sound.selecting :
    Told os deploy world s s.sent s.requests ∧ s.shutdown = false ∧
      s.world = worldAfter os deploy s.requests world := by
  have htold := h.idle (hp ▸ fun _ _ hholds => hholds)
  exact ⟨htold, h.running (by rw [hp]; nofun), htold.world (by rw [hp]; nofun)⟩

theorem Session.Sound.selecting_fail (message : String) :
    (s.fail message).Sound os deploy world := by
  obtain ⟨htold, hs, _⟩ := h.selecting hp
  rw [← List.append_nil s.sent] at htold
  exact htold.fail (Nat.zero_le _) hs message

/-- A message from the manager comes in. -/
theorem Session.Sound.receive (message : Incoming) :
    (s.receive wire message).Sound os deploy world := by
  obtain ⟨htold, hs, hw⟩ := h.selecting hp
  rw [← List.append_nil s.sent] at htold
  cases message with
  | text text =>
    simp only [Session.receive]
    split
    · exact ⟨⟨[], [], s.requests, ⟨rfl, rfl⟩, (List.append_nil _).symm,
        htold.traffic, htold.events, htold.answers, fun _ => hw⟩, fun he => he.elim, by simp⟩
    · next request _ _ =>
      refine ⟨⟨[], [request], s.requests, ⟨rfl, rfl⟩, rfl,
        htold.traffic, htold.events, htold.answers, fun _ => hw⟩, fun he => he.elim, ?_⟩
      simp [hs]
    · exact h.selecting_fail hp _
  | other => exact h
  | error e => exact h.selecting_fail hp e
  | closed => exact h.selecting_fail hp _

/-- A traffic report is taken from its channel. -/
theorem Session.Sound.forward_traffic :
    (s.forward wire (fun sub => { s with traffic_sub := sub }) .traffic
      (s.traffic_broadcast.recv s.traffic_sub)).Sound os deploy world := by
  obtain ⟨htold, hs, hw⟩ := h.selecting hp
  unfold Session.forward
  split
  · exact h
  · exact h.selecting_fail hp _
  · next info sub hrecv =>
    refine Told.send ⟨?_, ?_, ?_, fun _ => hw⟩ hs hw
    · simpa [GatewayResponse.traffic?, List.filterMap_cons] using htold.traffic.recv hrecv
    · simpa [GatewayResponse.event?, List.filterMap_cons] using htold.events
    · simpa [GatewayResponse.outcome?, List.filterMap_cons] using htold.answers

/-- An event is taken from its channel. -/
theorem Session.Sound.forward_event :
    (s.forward wire (fun sub => { s with events_sub := sub }) .event
      (s.events_broadcast.recv s.events_sub)).Sound os deploy world := by
  obtain ⟨htold, hs, hw⟩ := h.selecting hp
  unfold Session.forward
  split
  · exact h
  · exact h.selecting_fail hp _
  · next event sub hrecv =>
    refine Told.send ⟨?_, ?_, ?_, fun _ => hw⟩ hs hw
    · simpa [GatewayResponse.traffic?, List.filterMap_cons] using htold.traffic
    · simpa [GatewayResponse.event?, List.filterMap_cons] using htold.events.recv hrecv
    · simpa [GatewayResponse.outcome?, List.filterMap_cons] using htold.answers

end Selecting

/-- The handler of a request returns. -/
theorem Session.Sound.answer (h : s.Sound os deploy world) {request : GatewayRequest}
    (hp : s.phase = .handling request) : (s.answer os deploy wire request).Sound os deploy world := by
  obtain ⟨held, unanswered, done, hholds, hreq, htold⟩ := h.told
  rw [hp] at hholds
  obtain ⟨rfl, rfl⟩ := hholds
  have hs := h.running (by rw [hp]; nofun)
  have hbefore := htold.world (by rw [hp]; nofun)
  obtain ⟨htraffic, hevents, hprev, _⟩ := htold
  rw [List.append_nil] at htraffic hevents hprev
  -- an answer is owed for the request, and the handler's world is the world after it
  have howed : ∀ answer world', outcome ((respond os deploy request).run s.world) = some answer →
      final ((respond os deploy request).run s.world) = world' →
      (Session.send wire { s with world := world' } (.apply answer)).Sound os deploy world := by
    rintro answer _ hout rfl
    have hw : final ((respond os deploy request).run s.world) =
        worldAfter os deploy s.requests world := by
      rw [hreq, worldAfter_append, ← hbefore]
      rfl
    refine Told.send ⟨?_, ?_, ?_, fun _ => hw⟩ hs hw
    · simpa [GatewayResponse.traffic?, List.filterMap_cons] using htraffic
    · simpa [GatewayResponse.event?, List.filterMap_cons] using hevents
    · show ((s.sent ++ [GatewayResponse.apply answer]).filterMap GatewayResponse.outcome?).map some =
        outcomes os deploy s.requests world
      rw [hreq, outcomes_append, ← hbefore, outcomes, outcomes, hout, ← hprev]
      simp [GatewayResponse.outcome?]
  unfold Session.answer
  split
  · next _ world' hrun => exact howed _ world' (by rw [hrun]; rfl) (by rw [hrun]; rfl)
  · next chain world' hrun => exact howed _ world' (by rw [hrun]; rfl) (by rw [hrun]; rfl)
  · refine ⟨⟨[], [request], done, Nat.le_refl _, hreq, ?_, ?_, ?_, fun hrun => absurd rfl (hrun _)⟩,
      fun he => he.elim, by simp [hs]⟩
    · rwa [List.append_nil]
    · rwa [List.append_nil]
    · rwa [List.append_nil]

/-- A send returns. -/
theorem Session.Sound.finish (h : s.Sound os deploy world) {message : GatewayResponse w}
    (hp : s.phase = .sending message) (sending : Sending) :
    (s.finish message sending).Sound os deploy world := by
  obtain ⟨held, unanswered, done, hholds, hreq, htold⟩ := h.told
  rw [hp] at hholds
  obtain ⟨rfl, rfl⟩ := hholds
  rw [List.append_nil] at hreq
  subst hreq
  have hs := h.running (by rw [hp]; nofun)
  have hw := htold.world (by rw [hp]; nofun)
  have hout : Told os deploy world { s with sent := s.sent ++ [message] }
      (s.sent ++ [message] ++ []) s.requests := by
    rw [List.append_nil]
    exact ⟨htold.traffic, htold.events, htold.answers, htold.world⟩
  cases sending with
  | ok =>
    refine ⟨⟨[], [], s.requests, ⟨rfl, rfl⟩, (List.append_nil _).symm,
      hout.traffic, hout.events, hout.answers, fun _ => hw⟩, fun he => he.elim, ?_⟩
    simp [Session.finish, hs]
  | failed out e =>
    cases out with
    | true => exact Told.fail hout (Nat.zero_le _) hs e
    | false => exact htold.fail (Nat.le_refl _) hs e

/-- Before the loop nothing has been sent, and a subscription starts with nothing. -/
theorem Session.Sound.early_told (h : s.Sound os deploy world) (he : s.phase.Early) :
    Told os deploy world s s.sent s.requests ∧ s.sent = [] ∧ s.shutdown = false := by
  refine ⟨h.idle ?_, h.early he, h.running ?_⟩
  · cases hp : s.phase <;> rw [hp] at he <;> first | exact fun _ _ hholds => hholds | exact he.elim
  · rintro hp
    rw [hp] at he
    exact he

/-- The steps up to the loop. -/
theorem Session.Sound.connect (h : s.Sound os deploy world) (result : Except String Unit) :
    (s.step os deploy wire (.connect result)).Sound os deploy world := by
  simp only [Session.step]
  split
  · next _ hp =>
    obtain ⟨htold, hsent, hs⟩ := h.early_told (hp ▸ trivial)
    have hw := htold.world (by rw [hp]; nofun)
    rw [← List.append_nil s.sent] at htold
    exact ⟨⟨[], [], s.requests, ⟨rfl, rfl⟩, (List.append_nil _).symm,
      htold.traffic, htold.events, htold.answers, fun _ => hw⟩, fun _ => hsent, by simp [hs]⟩
  · next e hp =>
    obtain ⟨htold, _, hs⟩ := h.early_told (hp ▸ trivial)
    rw [← List.append_nil s.sent] at htold
    exact htold.fail (Nat.zero_le _) hs e
  · exact h

theorem Session.Sound.subscribe (h : s.Sound os deploy world) :
    (s.step os deploy wire .subscribe).Sound os deploy world := by
  simp only [Session.step]
  split
  · next hp =>
    obtain ⟨htold, hsent, hs⟩ := h.early_told (hp ▸ trivial)
    have hw := htold.world (by rw [hp]; nofun)
    rw [← List.append_nil s.sent] at htold
    refine ⟨⟨[], [], s.requests, ⟨rfl, rfl⟩, (List.append_nil _).symm, ?_, htold.events,
      htold.answers, fun _ => hw⟩, fun _ => hsent, by simp [hs]⟩
    rw [hsent]
    exact Given.subscribe s.traffic_broadcast
  · next hp =>
    obtain ⟨htold, hsent, hs⟩ := h.early_told (hp ▸ trivial)
    have hw := htold.world (by rw [hp]; nofun)
    rw [← List.append_nil s.sent] at htold
    refine ⟨⟨[], [], s.requests, ⟨rfl, rfl⟩, (List.append_nil _).symm, htold.traffic, ?_,
      htold.answers, fun _ => hw⟩, fun _ => hsent, by simp [hs]⟩
    rw [hsent]
    exact Given.subscribe s.events_broadcast
  · exact h

theorem Session.Sound.step (h : s.Sound os deploy world) (input : Input w) :
    (s.step os deploy wire input).Sound os deploy world := by
  cases input with
  | traffic info =>
    obtain ⟨held, unanswered, done, hholds, hreq, htold⟩ := h.told
    exact ⟨⟨held, unanswered, done, hholds, hreq, htold.traffic.send info, htold.events,
      htold.answers, htold.world⟩, h.early, h.shutdown⟩
  | event event =>
    obtain ⟨held, unanswered, done, hholds, hreq, htold⟩ := h.told
    exact ⟨⟨held, unanswered, done, hholds, hreq, htold.traffic, htold.events.send event,
      htold.answers, htold.world⟩, h.early, h.shutdown⟩
  | connect result => exact h.connect result
  | subscribe => exact h.subscribe
  | message message =>
    simp only [Session.step]
    split
    · next hp => exact h.receive hp message
    · exact h
  | recv_traffic =>
    simp only [Session.step]
    split
    · next hp => exact h.forward_traffic hp
    · exact h
  | recv_event =>
    simp only [Session.step]
    split
    · next hp => exact h.forward_event hp
    · exact h
  | handled =>
    simp only [Session.step]
    split
    · next hp => exact h.answer hp
    · exact h
  | sent sending =>
    simp only [Session.step]
    split
    · next hp => exact h.finish hp sending
    · exact h

theorem Session.Sound.run (h : s.Sound os deploy world) (inputs : List (Input w)) :
    (s.run os deploy wire inputs).Sound os deploy world := by
  induction inputs generalizing s with
  | nil => exact h
  | cons input inputs ih => exact ih (h.step input)

theorem Session.start_sound (traffic : List (TrafficInfo w)) (events : List GatewayEvent) :
    (Session.start traffic events world).Sound os deploy world where
  told := ⟨[], [], [], ⟨rfl, rfl⟩, rfl, ⟨[], traffic, rfl, rfl, rfl⟩, ⟨[], events, rfl, rfl, rfl⟩,
    rfl, fun _ => rfl⟩
  early _ := rfl
  shutdown := by simp [Session.start]

/-- Nothing happens on a session that has ended. -/
theorem Session.ended_sent {result : Except Fail Unit} (hp : s.phase = .ended result)
    (inputs : List (Input w)) :
    (s.run os deploy wire inputs).sent = s.sent ∧
      (s.run os deploy wire inputs).phase = .ended result := by
  induction inputs generalizing s with
  | nil => exact ⟨rfl, hp⟩
  | cons input inputs ih =>
    have hstep : (s.step os deploy wire input).sent = s.sent ∧
        (s.step os deploy wire input).phase = .ended result := by
      cases input <;> simp [Session.step, hp]
    obtain ⟨hsent, hended⟩ := ih hstep.2
    exact ⟨hsent.trans hstep.1, hended⟩

end

/-! ### Schedules -/

/-- A request is being handled or its answer sent, or the session has ended with an error. -/
def Phase.Answering : Phase w → Prop
  | .handling _ => True
  | .sending (.apply _) => True
  | .ended (.error _) => True
  | _ => False

/-- The messages sent are, kind by kind, what there was to send. -/
structure InOrder (os : Os) (deploy : Deployment) (world : World) (s : Session w) : Prop where
  answers : (s.sent.filterMap GatewayResponse.outcome?).map some <+:
    outcomes os deploy s.requests world
  answered : s.requests.length = (s.sent.filterMap GatewayResponse.outcome?).length ∨
    s.requests.length = (s.sent.filterMap GatewayResponse.outcome?).length + 1 ∧ s.phase.Answering
  traffic : s.sent.filterMap GatewayResponse.traffic? <+:
    s.traffic_broadcast.values.drop s.traffic_sub.since
  events : s.sent.filterMap GatewayResponse.event? <+:
    s.events_broadcast.values.drop s.events_sub.since
  shutdown : s.phase = .ended (.ok ()) ↔ s.shutdown = true

/-- A phase holds back one answer at most, and none unless it is answering. -/
theorem Phase.Holds.unanswered_le {phase : Phase w} {held : List (GatewayResponse w)}
    {unanswered : List GatewayRequest} (h : phase.Holds held unanswered) :
    (held.filterMap GatewayResponse.outcome?).length + unanswered.length = 0 ∨
      (held.filterMap GatewayResponse.outcome?).length + unanswered.length = 1 ∧
        phase.Answering := by
  cases phase with
  | connecting | connected | subscribed | selecting =>
    obtain ⟨rfl, rfl⟩ := h
    exact Or.inl rfl
  | handling request =>
    obtain ⟨rfl, rfl⟩ := h
    exact Or.inr ⟨rfl, trivial⟩
  | sending message =>
    obtain ⟨rfl, rfl⟩ := h
    cases message with
    | traffic info => exact Or.inl rfl
    | event e => exact Or.inl rfl
    | apply result => exact Or.inr ⟨rfl, trivial⟩
  | ended result =>
    cases result with
    | ok u =>
      obtain ⟨rfl, rfl⟩ := h
      exact Or.inl rfl
    | error e =>
      have hone : held.length + unanswered.length ≤ 1 := h
      have := List.length_filterMap_le GatewayResponse.outcome? held
      rcases Nat.eq_zero_or_pos
        ((held.filterMap GatewayResponse.outcome?).length + unanswered.length) with hzero | hpos
      · exact Or.inl hzero
      · exact Or.inr ⟨by omega, trivial⟩

theorem Session.Sound.inOrder {os : Os} {deploy : Deployment} {world : World} {s : Session w}
    (h : s.Sound os deploy world) : InOrder os deploy world s := by
  obtain ⟨held, unanswered, done, hholds, hreq, htraffic, hevents, hanswers, _⟩ := h.told
  rw [List.filterMap_append] at htraffic hevents hanswers
  rw [List.map_append] at hanswers
  refine ⟨?_, ?_, (List.prefix_append _ _).trans htraffic.isPrefix,
    (List.prefix_append _ _).trans hevents.isPrefix, h.shutdown.symm⟩
  · rw [hreq, outcomes_append, ← hanswers, List.append_assoc]
    exact List.prefix_append _ _
  · have hlen := congrArg List.length hanswers
    rw [outcomes_length] at hlen
    simp only [List.length_append, List.length_map] at hlen
    rw [hreq, List.length_append]
    rcases hholds.unanswered_le with hzero | ⟨hone, hphase⟩
    · exact Or.inl (by omega)
    · exact Or.inr ⟨by omega, hphase⟩

/-- A peer has connected. -/
def Bench.up : GatewayEvent := .peerConnected ⟨1⟩ ⟨7⟩ (.v4 (Ipv4Addr.new 192 0 2 1) 51820)

def Bench.upText : String :=
  "\x7b\"Event\":\x7b\"PeerConnected\":\x7b\"network\":\"AAAAAAAAAAAAAAAAAAAAAAAAAAAAAAAAAAAAAAAAAAE=\"," ++
    "\"peer\":\"AAAAAAAAAAAAAAAAAAAAAAAAAAAAAAAAAAAAAAAAAAc=\",\"endpoint\":\"192.0.2.1:51820\"\x7d\x7d\x7d"

def Bench.configText : String :=
  "\x7b\"Apply\":\x7b\"5000\":\x7b\"private_key\":\"AAAAAAAAAAAAAAAAAAAAAAAAAAAAAAAAAAAAAAAAAAA=\"," ++
    "\"listen_port\":5000,\"mtu\":1400,\"address\":[\"10.0.0.1/24\"],\"peers\":\x7b\x7d,\"proxy\":\x7b\x7d\x7d\x7d\x7d"

def Bench.removalText : String := "\x7b\"ApplyPartial\":\x7b\"5000\":null\x7d\x7d"

def Bench.okText : String := "\x7b\"Apply\":\x7b\"Ok\":null\x7d\x7d"

/-- The texts of a few requests, of the answer `Ok` and of one event. -/
def Bench.wire : Wire 64 where
  from_str text :=
    if text = "\x7b\"Apply\":\x7b\x7d\x7d" then .ok (.apply ∅)
    else if text = configText then .ok (.apply (config 5000 (bare 5000)))
    else if text = removalText then .ok (.applyPartial (removal 5000))
    else if text = "\"Shutdown\"" then .ok .shutdown
    else .error "expected value"
  to_string
    | .apply (.ok _) => .ok okText
    | .event event => if event = up then .ok upText else .error ""
    | _ => .error ""

/-- A configuration is applied while an event is broadcast, and the gateway shut down. -/
def Bench.schedule : List (Input 64) :=
  [.connect (.ok ()), .subscribe, .subscribe, .message (.text "\x7b\"Apply\":\x7b\x7d\x7d"),
    .event (.peerDisconnected ⟨1⟩ ⟨7⟩), .handled, .sent .ok, .message (.text "\"Shutdown\"")]

end FractalGateway
