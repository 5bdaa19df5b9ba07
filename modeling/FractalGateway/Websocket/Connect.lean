import FractalGateway.Websocket.Order

/-! `connect`: sessions with the manager one after another, until one is told to shut down.

        session ──▶ ended (Ok)                       connect returns
           ▲   └──▶ ended (error) ──▶ sleep ──┐
           └──────────────────────────────────┘      the next session, on the same channels and world

    The channels outlive the sessions, and a broadcast is taken only while the session under way holds
    a receiver of its channel; otherwise the send is refused and the value is gone. So what a channel
    has taken falls into windows, one for each session, and a session passes on the beginning of its
    own window: whatever is lost is lost at the end of a session that failed, and nothing is ever
    passed on twice. The world is carried from session to session, so a request finds the gateway as
    the requests before it have left it, however many sessions lie between them. -/

namespace FractalGateway
open Exec Broadcast

variable {w : ℕ}

/-! ### Subscriptions -/

/-- The session holds a receiver of the traffic channel. -/
def Phase.hears_traffic : Phase w → Bool
  | .subscribed | .selecting | .handling _ | .sending _ => true
  | _ => false

/-- The session holds a receiver of the events channel. -/
def Phase.hears_events : Phase w → Bool
  | .selecting | .handling _ | .sending _ => true
  | _ => false

/-- `connect_run` has returned. -/
def Phase.over : Phase w → Bool
  | .ended _ => true
  | _ => false

/-! ### The loop -/

/-- The sessions that are over, each as it ended, and the one under way. `traffic` and `events` record
    every send of the watchdog and whether it was taken. -/
structure Connect (w : ℕ) where
  earlier : List (Session w)
  session : Session w
  traffic : List (TrafficInfo w × Bool)
  events : List (GatewayEvent × Bool)

/-- One thing that happens: to the session under way, or the sleep between two sessions ending. -/
inductive Turn (w : ℕ) where
  | input (input : Input w)
  | retry

def Connect.start (world : World) : Connect w := ⟨[], Session.start [] [] world, [], []⟩

/-- The next call of `connect_run`. -/
def Session.again (s : Session w) : Session w :=
  Session.start s.traffic_broadcast.values s.events_broadcast.values s.world

section
variable (os : Os) (deploy : Deployment) (wire : Wire w)

def Connect.step (c : Connect w) : Turn w → Connect w
  | .input (.traffic info) =>
    if c.session.phase.hears_traffic then
      { c with
        session := c.session.step os deploy wire (.traffic info)
        traffic := c.traffic ++ [(info, true)] }
    else { c with traffic := c.traffic ++ [(info, false)] }
  | .input (.event event) =>
    if c.session.phase.hears_events then
      { c with
        session := c.session.step os deploy wire (.event event)
        events := c.events ++ [(event, true)] }
    else { c with events := c.events ++ [(event, false)] }
  | .input input => { c with session := c.session.step os deploy wire input }
  | .retry =>
    match c.session.phase with
    | .ended (.error (.err _)) =>
      { c with earlier := c.earlier ++ [c.session], session := c.session.again }
    -- after `Ok` the loop is left, and a panic takes the task down
    | _ => c

/-- `connect` under a schedule. -/
def Connect.run (c : Connect w) (turns : List (Turn w)) : Connect w :=
  turns.foldl (Connect.step os deploy wire) c

end

/-- All sessions so far, in order. -/
def Connect.sessions (c : Connect w) : List (Session w) := c.earlier ++ [c.session]

/-- What was taken of the values sent on a channel. -/
def taken {α : Type} (sends : List (α × Bool)) : List α := (sends.filter (·.2)).map Prod.fst

theorem taken_concat {α : Type} (sends : List (α × Bool)) (a : α) (took : Bool) :
    taken (sends ++ [(a, took)]) = taken sends ++ if took then [a] else [] := by
  cases took <;> simp [taken]

/-! ### The two feeds -/

/-- A channel a session listens to, and which messages pass its values on. -/
structure Feed (w : ℕ) (α : Type) where
  channel : Session w → Channel α
  sub : Session w → Receiver
  part : GatewayResponse w → Option α
  hears : Phase w → Bool
  sends : Connect w → List (α × Bool)

def Feed.traffic : Feed w (TrafficInfo w) where
  channel := Session.traffic_broadcast
  sub := Session.traffic_sub
  part := GatewayResponse.traffic?
  hears := Phase.hears_traffic
  sends := Connect.traffic

def Feed.events : Feed w GatewayEvent where
  channel := Session.events_broadcast
  sub := Session.events_sub
  part := GatewayResponse.event?
  hears := Phase.hears_events
  sends := Connect.events

/-- What a session has passed on of a feed. -/
def Feed.passed {α : Type} (f : Feed w α) (s : Session w) : List α := s.sent.filterMap f.part

/-- What a step other than a broadcast does to a feed: it leaves it, with something passed on only
    while the session listens, or it subscribes. -/
inductive FeedStep {α : Type} (f : Feed w α) (s s' : Session w) : Prop
  | kept (hchannel : f.channel s' = f.channel s) (hsince : (f.sub s').since = (f.sub s).since)
      (hhears : f.hears s'.phase = true → f.hears s.phase = true)
      (hbefore : f.hears s.phase = true ∨ s.phase.over = true →
        f.hears s'.phase = true ∨ s'.phase.over = true)
      (hsent : s'.sent = s.sent ∨ f.hears s.phase = true)
  | subscribed (hchannel : f.channel s' = f.channel s) (hsub : f.sub s' = (f.channel s).subscribe)
      (hsent : s'.sent = s.sent) (hhears : f.hears s.phase = false) (hover : s.phase.over = false)

/-! ### Steps of a session -/

/-- In the loop, a step may pass a message on or end the session, and leaves the subscriptions. -/
structure Within (s s' : Session w) : Prop where
  traffic : s'.traffic_broadcast = s.traffic_broadcast
  events : s'.events_broadcast = s.events_broadcast
  traffic_since : s'.traffic_sub.since = s.traffic_sub.since
  events_since : s'.events_sub.since = s.events_sub.since
  phase : s'.phase.hears_events = true ∨ s'.phase.over = true

section
variable {os : Os} {deploy : Deployment} {wire : Wire w} {s s' : Session w}

theorem Within.fail (message : String) : Within s (s.fail message) :=
  ⟨rfl, rfl, rfl, rfl, Or.inr rfl⟩

/-- Beginning to send changes the phase only. -/
theorem Within.send (h : Within s s') (message : GatewayResponse w) :
    Within s (s'.send wire message) := by
  unfold Session.send
  split
  · exact ⟨h.traffic, h.events, h.traffic_since, h.events_since, Or.inl rfl⟩
  · exact ⟨h.traffic, h.events, h.traffic_since, h.events_since, Or.inr rfl⟩

/-- What a step other than a broadcast does to a session. -/
inductive SessionStep (s s' : Session w) : Prop
  | same (h : s' = s)
  | within (hphase : s.phase.hears_events = true) (h : Within s s')
  | connecting (hphase : s.phase = .connecting) {phase : Phase w}
      (hphase' : phase = .connected ∨ phase.over = true) (h : s' = { s with phase := phase })
  | traffic (hphase : s.phase = .connected)
      (h : s' = { s with traffic_sub := s.traffic_broadcast.subscribe, phase := .subscribed })
  | events (hphase : s.phase = .subscribed)
      (h : s' = { s with events_sub := s.events_broadcast.subscribe, phase := .selecting })

section Selecting
variable (hp : s.phase = .selecting)
include hp

theorem Session.receive_step (message : Incoming) : SessionStep s (s.receive wire message) := by
  have hloop : s.phase.hears_events = true := by rw [hp]; rfl
  cases message with
  | text text =>
    simp only [Session.receive]
    split
    · exact .within hloop ⟨rfl, rfl, rfl, rfl, Or.inr rfl⟩
    · exact .within hloop ⟨rfl, rfl, rfl, rfl, Or.inl rfl⟩
    · exact .within hloop (.fail _)
  | other => exact .same rfl
  | error e => exact .within hloop (.fail e)
  | closed => exact .within hloop (.fail _)

theorem Session.forward_step {α : Type} {sub : Receiver → Session w}
    {response : α → GatewayResponse w} {found : Recv α}
    (hsub : ∀ a r, found = .value a r → Within s (sub r)) :
    SessionStep s (s.forward wire sub response found) := by
  have hloop : s.phase.hears_events = true := by rw [hp]; rfl
  cases found with
  | pending => exact .same rfl
  | lagged missed => exact .within hloop (.fail _)
  | value a r => exact .within hloop ((hsub a r rfl).send (response a))

end Selecting

theorem Session.answer_step {request : GatewayRequest} (hp : s.phase = .handling request) :
    SessionStep s (s.answer os deploy wire request) := by
  have hloop : s.phase.hears_events = true := by rw [hp]; rfl
  unfold Session.answer
  split
  · refine .within hloop (Within.send ?_ _)
    exact ⟨rfl, rfl, rfl, rfl, Or.inl hloop⟩
  · refine .within hloop (Within.send ?_ _)
    exact ⟨rfl, rfl, rfl, rfl, Or.inl hloop⟩
  · exact .within hloop ⟨rfl, rfl, rfl, rfl, Or.inr rfl⟩

theorem Session.finish_step {message : GatewayResponse w} (hp : s.phase = .sending message)
    (sending : Sending) : SessionStep s (s.finish message sending) := by
  have hloop : s.phase.hears_events = true := by rw [hp]; rfl
  cases sending with
  | ok => exact .within hloop ⟨rfl, rfl, rfl, rfl, Or.inl rfl⟩
  | failed out e =>
    cases out with
    | true => exact .within hloop ⟨rfl, rfl, rfl, rfl, Or.inr rfl⟩
    | false => exact .within hloop (.fail e)

/-- An input that is not a broadcast of the watchdog. -/
def Input.Quiet : Input w → Prop
  | .traffic _ | .event _ => False
  | _ => True

theorem Session.step_cases {input : Input w} (hq : input.Quiet) :
    SessionStep s (s.step os deploy wire input) := by
  cases input with
  | traffic info => exact hq.elim
  | event event => exact hq.elim
  | connect result =>
    simp only [Session.step]
    split
    · next _ hp => exact .connecting hp (Or.inl rfl) rfl
    · next hp => exact .connecting hp (Or.inr rfl) rfl
    · exact .same rfl
  | subscribe =>
    simp only [Session.step]
    split
    · next hp => exact .traffic hp rfl
    · next hp => exact .events hp rfl
    · exact .same rfl
  | message message =>
    simp only [Session.step]
    split
    · next hp => exact Session.receive_step hp message
    · exact .same rfl
  | recv_traffic =>
    simp only [Session.step]
    split
    · next hp =>
      refine Session.forward_step hp fun info sub hrecv => ?_
      exact ⟨rfl, rfl, Channel.recv_since hrecv, rfl, Or.inl (by rw [hp]; rfl)⟩
    · exact .same rfl
  | recv_event =>
    simp only [Session.step]
    split
    · next hp =>
      refine Session.forward_step hp fun event sub hrecv => ?_
      exact ⟨rfl, rfl, rfl, Channel.recv_since hrecv, Or.inl (by rw [hp]; rfl)⟩
    · exact .same rfl
  | handled =>
    simp only [Session.step]
    split
    · next hp => exact Session.answer_step hp
    · exact .same rfl
  | sent sending =>
    simp only [Session.step]
    split
    · next hp => exact Session.finish_step hp sending
    · exact .same rfl

/-! ### Steps of a feed -/

theorem Phase.hears_traffic_of_events {phase : Phase w} (h : phase.hears_events = true) :
    phase.hears_traffic = true := by
  cases phase <;> first | rfl | cases h

/-- Nothing is heard before the subscriptions, nor after the end. -/
theorem Phase.hears_nothing {phase : Phase w} (h : phase = .connected ∨ phase.over = true) :
    phase.hears_traffic = false ∧ phase.hears_events = false := by
  rcases h with rfl | h
  · exact ⟨rfl, rfl⟩
  · cases phase <;> first | exact ⟨rfl, rfl⟩ | cases h

theorem Phase.not_over_of_hears {phase : Phase w} (h : phase.hears_traffic = true) :
    phase.over = false := by
  cases phase <;> first | rfl | cases h

theorem Feed.traffic_step {input : Input w} (hq : input.Quiet) :
    FeedStep Feed.traffic s (s.step os deploy wire input) := by
  cases Session.step_cases hq with
  | same h =>
    rw [h]
    exact .kept rfl rfl id id (Or.inl rfl)
  | within hphase h =>
    have hhears := Phase.hears_traffic_of_events hphase
    refine .kept h.traffic h.traffic_since (fun _ => hhears) (fun _ => ?_) (Or.inr hhears)
    exact h.phase.imp Phase.hears_traffic_of_events id
  | connecting hphase hphase' h =>
    have hdeaf : Feed.traffic.hears s.phase = false := by rw [hphase]; rfl
    rw [h]
    refine .kept rfl rfl (fun hh => ?_) ?_ (Or.inl rfl)
    · exact absurd ((Phase.hears_nothing hphase').1.symm.trans hh) Bool.false_ne_true
    · rw [hdeaf, hphase]
      rintro (h | h) <;> cases h
  | traffic hphase h =>
    rw [h]
    exact .subscribed rfl rfl rfl (by rw [hphase]; rfl) (by rw [hphase]; rfl)
  | events hphase h =>
    rw [h]
    exact .kept rfl rfl (fun _ => by rw [hphase]; rfl) (fun _ => Or.inl rfl) (Or.inl rfl)

theorem Feed.events_step {input : Input w} (hq : input.Quiet) :
    FeedStep Feed.events s (s.step os deploy wire input) := by
  cases Session.step_cases hq with
  | same h =>
    rw [h]
    exact .kept rfl rfl id id (Or.inl rfl)
  | within hphase h =>
    exact .kept h.events h.events_since (fun _ => hphase) (fun _ => h.phase) (Or.inr hphase)
  | connecting hphase hphase' h =>
    have hdeaf : Feed.events.hears s.phase = false := by rw [hphase]; rfl
    rw [h]
    refine .kept rfl rfl (fun hh => ?_) ?_ (Or.inl rfl)
    · exact absurd ((Phase.hears_nothing hphase').2.symm.trans hh) Bool.false_ne_true
    · rw [hdeaf, hphase]
      rintro (h | h) <;> cases h
  | traffic hphase h =>
    rw [h]
    refine .kept rfl rfl (fun hh => by cases hh) ?_ (Or.inl rfl)
    rw [hphase]
    rintro (h | h) <;> cases h
  | events hphase h =>
    rw [h]
    exact .subscribed rfl rfl rfl (by rw [hphase]; rfl) (by rw [hphase]; rfl)

end

/-! ### Windows -/

/-- The window of a session on a feed begins after the first `base` values of the channel. What the
    session has passed on is the beginning of its window, which is empty until it has subscribed. -/
structure Feed.From {α : Type} (f : Feed w α) (base : ℕ) (s : Session w) : Prop where
  le : base ≤ (f.channel s).values.length
  passed : f.passed s <+: (f.channel s).values.drop base
  before : f.hears s.phase = false → s.phase.over = false → (f.channel s).values.length = base
  during : f.hears s.phase = true → (f.sub s).since = base

theorem Feed.From.step {α : Type} {f : Feed w α} {base : ℕ} {s s' : Session w} (h : f.From base s)
    (hstep : FeedStep f s s') (hpassed : f.passed s' <+: (f.channel s').values.drop (f.sub s').since) :
    f.From base s' := by
  cases hstep with
  | kept hchannel hsince hhears hbefore hsent =>
    refine ⟨by rw [hchannel]; exact h.le, ?_, fun hdeaf hover => ?_, fun hh => ?_⟩
    · rcases hsent with hsent | hh
      · rw [Feed.passed, hsent, hchannel]
        exact h.passed
      · rwa [hsince, h.during hh] at hpassed
    · rw [hchannel]
      refine h.before ?_ ?_
      · exact Bool.eq_false_iff.mpr fun hh => by simp [hdeaf, hover, hh] at hbefore
      · exact Bool.eq_false_iff.mpr fun hh => by simp [hdeaf, hover, hh] at hbefore
    · rw [hsince]
      exact h.during (hhears hh)
  | subscribed hchannel hsub hsent hhears hover =>
    have hlen := h.before hhears hover
    refine ⟨by rw [hchannel]; exact h.le, ?_, fun _ _ => by rw [hchannel]; exact hlen, fun _ => ?_⟩
    · rw [Feed.passed, hsent, hchannel]
      exact h.passed
    · rw [hsub]
      exact hlen

theorem Feed.From.send {α : Type} {f : Feed w α} {base : ℕ} {s s' : Session w} {a : α}
    (h : f.From base s) (hhears : f.hears s.phase = true)
    (hchannel : f.channel s' = (f.channel s).send a) (hsub : f.sub s' = f.sub s)
    (hphase : s'.phase = s.phase) (hsent : s'.sent = s.sent) : f.From base s' := by
  have hvalues : (f.channel s').values = (f.channel s).values ++ [a] := by
    rw [hchannel]
    rfl
  refine ⟨?_, ?_, fun hdeaf _ => ?_, fun _ => ?_⟩
  · rw [hvalues, List.length_append]
    exact h.le.trans (Nat.le_add_right _ _)
  · rw [Feed.passed, hsent, hvalues, List.drop_append_of_le_length h.le]
    exact h.passed.trans (List.prefix_append _ _)
  · rw [hphase, hhears] at hdeaf
    cases hdeaf
  · rw [hsub]
    exact h.during hhears

/-- What a turn does to a feed. -/
inductive FeedTurn {α : Type} (f : Feed w α) (c c' : Connect w) : Prop
  | quiet (hearlier : c'.earlier = c.earlier) (hsends : f.sends c' = f.sends c)
      (hstep : FeedStep f c.session c'.session)
  | took (a : α) (hearlier : c'.earlier = c.earlier) (hsends : f.sends c' = f.sends c ++ [(a, true)])
      (hhears : f.hears c.session.phase = true)
      (hchannel : f.channel c'.session = (f.channel c.session).send a)
      (hsub : f.sub c'.session = f.sub c.session) (hphase : c'.session.phase = c.session.phase)
      (hsent : c'.session.sent = c.session.sent)
  | refused (a : α) (hearlier : c'.earlier = c.earlier)
      (hsends : f.sends c' = f.sends c ++ [(a, false)]) (hsession : c'.session = c.session)
  | retried (hearlier : c'.earlier = c.earlier ++ [c.session]) (hsends : f.sends c' = f.sends c)
      (hvalues : (f.channel c'.session).values = (f.channel c.session).values)
      (hphase : c'.session.phase = .connecting) (hsent : c'.session.sent = [])

/-- What has been taken on a feed, cut into the windows of the sessions. -/
structure Feed.Tiled {α : Type} (f : Feed w α) (c : Connect w) (windows : List (List α)) : Prop where
  earlier : List.Forall₂ (fun s window => f.passed s <+: window) c.earlier windows
  values : (f.channel c.session).values.take windows.flatten.length = windows.flatten
  session : f.From windows.flatten.length c.session
  taken : taken (f.sends c) = (f.channel c.session).values

/-- Nothing is heard while connecting. -/
def Feed.Late {α : Type} (f : Feed w α) : Prop := f.hears .connecting = false

theorem Feed.traffic_late : (Feed.traffic : Feed w (TrafficInfo w)).Late := rfl

theorem Feed.events_late : (Feed.events : Feed w GatewayEvent).Late := rfl

/-- The windows, with that of the session under way, are all that was taken. -/
theorem Feed.Tiled.flatten {α : Type} {f : Feed w α} {c : Connect w}
    {windows : List (List α)} (h : f.Tiled c windows) :
    (windows ++ [(f.channel c.session).values.drop windows.flatten.length]).flatten =
      (f.channel c.session).values := by
  rw [List.flatten_concat]
  conv_lhs => rw [← h.values]
  rw [List.length_take_of_le h.session.le, List.take_append_drop]

theorem Feed.Tiled.turn {α : Type} {f : Feed w α} (hlate : f.Late) {c c' : Connect w}
    {windows : List (List α)} (h : f.Tiled c windows) (hturn : FeedTurn f c c')
    (hpassed : f.passed c'.session <+:
      (f.channel c'.session).values.drop (f.sub c'.session).since) :
    ∃ windows', f.Tiled c' windows' := by
  cases hturn with
  | quiet hearlier hsends hstep =>
    have hchannel : f.channel c'.session = f.channel c.session := by
      cases hstep with
      | kept hchannel => exact hchannel
      | subscribed hchannel => exact hchannel
    refine ⟨windows, hearlier ▸ h.earlier, ?_, h.session.step hstep hpassed, ?_⟩
    · rw [hchannel]
      exact h.values
    · rw [hsends, hchannel]
      exact h.taken
  | took a hearlier hsends hhears hchannel hsub hphase hsent =>
    refine ⟨windows, hearlier ▸ h.earlier, ?_,
      h.session.send hhears hchannel hsub hphase hsent, ?_⟩
    · rw [hchannel]
      exact (List.take_append_of_le_length h.session.le).trans h.values
    · rw [hsends, taken_concat, h.taken, hchannel]
      rfl
  | refused a hearlier hsends hsession =>
    refine ⟨windows, hearlier ▸ h.earlier, ?_, ?_, ?_⟩
    · rw [hsession]
      exact h.values
    · rw [hsession]
      exact h.session
    · rw [hsends, taken_concat, h.taken, hsession]
      exact List.append_nil _
  | retried hearlier hsends hvalues hphase hsent =>
    -- the window of the session that is over ends here, and the next one begins
    have hflat := h.flatten
    refine ⟨windows ++ [(f.channel c.session).values.drop windows.flatten.length], ?_, ?_, ?_, ?_⟩
    · rw [hearlier]
      exact List.rel_append h.earlier (.cons h.session.passed .nil)
    · rw [hflat, hvalues, List.take_length]
    · rw [hflat]
      refine ⟨by rw [hvalues], ?_, fun _ _ => by rw [hvalues], fun hh => ?_⟩
      · rw [Feed.passed, hsent]
        exact List.nil_prefix
      · rw [hphase, hlate] at hh
        cases hh
    · rw [hsends, hvalues]
      exact h.taken

/-! ### The world across sessions -/

section
variable (os : Os) (deploy : Deployment)

/-- The world of a session is what its requests have made of the world it began with, the one that is
    just being handled not counted. -/
def Session.Carries (world : World) (s : Session w) : Prop :=
  match s.phase with
  | .handling request =>
    ∃ done, s.requests = done ++ [request] ∧ s.world = worldAfter os deploy done world
  | _ => s.world = worldAfter os deploy s.requests world

/-- Sessions in order, each in the world that those before it have left. -/
def InSuccession : World → List (Session w) → Prop
  | _, [] => True
  | world, s :: later =>
    InOrder os deploy world s ∧ InSuccession (worldAfter os deploy s.requests world) later

/-- The requests of some sessions, in order. -/
def requestsOf (sessions : List (Session w)) : List GatewayRequest := sessions.flatMap Session.requests

end

section
variable {os : Os} {deploy : Deployment} {wire : Wire w} {world : World} {s s' : Session w}

theorem InSuccession.concat (h' : Session w) : ∀ {world : World} {sessions : List (Session w)},
    InSuccession os deploy world sessions →
      InOrder os deploy (worldAfter os deploy (requestsOf sessions) world) h' →
      InSuccession os deploy world (sessions ++ [h'])
  | _, [], _, h => ⟨h, trivial⟩
  | world, s :: later, hs, h => by
      refine ⟨hs.1, InSuccession.concat h' hs.2 ?_⟩
      rwa [requestsOf, List.flatMap_cons, worldAfter_append] at h

/-- Outside the handler the world is up to date. -/
theorem Session.Carries.settled (h : s.Carries os deploy world)
    (hp : ∀ request, s.phase ≠ .handling request) :
    s.world = worldAfter os deploy s.requests world := by
  unfold Session.Carries at h
  split at h
  · next request hphase => exact absurd hphase (hp request)
  · exact h

theorem Session.carries_send (h : s.world = worldAfter os deploy s.requests world)
    (message : GatewayResponse w) : (s.send wire message).Carries os deploy world := by
  unfold Session.send
  split
  · exact h
  · exact h

theorem Session.Carries.receive (h : s.Carries os deploy world) (hp : s.phase = .selecting)
    (message : Incoming) : (s.receive wire message).Carries os deploy world := by
  have hw := h.settled (by rw [hp]; nofun)
  cases message with
  | text text =>
    simp only [Session.receive]
    split
    · exact hw
    · exact ⟨s.requests, rfl, hw⟩
    · exact hw
  | other => exact h
  | error e => exact hw
  | closed => exact hw

theorem Session.Carries.answer {request : GatewayRequest} (h : s.Carries os deploy world)
    (hp : s.phase = .handling request) : (s.answer os deploy wire request).Carries os deploy world := by
  unfold Session.Carries at h
  rw [hp] at h
  obtain ⟨done, hreq, hw⟩ := h
  have hafter : final ((respond os deploy request).run s.world) =
      worldAfter os deploy s.requests world := by
    rw [hreq, worldAfter_append, ← hw]
    rfl
  unfold Session.answer
  split
  · next hrun =>
    rw [hrun] at hafter
    exact Session.carries_send hafter _
  · next hrun =>
    rw [hrun] at hafter
    exact Session.carries_send hafter _
  · next hrun =>
    rw [hrun] at hafter
    exact hafter

theorem Session.Carries.forward {α : Type} {sub : Receiver → Session w}
    {response : α → GatewayResponse w} (h : s.Carries os deploy world) (hp : s.phase = .selecting)
    (hsub : ∀ r, (sub r).world = s.world ∧ (sub r).requests = s.requests) (found : Recv α) :
    (s.forward wire sub response found).Carries os deploy world := by
  have hw := h.settled (by rw [hp]; nofun)
  cases found with
  | pending => exact h
  | lagged missed => exact hw
  | value a r =>
    refine Session.carries_send ?_ _
    rw [(hsub r).1, (hsub r).2]
    exact hw

theorem Session.Carries.finish {message : GatewayResponse w} (h : s.Carries os deploy world)
    (hp : s.phase = .sending message) (sending : Sending) :
    (s.finish message sending).Carries os deploy world := by
  have hw := h.settled (by rw [hp]; nofun)
  cases sending with
  | ok => exact hw
  | failed out e => cases out <;> exact hw

theorem Session.Carries.step (h : s.Carries os deploy world) (input : Input w) :
    (s.step os deploy wire input).Carries os deploy world := by
  cases input with
  | traffic info => exact h
  | event event => exact h
  | connect result =>
    simp only [Session.step]
    split
    · next hp => exact h.settled (by simp [hp])
    · next hp => exact h.settled (by simp [hp])
    · exact h
  | subscribe =>
    simp only [Session.step]
    split
    · next hp => exact h.settled (by simp [hp])
    · next hp => exact h.settled (by simp [hp])
    · exact h
  | message message =>
    simp only [Session.step]
    split
    · next hp => exact h.receive hp message
    · exact h
  | recv_traffic =>
    simp only [Session.step]
    split
    · next hp =>
      refine h.forward hp ?_ _
      exact fun _ => ⟨rfl, rfl⟩
    · exact h
  | recv_event =>
    simp only [Session.step]
    split
    · next hp =>
      refine h.forward hp ?_ _
      exact fun _ => ⟨rfl, rfl⟩
    · exact h
  | handled =>
    simp only [Session.step]
    split
    · next hp => exact h.answer hp
    · exact h
  | sent sending =>
    simp only [Session.step]
    split
    · next hp => exact h.finish hp sending
    · exact h

end

/-! ### Turns -/

section
variable (os : Os) (deploy : Deployment)

/-- The sessions so far are in order, each in the world those before it have left; all but the one
    under way have failed. -/
structure Connect.Sound (world : World) (c : Connect w) : Prop where
  earlier : InSuccession os deploy world c.earlier
  failed : ∀ s ∈ c.earlier, ∃ chain, s.phase = .ended (.error (.err chain))
  session : c.session.Sound os deploy (worldAfter os deploy (requestsOf c.earlier) world)
  carries : c.session.Carries os deploy (worldAfter os deploy (requestsOf c.earlier) world)

end

section
variable {os : Os} {deploy : Deployment} {wire : Wire w} {world : World} {c : Connect w}

/-- A turn leaves the connection to the next session, refuses a broadcast, or is a step of the session
    under way. -/
inductive ConnectTurn (os : Os) (deploy : Deployment) (wire : Wire w) (c c' : Connect w) : Prop
  | step (input : Input w) (hearlier : c'.earlier = c.earlier)
      (hsession : c'.session = c.session.step os deploy wire input)
  | refused (hearlier : c'.earlier = c.earlier) (hsession : c'.session = c.session)
  | retried (chain : List String) (hphase : c.session.phase = .ended (.error (.err chain)))
      (hearlier : c'.earlier = c.earlier ++ [c.session]) (hsession : c'.session = c.session.again)

/-- An input is a broadcast of the watchdog or not. -/
theorem Input.broadcast_or_quiet (input : Input w) :
    (∃ info, input = .traffic info) ∨ (∃ event, input = .event event) ∨ input.Quiet := by
  cases input with
  | traffic info => exact Or.inl ⟨info, rfl⟩
  | event event => exact Or.inr (Or.inl ⟨event, rfl⟩)
  | _ => exact Or.inr (Or.inr trivial)

theorem Connect.step_quiet {input : Input w} (hq : input.Quiet) :
    c.step os deploy wire (.input input) =
      { c with session := c.session.step os deploy wire input } := by
  cases input <;> first | exact hq.elim | rfl

theorem Connect.step_turn (wire : Wire w) (c : Connect w) (turn : Turn w) :
    ConnectTurn os deploy wire c (c.step os deploy wire turn) := by
  cases turn with
  | input input =>
    rcases input.broadcast_or_quiet with ⟨info, rfl⟩ | ⟨event, rfl⟩ | hq
    · simp only [Connect.step]
      split
      · exact .step (.traffic info) rfl rfl
      · exact .refused rfl rfl
    · simp only [Connect.step]
      split
      · exact .step (.event event) rfl rfl
      · exact .refused rfl rfl
    · rw [Connect.step_quiet hq]
      exact .step input rfl rfl
  | retry =>
    simp only [Connect.step]
    split
    · next chain hphase => exact .retried chain hphase rfl rfl
    · exact .refused rfl rfl

theorem Connect.Sound.turn (h : c.Sound os deploy world) (turn : Turn w) :
    (c.step os deploy wire turn).Sound os deploy world := by
  cases Connect.step_turn wire c turn with
  | step input hearlier hsession =>
    refine ⟨?_, ?_, ?_, ?_⟩
    · rw [hearlier]
      exact h.earlier
    · rw [hearlier]
      exact h.failed
    · rw [hearlier, hsession]
      exact h.session.step input
    · rw [hearlier, hsession]
      exact h.carries.step input
  | refused hearlier hsession =>
    refine ⟨?_, ?_, ?_, ?_⟩
    · rw [hearlier]
      exact h.earlier
    · rw [hearlier]
      exact h.failed
    · rw [hearlier, hsession]
      exact h.session
    · rw [hearlier, hsession]
      exact h.carries
  | retried chain hphase hearlier hsession =>
    -- the next session begins in the world the last one has left
    have hworld : c.session.world =
        worldAfter os deploy (requestsOf (c.earlier ++ [c.session])) world := by
      rw [requestsOf, List.flatMap_append, worldAfter_append, h.carries.settled (by rw [hphase]; nofun)]
      simp [requestsOf]
    refine ⟨?_, ?_, ?_, ?_⟩
    · rw [hearlier]
      exact h.earlier.concat _ h.session.inOrder
    · rw [hearlier]
      intro s hs
      rcases List.mem_append.mp hs with hs | hs
      · exact h.failed s hs
      · rw [List.mem_singleton.mp hs]
        exact ⟨chain, hphase⟩
    · rw [hearlier, hsession, ← hworld]
      exact Session.start_sound _ _
    · rw [hearlier, hsession, ← hworld]
      rfl

theorem Connect.Sound.run (h : c.Sound os deploy world) (turns : List (Turn w)) :
    (c.run os deploy wire turns).Sound os deploy world := by
  induction turns generalizing c with
  | nil => exact h
  | cons turn turns ih => exact ih (h.turn turn)

theorem Connect.start_sound : (Connect.start (w := w) world).Sound os deploy world where
  earlier := trivial
  failed := nofun
  session := Session.start_sound [] []
  carries := rfl

theorem Connect.run_append (turns later : List (Turn w)) :
    c.run os deploy wire (turns ++ later) =
      (c.run os deploy wire turns).run os deploy wire later := by
  rw [Connect.run, List.foldl_append]
  rfl

/-- After its end a session hears nothing, and nothing more happens to it. -/
theorem Session.step_over {s : Session w} {input : Input w} (hover : s.phase.over = true)
    (hq : input.Quiet) : s.step os deploy wire input = s := by
  cases hp : s.phase with
  | ended result => cases input <;> first | exact hq.elim | simp [Session.step, hp]
  | _ =>
    rw [hp] at hover
    cases hover

/-- `connect` has been left, by a shutdown or a panic. -/
def Phase.Left : Phase w → Prop
  | .ended (.ok _) => True
  | .ended (.error (.panic _)) => True
  | _ => False

theorem Connect.step_left (h : c.session.phase.Left) (turn : Turn w) :
    (c.step os deploy wire turn).sessions = c.sessions := by
  have hover : c.session.phase.over = true := by
    cases hp : c.session.phase <;> rw [hp] at h <;> first | rfl | exact h.elim
  obtain ⟨htraffic, hevents⟩ := Phase.hears_nothing (Or.inr hover)
  cases turn with
  | input input =>
    rcases input.broadcast_or_quiet with ⟨info, rfl⟩ | ⟨event, rfl⟩ | hq
    · simp [Connect.step, htraffic, Connect.sessions]
    · simp [Connect.step, hevents, Connect.sessions]
    · rw [Connect.step_quiet hq, Session.step_over hover hq]
  | retry =>
    simp only [Connect.step]
    split
    · next chain hphase =>
      rw [hphase] at h
      exact h.elim
    · rfl

theorem Connect.run_left (turns : List (Turn w)) : ∀ {c : Connect w}, c.session.phase.Left →
    (c.run os deploy wire turns).sessions = c.sessions := by
  induction turns with
  | nil => exact fun _ => rfl
  | cons turn turns ih =>
    intro c h
    have hstep : (c.step os deploy wire turn).sessions = c.sessions := Connect.step_left h turn
    have hsession : (c.step os deploy wire turn).session = c.session :=
      List.singleton_inj.mp (List.append_inj' hstep rfl).2
    exact (ih (by rw [hsession]; exact h)).trans hstep

theorem Connect.traffic_turn (turn : Turn w) :
    FeedTurn Feed.traffic c (c.step os deploy wire turn) := by
  cases turn with
  | input input =>
    rcases input.broadcast_or_quiet with ⟨info, rfl⟩ | ⟨event, rfl⟩ | hq
    · simp only [Connect.step]
      split
      · next hh => exact .took info rfl rfl hh rfl rfl rfl rfl
      · exact .refused info rfl rfl rfl
    · simp only [Connect.step]
      split
      · exact .quiet rfl rfl (.kept rfl rfl id id (Or.inl rfl))
      · exact .quiet rfl rfl (.kept rfl rfl id id (Or.inl rfl))
    · rw [Connect.step_quiet hq]
      exact .quiet rfl rfl (Feed.traffic_step hq)
  | retry =>
    simp only [Connect.step]
    split
    · exact .retried rfl rfl rfl rfl rfl
    · exact .quiet rfl rfl (.kept rfl rfl id id (Or.inl rfl))

theorem Connect.events_turn (turn : Turn w) :
    FeedTurn Feed.events c (c.step os deploy wire turn) := by
  cases turn with
  | input input =>
    rcases input.broadcast_or_quiet with ⟨info, rfl⟩ | ⟨event, rfl⟩ | hq
    · simp only [Connect.step]
      split
      · exact .quiet rfl rfl (.kept rfl rfl id id (Or.inl rfl))
      · exact .quiet rfl rfl (.kept rfl rfl id id (Or.inl rfl))
    · simp only [Connect.step]
      split
      · next hh => exact .took event rfl rfl hh rfl rfl rfl rfl
      · exact .refused event rfl rfl rfl
    · rw [Connect.step_quiet hq]
      exact .quiet rfl rfl (Feed.events_step hq)
  | retry =>
    simp only [Connect.step]
    split
    · exact .retried rfl rfl rfl rfl rfl
    · exact .quiet rfl rfl (.kept rfl rfl id id (Or.inl rfl))

/-- On every schedule there are windows. -/
theorem Connect.run_tiled (turns : List (Turn w)) : ∀ {c : Connect w}, c.Sound os deploy world →
    (∃ windows, Feed.traffic.Tiled c windows) → (∃ windows, Feed.events.Tiled c windows) →
    (∃ windows, Feed.traffic.Tiled (c.run os deploy wire turns) windows) ∧
      ∃ windows, Feed.events.Tiled (c.run os deploy wire turns) windows := by
  induction turns with
  | nil => exact fun _ ht he => ⟨ht, he⟩
  | cons turn turns ih =>
    rintro c h ⟨_, ht⟩ ⟨_, he⟩
    have hnext : (c.step os deploy wire turn).Sound os deploy world := h.turn turn
    have horder := hnext.session.inOrder
    exact ih hnext (ht.turn Feed.traffic_late (Connect.traffic_turn turn) horder.traffic)
      (he.turn Feed.events_late (Connect.events_turn turn) horder.events)

theorem Feed.start_tiled {α : Type} {f : Feed w α} (hlate : f.Late)
    (hvalues : (f.channel (Session.start [] [] world)).values = [])
    (hsends : f.sends (Connect.start world) = []) : f.Tiled (Connect.start world) [] where
  earlier := .nil
  values := by simp
  session := ⟨Nat.zero_le _, List.nil_prefix, fun _ _ => by rw [Connect.start, hvalues]; rfl,
    fun hh => absurd (hlate.symm.trans hh) Bool.false_ne_true⟩
  taken := by rw [hsends, Connect.start, hvalues]; rfl

end

/-! ### Schedules -/

/-- The message on its way out. -/
def Phase.held : Phase w → List (GatewayResponse w)
  | .sending message => [message]
  | _ => []

/-- What has been taken of a feed falls into one window for each session, and each session has passed
    on the beginning of its own. While a session listens, the rest of its window is the message on its
    way out and what is still ahead of its receiver. -/
structure Feed.Conserved {α : Type} (f : Feed w α) (c : Connect w) (windows : List (List α)) :
    Prop where
  taken : windows.flatten = taken (f.sends c)
  passed : List.Forall₂ (fun s window => f.passed s <+: window) c.sessions windows
  ahead : f.hears c.session.phase = true → windows.getLast? =
    some (f.passed c.session ++ c.session.phase.held.filterMap f.part ++
      (f.channel c.session).values.drop (f.sub c.session).next)

section
variable {os : Os} {deploy : Deployment} {wire : Wire w} {world : World} {c : Connect w}

theorem Feed.Tiled.conserved {α : Type} {f : Feed w α} {windows : List (List α)}
    (h : f.Tiled c windows) (hgiven : f.hears c.session.phase = true → Given (f.channel c.session)
      (f.sub c.session) ((c.session.sent ++ c.session.phase.held).filterMap f.part)) :
    f.Conserved c (windows ++ [(f.channel c.session).values.drop windows.flatten.length]) where
  taken := by rw [h.taken, h.flatten]
  passed := List.rel_append h.earlier (.cons h.session.passed .nil)
  ahead hh := by
    rw [List.getLast?_concat, ← h.session.during hh, (hgiven hh).drop_since, List.filterMap_append]
    rfl

/-- While a session listens, what it has passed on and is passing on is what it was given. -/
theorem Session.Sound.given {s : Session w} (h : s.Sound os deploy world)
    (hover : s.phase.over = false) :
    Given s.traffic_broadcast s.traffic_sub ((s.sent ++ s.phase.held).filterMap Feed.traffic.part) ∧
      Given s.events_broadcast s.events_sub ((s.sent ++ s.phase.held).filterMap Feed.events.part) := by
  obtain ⟨held, unanswered, done, hholds, _, htold⟩ := h.told
  have hheld : held = s.phase.held := by
    cases hp : s.phase with
    | ended result =>
      rw [hp] at hover
      cases hover
    | _ =>
      rw [hp] at hholds
      exact hholds.1
  rw [← hheld]
  exact ⟨htold.traffic, htold.events⟩

end

theorem Connect.tiled (os : Os) (deploy : Deployment) (wire : Wire w) (world : World)
    (turns : List (Turn w)) :
    (∃ windows, Feed.traffic.Tiled ((Connect.start world).run os deploy wire turns) windows) ∧
      ∃ windows, Feed.events.Tiled ((Connect.start world).run os deploy wire turns) windows :=
  have hstart : (Connect.start (w := w) world).Sound os deploy world := Connect.start_sound
  Connect.run_tiled turns hstart ⟨[], Feed.start_tiled Feed.traffic_late rfl rfl⟩
    ⟨[], Feed.start_tiled Feed.events_late rfl rfl⟩

/-- On every schedule of broadcasts, requests, failures and new sessions, what the channels have taken
    falls into one window for each session, and each session has passed on the beginning of its own, in
    order: no broadcast is passed on twice or out of order, and one that was taken is lost only when
    its session ends. -/
theorem connect_conserves_broadcasts (os : Os) (deploy : Deployment) (wire : Wire w) (world : World)
    (turns : List (Turn w)) :
    (∃ windows, Feed.traffic.Conserved ((Connect.start world).run os deploy wire turns) windows) ∧
      ∃ windows, Feed.events.Conserved ((Connect.start world).run os deploy wire turns) windows := by
  have hsound : ((Connect.start world).run os deploy wire turns).Sound os deploy world :=
    Connect.start_sound.run turns
  obtain ⟨⟨_, htraffic⟩, ⟨_, hevents⟩⟩ := Connect.tiled os deploy wire world turns
  refine ⟨⟨_, htraffic.conserved fun hh => ?_⟩, ⟨_, hevents.conserved fun hh => ?_⟩⟩
  · exact (hsound.session.given (Phase.not_over_of_hears hh)).1
  · exact (hsound.session.given
      (Phase.not_over_of_hears (Phase.hears_traffic_of_events hh))).2

/-- On every schedule the requests of all sessions work on one world: each session answers its own in
    order, in the world that the sessions before it have left, failures included. Every session but the
    one under way has failed, and when one has been told to shut down there is no other and nothing
    more is sent. -/
theorem connect_resumes (os : Os) (deploy : Deployment) (wire : Wire w) (world : World)
    (turns later : List (Turn w)) :
    InSuccession os deploy world ((Connect.start world).run os deploy wire turns).sessions ∧
      (∀ s ∈ ((Connect.start world).run os deploy wire turns).earlier,
        ∃ chain, s.phase = .ended (.error (.err chain))) ∧
      ((∀ request, ((Connect.start world).run os deploy wire turns).session.phase ≠
          .handling request) →
        ((Connect.start world).run os deploy wire turns).session.world = worldAfter os deploy
          (requestsOf ((Connect.start world).run os deploy wire turns).sessions) world) ∧
      (((Connect.start world).run os deploy wire turns).session.shutdown = true →
        ((Connect.start world).run os deploy wire (turns ++ later)).sessions =
          ((Connect.start world).run os deploy wire turns).sessions) := by
  have hstart : (Connect.start (w := w) world).Sound os deploy world := Connect.start_sound
  have hsound : ((Connect.start world).run os deploy wire turns).Sound os deploy world :=
    hstart.run turns
  refine ⟨hsound.earlier.concat _ hsound.session.inOrder, hsound.failed, fun hp => ?_, fun hs => ?_⟩
  · rw [hsound.carries.settled hp, Connect.sessions, requestsOf, requestsOf, List.flatMap_append,
      worldAfter_append, List.flatMap_singleton]
  · rw [Connect.run_append]
    refine Connect.run_left later ?_
    rw [hsound.session.shutdown.mp hs]
    trivial

/-- A session is closed after an answer, and the next one is told to shut down. -/
def Bench.reconnect : List (Turn 64) :=
  [.input (.connect (.ok ())), .input .subscribe, .input .subscribe,
    .input (.message (.text "\x7b\"Apply\":\x7b\x7d\x7d")), .input .handled, .input (.sent .ok),
    .input (.message .closed), .input (.event (.peerDisconnected ⟨1⟩ ⟨7⟩)), .retry,
    .input (.connect (.ok ())), .input .subscribe, .input .subscribe,
    .input (.message (.text "\"Shutdown\""))]

theorem connect_resumes_after_close :
    ((Connect.start Bench.world).run Bench.os Bench.deploy Bench.wire
        (Bench.reconnect ++ [.retry])).sessions =
      ((Connect.start Bench.world).run Bench.os Bench.deploy Bench.wire Bench.reconnect).sessions :=
  (connect_resumes Bench.os Bench.deploy Bench.wire Bench.world Bench.reconnect [.retry]).2.2.2
    (by decide +kernel)

end FractalGateway
