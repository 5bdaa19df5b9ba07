import FractalGateway.Gateway.Mirror
import FractalGateway.Websocket.Connect

/-! The manager of the integration tests and a session, joined by a websocket.

        manager: idle ──apply_config──▶ waiting ──Apply──▶ idle
                    ▲      down ▼            │ ▲ Traffic, Event
                    │   session (connect_run)│ └──┘
                    └────────── up ◀─────────┘

    A call sends one request and reads what comes up until the first `Apply`, passing over traffic and
    events. Messages travel in order and nothing else says which request an answer belongs to. It is
    the right one because no call is made while another is unanswered: the answers taken so far are the
    outcomes of the calls made so far, all but at most the last, and a manager whose calls were all
    answered `Ok` has the stored configuration in its own. -/

namespace FractalGateway
open Exec Broadcast

variable {w : ℕ}

/-- The calls a manager makes. -/
inductive Call where
  | apply_config (config : GatewayConfig)
  | apply_partial_config (config : GatewayConfigPartial)

/-- The request a call sends. -/
def Call.request : Call → GatewayRequest
  | .apply_config config => .apply config
  | .apply_partial_config diff => .applyPartial diff

/-- The JSON texts on the manager's side. -/
structure ManagerWire (w : ℕ) where
  to_string : GatewayRequest → Except String String
  from_str : String → Except String (GatewayResponse w)

/-- Where the manager is: between calls, reading until an answer, or in front of a call that has
    returned an error of the connection. -/
inductive Reading where | idle | waiting | failed
  deriving DecidableEq

/-- A manager and a session, with what is on its way between them. `made` are the calls made, `calls`
    those still to make, `answers` what the calls have returned. -/
structure Link (w : ℕ) where
  session : Session w
  down : List String
  up : List String
  manager : Reading
  made : List Call
  calls : List Call
  answers : List (Except String Unit)

def Link.start (s : Session w) (calls : List Call) : Link w := ⟨s, [], [], .idle, [], calls, []⟩

/-- One thing that happens: the manager sends its next request, reads a message or finds the connection
    gone; the session reads a request, or anything else happens to it. -/
inductive Act (w : ℕ) where
  | send (sending : Sending)
  | read
  | missing
  | deliver
  | session (input : Input w)

section
variable (os : Os) (deploy : Deployment) (wire : Wire w) (manager : ManagerWire w)

/-- `websocket.send` of the next request. -/
def Link.call (l : Link w) (call : Call) (calls : List Call) (sending : Sending) : Link w :=
  match manager.to_string call.request, sending with
  | .ok text, .ok =>
    { l with manager := .waiting, made := l.made ++ [call], calls := calls, down := l.down ++ [text] }
  | .ok text, .failed true _ =>
    { l with manager := .failed, made := l.made ++ [call], calls := calls, down := l.down ++ [text] }
  | _, _ => { l with manager := .failed }

/-- `websocket.next` yields a text. -/
def Link.take (l : Link w) (text : String) (up : List String) : Link w :=
  match manager.from_str text with
  | .ok (.apply status) => { l with manager := .idle, up := up, answers := l.answers ++ [status] }
  | .ok _ => { l with up := up }
  | .error _ => { l with manager := .failed, up := up }

/-- The texts a step of the session puts on its way: the message that was being sent, if it went out. -/
def Session.texts (s : Session w) : Input w → List String
  | .sent sending =>
    match s.phase, sending with
    | .sending _, .failed false _ => []
    | .sending message, _ => (wire.to_string message).toOption.toList
    | _, _ => []
  | _ => []

/-- Something happens to the session; the requests it reads are those on their way. -/
def Link.happen (l : Link w) : Input w → Link w
  | .message (.text _) => l
  | input =>
    { l with session := l.session.step os deploy wire input, up := l.up ++ l.session.texts wire input }

def Link.step (l : Link w) : Act w → Link w
  | .send sending =>
    match l.manager, l.calls with
    | .idle, call :: calls => l.call manager call calls sending
    | _, _ => l
  | .read =>
    match l.manager, l.up with
    | .waiting, text :: up => l.take manager text up
    | _, _ => l
  | .missing =>
    match l.manager with
    | .waiting => { l with manager := .failed }
    | _ => l
  | .deliver =>
    match l.session.phase, l.down with
    | .selecting, text :: down =>
      { l with session := l.session.step os deploy wire (.message (.text text)), down := down }
    | _, _ => l
  | .session input => l.happen os deploy wire input

def Link.run (l : Link w) (acts : List (Act w)) : Link w :=
  acts.foldl (Link.step os deploy wire manager) l

end

/-! ### What a step of the session sends and takes in -/

section
variable {os : Os} {deploy : Deployment} {wire : Wire w} {s : Session w}

@[simp] theorem Session.fail_sent (message : String) : (s.fail message).sent = s.sent := rfl

@[simp] theorem Session.fail_requests (message : String) : (s.fail message).requests = s.requests := rfl

@[simp] theorem Session.send_sent (message : GatewayResponse w) :
    (s.send wire message).sent = s.sent := by
  unfold Session.send
  split <;> rfl

@[simp] theorem Session.send_requests (message : GatewayResponse w) :
    (s.send wire message).requests = s.requests := by
  unfold Session.send
  split <;> rfl

@[simp] theorem Session.answer_sent (request : GatewayRequest) :
    (s.answer os deploy wire request).sent = s.sent := by
  unfold Session.answer
  split <;> simp

@[simp] theorem Session.answer_requests (request : GatewayRequest) :
    (s.answer os deploy wire request).requests = s.requests := by
  unfold Session.answer
  split <;> simp

theorem Session.forward_sent {α : Type} {sub : Receiver → Session w} {response : α → GatewayResponse w}
    (hsub : ∀ r, (sub r).sent = s.sent ∧ (sub r).requests = s.requests) (found : Recv α) :
    (s.forward wire sub response found).sent = s.sent ∧
      (s.forward wire sub response found).requests = s.requests := by
  cases found with
  | pending => exact ⟨rfl, rfl⟩
  | lagged missed => exact ⟨rfl, rfl⟩
  | value a r => simpa [Session.forward] using hsub r

/-- Requests come in as texts only. -/
theorem Session.step_requests {input : Input w} (h : ∀ text, input ≠ .message (.text text)) :
    (s.step os deploy wire input).requests = s.requests := by
  cases input with
  | traffic info => rfl
  | event event => rfl
  | connect result =>
    simp only [Session.step]
    split <;> rfl
  | subscribe =>
    simp only [Session.step]
    split <;> rfl
  | message message =>
    simp only [Session.step]
    split
    · cases message with
      | text text => exact absurd rfl (h text)
      | _ => rfl
    · rfl
  | recv_traffic =>
    simp only [Session.step]
    split
    · refine (Session.forward_sent ?_ _).2
      exact fun _ => ⟨rfl, rfl⟩
    · rfl
  | recv_event =>
    simp only [Session.step]
    split
    · refine (Session.forward_sent ?_ _).2
      exact fun _ => ⟨rfl, rfl⟩
    · rfl
  | handled =>
    simp only [Session.step]
    split <;> simp
  | sent sending =>
    simp only [Session.step]
    split
    · rcases sending with _ | ⟨_ | _, e⟩ <;> rfl
    · rfl

/-- Messages go out when a send returns, and not otherwise. -/
theorem Session.step_sent {input : Input w} (h : ∀ sending, input ≠ .sent sending) :
    (s.step os deploy wire input).sent = s.sent := by
  cases input with
  | traffic info => rfl
  | event event => rfl
  | connect result =>
    simp only [Session.step]
    split <;> rfl
  | subscribe =>
    simp only [Session.step]
    split <;> rfl
  | message message =>
    simp only [Session.step]
    split
    · cases message with
      | text text =>
        simp only [Session.receive]
        split <;> rfl
      | _ => rfl
    · rfl
  | recv_traffic =>
    simp only [Session.step]
    split
    · refine (Session.forward_sent ?_ _).1
      exact fun _ => ⟨rfl, rfl⟩
    · rfl
  | recv_event =>
    simp only [Session.step]
    split
    · refine (Session.forward_sent ?_ _).1
      exact fun _ => ⟨rfl, rfl⟩
    · rfl
  | handled =>
    simp only [Session.step]
    split <;> simp
  | sent sending => exact absurd rfl (h sending)

/-- A message that is being sent has a text. -/
def Session.Worded (wire : Wire w) (s : Session w) : Prop :=
  ∀ message, s.phase = .sending message → ∃ text, wire.to_string message = .ok text

theorem Session.send_worded (message : GatewayResponse w) : (s.send wire message).Worded wire := by
  unfold Session.send
  split
  · next text hok =>
    rintro _ ⟨⟩
    exact ⟨text, hok⟩
  · nofun

theorem Session.forward_worded {α : Type} {sub : Receiver → Session w}
    {response : α → GatewayResponse w} (h : s.Worded wire) (found : Recv α) :
    (s.forward wire sub response found).Worded wire := by
  cases found with
  | pending => exact h
  | lagged missed => nofun
  | value a r => exact Session.send_worded _

theorem Session.Worded.step (h : s.Worded wire) (input : Input w) :
    (s.step os deploy wire input).Worded wire := by
  cases input with
  | traffic info => exact h
  | event event => exact h
  | connect result =>
    simp only [Session.step]
    split <;> first | exact h | rintro _ ⟨⟩
  | subscribe =>
    simp only [Session.step]
    split <;> first | exact h | rintro _ ⟨⟩
  | message message =>
    simp only [Session.step]
    split
    · cases message with
      | text text =>
        simp only [Session.receive]
        split <;> rintro _ ⟨⟩
      | other => exact h
      | error e => rintro _ ⟨⟩
      | closed => rintro _ ⟨⟩
    · exact h
  | recv_traffic =>
    simp only [Session.step]
    split
    · exact Session.forward_worded h _
    · exact h
  | recv_event =>
    simp only [Session.step]
    split
    · exact Session.forward_worded h _
    · exact h
  | handled =>
    simp only [Session.step]
    split
    · unfold Session.answer
      split
      · exact Session.send_worded _
      · exact Session.send_worded _
      · rintro _ ⟨⟩
    · exact h
  | sent sending =>
    simp only [Session.step]
    split
    · rcases sending with _ | ⟨_ | _, e⟩ <;> rintro _ ⟨⟩
    · exact h

/-- What a step sends, and what it puts on its way. -/
theorem Session.Worded.texts (h : s.Worded wire) (input : Input w) :
    ∃ new, (s.step os deploy wire input).sent = s.sent ++ new ∧
      List.Forall₂ (fun message text => wire.to_string message = .ok text) new
        (s.texts wire input) := by
  cases input with
  | sent sending =>
    cases hp : s.phase with
    | sending message =>
      obtain ⟨text, hok⟩ := h message hp
      rcases sending with _ | ⟨_ | _, e⟩
      · exact ⟨[message], by simp [Session.step, hp, Session.finish],
          by simp [Session.texts, hp, hok, Except.toOption]⟩
      · exact ⟨[], by simp [Session.step, hp, Session.finish], by simp [Session.texts, hp]⟩
      · exact ⟨[message], by simp [Session.step, hp, Session.finish],
          by simp [Session.texts, hp, hok, Except.toOption]⟩
    | _ => exact ⟨[], by simp [Session.step, hp], by simp [Session.texts, hp]⟩
  | _ =>
    refine ⟨[], ?_, .nil⟩
    rw [List.append_nil]
    exact Session.step_sent (by rintro _ ⟨⟩)

end

/-! ### The invariant -/

/-- The texts of the two sides: a request the manager has written is read as it was, and a message the
    session has written is read as the answer it was, or as none if it was none. -/
structure Agree (wire : Wire w) (manager : ManagerWire w) (program : List Call) : Prop where
  request : ∀ call ∈ program, ∀ text, manager.to_string call.request = .ok text →
    wire.from_str text = .ok call.request
  response : ∀ message text, wire.to_string message = .ok text →
    ∃ message', manager.from_str text = .ok message' ∧ message'.outcome? = message.outcome?

section
variable (os : Os) (deploy : Deployment) (wire : Wire w) (manager : ManagerWire w) (world : World)

/-- What is on its way down are the calls the session has not read, and what is on its way up the
    messages the manager has not read. -/
structure Link.Sound (program : List Call) (l : Link w) : Prop where
  session : l.session.Sound os deploy world
  carries : l.session.Carries os deploy world
  worded : l.session.Worded wire
  program : l.made ++ l.calls = program
  down : ∃ pending, l.made.map Call.request = l.session.requests ++ pending ∧
    List.Forall₂ (fun request text => manager.to_string request = .ok text) pending l.down
  up : ∃ seen rest, l.session.sent = seen ++ rest ∧
    l.answers = seen.filterMap GatewayResponse.outcome? ∧
    List.Forall₂ (fun message text => wire.to_string message = .ok text) rest l.up
  idle : l.manager = .idle → l.made.length = l.answers.length
  waiting : l.manager = .waiting → l.made.length = l.answers.length + 1

end

section
variable {os : Os} {deploy : Deployment} {wire : Wire w} {manager : ManagerWire w} {world : World}
  {program : List Call} {l : Link w}

/-- The manager makes its next call. -/
theorem Link.Sound.call (h : l.Sound os deploy wire manager world program) {call : Call}
    {calls : List Call} (hm : l.manager = .idle) (hcalls : l.calls = call :: calls)
    (sending : Sending) :
    (l.call manager call calls sending).Sound os deploy wire manager world program := by
  obtain ⟨pending, hmade, hdown⟩ := h.down
  have hprogram : l.made ++ [call] ++ calls = program := by
    rw [List.append_assoc, ← h.program, hcalls]
    rfl
  -- the request is the last of those on their way down
  have hon : ∀ text, manager.to_string call.request = .ok text →
      ∃ pending, (l.made ++ [call]).map Call.request = l.session.requests ++ pending ∧
        List.Forall₂ (fun request text => manager.to_string request = .ok text) pending
          (l.down ++ [text]) := fun text htext =>
    ⟨pending ++ [call.request], by rw [List.map_append, hmade, List.append_assoc]; rfl,
      List.rel_append hdown (.cons htext .nil)⟩
  have hlen : (l.made ++ [call]).length = l.answers.length + 1 := by
    rw [List.length_append, h.idle hm]
    rfl
  unfold Link.call
  split
  · next text htext =>
    exact ⟨h.session, h.carries, h.worded, hprogram, hon text htext, h.up, nofun, fun _ => hlen⟩
  · next text _ htext =>
    exact ⟨h.session, h.carries, h.worded, hprogram, hon text htext, h.up, nofun, nofun⟩
  · exact ⟨h.session, h.carries, h.worded, h.program, h.down, h.up, nofun, nofun⟩

/-- The manager reads a message. -/
theorem Link.Sound.take (h : l.Sound os deploy wire manager world program)
    (hagree : Agree wire manager program) {text : String} {up : List String}
    (hm : l.manager = .waiting) (hup : l.up = text :: up) :
    (l.take manager text up).Sound os deploy wire manager world program := by
  obtain ⟨seen, rest, hsent, hanswers, hrest⟩ := h.up
  rw [hup] at hrest
  cases hrest with
  | @cons message _ rest _ htext hrest =>
    obtain ⟨message', hread, houtcome⟩ := hagree.response message text htext
    have hseen : l.session.sent = (seen ++ [message]) ++ rest := by
      rw [hsent, List.append_assoc]
      rfl
    have hwait := h.waiting hm
    unfold Link.take
    split
    · next status hstatus =>
      -- the answer to the one call that is waiting
      obtain rfl := Except.ok.inj (hread.symm.trans hstatus)
      refine ⟨h.session, h.carries, h.worded, h.program, h.down,
        ⟨seen ++ [message], rest, hseen, ?_, hrest⟩, fun _ => ?_, nofun⟩
      · have hsome : message.outcome? = some status := houtcome.symm
        rw [List.filterMap_append, ← hanswers]
        simp [hsome]
      · rw [hwait, List.length_append]
        rfl
    · next other hnot hother =>
      obtain rfl := Except.ok.inj (hread.symm.trans hother)
      have hnone : message.outcome? = none := by
        rw [← houtcome]
        cases message' with
        | apply status => exact absurd rfl (hnot status)
        | traffic info => rfl
        | event event => rfl
      refine ⟨h.session, h.carries, h.worded, h.program, h.down,
        ⟨seen ++ [message], rest, hseen, ?_, hrest⟩, fun hidle => h.idle hidle, fun _ => hwait⟩
      rw [List.filterMap_append, ← hanswers]
      simp [hnone]
    · next e herror => exact absurd (hread.symm.trans herror) nofun

/-- The session reads the request of a call. -/
theorem Link.Sound.reads (h : l.Sound os deploy wire manager world program)
    (hagree : Agree wire manager program) {text : String} {down : List String}
    (hp : l.session.phase = .selecting) (hdown : l.down = text :: down) :
    ∃ (call : Call) (pending : List GatewayRequest),
      l.made.map Call.request = l.session.requests ++ call.request :: pending ∧
      List.Forall₂ (fun request text => manager.to_string request = .ok text) pending down ∧
      l.session.step os deploy wire (.message (.text text)) = { l.session with
        phase := .handling call.request
        requests := l.session.requests ++ [call.request] } := by
  obtain ⟨pending, hmade, htexts⟩ := h.down
  rw [hdown] at htexts
  cases htexts with
  | @cons request _ pending _ htext htexts =>
    obtain ⟨call, hcall, rfl⟩ : ∃ call ∈ l.made, call.request = request := by
      have : request ∈ l.made.map Call.request := by
        rw [hmade]
        simp
      simpa using this
    have hmem : call ∈ program := h.program ▸ List.mem_append_left _ hcall
    have hread := hagree.request call hmem text htext
    refine ⟨call, pending, hmade, htexts, ?_⟩
    simp only [Session.step, hp, Session.receive, hread]
    cases call <;> rfl

theorem Link.Sound.deliver (h : l.Sound os deploy wire manager world program)
    (hagree : Agree wire manager program) {text : String} {down : List String}
    (hp : l.session.phase = .selecting) (hdown : l.down = text :: down) :
    Link.Sound os deploy wire manager world program
      { l with session := l.session.step os deploy wire (.message (.text text)), down := down } := by
  obtain ⟨call, pending, hmade, htexts, hstep⟩ := h.reads hagree hp hdown
  have hworded : (l.session.step os deploy wire (.message (.text text))).Worded wire := h.worded.step _
  refine ⟨h.session.step (.message (.text text)), h.carries.step (.message (.text text)),
    hworded, h.program, ⟨pending, ?_, htexts⟩, ?_, h.idle, h.waiting⟩
  · rw [hstep, hmade, List.append_assoc]
    rfl
  · rw [hstep]
    exact h.up

/-- Anything else that happens to the session. -/
theorem Link.Sound.session_step (h : l.Sound os deploy wire manager world program) {input : Input w}
    (hinput : ∀ text, input ≠ .message (.text text)) :
    Link.Sound os deploy wire manager world program { l with
      session := l.session.step os deploy wire input, up := l.up ++ l.session.texts wire input } := by
  obtain ⟨seen, rest, hsent, hanswers, hrest⟩ := h.up
  obtain ⟨new, hnew, htexts⟩ : ∃ new, (l.session.step os deploy wire input).sent =
      l.session.sent ++ new ∧ List.Forall₂ (fun message text => wire.to_string message = .ok text) new
        (l.session.texts wire input) := h.worded.texts input
  refine ⟨h.session.step _, h.carries.step _, h.worded.step _, h.program, ?_, ?_, h.idle, h.waiting⟩
  · rw [Session.step_requests hinput]
    exact h.down
  · refine ⟨seen, rest ++ new, ?_, hanswers, List.rel_append hrest htexts⟩
    rw [hnew, hsent, List.append_assoc]

theorem Link.Sound.step (h : l.Sound os deploy wire manager world program)
    (hagree : Agree wire manager program) (act : Act w) :
    (l.step os deploy wire manager act).Sound os deploy wire manager world program := by
  cases act with
  | send sending =>
    simp only [Link.step]
    split
    · next call calls hm hcalls => exact h.call hm hcalls sending
    · exact h
  | read =>
    simp only [Link.step]
    split
    · next text up hm hup => exact h.take hagree hm hup
    · exact h
  | missing =>
    simp only [Link.step]
    split
    · exact ⟨h.session, h.carries, h.worded, h.program, h.down, h.up, nofun, nofun⟩
    · exact h
  | deliver =>
    simp only [Link.step]
    split
    · next text down hp hdown => exact h.deliver hagree hp hdown
    · exact h
  | session input =>
    simp only [Link.step, Link.happen]
    split
    · exact h
    · next hinput => exact h.session_step hinput

theorem Link.Sound.run (hagree : Agree wire manager program) (acts : List (Act w)) : ∀ {l : Link w},
    l.Sound os deploy wire manager world program →
      (l.run os deploy wire manager acts).Sound os deploy wire manager world program := by
  induction acts with
  | nil => exact fun h => h
  | cons act acts ih => exact fun h => ih (h.step hagree act)

theorem Link.start_sound (traffic : List (TrafficInfo w)) (events : List GatewayEvent) :
    (Link.start (Session.start traffic events world) program).Sound os deploy wire manager world
      program where
  session := Session.start_sound traffic events
  carries := rfl
  worded := nofun
  program := rfl
  down := ⟨[], rfl, .nil⟩
  up := ⟨[], [], rfl, rfl, .nil⟩
  idle _ := rfl
  waiting := nofun

end

/-! ### Schedules -/

/-- The configuration a manager keeps of its own: a whole one replaces it, a diff is folded in. -/
def Call.mirror (config : GatewayConfig) : Call → GatewayConfig
  | .apply_config whole => whole
  | .apply_partial_config diff => config.apply_partial diff

section
variable {os : Os} {deploy : Deployment}

/-- A call that is answered `Ok` stores what the manager keeps. -/
theorem Call.stored {call : Call} {world : World}
    (h : outcome ((respond os deploy call.request).run world) = some (.ok ())) :
    (final ((respond os deploy call.request).run world)).stored = call.mirror world.stored := by
  cases call with
  | apply_config config => exact apply_stored config world
  | apply_partial_config diff =>
    have hrun : ∃ world',
        (FractalGateway.apply_partial os deploy diff).run world = .ok () world' := by
      simp only [Call.request, respond] at h
      cases hr : (FractalGateway.apply_partial os deploy diff).run world with
      | ok u world' => exact ⟨world', rfl⟩
      | error e world' =>
        rw [hr] at h
        cases e <;> cases h
    obtain ⟨world', hrun⟩ := hrun
    have hstored := apply_partial_stored hrun
    simpa [Call.request, Call.mirror, respond, hrun] using hstored

/-- And so for calls in a row. -/
theorem Call.mirrors_stored : ∀ {calls : List Call} {world : World},
    (∀ o ∈ outcomes os deploy (calls.map Call.request) world, o = some (.ok ())) →
      (worldAfter os deploy (calls.map Call.request) world).stored =
        calls.foldl Call.mirror world.stored
  | [], _, _ => rfl
  | call :: calls, world, h => by
      rw [List.map_cons, outcomes, List.forall_mem_cons] at h
      rw [List.map_cons, worldAfter, Call.mirrors_stored h.2, Call.stored h.1, List.foldl_cons]

end

/-- The answers of a manager's calls, and what it knows by them. -/
structure Link.Paired (os : Os) (deploy : Deployment) (world : World) (program : List Call)
    (l : Link w) : Prop where
  program : l.made ++ l.calls = program
  answers : l.answers.map some <+: outcomes os deploy (l.made.map Call.request) world
  idle : l.manager = .idle → l.made.length = l.answers.length
  waiting : l.manager = .waiting → l.made.length = l.answers.length + 1
  mirror : l.manager = .idle → (∀ status ∈ l.answers, status = .ok ()) →
    l.session.world.stored = l.made.foldl Call.mirror world.stored

/-- The request in the handler has not been answered. -/
theorem Session.Sound.handling_missing {os : Os} {deploy : Deployment} {world : World} {s : Session w}
    (h : s.Sound os deploy world) {request : GatewayRequest} (hp : s.phase = .handling request) :
    s.requests.length = (s.sent.filterMap GatewayResponse.outcome?).length + 1 := by
  obtain ⟨held, unanswered, done, hholds, hreq, htold⟩ := h.told
  rw [hp] at hholds
  obtain ⟨rfl, rfl⟩ := hholds
  have hlen := congrArg List.length htold.answers
  rw [List.append_nil, List.length_map, outcomes_length] at hlen
  rw [hreq, List.length_append, hlen]
  rfl

theorem outcomes_mono (os : Os) (deploy : Deployment) (world : World)
    {requests more : List GatewayRequest} (h : requests <+: more) :
    outcomes os deploy requests world <+: outcomes os deploy more world := by
  obtain ⟨rest, rfl⟩ := h
  rw [outcomes_append]
  exact List.prefix_append _ _

/-- On every schedule of the manager, the session, the watchdog's broadcasts and the connection, each
    call returns the outcome of its own request, in the world its calls before it have left; and when
    all calls so far were answered `Ok`, the stored configuration is the one the manager keeps. -/
theorem calls_get_their_answers (os : Os) (deploy : Deployment) (wire : Wire w)
    (manager : ManagerWire w) (traffic : List (TrafficInfo w)) (events : List GatewayEvent)
    (world : World) (program : List Call) (acts : List (Act w)) (hagree : Agree wire manager program) :
    ((Link.start (Session.start traffic events world) program).run os deploy wire manager
      acts).Paired os deploy world program := by
  have hsound : ((Link.start (Session.start traffic events world) program).run os deploy wire manager
      acts).Sound os deploy wire manager world program :=
    Link.Sound.run hagree acts (Link.start_sound traffic events)
  generalize (Link.start (Session.start traffic events world) program).run os deploy wire manager
    acts = l at *
  obtain ⟨pending, hmade, _⟩ := hsound.down
  obtain ⟨seen, rest, hsent, hanswers, _⟩ := hsound.up
  have horder := hsound.session.inOrder
  have hprefix : l.answers.map some <+:
      (l.session.sent.filterMap GatewayResponse.outcome?).map some := by
    rw [hsent, List.filterMap_append, List.map_append, hanswers]
    exact List.prefix_append _ _
  have hasked : l.session.requests <+: l.made.map Call.request := ⟨pending, hmade.symm⟩
  have hall : l.answers.map some <+: outcomes os deploy (l.made.map Call.request) world :=
    hprefix.trans (horder.answers.trans (outcomes_mono os deploy world hasked))
  refine ⟨hsound.program, hall, hsound.idle, hsound.waiting, fun hidle hok => ?_⟩
  -- every call is answered, so the session has read and handled every one of them
  have hlen := hsound.idle hidle
  have hanswered := hprefix.length_le
  simp only [List.length_map] at hanswered
  have hread : l.session.requests = l.made.map Call.request := by
    refine hasked.eq_of_length_le ?_
    have hsessions := horder.answers.length_le
    simp only [List.length_map, outcomes_length] at hsessions ⊢
    omega
  have hidling : ∀ request, l.session.phase ≠ .handling request := by
    intro request hp
    have hmissing := hsound.session.handling_missing hp
    rw [hread, List.length_map] at hmissing
    omega
  rw [hsound.carries.settled hidling, hread]
  refine Call.mirrors_stored fun o ho => ?_
  have heq : l.answers.map some = outcomes os deploy (l.made.map Call.request) world := by
    refine hall.eq_of_length ?_
    rw [List.length_map, outcomes_length, List.length_map, hlen]
  rw [← heq] at ho
  obtain ⟨status, hstatus, rfl⟩ := List.mem_map.mp ho
  rw [hok status hstatus]

/-! ### Calls can return -/

section
variable {os : Os} {deploy : Deployment} {wire : Wire w} {manager : ManagerWire w} {world : World}
  {program : List Call} {l : Link w}

theorem Link.run_append (acts more : List (Act w)) :
    l.run os deploy wire manager (acts ++ more) =
      (l.run os deploy wire manager acts).run os deploy wire manager more := by
  rw [Link.run, List.foldl_append]
  rfl

/-- Each of these calls has an outcome, and the outcome a text: no handler panics, and every answer can
    be written. -/
def Answerable (os : Os) (deploy : Deployment) (wire : Wire w) (world : World) (calls : List Call) :
    Prop :=
  ∀ o ∈ outcomes os deploy (calls.map Call.request) world,
    ∃ status text, o = some status ∧ wire.to_string (.apply status) = .ok text

/-- There is a way on from here to a call that has returned with an answer. -/
def Link.CanReturn (os : Os) (deploy : Deployment) (wire : Wire w) (manager : ManagerWire w)
    (l : Link w) : Prop :=
  ∃ acts, (l.run os deploy wire manager acts).manager = .idle

theorem Link.CanReturn.of_step (act : Act w)
    (h : (l.step os deploy wire manager act).CanReturn os deploy wire manager) :
    l.CanReturn os deploy wire manager := by
  obtain ⟨acts, hacts⟩ := h
  exact ⟨act :: acts, hacts⟩

/-- An answer that is on its way up is read. -/
theorem Link.canReturn_of_up (hagree : Agree wire manager program) :
    ∀ {rest : List (GatewayResponse w)} {l : Link w}, l.manager = .waiting →
      List.Forall₂ (fun message text => wire.to_string message = .ok text) rest l.up →
      rest.filterMap GatewayResponse.outcome? ≠ [] → l.CanReturn os deploy wire manager
  | [], _, _, _, hne => absurd rfl hne
  | message :: rest, l, hm, hup, hne => by
      cases hu : l.up with
      | nil =>
        rw [hu] at hup
        cases hup
      | cons text up =>
        rw [hu] at hup
        obtain ⟨htext, hrest⟩ := List.forall₂_cons.mp hup
        obtain ⟨message', hread, houtcome⟩ := hagree.response message text htext
        have hstep : l.step os deploy wire manager .read = l.take manager text up := by
          simp only [Link.step, hm, hu]
        refine Link.CanReturn.of_step .read ?_
        rw [hstep]
        cases message' with
        | apply status => exact ⟨[], by simp [Link.run, Link.take, hread]⟩
        | traffic info =>
          have hnone : message.outcome? = none := houtcome.symm
          refine Link.canReturn_of_up hagree ?_ ?_ (by simpa [hnone] using hne)
          · simpa [Link.take, hread] using hm
          · simpa [Link.take, hread] using hrest
        | event event =>
          have hnone : message.outcome? = none := houtcome.symm
          refine Link.canReturn_of_up hagree ?_ ?_ (by simpa [hnone] using hne)
          · simpa [Link.take, hread] using hm
          · simpa [Link.take, hread] using hrest

/-- The messages the manager has not read hold an answer, or all answers that were sent are read. -/
theorem Link.Sound.canReturn_or (h : l.Sound os deploy wire manager world program)
    (hagree : Agree wire manager program) (hm : l.manager = .waiting) :
    l.CanReturn os deploy wire manager ∨
      (l.session.sent.filterMap GatewayResponse.outcome?).length = l.answers.length := by
  obtain ⟨seen, rest, hsent, hanswers, hrest⟩ := h.up
  by_cases hne : rest.filterMap GatewayResponse.outcome? = []
  · right
    rw [hsent, List.filterMap_append, hne, List.append_nil, hanswers]
  · exact Or.inl (Link.canReturn_of_up hagree hm hrest hne)

/-- No more answers were read than were sent. -/
theorem Link.Sound.answers_le (h : l.Sound os deploy wire manager world program) :
    l.answers.length ≤ (l.session.sent.filterMap GatewayResponse.outcome?).length := by
  obtain ⟨seen, rest, hsent, hanswers, _⟩ := h.up
  rw [hsent, hanswers, List.filterMap_append, List.length_append]
  exact Nat.le_add_right _ _

section
variable (hagree : Agree wire manager program)
include hagree

/-- The answer is being sent. -/
theorem Link.Sound.canReturn_sending (h : l.Sound os deploy wire manager world program)
    (hm : l.manager = .waiting) {status : Except String Unit}
    (hp : l.session.phase = .sending (.apply status)) : l.CanReturn os deploy wire manager := by
  refine Link.CanReturn.of_step (.session (.sent .ok)) ?_
  have hnext : (l.step os deploy wire manager (.session (.sent .ok))).Sound os deploy wire manager
      world program := h.step hagree _
  have hsent : (l.step os deploy wire manager (.session (.sent .ok))).session.sent =
      l.session.sent ++ [.apply status] := by
    simp [Link.step, Link.happen, Session.step, hp, Session.finish]
  refine (hnext.canReturn_or hagree hm).resolve_right fun hlen => ?_
  have hle := h.answers_le
  have hanswers : (l.step os deploy wire manager (.session (.sent .ok))).answers = l.answers := rfl
  have hone : ([.apply status] : List (GatewayResponse w)).filterMap GatewayResponse.outcome? =
      [status] := rfl
  rw [hsent, List.filterMap_append, List.length_append, hone, List.length_singleton, hanswers] at hlen
  omega

/-- The request is being handled. -/
theorem Link.Sound.canReturn_handling (h : l.Sound os deploy wire manager world program)
    (hm : l.manager = .waiting) (hcalls : Answerable os deploy wire world l.made)
    {request : GatewayRequest} (hp : l.session.phase = .handling request) :
    l.CanReturn os deploy wire manager := by
  -- the outcome of the request is one of those the calls have
  obtain ⟨status, text, hstatus, htext⟩ : ∃ status text,
      outcome ((respond os deploy request).run l.session.world) = some status ∧
        wire.to_string (.apply status) = .ok text := by
    obtain ⟨pending, hmade, _⟩ := h.down
    have hcarries := h.carries
    unfold Session.Carries at hcarries
    rw [hp] at hcarries
    obtain ⟨done, hreq, hworld⟩ := hcarries
    refine hcalls _ ?_
    rw [hmade, hreq, outcomes_append, outcomes_append, ← hworld, outcomes]
    simp
  have hanswer : (l.session.answer os deploy wire request).phase = .sending (.apply status) := by
    unfold Session.answer
    cases hrun : (respond os deploy request).run l.session.world with
    | ok u world' =>
      rw [hrun] at hstatus
      cases hstatus
      simp only [Session.send, htext]
    | error e world' =>
      rw [hrun] at hstatus
      cases e <;> cases hstatus
      simp only [Session.send, htext]
  refine Link.CanReturn.of_step (.session .handled) ?_
  have hnext : (l.step os deploy wire manager (.session .handled)).Sound os deploy wire manager
      world program := h.step hagree _
  have hphase : (l.step os deploy wire manager (.session .handled)).session.phase =
      .sending (.apply status) := by
    simpa [Link.step, Link.happen, Session.step, hp] using hanswer
  exact hnext.canReturn_sending hagree hm hphase

/-- The session is ready to read. -/
theorem Link.Sound.canReturn_selecting (h : l.Sound os deploy wire manager world program)
    (hm : l.manager = .waiting) (hcalls : Answerable os deploy wire world l.made)
    (hp : l.session.phase = .selecting) : l.CanReturn os deploy wire manager := by
  refine (h.canReturn_or hagree hm).elim id fun hread => ?_
  -- the session has answered all it has read, so the request is still on its way
  have htold := (h.session.selecting hp).1
  have hlen := congrArg List.length htold.answers
  rw [List.length_map, outcomes_length] at hlen
  have hwait := h.waiting hm
  cases hd : l.down with
  | nil =>
    obtain ⟨pending, hmade, hdown⟩ := h.down
    rw [hd, List.forall₂_nil_right_iff] at hdown
    have hmissing := congrArg List.length hmade
    rw [hdown, List.append_nil, List.length_map] at hmissing
    omega
  | cons text down =>
    obtain ⟨call, _, _, _, hstep⟩ := h.reads hagree hp hd
    refine Link.CanReturn.of_step .deliver ?_
    have hnext : (l.step os deploy wire manager .deliver).Sound os deploy wire manager world
        program := h.step hagree _
    have hlink : l.step os deploy wire manager .deliver = { l with
        session := l.session.step os deploy wire (.message (.text text)), down := down } := by
      simp only [Link.step, hp, hd]
    rw [hlink] at hnext ⊢
    exact hnext.canReturn_handling hagree hm hcalls (congrArg Session.phase hstep)

theorem Link.Sound.canReturn (h : l.Sound os deploy wire manager world program)
    (hm : l.manager = .waiting) (hcalls : Answerable os deploy wire world l.made)
    (hloop : l.session.phase.hears_events = true) : l.CanReturn os deploy wire manager := by
  cases hp : l.session.phase with
  | selecting => exact h.canReturn_selecting hagree hm hcalls hp
  | handling request => exact h.canReturn_handling hagree hm hcalls hp
  | sending message =>
    -- whatever is on its way out goes out first
    refine Link.CanReturn.of_step (.session (.sent .ok)) ?_
    have hnext : (l.step os deploy wire manager (.session (.sent .ok))).Sound os deploy wire manager
        world program := h.step hagree _
    refine hnext.canReturn_selecting hagree hm hcalls ?_
    simp [Link.step, Link.happen, Session.step, hp, Session.finish]
  | _ =>
    rw [hp] at hloop
    cases hloop

end

end

/-- On every schedule: as long as the session is in its loop, a call that waits can still be answered.
    Nothing that has happened, no traffic, no event and no earlier request, leaves manager and session
    waiting for each other. -/
theorem waiting_call_can_return (os : Os) (deploy : Deployment) (wire : Wire w)
    (manager : ManagerWire w) (traffic : List (TrafficInfo w)) (events : List GatewayEvent)
    (world : World) (program : List Call) (acts : List (Act w)) (hagree : Agree wire manager program)
    (hm : ((Link.start (Session.start traffic events world) program).run os deploy wire manager
      acts).manager = .waiting)
    (hcalls : Answerable os deploy wire world ((Link.start (Session.start traffic events world)
      program).run os deploy wire manager acts).made)
    (hloop : ((Link.start (Session.start traffic events world) program).run os deploy wire manager
      acts).session.phase.hears_events = true) :
    ∃ more, ((Link.start (Session.start traffic events world) program).run os deploy wire manager
      (acts ++ more)).manager = .idle := by
  have hsound : ((Link.start (Session.start traffic events world) program).run os deploy wire manager
      acts).Sound os deploy wire manager world program :=
    Link.Sound.run hagree acts (Link.start_sound traffic events)
  obtain ⟨more, hmore⟩ := hsound.canReturn hagree hm hcalls hloop
  exact ⟨more, by rw [Link.run_append]; exact hmore⟩

/-- The manager's side of the texts. -/
def Bench.manager : ManagerWire 64 where
  to_string
    | .apply _ => .ok configText
    | .applyPartial _ => .ok removalText
    | .shutdown => .ok "\"Shutdown\""
  from_str text :=
    if text = okText then .ok (.apply (.ok ()))
    else if text = upText then .ok (.event up)
    else .error "expected value"

/-- A configuration, then a diff that removes its network. -/
def Bench.program : List Call :=
  [.apply_config (config 5000 (bare 5000)), .apply_partial_config (removal 5000)]

theorem Bench.read_config :
    Bench.wire.from_str Bench.configText = .ok (.apply (config 5000 (bare 5000))) := by
  simp only [Bench.wire]
  rw [if_neg (by decide +kernel), if_pos trivial]

theorem Bench.read_removal :
    Bench.wire.from_str Bench.removalText = .ok (.applyPartial (removal 5000)) := by
  simp only [Bench.wire]
  rw [if_neg (by decide +kernel), if_neg (by decide +kernel), if_pos trivial]

theorem Bench.read_up : Bench.manager.from_str Bench.upText = .ok (.event Bench.up) := by
  simp only [Bench.manager]
  rw [if_neg (by decide +kernel), if_pos trivial]

theorem Bench.agree : Agree Bench.wire Bench.manager Bench.program where
  request call hcall text htext := by
    simp only [Bench.program, List.mem_cons, List.not_mem_nil, or_false] at hcall
    rcases hcall with rfl | rfl
    · cases htext
      exact Bench.read_config
    · cases htext
      exact Bench.read_removal
  response message text htext := by
    cases message with
    | apply result =>
      cases result with
      | ok u =>
        cases htext
        exact ⟨.apply (.ok ()), by simp [Bench.manager], rfl⟩
      | error e => cases htext
    | traffic info => cases htext
    | event event =>
      simp only [Bench.wire] at htext
      split at htext
      · cases htext
        exact ⟨.event up, Bench.read_up, rfl⟩
      · cases htext

/-- A session begins; the manager's first call has returned, and the second one waits with an event in
    front of its answer. -/
def Bench.asking : List (Act 64) :=
  [.session (.connect (.ok ())), .session .subscribe, .session .subscribe, .send .ok, .deliver,
    .session (.event up), .session .handled, .session (.sent .ok), .read, .send .ok,
    .session .recv_event, .session (.sent .ok), .deliver]

/-- The session answers; the manager passes over the event and reads the answer. -/
def Bench.answering : List (Act 64) :=
  [.session .handled, .session (.sent .ok), .read, .read]

theorem calls_get_their_answers_twice :
    ((Link.start (Session.start [] [] Bench.world) Bench.program).run Bench.os Bench.deploy
        Bench.wire Bench.manager (Bench.asking ++ Bench.answering)).answers = [.ok (), .ok ()] ∧
      ((Link.start (Session.start [] [] Bench.world) Bench.program).run Bench.os Bench.deploy
        Bench.wire Bench.manager (Bench.asking ++ Bench.answering)).Paired Bench.os Bench.deploy
          Bench.world Bench.program :=
  ⟨by decide +kernel, calls_get_their_answers Bench.os Bench.deploy Bench.wire Bench.manager [] []
    Bench.world Bench.program _ Bench.agree⟩

theorem waiting_call_can_return_twice :
    ∃ more, ((Link.start (Session.start [] [] Bench.world) Bench.program).run Bench.os
      Bench.deploy Bench.wire Bench.manager (Bench.asking ++ more)).manager = .idle := by
  refine waiting_call_can_return Bench.os Bench.deploy Bench.wire Bench.manager [] [] Bench.world
    Bench.program Bench.asking Bench.agree (by decide +kernel) ?_ (by decide +kernel)
  intro o ho
  have hcalls : ((Link.start (Session.start [] [] Bench.world) Bench.program).run Bench.os
      Bench.deploy Bench.wire Bench.manager Bench.asking).calls = [] :=
    List.length_eq_zero_iff.mp (by decide +kernel)
  have hmade : ((Link.start (Session.start [] [] Bench.world) Bench.program).run Bench.os
      Bench.deploy Bench.wire Bench.manager Bench.asking).made ++ _ = Bench.program :=
    (Link.Sound.run Bench.agree Bench.asking (Link.start_sound [] [])).program
  rw [hcalls, List.append_nil] at hmade
  have hboth : outcomes Bench.os Bench.deploy (Bench.program.map Call.request) Bench.world =
      [some (.ok ()), some (.ok ())] := by decide +kernel
  rw [hmade, hboth] at ho
  simp only [List.mem_cons, List.not_mem_nil, or_false, or_self] at ho
  exact ⟨.ok (), _, ho, rfl⟩

end FractalGateway
