import FractalGateway.Lib.Broadcast
import FractalGateway.Client.Traffic
import FractalGateway.Client.Event
import FractalGateway.Gateway.Apply

/-! A session with the manager: requests come in on a websocket, their answers and what the watchdog
    broadcasts go out on it.

        connecting ──▶ connected ──▶ subscribed ──▶ selecting ──────────────▶ ended (Ok)
                     traffic       events           │  ▲    Shutdown
                     subscribed    subscribed       ▼  │ sent
                                        handling ──▶ sending ──▶ ended (error)
                                        Apply(Partial)

    `step` is one thing happening: the session itself moving on, the manager sending a message, or
    the watchdog broadcasting while the session is anywhere. What is not possible in a phase changes
    nothing, so every schedule is a list of inputs. A value is taken from a channel only when nothing
    else is on its way out, and every error on the way ends the session, which is why what has been
    sent is, apart from one last message or request, all there was to send (`InOrder`). -/

namespace FractalGateway
open Exec Broadcast

/-- `GatewayResponse`: what the gateway sends. -/
inductive GatewayResponse (w : ℕ) where
  | traffic (info : TrafficInfo w)
  | event (event : GatewayEvent)
  | apply (result : Except String Unit)

def BROADCAST_QUEUE_TRAFFIC : ℕ := 16
def BROADCAST_QUEUE_EVENTS : ℕ := 16

/-- The JSON texts of requests and responses. -/
structure Wire (w : ℕ) where
  from_str : String → Except String GatewayRequest
  to_string : GatewayResponse w → Except String String

/-- What `socket.next()` yields: a text, a message of another kind, an error, or the end. -/
inductive Incoming where
  | text (text : String)
  | other
  | error (message : String)
  | closed

/-- Where `connect_run` is. -/
inductive Phase (w : ℕ) where
  | connecting
  | connected
  | subscribed
  | selecting
  | handling (request : GatewayRequest)
  | sending (message : GatewayResponse w)
  | ended (result : Except Fail Unit)

/-- How a send goes: it succeeds, or fails with the message gone out or not. -/
inductive Sending where
  | ok
  | failed (out : Bool) (message : String)

/-- One thing that happens. -/
inductive Input (w : ℕ) where
  | connect (result : Except String Unit)
  | subscribe
  | traffic (info : TrafficInfo w)
  | event (event : GatewayEvent)
  | message (message : Incoming)
  | recv_traffic
  | recv_event
  | handled
  | sent (sending : Sending)

/-- A session, the channels it listens to, and the gateway it works for. `requests` and `shutdown`
    record what has been received, `sent` what has gone out. -/
structure Session (w : ℕ) where
  phase : Phase w
  traffic_broadcast : Channel (TrafficInfo w)
  events_broadcast : Channel GatewayEvent
  traffic_sub : Receiver
  events_sub : Receiver
  world : World
  requests : List GatewayRequest
  shutdown : Bool
  sent : List (GatewayResponse w)

variable {w : ℕ}

/-- Before the connection is made; the channels have been in use. -/
def Session.start (traffic : List (TrafficInfo w)) (events : List GatewayEvent) (world : World) :
    Session w where
  phase := .connecting
  traffic_broadcast := ⟨BROADCAST_QUEUE_TRAFFIC, traffic⟩
  events_broadcast := ⟨BROADCAST_QUEUE_EVENTS, events⟩
  traffic_sub := ⟨0, 0⟩
  events_sub := ⟨0, 0⟩
  world := world
  requests := []
  shutdown := false
  sent := []

/-! ### Steps -/

section
variable (os : Os) (deploy : Deployment) (wire : Wire w)

/-- `?` on an error. -/
def Session.fail (s : Session w) (message : String) : Session w :=
  { s with phase := .ended (.error (.err [message])) }

/-- Turn a message into text and begin to send it. -/
def Session.send (s : Session w) (message : GatewayResponse w) : Session w :=
  match wire.to_string message with
  | .ok _ => { s with phase := .sending message }
  | .error e => s.fail e

/-- The arm of `socket.next()`. -/
def Session.receive (s : Session w) : Incoming → Session w
  | .text text =>
    match wire.from_str text with
    | .ok .shutdown => { s with phase := .ended (.ok ()), shutdown := true }
    | .ok request => { s with phase := .handling request, requests := s.requests ++ [request] }
    | .error e => s.fail e
  | .other => s
  | .error e => s.fail e
  | .closed => s.fail "Server closed WebSocket stream"

/-- The handler of a request returns: success and errors are answered, errors by their outermost
    line; a panic takes the session down. -/
def Session.answer (s : Session w) (request : GatewayRequest) : Session w :=
  match (respond os deploy request).run s.world with
  | .ok _ world => Session.send wire { s with world := world } (.apply (.ok ()))
  | .error (.err chain) world =>
    Session.send wire { s with world := world } (.apply (.error (chain.headD "")))
  | .error (.panic reason) world =>
    { s with world := world, phase := .ended (.error (.panic reason)) }

/-- The arms of the subscriptions, given what the read found. -/
def Session.forward {α : Type} (s : Session w) (sub : Receiver → Session w)
    (response : α → GatewayResponse w) : Recv α → Session w
  | .pending => s
  | .lagged missed => s.fail ("channel lagged by " ++ toString missed)
  | .value a receiver => (sub receiver).send wire (response a)

/-- A send returns. -/
def Session.finish (s : Session w) (message : GatewayResponse w) : Sending → Session w
  | .ok => { s with sent := s.sent ++ [message], phase := .selecting }
  | .failed out e =>
    Session.fail (if out then { s with sent := s.sent ++ [message] } else s) e

def Session.step (s : Session w) : Input w → Session w
  | .traffic info => { s with traffic_broadcast := s.traffic_broadcast.send info }
  | .event event => { s with events_broadcast := s.events_broadcast.send event }
  | .connect result =>
    match s.phase, result with
    | .connecting, .ok _ => { s with phase := .connected }
    | .connecting, .error e => s.fail e
    | _, _ => s
  | .subscribe =>
    match s.phase with
    | .connected => { s with traffic_sub := s.traffic_broadcast.subscribe, phase := .subscribed }
    | .subscribed => { s with events_sub := s.events_broadcast.subscribe, phase := .selecting }
    | _ => s
  | .message message =>
    match s.phase with
    | .selecting => s.receive wire message
    | _ => s
  | .recv_traffic =>
    match s.phase with
    | .selecting => s.forward wire (fun sub => { s with traffic_sub := sub }) .traffic
        (s.traffic_broadcast.recv s.traffic_sub)
    | _ => s
  | .recv_event =>
    match s.phase with
    | .selecting => s.forward wire (fun sub => { s with events_sub := sub }) .event
        (s.events_broadcast.recv s.events_sub)
    | _ => s
  | .handled =>
    match s.phase with
    | .handling request => s.answer os deploy wire request
    | _ => s
  | .sent sending =>
    match s.phase with
    | .sending message => s.finish message sending
    | _ => s

/-- `connect_run` under a schedule. -/
def Session.run (s : Session w) (inputs : List (Input w)) : Session w :=
  inputs.foldl (Session.step os deploy wire) s

end

end FractalGateway
