import FractalGateway.Net

/-! Gateway events, and the map a manager keeps by folding them in.

    `replay` is the manager: a connection sets the pair, an endpoint change overwrites a pair that is
    connected, a disconnection removes it. A pair's entry depends on the events about that pair
    only (`replay_pair`), which is what lets a run be followed one pair at a time. -/

namespace FractalGateway

/-- `GatewayEvent`, each with the network and the peer it is about. -/
inductive GatewayEvent where
  | peerConnected (network peer : Pubkey) (endpoint : SocketAddr)
  | peerDisconnected (network peer : Pubkey)
  | endpoint (network peer : Pubkey) (endpoint : SocketAddr)
  deriving DecidableEq, Repr

/-- The network an event is about. -/
def GatewayEvent.network : GatewayEvent → Pubkey
  | .peerConnected n _ _ => n
  | .peerDisconnected n _ => n
  | .endpoint n _ _ => n

/-- The peer an event is about. -/
def GatewayEvent.peer : GatewayEvent → Pubkey
  | .peerConnected _ p _ => p
  | .peerDisconnected _ p => p
  | .endpoint _ p _ => p

/-- The event is about peer `x` of network `k`. -/
def GatewayEvent.about (k x : Pubkey) (e : GatewayEvent) : Bool :=
  decide (e.network = k ∧ e.peer = x)

/-- Connected peers, by network and peer. -/
abbrev PeerMap := Pubkey → Pubkey → Option SocketAddr

/-- One pair's entry after an event about that pair. -/
def GatewayEvent.fold (entry : Option SocketAddr) : GatewayEvent → Option SocketAddr
  | .peerConnected _ _ addr => some addr
  | .peerDisconnected _ _ => none
  | .endpoint _ _ addr => entry.map fun _ => addr

/-- The manager folds one event into its map. -/
def PeerMap.fold (m : PeerMap) (e : GatewayEvent) : PeerMap := fun k x =>
  if e.about k x then e.fold (m k x) else m k x

/-- The manager's map after a list of events. -/
def replay (m : PeerMap) (events : List GatewayEvent) : PeerMap := events.foldl PeerMap.fold m

/-- The map of a manager that has heard nothing. -/
def PeerMap.empty : PeerMap := fun _ _ => none

theorem replay_append (m : PeerMap) (a b : List GatewayEvent) :
    replay m (a ++ b) = replay (replay m a) b := List.foldl_append

/-- A pair's entry is the fold of the events about the pair. -/
theorem replay_pair (k x : Pubkey) : ∀ (events : List GatewayEvent) (m : PeerMap),
    replay m events k x = (events.filter (·.about k x)).foldl GatewayEvent.fold (m k x)
  | [], _ => rfl
  | e :: es, m => by
      show replay (m.fold e) es k x = _
      rw [replay_pair k x es (m.fold e), List.filter_cons]
      by_cases h : e.about k x
      · simp [PeerMap.fold, h]
      · simp [PeerMap.fold, h]

end FractalGateway
