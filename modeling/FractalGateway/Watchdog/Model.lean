import FractalGateway.Client.Traffic
import FractalGateway.Client.Event
import FractalGateway.Gateway.Types

/-! The watchdog: one poll reads the WireGuard statistics of every network namespace, compares them
    with the cache of the poll before, and turns the differences into events and a traffic report.

        watchdog_run ──▶ watchdog_netns (per namespace) ──▶ watchdog_peer (per peer)
             │                  │ sweep of the peers that left      │ cache of the peer
             ▼                  ▼                                   ▼
        traffic send        event sends                         event sends

    Everything outside the program is an input. A `Poll` holds what the operating system answers
    and the clock readings; a `Global` holds how each send on a broadcast channel goes. A send that
    finds no subscriber is refused and returns an error; one that finds a session may still be lost
    when that session ends before passing it on. -/

namespace FractalGateway
open Std Exec

variable {w : ℕ}

/-! ### Statistics -/

/-- `PeerStats`: one peer line of `wg show <if> dump`. -/
structure PeerStats (w : ℕ) where
  public_key : Pubkey
  preshared_key : Option Secret
  endpoint : Option SocketAddr
  allowed_ips : List IpNet
  latest_handshake : Option SystemTime
  transfer_rx : BitVec w
  transfer_tx : BitVec w
  persistent_keepalive : Option (BitVec w)
  deriving DecidableEq

/-- `NetworkStats`: the interface line and the peers. -/
structure NetworkStats (w : ℕ) where
  private_key : Privkey
  public_key : Pubkey
  listen_port : UInt16
  fwmark : Option UInt16
  peers : List (PeerStats w)
  deriving DecidableEq

/-- `NetnsItem`: one line of `ip netns list`. -/
structure NetnsItem where
  name : String
  id : Option ℕ
  deriving DecidableEq

def WIREGUARD_HANDSHAKE_TIMEOUT : ℕ := 3 * 60

/-- The peers of one network as last seen, by key. -/
abbrev Entry (w : ℕ) := ExtTreeMap Pubkey (PeerStats w)

/-- `PeerCache`: the entries of all networks, by listen port. -/
abbrev PeerCache (w : ℕ) := ExtTreeMap UInt16 (Entry w)

/-! ### The world around a poll -/

/-- How a send on a broadcast channel goes: refused (no subscriber), taken by a session that ends
    before passing it on, or passed on to the manager. -/
inductive Delivery where | refused | lost | delivered
  deriving DecidableEq

/-- The build, and the fate of the n-th send attempt on each channel. -/
structure Global where
  build : Build
  events_broadcast : ℕ → Delivery
  traffic_broadcast : ℕ → Delivery

/-- The two `SystemTime::now()` readings taken while one peer is handled: for the age of its
    handshake, and for the time of its traffic. -/
structure Clock where
  now : SystemTime
  time : SystemTime

/-- What one poll reads: the namespaces, the statistics of a namespace's interface, and the clock
    readings while handling a peer of a network. -/
structure Poll (w : ℕ) where
  netns_list : Except String (List NetnsItem)
  wireguard_stats : String → String → Except String (NetworkStats w)
  clock : Pubkey → Pubkey → Clock

/-- Every send attempt so far with its fate. -/
structure Log (w : ℕ) where
  events : List (GatewayEvent × Delivery)
  traffic : List (TrafficInfo w × Delivery)

/-- The state a poll works on: the report being accumulated, a cache, and the sends so far. -/
structure Watch (w : ℕ) (κ : Type) where
  traffic : TrafficInfo w
  cache : κ
  log : Log w

/-! ### Steps -/

section
variable {κ : Type}

/-- `Global::event`: send, and fail when nobody is subscribed. -/
def Global.event (g : Global) (event : GatewayEvent) : EStateM Fail (Watch w κ) Unit := fun s =>
  let fate := g.events_broadcast s.log.events.length
  let s := { s with log := { s.log with events := s.log.events ++ [(event, fate)] } }
  if fate = .refused then .error (.err ["channel closed"]) s else .ok () s

/-- `usize` subtraction. -/
def Global.sub (g : Global) (x y : BitVec w) : EStateM Fail (Watch w κ) (BitVec w) :=
  if g.build = .debug ∧ x < y then throw (.panic "attempt to subtract with overflow")
  else pure (x - y)

/-- `usize` addition. -/
def Global.add (g : Global) (x y : BitVec w) : EStateM Fail (Watch w κ) (BitVec w) :=
  if g.build = .debug ∧ 2 ^ w ≤ x.toNat + y.toNat then throw (.panic "attempt to add with overflow")
  else pure (x + y)

/-- `Option::unwrap`. -/
def unwrap {α : Type} : Option α → EStateM Fail (Watch w κ) α
  | some a => pure a
  | none => throw unwrapPanic

end

/-- A handshake too long ago, or in the future, counts as none. -/
def PeerStats.expire (peer : PeerStats w) (now : SystemTime) : PeerStats w :=
  match peer.latest_handshake with
  | none => peer
  | some handshake =>
    match now.duration_since handshake with
    | some duration =>
      if WIREGUARD_HANDSHAKE_TIMEOUT < as_secs duration then { peer with latest_handshake := none }
      else peer
    | none => { peer with latest_handshake := none }

/-- Add what the peer transferred since `previous` to the report, unless a counter went back. -/
def watchdog_traffic (g : Global) (stats : NetworkStats w) (time : BitVec w)
    (previous peer : PeerStats w) : EStateM Fail (Watch w (Entry w)) Unit := do
  if peer.transfer_rx < previous.transfer_rx ∨ peer.transfer_tx < previous.transfer_tx then
    pure ()
  else
    let rx ← g.sub previous.transfer_rx peer.transfer_rx
    let tx ← g.sub previous.transfer_tx peer.transfer_tx
    let difference ← g.add rx tx
    if 0 < difference then
      let rx ← g.sub peer.transfer_rx previous.transfer_rx
      let tx ← g.sub peer.transfer_tx previous.transfer_tx
      modify fun s =>
        { s with traffic := s.traffic.add stats.public_key peer.public_key time ⟨rx, tx⟩ }

/-- Announce a changed endpoint. -/
def watchdog_endpoint (g : Global) (stats : NetworkStats w) (previous peer : PeerStats w) :
    EStateM Fail (Watch w (Entry w)) Unit :=
  if peer.endpoint ≠ previous.endpoint then
    match peer.endpoint with
    | some endpoint => g.event (.endpoint stats.public_key peer.public_key endpoint)
    | none => pure ()
  else pure ()

/-- Announce a connection; its endpoint has to be known. -/
def watchdog_connected (g : Global) (stats : NetworkStats w) (peer : PeerStats w) :
    EStateM Fail (Watch w (Entry w)) Unit := do
  let endpoint ← unwrap peer.endpoint
  g.event (.peerConnected stats.public_key peer.public_key endpoint)

/-- Announce a handshake that expired or came back. -/
def watchdog_handshake (g : Global) (stats : NetworkStats w) (previous peer : PeerStats w) :
    EStateM Fail (Watch w (Entry w)) Unit :=
  match previous.latest_handshake, peer.latest_handshake with
  | some _, none => g.event (.peerDisconnected stats.public_key peer.public_key)
  | none, some _ => watchdog_connected g stats peer
  | _, _ => pure ()

/-- The seconds since the epoch; an error when the clock stands before it. -/
def Clock.unix_secs (clock : Clock) : EStateM Fail (Watch w (Entry w)) (BitVec w) :=
  match clock.time.duration_since UNIX_EPOCH with
  | some duration => pure (BitVec.ofNat w (as_secs duration))
  | none => throw (.err ["second time provided was later than self"])

/-- Compare a peer with what is cached of it: report and announce the difference. -/
def watchdog_compare (g : Global) (stats : NetworkStats w) (clock : Clock) (peer : PeerStats w) :
    EStateM Fail (Watch w (Entry w)) Unit := do
  let s ← get
  match s.cache[peer.public_key]? with
  | some previous => do
    let time ← clock.unix_secs
    watchdog_traffic g stats time previous peer
    watchdog_endpoint g stats previous peer
    watchdog_handshake g stats previous peer
  | none => if peer.latest_handshake.isSome then watchdog_connected g stats peer else pure ()

/-- `cache.insert(peer.public_key, peer)`. -/
def Watch.remember (peer : PeerStats w) (s : Watch w (Entry w)) : Watch w (Entry w) :=
  { s with cache := s.cache.insert peer.public_key peer }

/-- `watchdog_peer`: expire the handshake, compare, and remember. -/
def watchdog_peer (g : Global) (stats : NetworkStats w) (clock : Clock) (peer : PeerStats w) :
    EStateM Fail (Watch w (Entry w)) Unit := do
  watchdog_compare g stats clock (peer.expire clock.now)
  modify (Watch.remember (peer.expire clock.now))

/-- Handle every listed peer, logging errors and carrying on. -/
def watchdog_peers (g : Global) (stats : NetworkStats w) (clock : Pubkey → Clock)
    (peers : List (PeerStats w)) : EStateM Fail (Watch w (Entry w)) Unit :=
  forM peers fun peer => logged (watchdog_peer g stats (clock peer.public_key) peer)

/-- Forget and announce each dead peer; the first refused send ends the sweep. -/
def watchdog_sweep (g : Global) (stats : NetworkStats w) (dead_peers : List Pubkey) :
    EStateM Fail (Watch w (Entry w)) Unit :=
  forM dead_peers fun peer => do
    modify fun s => { s with cache := s.cache.erase peer }
    g.event (.peerDisconnected stats.public_key peer)

/-- The part of `watchdog_netns` that works on the network's cache entry. -/
def watchdog_entry (g : Global) (stats : NetworkStats w) (clock : Pubkey → Clock) :
    EStateM Fail (Watch w (Entry w)) Unit := do
  watchdog_peers g stats clock stats.peers
  let dead_peers := (← get).cache.keys.filter fun x => x ∉ stats.peers.map (·.public_key)
  watchdog_sweep g stats dead_peers

/-- `cache.entry(port).or_insert_with(BTreeMap::new)`, worked on in place. -/
def atPort {α : Type} (port : UInt16) (x : EStateM Fail (Watch w (Entry w)) α) :
    EStateM Fail (Watch w (PeerCache w)) α :=
  zoom (fun s => { s with cache := s.cache[port]?.getD ∅ })
    (fun t s => { t with cache := s.cache.insert port t.cache }) x

/-- The statistics of a namespace's interface, `wg` followed by what follows the namespace's
    prefix. -/
def Poll.stats (poll : Poll w) (netns : String) : Except String (NetworkStats w) :=
  poll.wireguard_stats netns ("wg" ++ String.ofList (netns.toList.drop 8))

/-- `watchdog_netns`. -/
def watchdog_netns (g : Global) (poll : Poll w) (netns : String) :
    EStateM Fail (Watch w (PeerCache w)) Unit :=
  match poll.stats netns with
  | .error e => throw (.err ["Fetching wireguard stats", e])
  | .ok stats => atPort stats.listen_port (watchdog_entry g stats (poll.clock stats.public_key))

/-- What the watchdog keeps between polls: the cache, and the sends so far. -/
structure Daemon (w : ℕ) where
  cache : PeerCache w
  log : Log w

/-- The loop of `watchdog_run` over the namespaces, logging errors and carrying on. -/
def watchdog_items (g : Global) (poll : Poll w) (items : List NetnsItem) :
    EStateM Fail (Watch w (PeerCache w)) Unit :=
  forM items fun netns =>
    if starts_with netns.name NETNS_PREFIX then logged (watchdog_netns g poll netns.name)
    else pure ()

/-- The final send of `watchdog_run`. -/
def Global.report (g : Global) : EStateM Fail (Watch w (PeerCache w)) Unit := fun s =>
  let fate := g.traffic_broadcast s.log.traffic.length
  let s := { s with log := { s.log with traffic := s.log.traffic ++ [(s.traffic, fate)] } }
  if fate = .refused then .error (.err ["channel closed"]) s else .ok () s

/-- `watchdog_run`: one poll, from an empty report. -/
def watchdog_run (g : Global) (poll : Poll w) : EStateM Fail (Daemon w) Unit :=
  zoom (fun d => { traffic := TrafficInfo.new 0, cache := d.cache, log := d.log })
    (fun s _ => { cache := s.cache, log := s.log }) <|
    match poll.netns_list with
    | .error e => throw (.err ["Listing network namespaces", e])
    | .ok netns_items => do
      watchdog_items g poll netns_items
      g.report

/-- `watchdog`: polls on one cache until one of them fails. -/
def watchdog (g : Global) (polls : List (Poll w)) : EStateM Fail (Daemon w) Unit :=
  forM polls (watchdog_run g)

/-- `Global::watchdog`: a failed poll ends `watchdog`, which is started again with a new cache; a
    panic ends the task. -/
def Global.watchdog (g : Global) : List (Poll w) → Daemon w → Daemon w
  | [], d => d
  | poll :: polls, d =>
    match (watchdog_run g poll).run d with
    | .ok _ d' => g.watchdog polls d'
    | .error (.err _) d' => g.watchdog polls { d' with cache := ∅ }
    | .error (.panic _) d' => d'

/-- Nothing cached, nothing sent. -/
def Daemon.start : Daemon w := ⟨∅, ⟨[], []⟩⟩

end FractalGateway
