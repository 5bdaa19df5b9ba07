import FractalGateway.Client.Config
import FractalGateway.Lib.Digits

/-! What the gateway derives from a network's configuration: the names and addresses of its parts,
    its WireGuard configuration file, the ports it forwards, and its share of the proxy table.

    Everything is named after the network's own `listen_port`, whatever port the network is stored
    under. -/

namespace FractalGateway
open Std Exec

def NETNS_PREFIX : String := "network-"
def VETH_PREFIX : String := "veth"
def WIREGUARD_PREFIX : String := "wg"
def PORT_MAPPING_START : UInt16 := 2000

/-- The network of the bridge, 172.99.0.1/16. -/
def BRIDGE_NET : Ipv4Net := ⟨Ipv4Addr.new 172 99 0 1, 16⟩

/-- What the gateway is deployed with: the build, the text encodings of the crates it uses, and the
    forwarding given on the command line. -/
structure Deployment where
  build : Build
  base32 : String → String
  keys : KeyText
  custom_forwarding : List (Url × SocketAddr)

/-- The panic of an `unwrap` that finds nothing. -/
def unwrapPanic : Fail := .panic "called `Option::unwrap()` on a `None` value"

/-! ### Names and addresses -/

/-- `str::starts_with`. -/
def starts_with (text start : String) : Bool := start.toList.isPrefixOf text.toList

/-- The name of a part of the network on a port. -/
def portName (start : String) (port : UInt16) : String := start ++ toString port.toNat

theorem portName_injective (start : String) : Function.Injective (portName start) := by
  intro p q h
  have hrepr : toString p.toNat = toString q.toNat := by
    have hl := congrArg String.toList h
    simp only [portName, String.toList_append, List.append_cancel_left_eq] at hl
    exact String.toList_inj.mp hl
  exact UInt16.toNat_inj.mp (Text.toString_nat_injective hrepr)

def NetworkState.netns_name (network : NetworkState) : String :=
  portName NETNS_PREFIX network.listen_port

def NetworkState.wgif_name (network : NetworkState) : String :=
  portName WIREGUARD_PREFIX network.listen_port

def NetworkState.veth_name (network : NetworkState) : String :=
  portName VETH_PREFIX network.listen_port

/-- The address of the veth on a port, counted from the base of the bridge network. -/
def vethNet (port : UInt16) : Ipv4Net :=
  ⟨Ipv4Addr.saturating_add BRIDGE_NET.network port.toNat, BRIDGE_NET.prefix_len⟩

def NetworkState.veth_ipv4net (network : NetworkState) : Ipv4Net := vethNet network.listen_port

/-- The addition does not saturate. -/
theorem vethNet_toNat (port : UInt16) : (vethNet port).addr.toNat = 172 * 2 ^ 24 + 99 * 2 ^ 16 + port.toNat := by
  have hbase : BRIDGE_NET.network.toNat = 172 * 2 ^ 24 + 99 * 2 ^ 16 := by decide
  have hport := port.toNat_lt
  rw [vethNet, Ipv4Addr.saturating_add, hbase, if_pos (by omega), BitVec.toNat_ofNat]
  omega

/-- The veths of two ports have different addresses. -/
theorem vethNet_injective {p q : UInt16} (h : (vethNet p).addr = (vethNet q).addr) : p = q := by
  have hn := congrArg BitVec.toNat h
  rw [vethNet_toNat, vethNet_toNat] at hn
  exact UInt16.toNat_inj.mp (by omega)

/-! ### The WireGuard configuration file -/

/-- `PeerState::to_config`. -/
def PeerState.to_config (keys : KeyText) (public_key : Pubkey) (peer : PeerState) : String :=
  "[Peer]\n" ++ "PublicKey = " ++ keys.pubkey public_key ++ "\n" ++
    "AllowedIPs = " ++ ", ".intercalate (peer.allowed_ips.map fun ip => ip.trunc.text) ++ "\n" ++
    (match peer.preshared_key with
      | some preshared_key => "PresharedKey = " ++ keys.secret preshared_key ++ "\n"
      | none => "") ++
    (match peer.endpoint with
      | some endpoint => "Endpoint = " ++ endpoint.text ++ "\n"
      | none => "") ++
    "PersistentKeepalive = 25\n"

/-- `NetworkState::to_config`. -/
def NetworkState.to_config (keys : KeyText) (network : NetworkState) : String :=
  "[Interface]\n" ++ "ListenPort = " ++ toString network.listen_port.toNat ++ "\n" ++
    "PrivateKey = " ++ keys.privkey network.private_key ++ "\n" ++
    String.join (network.peers.toList.map fun p => "\n" ++ p.2.to_config keys p.1 ++ "\n")

/-! ### Port forwarding -/

/-- The targets of a network, URL by URL. -/
def NetworkState.targets (network : NetworkState) : List (Url × SocketAddr) :=
  network.proxy.toList.flatMap fun p => p.2.map fun addr => (p.1, addr)

/-- `PORT_MAPPING_START + i as u16`. -/
def mappingPort (build : Build) (i : ℕ) : Except Fail UInt16 :=
  if build = .debug ∧ 2 ^ 16 ≤ PORT_MAPPING_START.toNat + i % 2 ^ 16 then
    throw (.panic "attempt to add with overflow")
  else pure (PORT_MAPPING_START + UInt16.ofNat i)

/-- `port_mappings`: each target with the port it is reached on. -/
def NetworkState.port_mappings (build : Build) (network : NetworkState) :
    Except Fail (List (Url × UInt16 × SocketAddr)) :=
  network.targets.zipIdx.mapM fun t => do
    let port ← mappingPort build t.2
    return (t.1.1, port, t.1.2)

structure PortMapping where
  port_in : UInt16
  port_out : UInt16
  ip_out : IpAddr
  deriving DecidableEq

structure PortConfig where
  interface_in : String
  interface_out : String
  ip_source : IpAddr
  mappings : List PortMapping
  deriving DecidableEq

/-- `port_config`; a network without an address has no source to rewrite to. -/
def NetworkState.port_config (build : Build) (network : NetworkState) : Except Fail PortConfig := do
  let address ← (match network.address.head? with
    | some address => pure address
    | none => throw unwrapPanic : Except Fail IpNet)
  let mappings ← network.port_mappings build
  return {
    interface_in := network.veth_name
    interface_out := network.wgif_name
    ip_source := address.addr
    mappings := mappings.map fun m => ⟨m.2.1, m.2.2.port, m.2.2.ip⟩ }

theorem NetworkState.port_config_ok {build : Build} {network : NetworkState} {config : PortConfig}
    (h : network.port_config build = .ok config) :
    ∃ address mappings, network.address.head? = some address ∧
      network.port_mappings build = .ok mappings ∧
      config = ⟨network.veth_name, network.wgif_name, address.addr,
        mappings.map fun m => ⟨m.2.1, m.2.2.port, m.2.2.ip⟩⟩ := by
  unfold NetworkState.port_config at h
  cases haddr : network.address.head? with
  | none => rw [haddr] at h; cases h
  | some address =>
    rw [haddr] at h
    cases hmap : network.port_mappings build with
    | error e => rw [hmap] at h; cases h
    | ok mappings =>
      rw [hmap] at h
      cases h
      exact ⟨address, mappings, rfl, rfl, rfl⟩

/-! ### The proxy table -/

/-- The proxy table of one scheme: hosts to upstreams (`https_forwarding`, `http_forwarding`), and
    upstreams to servers (`https_upstream`, `http_upstream`). -/
structure Upstreams where
  forwarding : ExtTreeMap String String
  upstream : ExtTreeMap String (List SocketAddr)

/-- `add_https` and `add_http` up to the scheme: find or name the host's upstream, and push the
    server. -/
def Upstreams.add (self : Upstreams) (base32 : String → String) (scheme host : String)
    (socket : SocketAddr) : Upstreams :=
  let upstream := self.forwarding[host]?.getD (scheme ++ "_" ++ base32 host)
  { forwarding := self.forwarding.insert host upstream
    upstream := OrdMap.upsert self.upstream upstream [] (· ++ [socket]) }

/-- `Forwarding`. -/
structure Forwarding where
  https : Upstreams
  http : Upstreams
  ssh_forwarding : ExtTreeMap String SocketAddr

/-- `Forwarding::new`. -/
def Forwarding.new : Forwarding := ⟨⟨∅, ∅⟩, ⟨∅, ∅⟩, ∅⟩

/-- `url.host_str().unwrap()`. -/
def Url.host (url : Url) : Except Fail String :=
  match url.host_str with
  | some host => pure host
  | none => throw unwrapPanic

def Forwarding.add_https (self : Forwarding) (deploy : Deployment) (url : Url)
    (socket : SocketAddr) : Except Fail Forwarding := do
  let host ← url.host
  return { self with https := self.https.add deploy.base32 "https" host socket }

def Forwarding.add_http (self : Forwarding) (deploy : Deployment) (url : Url)
    (socket : SocketAddr) : Except Fail Forwarding := do
  let host ← url.host
  return { self with http := self.http.add deploy.base32 "http" host socket }

/-- `add_ssh` does nothing. -/
def Forwarding.add_ssh (self : Forwarding) (_url : Url) (_socket : SocketAddr) :
    Except Fail Forwarding := pure self

/-- One mapping of a network, by scheme; an unknown scheme is only logged. -/
def Forwarding.addMapping (self : Forwarding) (deploy : Deployment) (url : Url)
    (socket : SocketAddr) : Except Fail Forwarding :=
  if url.scheme = "https" then self.add_https deploy url socket
  else if url.scheme = "http" then self.add_http deploy url socket
  else if url.scheme = "ssh" then self.add_ssh url socket
  else pure self

/-- `Forwarding::add`. -/
def Forwarding.add (self : Forwarding) (deploy : Deployment) (network : NetworkState) :
    Except Fail Forwarding := do
  let mappings ← network.port_mappings deploy.build
  mappings.foldlM (fun forwarding m =>
    forwarding.addMapping deploy m.1
      (SocketAddr.new (.v4 network.veth_ipv4net.addr) m.2.1)) self

/-- `Forwarding::add_custom`. -/
def Forwarding.add_custom (self : Forwarding) (deploy : Deployment) (url : Url)
    (socket : SocketAddr) : Except Fail Forwarding :=
  if url.scheme = "https" then self.add_https deploy url socket
  else if url.scheme = "http" then self.add_http deploy url socket
  else pure self

/-- The table `apply_nginx` writes: the networks in order, then the command line's entries. -/
def Forwarding.build (deploy : Deployment) (networks : List NetworkState) :
    Except Fail Forwarding := do
  let forwarding ← networks.foldlM (fun f network => f.add deploy network) Forwarding.new
  deploy.custom_forwarding.foldlM (fun f c => f.add_custom deploy c.1 c.2) forwarding

end FractalGateway
