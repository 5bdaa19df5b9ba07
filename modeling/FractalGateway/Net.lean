import FractalGateway.Lib.Exec
import FractalGateway.Lib.OrdMap

/-! The values the gateway's data is made of: addresses, sockets, URLs, keys and clock readings.

    Addresses and sockets are those of `std::net`, networks those of the `ipnet` crate, each with
    its `Display` text. A `Url` is what the gateway reads of the `url` crate's type: the text it is
    compared by, its scheme and its host; that an http or https URL has a host is the crate's own
    promise and is carried by the value. Keys are the 32 bytes of the `wireguard-keys` crate, whose
    texts stay a parameter. -/

namespace FractalGateway
open Std

/-- What an overflowing integer operation does: wrap, or panic. -/
inductive Build where | release | debug
  deriving DecidableEq

/-! ### Addresses -/

/-- `std::net::IpAddr`: the 32 or 128 bits, most significant first. -/
inductive IpAddr where
  | v4 (bits : BitVec 32)
  | v6 (bits : BitVec 128)
  deriving DecidableEq, Repr

/-- `Ipv4Addr::new(a, b, c, d)`. -/
def Ipv4Addr.new (a b c d : ℕ) : BitVec 32 := BitVec.ofNat 32 (((a * 256 + b) * 256 + c) * 256 + d)

/-- The dotted form of an IPv4 address. -/
def Ipv4Addr.text (a : BitVec 32) : String :=
  toString (a.toNat / 2 ^ 24) ++ "." ++ toString (a.toNat / 2 ^ 16 % 256) ++ "." ++
    toString (a.toNat / 2 ^ 8 % 256) ++ "." ++ toString (a.toNat % 256)

/-- The eight 16-bit groups of an IPv6 address. -/
def Ipv6Addr.segments (a : BitVec 128) : List ℕ :=
  [7, 6, 5, 4, 3, 2, 1, 0].map fun i => a.toNat / 2 ^ (16 * i) % 2 ^ 16

/-- The longest run of zero groups, the first one of that length: its start and length. -/
def Ipv6Addr.zeroes (segments : List ℕ) : ℕ × ℕ :=
  (segments.zipIdx.foldl
    (fun (longest, current) (segment, i) =>
      if segment = 0 then
        let current := if current.2 = 0 then (i, 1) else (current.1, current.2 + 1)
        (if longest.2 < current.2 then current else longest, current)
      else (longest, (0, 0)))
    ((0, 0), (0, 0))).1

/-- Groups in lower-case hexadecimal, joined by colons. -/
def Ipv6Addr.hexGroups (segments : List ℕ) : String :=
  ":".intercalate (segments.map fun s => String.ofList (Nat.toDigits 16 s))

/-- The text of an IPv6 address: the IPv4-mapped form, or the groups with the longest run of two or
    more zero groups written `::`. -/
def Ipv6Addr.text (a : BitVec 128) : String :=
  if a.toNat / 2 ^ 32 = 0xffff then "::ffff:" ++ Ipv4Addr.text (a.setWidth 32)
  else
    let segments := Ipv6Addr.segments a
    let (start, len) := Ipv6Addr.zeroes segments
    if 1 < len then
      Ipv6Addr.hexGroups (segments.take start) ++ "::" ++
        Ipv6Addr.hexGroups (segments.drop (start + len))
    else Ipv6Addr.hexGroups segments

/-- `Display` of an address. -/
def IpAddr.text : IpAddr → String
  | .v4 a => Ipv4Addr.text a
  | .v6 a => Ipv6Addr.text a

/-- `ipnet::IpNet`: an address with the length of its network part. -/
structure IpNet where
  addr : IpAddr
  prefix_len : ℕ
  deriving DecidableEq, Repr

/-- The address with its host bits cleared. -/
def IpAddr.network (prefix_len : ℕ) : IpAddr → IpAddr
  | .v4 a => .v4 (a &&& ~~~(BitVec.allOnes 32 >>> prefix_len))
  | .v6 a => .v6 (a &&& ~~~(BitVec.allOnes 128 >>> prefix_len))

/-- `IpNet::trunc`: the network itself, host bits cleared. -/
def IpNet.trunc (net : IpNet) : IpNet := { net with addr := net.addr.network net.prefix_len }

/-- `Display` of a network. -/
def IpNet.text (net : IpNet) : String := net.addr.text ++ "/" ++ toString net.prefix_len

/-- `ipnet::Ipv4Net`. -/
structure Ipv4Net where
  addr : BitVec 32
  prefix_len : ℕ
  deriving DecidableEq, Repr

/-- `Ipv4Net::network`: the address with its host bits cleared. -/
def Ipv4Net.network (net : Ipv4Net) : BitVec 32 :=
  net.addr &&& ~~~(BitVec.allOnes 32 >>> net.prefix_len)

/-- `From<Ipv4Net> for IpNet`. -/
def Ipv4Net.toIpNet (net : Ipv4Net) : IpNet := ⟨.v4 net.addr, net.prefix_len⟩

/-- `IpAdd::saturating_add` on an IPv4 address. -/
def Ipv4Addr.saturating_add (a : BitVec 32) (n : ℕ) : BitVec 32 :=
  if a.toNat + n < 2 ^ 32 then BitVec.ofNat 32 (a.toNat + n) else BitVec.allOnes 32

/-- `std::net::SocketAddr`; an IPv6 socket also carries its flow label and scope. -/
inductive SocketAddr where
  | v4 (ip : BitVec 32) (port : UInt16)
  | v6 (ip : BitVec 128) (port : UInt16) (flowinfo scope_id : UInt32)
  deriving DecidableEq, Repr

/-- `SocketAddr::ip`. -/
def SocketAddr.ip : SocketAddr → IpAddr
  | .v4 ip _ => .v4 ip
  | .v6 ip _ _ _ => .v6 ip

/-- `SocketAddr::port`. -/
def SocketAddr.port : SocketAddr → UInt16
  | .v4 _ port => port
  | .v6 _ port _ _ => port

/-- `SocketAddr::new`. -/
def SocketAddr.new : IpAddr → UInt16 → SocketAddr
  | .v4 ip, port => .v4 ip port
  | .v6 ip, port => .v6 ip port 0 0

/-- `Display` of a socket address. -/
def SocketAddr.text : SocketAddr → String
  | .v4 ip port => Ipv4Addr.text ip ++ ":" ++ toString port.toNat
  | .v6 ip port _ scope_id =>
    if scope_id = 0 then "[" ++ Ipv6Addr.text ip ++ "]:" ++ toString port.toNat
    else "[" ++ Ipv6Addr.text ip ++ "%" ++ toString scope_id.toNat ++ "]:" ++ toString port.toNat

@[simp] theorem SocketAddr.ip_new (ip : IpAddr) (port : UInt16) : (SocketAddr.new ip port).ip = ip := by
  cases ip <;> rfl

@[simp] theorem SocketAddr.port_new (ip : IpAddr) (port : UInt16) :
    (SocketAddr.new ip port).port = port := by
  cases ip <;> rfl

/-! ### URLs -/

/-- `url::Url` as the gateway reads it. URLs are ordered by their text. -/
structure Url where
  text : String
  scheme : String
  host_str : Option String
  http_has_host : scheme = "http" ∨ scheme = "https" → host_str.isSome
  deriving DecidableEq, Repr

/-- What tells two URLs apart, their text first. -/
def Url.key (u : Url) : List String := u.text :: u.scheme :: u.host_str.toList

theorem Url.key_injective : Function.Injective Url.key := by
  rintro ⟨t, s, h, _⟩ ⟨t', s', h', _⟩ heq
  cases h <;> cases h' <;> simp_all [Url.key]

instance : Ord Url := ⟨compareOn Url.key⟩
instance : TransOrd Url := inferInstanceAs (TransCmp (compareOn Url.key))
instance : LawfulEqOrd Url := OrdMap.lawfulEqCmp_compareOn Url.key_injective

/-! ### Keys -/

/-- A WireGuard public key; 32 bytes compare as the number they spell. -/
structure Pubkey where
  bytes : BitVec 256
  deriving DecidableEq, Repr

theorem Pubkey.bytes_injective : Function.Injective Pubkey.bytes := by
  rintro ⟨a⟩ ⟨b⟩ rfl
  rfl

instance : Ord Pubkey := ⟨compareOn Pubkey.bytes⟩
instance : TransOrd Pubkey := inferInstanceAs (TransCmp (compareOn Pubkey.bytes))
instance : LawfulEqOrd Pubkey := OrdMap.lawfulEqCmp_compareOn Pubkey.bytes_injective

/-- A WireGuard private key. -/
structure Privkey where
  bytes : BitVec 256
  deriving DecidableEq, Repr

/-- A WireGuard preshared key. -/
structure Secret where
  bytes : BitVec 256
  deriving DecidableEq, Repr

/-- The `to_string` texts of the `wireguard-keys` crate. -/
structure KeyText where
  pubkey : Pubkey → String
  privkey : Privkey → String
  secret : Secret → String

/-! ### Texts read back -/

/-- The `FromStr` readers of the crates: a value, or the text of an error. -/
structure Readers where
  url : String → Except String Url
  socket : String → Except String SocketAddr
  ipnet : String → Except String IpNet
  privkey : String → Except String Privkey
  pubkey : String → Except String Pubkey
  secret : String → Except String Secret

/-! ### Clock readings -/

/-- `std::time::SystemTime`, in nanoseconds since the UNIX epoch. -/
structure SystemTime where
  nanos : ℤ
  deriving DecidableEq, Repr

/-- `SystemTime::UNIX_EPOCH`. -/
def UNIX_EPOCH : SystemTime := ⟨0⟩

/-- `SystemTime::duration_since`, in nanoseconds; an error (`none`) when `earlier` is later. -/
def SystemTime.duration_since (self earlier : SystemTime) : Option ℕ :=
  if earlier.nanos ≤ self.nanos then some (self.nanos - earlier.nanos).toNat else none

/-- `Duration::as_secs`: whole seconds. -/
def as_secs (nanos : ℕ) : ℕ := nanos / 1000000000

end FractalGateway
