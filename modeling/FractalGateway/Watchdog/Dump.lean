import FractalGateway.Lib.Lines
import FractalGateway.Texts
import FractalGateway.Watchdog.Model

/-! The statistics as text: how `wg show <if> dump` prints them and how the gateway reads them.

    A dump has one line for the interface and one for every peer, with tabs between the fields. What
    is absent has a placeholder: `(none)` for a preshared key, an endpoint or the allowed networks,
    `off` for a mark or a keepalive, and zero for a handshake. Reading gives back every field but the
    keepalive, for which the handshake is read a second time. -/

namespace FractalGateway
open Std Exec Text

variable {w : ℕ}

/-! ### Reading -/

/-- `SystemTime::checked_add` of whole seconds; the seconds of a time are a signed 64-bit number. -/
def SystemTime.checked_add_secs (self : SystemTime) (secs : ℕ) : Option SystemTime :=
  let nanos := self.nanos + secs * 1000000000
  if nanos < 2 ^ 63 * 1000000000 then some ⟨nanos⟩ else none

/-- A field that may hold a placeholder. -/
def optional {α : Type} (placeholder : String) (read : String → Except Fail α) (text : String) :
    Except Fail (Option α) :=
  if text = placeholder then .ok none else (read text).map some

/-- `u16::from_str`. -/
def parseU16 (text : String) : Except Fail UInt16 := (parsed (parseDecimal 16 text)).map UInt16.ofNat

/-- `usize::from_str`. -/
def parseUsize (text : String) : Except Fail (BitVec w) :=
  (parsed (parseDecimal w text)).map (BitVec.ofNat w)

/-- The networks of a peer. -/
def parseAllowed (read : Readers) (text : String) : Except Fail (List IpNet) :=
  if text = "(none)" then .ok []
  else ((split ',' text).mapM fun ipnet => parsed (read.ipnet ipnet)).mapError
    (Fail.context "Parsing IpNet")

/-- The time of the latest handshake; zero is none. -/
def parseHandshake (text : String) : Except Fail (Option SystemTime) := do
  let timestamp ← parsed (parseDecimal 64 text)
  if 0 < timestamp then
    let handshake ← okOr "Error parsing latest handshake time" (UNIX_EPOCH.checked_add_secs timestamp)
    return some handshake
  else return none

/-- A keepalive: whether there is one by one text, and which by another. -/
def parseKeepalive (text value : String) : Except Fail (Option (BitVec w)) :=
  if text = "off" then .ok none else (parseUsize value).map some

/-- `PeerStats::from_str`. -/
def PeerStats.from_str (read : Readers) (output : String) : Except Fail (PeerStats w) :=
  match split '\t' output with
  | [c₀, c₁, c₂, c₃, c₄, c₅, c₆, c₇] => do
    let public_key ← parsed (read.pubkey c₀)
    let preshared_key ← optional "(none)" (fun text => parsed (read.secret text)) c₁
    let endpoint ← optional "(none)"
      (fun text => (parsed (read.socket text)).mapError (Fail.context "Parsing endpoint")) c₂
    let allowed_ips ← parseAllowed read c₃
    let latest_handshake ← parseHandshake c₄
    let transfer_rx ← parseUsize c₅
    let transfer_tx ← parseUsize c₆
    -- the eighth field decides whether there is a keepalive, the fifth is read for its value
    let persistent_keepalive ← parseKeepalive c₇ c₄
    return { public_key, preshared_key, endpoint, allowed_ips, latest_handshake, transfer_rx,
             transfer_tx, persistent_keepalive }
  | _ => .error (.err ["Wrong network stats line len"])

/-- `NetworkStats::from_str`. -/
def NetworkStats.from_str (read : Readers) (output : String) : Except Fail (NetworkStats w) :=
  match (lines output.toList).map String.ofList with
  | [] => .error (.err ["Missing network line"])
  | network_stats :: rest =>
    match split '\t' network_stats with
    | [c₀, c₁, c₂, c₃] => do
      let private_key ← parsed (read.privkey c₀)
      let public_key ← parsed (read.pubkey c₁)
      let listen_port ← parseU16 c₂
      let fwmark ← optional "off" parseU16 c₃
      let peers ← rest.mapM (PeerStats.from_str read)
      return { private_key, public_key, listen_port, fwmark, peers }
    | _ => .error (.err ["Wrong network stats line len"])

/-! ### Printing -/

/-- The latest handshake in seconds since the epoch. -/
def PeerStats.handshakeSecs (peer : PeerStats w) : ℕ :=
  match peer.latest_handshake with
  | none => 0
  | some handshake => as_secs handshake.nanos.toNat

/-- The fields of a peer line. -/
def PeerStats.fields (keys : KeyText) (peer : PeerStats w) : List String :=
  [keys.pubkey peer.public_key,
    (peer.preshared_key.map keys.secret).getD "(none)",
    (peer.endpoint.map SocketAddr.text).getD "(none)",
    if peer.allowed_ips = [] then "(none)" else ",".intercalate (peer.allowed_ips.map IpNet.text),
    toString peer.handshakeSecs,
    toString peer.transfer_rx.toNat,
    toString peer.transfer_tx.toNat,
    (peer.persistent_keepalive.map fun k => toString k.toNat).getD "off"]

/-- The fields of the interface line. -/
def NetworkStats.fields (keys : KeyText) (stats : NetworkStats w) : List String :=
  [keys.privkey stats.private_key,
    keys.pubkey stats.public_key,
    toString stats.listen_port.toNat,
    (stats.fwmark.map fun mark => toString mark.toNat).getD "off"]

/-- The lines of a dump. -/
def NetworkStats.dumpLines (keys : KeyText) (stats : NetworkStats w) : List String :=
  "\t".intercalate (stats.fields keys) ::
    stats.peers.map fun peer => "\t".intercalate (peer.fields keys)

/-- What `wg show <if> dump` prints. -/
def NetworkStats.dump (keys : KeyText) (stats : NetworkStats w) : String :=
  String.join ((stats.dumpLines keys).map (· ++ "\n"))

/-- A text that fits a field. -/
structure FieldText (text : String) : Prop where
  tab : '\t' ∉ text.toList
  newline : '\n' ∉ text.toList

/-- A value is read back from its text, which fits a field. -/
structure ReadBack {α : Type} (text : α → String) (read : String → Except String α) (a : α) : Prop where
  field : FieldText (text a)
  read : read (text a) = .ok a

/-- What a peer holds is read back, and its handshake is a positive number of seconds. -/
structure PeerStats.Printable (keys : KeyText) (read : Readers) (peer : PeerStats w) : Prop where
  public_key : ReadBack keys.pubkey read.pubkey peer.public_key
  preshared_key : ∀ k ∈ peer.preshared_key,
    ReadBack keys.secret read.secret k ∧ keys.secret k ≠ "(none)"
  endpoint : ∀ e ∈ peer.endpoint, read.socket e.text = .ok e
  allowed_ips : ∀ net ∈ peer.allowed_ips, read.ipnet net.text = .ok net
  latest_handshake : ∀ t ∈ peer.latest_handshake,
    ∃ secs : ℕ, 0 < secs ∧ secs < 2 ^ 63 ∧ t = ⟨secs * 1000000000⟩

/-- What a network and its peers hold is read back. -/
structure NetworkStats.Printable (keys : KeyText) (read : Readers) (stats : NetworkStats w) : Prop where
  private_key : ReadBack keys.privkey read.privkey stats.private_key
  public_key : ReadBack keys.pubkey read.pubkey stats.public_key
  peers : ∀ peer ∈ stats.peers, peer.Printable keys read

/-! ### Fields read back -/

section
variable {keys : KeyText} {read : Readers} {peer : PeerStats w} {stats : NetworkStats w}

theorem optional_getD {α : Type} {placeholder : String} {read : String → Except Fail α}
    {text : α → String} {o : Option α} (hread : ∀ a ∈ o, read (text a) = .ok a)
    (hne : ∀ a ∈ o, text a ≠ placeholder) :
    optional placeholder read ((o.map text).getD placeholder) = .ok o := by
  cases o with
  | none => exact if_pos rfl
  | some a =>
    rw [Option.map_some, Option.getD_some, optional, if_neg (hne a rfl), hread a rfl]
    rfl

theorem parseU16_toString (n : UInt16) : parseU16 (toString n.toNat) = .ok n := by
  rw [parseU16, parseDecimal_toString n.toNat_lt]
  exact congrArg Except.ok UInt16.ofNat_toNat

theorem parseUsize_eq_ok_iff {n : ℕ} {x : BitVec w} :
    parseUsize (toString n) = .ok x ↔ x.toNat = n := by
  have hread : parseUsize (toString n) = .ok x ↔
      ∃ m, parseDecimal w (toString n) = .ok m ∧ BitVec.ofNat w m = x := by
    rw [parseUsize]
    cases parseDecimal w (toString n) <;> simp [parsed, Except.map]
  rw [hread]
  constructor
  · rintro ⟨m, hm, rfl⟩
    obtain ⟨rfl, hlt⟩ := parseDecimal_toString_iff.mp hm
    rw [BitVec.toNat_ofNat, Nat.mod_eq_of_lt hlt]
  · rintro rfl
    exact ⟨x.toNat, parseDecimal_toString x.isLt, by simp⟩

theorem parseUsize_toString (x : BitVec w) : parseUsize (toString x.toNat) = .ok x :=
  parseUsize_eq_ok_iff.mpr rfl

theorem nat_ne_off (n : ℕ) : toString n ≠ "off" := (over_nat n).ne 'o' (by decide) (by decide)

theorem parseAllowed_intercalate {nets : List IpNet} (h : ∀ net ∈ nets, read.ipnet net.text = .ok net) :
    parseAllowed read
      (if nets = [] then "(none)" else ",".intercalate (nets.map IpNet.text)) = .ok nets := by
  by_cases hnil : nets = []
  · rw [if_pos hnil, hnil]
    exact if_pos rfl
  · have hover : ∀ t ∈ nets.map IpNet.text, Over (hexDigits ++ [':', '.', '/']) t := by
      intro t ht
      obtain ⟨net, _, rfl⟩ := List.mem_map.mp ht
      exact net.text_over
    have hall : Over (hexDigits ++ [':', '.', '/', ',']) (",".intercalate (nets.map IpNet.text)) :=
      Over.intercalate (by decide) fun t ht => (hover t ht).mono (by decide)
    have hne : ",".intercalate (nets.map IpNet.text) ≠ "(none)" := hall.ne '(' (by decide) (by decide)
    have hsplit : split ',' (",".intercalate (nets.map IpNet.text)) = nets.map IpNet.text :=
      split_intercalate (fun t ht => (hover t ht).not_mem (by decide)) (by simpa using hnil)
    rw [if_neg hnil, parseAllowed, if_neg hne, hsplit, mapError_ok_iff, mapM_ok_iff,
      List.forall₂_map_left_iff, List.forall₂_same]
    exact fun net hnet => parsed_ok_iff.mpr (h net hnet)

theorem as_secs_whole (secs : ℕ) : as_secs (Int.toNat (secs * 1000000000)) = secs := by
  unfold as_secs
  omega

theorem checked_add_secs_epoch {secs : ℕ} (h : secs < 2 ^ 63) :
    UNIX_EPOCH.checked_add_secs secs = some ⟨secs * 1000000000⟩ := by
  rw [SystemTime.checked_add_secs, UNIX_EPOCH, Int.zero_add]
  exact if_pos (by omega)

theorem parseHandshake_zero : parseHandshake (toString 0) = .ok none := by
  rw [parseHandshake, parseDecimal_toString (Nat.two_pow_pos 64)]
  rfl

theorem parseHandshake_pos {secs : ℕ} (hpos : 0 < secs) (h : secs < 2 ^ 63) :
    parseHandshake (toString secs) = .ok (some ⟨secs * 1000000000⟩) := by
  refine except_bind_ok_iff.mpr ⟨secs, parsed_ok_iff.mpr (parseDecimal_toString (by omega)), ?_⟩
  rw [if_pos hpos]
  exact except_bind_ok_iff.mpr ⟨_, okOr_ok_iff.mpr (checked_add_secs_epoch h), rfl⟩

theorem parseHandshake_toString
    (h : ∀ t ∈ peer.latest_handshake, ∃ secs : ℕ, 0 < secs ∧ secs < 2 ^ 63 ∧ t = ⟨secs * 1000000000⟩) :
    parseHandshake (toString peer.handshakeSecs) = .ok peer.latest_handshake := by
  unfold PeerStats.handshakeSecs
  cases hl : peer.latest_handshake with
  | none => exact parseHandshake_zero
  | some t =>
    obtain ⟨secs, hpos, hlt, rfl⟩ := h t hl
    dsimp only
    rw [as_secs_whole]
    exact parseHandshake_pos hpos hlt

/-! ### Lines read back -/

/-- The characters of every field but the keys. -/
def fieldChars : List Char := addressChars ++ ",(none)off".toList

theorem FieldText.of_over {text : String} (h : Over fieldChars text) : FieldText text :=
  ⟨h.not_mem (by decide), h.not_mem (by decide)⟩

theorem FieldText.nat (n : ℕ) : FieldText (toString n) := .of_over ((over_nat n).mono (by decide))

theorem FieldText.getD {α : Type} {text : α → String} {placeholder : String} {o : Option α}
    (h : ∀ a ∈ o, FieldText (text a)) (hp : Over fieldChars placeholder) :
    FieldText ((o.map text).getD placeholder) := by
  cases o with
  | none => exact .of_over hp
  | some a => exact h a rfl

theorem FieldText.allowed (nets : List IpNet) :
    FieldText (if nets = [] then "(none)" else ",".intercalate (nets.map IpNet.text)) := by
  refine .of_over ?_
  split
  · decide
  · refine Over.intercalate (by decide) fun t ht => ?_
    obtain ⟨net, _, rfl⟩ := List.mem_map.mp ht
    exact net.text_over.mono (by decide)

theorem PeerStats.Printable.fields (h : peer.Printable keys read) :
    ∀ t ∈ peer.fields keys, FieldText t := by
  simp only [PeerStats.fields, List.forall_mem_cons]
  exact ⟨h.public_key.field, .getD (fun k hk => (h.preshared_key k hk).1.field) (by decide),
    .getD (fun e _ => .of_over (e.text_over.mono (by decide))) (by decide), .allowed _, .nat _, .nat _,
    .nat _, .getD (fun k _ => .nat _) (by decide), fun _ h => absurd h (List.not_mem_nil)⟩

theorem NetworkStats.Printable.fields (h : stats.Printable keys read) :
    ∀ t ∈ stats.fields keys, FieldText t := by
  simp only [NetworkStats.fields, List.forall_mem_cons]
  exact ⟨h.private_key.field, h.public_key.field, .nat _, .getD (fun _ _ => .nat _) (by decide),
    fun _ h => absurd h (List.not_mem_nil)⟩

/-- The last field of a line: a number, or `off`. -/
theorem getD_off_end {α : Type} (number : α → ℕ) (o : Option α) :
    ((o.map fun a => toString (number a)).getD "off").toList.getLast? ≠ some '\r' ∧
      ((o.map fun a => toString (number a)).getD "off").toList ≠ [] := by
  cases o with
  | none =>
    rw [Option.map_none, Option.getD_none]
    decide
  | some a =>
    constructor
    · intro h
      exact (over_nat (number a)).not_mem (by decide) (List.mem_of_getLast? h)
    · rw [Option.map_some, Option.getD_some, Nat.toString_eq_repr, Nat.toList_repr]
      exact Nat.toDigits_ne_nil

/-- A line of fields is one line, with its fields between the tabs. -/
theorem line_of_fields {fields : List String} {last : String} (h : ∀ t ∈ fields, FieldText t)
    (hlast : fields.getLast? = some last) (hend : last.toList.getLast? ≠ some '\r') (hne : last.toList ≠ []) :
    split '\t' ("\t".intercalate fields) = fields ∧
      '\n' ∉ ("\t".intercalate fields).toList ∧
      ("\t".intercalate fields).toList.getLast? ≠ some '\r' := by
  refine ⟨?_, ?_, ?_⟩
  · refine split_intercalate (fun t ht => (h t ht).tab) ?_
    rintro rfl
    cases hlast
  · exact not_mem_intercalate (by decide) fun t ht => (h t ht).newline
  · rw [getLast_intercalate _ hlast hne]
    exact hend

theorem PeerStats.Printable.line (h : peer.Printable keys read) :
    split '\t' ("\t".intercalate (peer.fields keys)) = peer.fields keys ∧
      '\n' ∉ ("\t".intercalate (peer.fields keys)).toList ∧
      ("\t".intercalate (peer.fields keys)).toList.getLast? ≠ some '\r' :=
  line_of_fields h.fields rfl (getD_off_end BitVec.toNat peer.persistent_keepalive).1
    (getD_off_end BitVec.toNat peer.persistent_keepalive).2

theorem NetworkStats.Printable.line (h : stats.Printable keys read) :
    split '\t' ("\t".intercalate (stats.fields keys)) = stats.fields keys ∧
      '\n' ∉ ("\t".intercalate (stats.fields keys)).toList ∧
      ("\t".intercalate (stats.fields keys)).toList.getLast? ≠ some '\r' :=
  line_of_fields h.fields rfl (getD_off_end UInt16.toNat stats.fwmark).1
    (getD_off_end UInt16.toNat stats.fwmark).2

/-- The lines of a dump are those that were printed. -/
theorem NetworkStats.Printable.lines_dump (h : stats.Printable keys read) :
    (lines (stats.dump keys).toList).map String.ofList = stats.dumpLines keys := by
  have htext : (stats.dump keys).toList =
      ((stats.dumpLines keys).map String.toList).flatMap (· ++ ['\n']) := by
    rw [NetworkStats.dump, String.toList_join, List.flatMap_map, List.flatMap_map]
    simp
  have hlines : ∀ l ∈ (stats.dumpLines keys).map String.toList, '\n' ∉ l ∧ l.getLast? ≠ some '\r' := by
    intro l hl
    obtain ⟨t, ht, rfl⟩ := List.mem_map.mp hl
    rcases List.mem_cons.mp ht with rfl | ht
    · exact h.line.2
    · obtain ⟨peer, hpeer, rfl⟩ := List.mem_map.mp ht
      exact (h.peers peer hpeer).line.2
  rw [htext, lines_flatMap_newline hlines, List.map_map]
  exact (List.map_congr_left fun t _ => String.ofList_toList).trans (List.map_id _)

/-- What is read for a keepalive is the number of the handshake. -/
theorem parseKeepalive_iff {o : Option (BitVec w)} {n : ℕ} :
    parseKeepalive ((o.map fun k => toString k.toNat).getD "off") (toString n) = .ok o ↔
      ∀ k ∈ o, k.toNat = n := by
  cases o with
  | none => exact iff_of_true (if_pos rfl) fun k hk => by cases hk
  | some k =>
    rw [Option.map_some, Option.getD_some, parseKeepalive, if_neg (nat_ne_off k.toNat)]
    have hsome : (parseUsize (toString n)).map some = .ok (some k) ↔ parseUsize (toString n) = .ok k := by
      cases (parseUsize (toString n) : Except Fail (BitVec w)) <;> simp [Except.map]
    rw [hsome, parseUsize_eq_ok_iff]
    exact ⟨fun h k' hk' => by cases hk'; exact h, fun h => h k rfl⟩

/-- A peer's line gives the peer back, with the keepalive read from the handshake. -/
theorem PeerStats.Printable.from_str_eq (h : peer.Printable keys read) :
    PeerStats.from_str read ("\t".intercalate (peer.fields keys)) =
      (parseKeepalive ((peer.persistent_keepalive.map fun k => toString k.toNat).getD "off")
        (toString peer.handshakeSecs)).map fun k => { peer with persistent_keepalive := k } := by
  have hpublic : parsed (read.pubkey (keys.pubkey peer.public_key)) = .ok peer.public_key :=
    parsed_ok_iff.mpr h.public_key.read
  have hpreshared : optional "(none)" (fun text => parsed (read.secret text))
      ((peer.preshared_key.map keys.secret).getD "(none)") = .ok peer.preshared_key :=
    optional_getD (fun k hk => parsed_ok_iff.mpr (h.preshared_key k hk).1.read)
      fun k hk => (h.preshared_key k hk).2
  have hendpoint : optional "(none)"
      (fun text => (parsed (read.socket text)).mapError (Fail.context "Parsing endpoint"))
      ((peer.endpoint.map SocketAddr.text).getD "(none)") = .ok peer.endpoint :=
    optional_getD (fun e he => mapError_ok_iff.mpr (parsed_ok_iff.mpr (h.endpoint e he)))
      fun e _ => e.text_over.ne '(' (by decide) (by decide)
  rw [PeerStats.from_str, h.line.1]
  simp only [PeerStats.fields, hpublic, hpreshared, hendpoint, parseAllowed_intercalate h.allowed_ips,
    parseHandshake_toString h.latest_handshake, parseUsize_toString, except_ok_bind]
  cases parseKeepalive ((peer.persistent_keepalive.map fun k => toString k.toNat).getD "off")
    (toString peer.handshakeSecs) <;> rfl

/-- That is the peer itself exactly when its keepalive is the number of its handshake. -/
theorem PeerStats.Printable.from_str_iff (h : peer.Printable keys read) :
    PeerStats.from_str read ("\t".intercalate (peer.fields keys)) = .ok peer ↔
      ∀ k ∈ peer.persistent_keepalive, k.toNat = peer.handshakeSecs := by
  rw [h.from_str_eq, ← parseKeepalive_iff]
  cases parseKeepalive ((peer.persistent_keepalive.map fun k => toString k.toNat).getD "off")
    (toString peer.handshakeSecs) with
  | error e =>
    constructor
    · intro heq
      cases heq
    · intro heq
      cases heq
  | ok k =>
    constructor
    · intro heq
      exact congrArg Except.ok (congrArg PeerStats.persistent_keepalive (Except.ok.inj heq))
    · intro heq
      cases Except.ok.inj heq
      rfl

/-- The interface line gives the network back, with the peers its other lines give. -/
theorem NetworkStats.Printable.from_str_iff (h : stats.Printable keys read) (peers : List (PeerStats w)) :
    NetworkStats.from_str read (stats.dump keys) = .ok { stats with peers := peers } ↔
      List.Forall₂ (fun peer peer' =>
        PeerStats.from_str read ("\t".intercalate (peer.fields keys)) = .ok peer') stats.peers peers := by
  have hprivate : parsed (read.privkey (keys.privkey stats.private_key)) = .ok stats.private_key :=
    parsed_ok_iff.mpr h.private_key.read
  have hpublic : parsed (read.pubkey (keys.pubkey stats.public_key)) = .ok stats.public_key :=
    parsed_ok_iff.mpr h.public_key.read
  have hmark : optional "off" parseU16
      ((stats.fwmark.map fun mark => toString mark.toNat).getD "off") = .ok stats.fwmark :=
    optional_getD (fun mark _ => parseU16_toString mark) fun mark _ => nat_ne_off _
  rw [NetworkStats.from_str, h.lines_dump, NetworkStats.dumpLines]
  dsimp only
  rw [h.line.1]
  simp only [NetworkStats.fields, hprivate, hpublic, hmark, parseU16_toString, except_ok_bind]
  simp only [except_bind_ok_iff, mapM_ok_iff, List.forall₂_map_left_iff]
  constructor
  · rintro ⟨peers', hread, heq⟩
    have hsame : peers' = peers := congrArg NetworkStats.peers (Except.ok.inj heq)
    rwa [hsame] at hread
  · intro hread
    exact ⟨_, hread, rfl⟩

end

/-- A dump is read back as what was dumped exactly when every keepalive there is happens to be the
    number of seconds of its peer's handshake. -/
theorem dump_read_back_iff (keys : KeyText) (read : Readers) (stats : NetworkStats w)
    (h : stats.Printable keys read) :
    NetworkStats.from_str read (stats.dump keys) = .ok stats ↔
      ∀ peer ∈ stats.peers, ∀ k ∈ peer.persistent_keepalive, k.toNat = peer.handshakeSecs := by
  rw [h.from_str_iff stats.peers, List.forall₂_same]
  exact forall₂_congr fun peer hpeer => (h.peers peer hpeer).from_str_iff

/-! ### A sample dump -/

/-- The text of the key with all bits zero. -/
def zeroKey : String := "AAAAAAAAAAAAAAAAAAAAAAAAAAAAAAAAAAAAAAAAAAA="

def sampleKeys : KeyText := ⟨fun _ => zeroKey, fun _ => zeroKey, fun _ => zeroKey⟩

/-- Readers for the texts of the sample. -/
def sampleReaders : Readers where
  url _ := .error "relative URL without a base"
  socket text :=
    if text = "10.0.0.7:51820" then .ok (.v4 (Ipv4Addr.new 10 0 0 7) 51820)
    else .error "invalid socket address syntax"
  ipnet text :=
    if text = "10.1.0.0/24" then .ok ⟨.v4 (Ipv4Addr.new 10 1 0 0), 24⟩
    else .error "invalid IP address syntax"
  privkey text := if text = zeroKey then .ok ⟨0⟩ else .error "invalid length"
  pubkey text := if text = zeroKey then .ok ⟨0⟩ else .error "invalid length"
  secret text := if text = zeroKey then .ok ⟨0⟩ else .error "invalid length"

/-- A network with one peer, which has every field but, maybe, a keepalive. -/
def sampleStats (persistent_keepalive : Option (BitVec 64)) : NetworkStats 64 where
  private_key := ⟨0⟩
  public_key := ⟨0⟩
  listen_port := 51820
  fwmark := some 7
  peers := [{
    public_key := ⟨0⟩
    preshared_key := some ⟨0⟩
    endpoint := some (.v4 (Ipv4Addr.new 10 0 0 7) 51820)
    allowed_ips := [⟨.v4 (Ipv4Addr.new 10 1 0 0), 24⟩]
    latest_handshake := some ⟨1600000000 * 1000000000⟩
    transfer_rx := 12
    transfer_tx := 34
    persistent_keepalive }]

theorem sampleStats_printable (persistent_keepalive : Option (BitVec 64)) :
    (sampleStats persistent_keepalive).Printable sampleKeys sampleReaders := by
  have hfield : FieldText zeroKey := ⟨by decide, by decide⟩
  refine ⟨⟨hfield, rfl⟩, ⟨hfield, rfl⟩, ?_⟩
  intro peer hpeer
  rw [List.mem_singleton.mp hpeer]
  refine ⟨⟨hfield, rfl⟩, ?_, ?_, ?_, ?_⟩
  · rintro k ⟨⟩
    exact ⟨⟨hfield, rfl⟩, by decide⟩
  · rintro e ⟨⟩
    decide +kernel
  · intro net hnet
    rw [List.mem_singleton.mp hnet]
    decide +kernel
  · rintro t ⟨⟩
    exact ⟨1600000000, by decide, by decide, rfl⟩

theorem dump_read_back_sample :
    NetworkStats.from_str sampleReaders ((sampleStats none).dump sampleKeys) = .ok (sampleStats none) := by
  refine (dump_read_back_iff sampleKeys sampleReaders (sampleStats none) (sampleStats_printable none)).mpr ?_
  intro peer hpeer k hk
  rw [List.mem_singleton.mp hpeer] at hk
  cases hk

/-- A keepalive of 25 seconds is read as the time of the handshake. -/
theorem keepalive_read_as_handshake :
    NetworkStats.from_str sampleReaders ((sampleStats (some 25)).dump sampleKeys) =
        .ok (sampleStats (some 1600000000)) ∧
      sampleStats (some 1600000000) ≠ sampleStats (some 25) := by
  have hprintable := sampleStats_printable (some 25)
  refine ⟨(hprintable.from_str_iff _).mpr (List.forall₂_cons.mpr ⟨?_, .nil⟩), by decide⟩
  rw [(hprintable.peers _ (List.mem_singleton_self _)).from_str_eq]
  decide +kernel

end FractalGateway
