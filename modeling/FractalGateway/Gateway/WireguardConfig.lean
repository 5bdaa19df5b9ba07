import FractalGateway.Gateway.Types
import FractalGateway.Texts
import Mathlib.Data.List.Nodup

/-! What a WireGuard configuration file says.

    A file is read line by line: `[Peer]` starts a new peer, and every entry belongs to the section
    it stands in. What is read from a generated file are the texts it was generated from, peer by
    peer in key order (`Conf.read_render`), and since texts tell keys, sockets and networks apart, the
    file determines everything it was generated from. -/

namespace FractalGateway
open Std Text

/-! ### Files and their lines -/

/-- A peer section. -/
structure ConfPeer where
  public_key : String
  allowed_ips : List String
  preshared_key : Option String
  endpoint : Option String
  deriving DecidableEq

/-- A configuration file: the interface section and the peers. -/
structure Conf where
  listen_port : String
  private_key : String
  peers : List ConfPeer
  deriving DecidableEq

def entryLine (name value : String) : String := name ++ " = " ++ value

/-- The lines of a peer section, with the empty lines around it. -/
def ConfPeer.lines (peer : ConfPeer) : List String :=
  ["", "[Peer]", entryLine "PublicKey" peer.public_key,
      entryLine "AllowedIPs" (", ".intercalate peer.allowed_ips)] ++
    (peer.preshared_key.map (entryLine "PresharedKey")).toList ++
    (peer.endpoint.map (entryLine "Endpoint")).toList ++ [entryLine "PersistentKeepalive" "25", ""]

def Conf.lines (conf : Conf) : List String :=
  ["[Interface]", entryLine "ListenPort" conf.listen_port,
    entryLine "PrivateKey" conf.private_key] ++ conf.peers.flatMap ConfPeer.lines

/-- The file with these lines. -/
def Conf.render (conf : Conf) : String := String.join (conf.lines.map (· ++ "\n"))

/-- What is written for a peer. -/
def PeerState.conf (keys : KeyText) (public_key : Pubkey) (peer : PeerState) : ConfPeer where
  public_key := keys.pubkey public_key
  allowed_ips := peer.allowed_ips.map fun ip => ip.trunc.text
  preshared_key := peer.preshared_key.map keys.secret
  endpoint := peer.endpoint.map SocketAddr.text

/-- What is written for a network, its peers in key order. -/
def NetworkState.conf (keys : KeyText) (network : NetworkState) : Conf where
  listen_port := toString network.listen_port.toNat
  private_key := keys.privkey network.private_key
  peers := network.peers.toList.map fun p => p.2.conf keys p.1

theorem PeerState.to_config_eq (keys : KeyText) (public_key : Pubkey) (peer : PeerState) :
    "\n" ++ peer.to_config keys public_key ++ "\n" =
      String.join ((peer.conf keys public_key).lines.map (· ++ "\n")) := by
  unfold PeerState.to_config
  rw [← String.toList_inj]
  cases hp : peer.preshared_key <;> cases he : peer.endpoint <;>
    simp [PeerState.conf, ConfPeer.lines, entryLine, hp, he]

theorem join_flatMap_map {α : Type} (g : String → String) (f : α → List String) (l : List α) :
    String.join ((l.flatMap f).map g) = String.join (l.map fun a => String.join ((f a).map g)) := by
  rw [← String.toList_inj, String.toList_join, String.toList_join, List.flatMap_map, List.flatMap_map,
    List.flatMap_assoc]
  simp only [String.toList_join, List.flatMap_map]

theorem interface_lines (listen_port private_key : String) (peers : List String) :
    "[Interface]\n" ++ "ListenPort = " ++ listen_port ++ "\n" ++ "PrivateKey = " ++ private_key ++ "\n" ++
        String.join peers =
      String.join (["[Interface]", entryLine "ListenPort" listen_port,
        entryLine "PrivateKey" private_key].map (· ++ "\n") ++ peers) := by
  rw [← String.toList_inj]
  simp [entryLine]

/-- The generated file has these lines. -/
theorem NetworkState.to_config_eq (keys : KeyText) (network : NetworkState) :
    network.to_config keys = (network.conf keys).render := by
  have hpeers : String.join (network.peers.toList.map fun p => "\n" ++ p.2.to_config keys p.1 ++ "\n") =
      String.join (((network.conf keys).peers.flatMap ConfPeer.lines).map (· ++ "\n")) := by
    rw [join_flatMap_map, NetworkState.conf, List.map_map]
    exact congrArg String.join (List.map_congr_left fun p _ => p.2.to_config_eq keys p.1)
  unfold NetworkState.to_config
  rw [hpeers, Conf.render, Conf.lines, List.map_append]
  exact interface_lines _ _ _

/-! ### Reading a file -/

/-- An entry: its name up to the first space, and what follows the equals sign. -/
def entry (line : String) : String × String :=
  (String.ofList (line.toList.takeWhile (· ≠ ' ')),
    String.ofList ((line.toList.dropWhile (· ≠ ' ')).drop 3))

/-- Networks between commas; spaces do not count. -/
def readAllowed (value : String) : List String :=
  if value = "" then [] else split ',' (String.ofList (value.toList.filter (· ≠ ' ')))

/-- An option of the peer whose section has started last. -/
def Conf.inPeer (conf : Conf) (f : ConfPeer → ConfPeer) : Conf :=
  { conf with peers := conf.peers.modifyHead f }

def Conf.readEntry (conf : Conf) (name value : String) : Conf :=
  match name with
  | "ListenPort" => { conf with listen_port := value }
  | "PrivateKey" => { conf with private_key := value }
  | "PublicKey" => conf.inPeer fun peer => { peer with public_key := value }
  | "AllowedIPs" => conf.inPeer fun peer => { peer with allowed_ips := readAllowed value }
  | "PresharedKey" => conf.inPeer fun peer => { peer with preshared_key := some value }
  | "Endpoint" => conf.inPeer fun peer => { peer with endpoint := some value }
  | _ => conf

/-- One line more, the last peer first. -/
def Conf.readLine (conf : Conf) (line : String) : Conf :=
  if line = "[Peer]" then { conf with peers := ⟨"", [], none, none⟩ :: conf.peers }
  else conf.readEntry (entry line).1 (entry line).2

/-- A file, line by line. -/
def Conf.read (text : String) : Conf :=
  let conf := (split '\n' text).foldl Conf.readLine ⟨"", "", []⟩
  { conf with peers := conf.peers.reverse }

/-! ### What is written is read -/

theorem entry_entryLine {name : String} (h : ' ' ∉ name.toList) (value : String) :
    entry (entryLine name value) = (name, value) := by
  have hlist : (entryLine name value).toList = name.toList ++ ' ' :: '=' :: ' ' :: value.toList := by
    simp [entryLine]
  have hname : ∀ c ∈ name.toList, decide (c ≠ ' ') = true := by
    intro c hc
    refine decide_eq_true ?_
    rintro rfl
    exact h hc
  rw [entry, hlist, List.takeWhile_append_of_pos hname, List.dropWhile_append_of_pos hname]
  simp

/-- An entry line is no section header. -/
theorem Conf.readLine_entryLine (conf : Conf) {name : String} (h : ' ' ∉ name.toList) (value : String) :
    conf.readLine (entryLine name value) = conf.readEntry name value := by
  have hne : entryLine name value ≠ "[Peer]" := by
    intro heq
    have hspace : ' ' ∈ (entryLine name value).toList := by simp [entryLine]
    rw [heq] at hspace
    exact absurd hspace (by decide)
  rw [Conf.readLine, if_neg hne, entry_entryLine h]

theorem Conf.readLine_empty (conf : Conf) : conf.readLine "" = conf := rfl

/-- Texts of networks, as a list of them is written. -/
structure ListedText (text : String) : Prop where
  comma : ',' ∉ text.toList
  space : ' ' ∉ text.toList
  nonempty : text ≠ ""

theorem ListedText.filter_space {text : String} (h : ListedText text) :
    text.toList.filter (· ≠ ' ') = text.toList := by
  refine List.filter_eq_self.mpr fun c hc => decide_eq_true ?_
  rintro rfl
  exact h.space hc

theorem filter_space_intercalate : ∀ {texts : List String}, (∀ t ∈ texts, ListedText t) →
    (", ".intercalate texts).toList.filter (· ≠ ' ') = (",".intercalate texts).toList
  | [], _ => rfl
  | [t], h => by
      rw [String.intercalate_singleton, String.intercalate_singleton]
      exact (h t (List.mem_singleton_self t)).filter_space
  | t :: t' :: ts, h => by
      have ht := (h t List.mem_cons_self).filter_space
      rw [String.intercalate_cons_cons, String.intercalate_cons_cons, String.toList_append,
        String.toList_append, String.toList_append, String.toList_append, List.filter_append,
        List.filter_append, ht, filter_space_intercalate fun u hu => h u (List.mem_cons_of_mem _ hu)]
      rfl

theorem readAllowed_intercalate {texts : List String} (h : ∀ t ∈ texts, ListedText t) :
    readAllowed (", ".intercalate texts) = texts := by
  cases texts with
  | nil => rfl
  | cons t ts =>
    have hsplit : split ',' (",".intercalate (t :: ts)) = t :: ts :=
      split_intercalate (fun u hu => (h u hu).comma) (List.cons_ne_nil t ts)
    have hfilter := filter_space_intercalate h
    have hne : ", ".intercalate (t :: ts) ≠ "" := by
      intro heq
      rw [heq] at hfilter
      have hempty : ",".intercalate (t :: ts) = "" := String.toList_inj.mp hfilter.symm
      rw [hempty] at hsplit
      exact (h t List.mem_cons_self).nonempty (List.head_eq_of_cons_eq hsplit.symm)
    rw [readAllowed, if_neg hne, hfilter, String.ofList_toList, hsplit]

theorem Conf.readLine_peer (conf : Conf) :
    conf.readLine "[Peer]" = { conf with peers := ⟨"", [], none, none⟩ :: conf.peers } := if_pos rfl

/-- A peer section is read as one more peer, with its own options. -/
theorem ConfPeer.foldl_lines (conf : Conf) {peer : ConfPeer} (h : ∀ t ∈ peer.allowed_ips, ListedText t) :
    peer.lines.foldl Conf.readLine conf = { conf with peers := peer :: conf.peers } := by
  have hallowed := readAllowed_intercalate h
  obtain ⟨public_key, allowed_ips, preshared_key, endpoint⟩ := peer
  cases preshared_key <;> cases endpoint <;>
    simp [ConfPeer.lines, Conf.readLine_empty, Conf.readLine_peer, Conf.readLine_entryLine,
      Conf.readEntry, Conf.inPeer, hallowed]

/-- Peer sections are read one by one. -/
theorem Conf.foldl_sections : ∀ (peers : List ConfPeer) (conf : Conf),
    (∀ peer ∈ peers, ∀ t ∈ peer.allowed_ips, ListedText t) →
    (peers.flatMap ConfPeer.lines).foldl Conf.readLine conf =
      { conf with peers := peers.reverse ++ conf.peers }
  | [], conf, _ => rfl
  | peer :: peers, conf, h => by
      rw [List.flatMap_cons, List.foldl_append, ConfPeer.foldl_lines conf (h peer List.mem_cons_self),
        Conf.foldl_sections peers _ fun q hq => h q (List.mem_cons_of_mem _ hq)]
      simp

/-- A file is read as what it was written from. -/
theorem Conf.read_render {conf : Conf} (hlines : ∀ line ∈ conf.lines, '\n' ∉ line.toList)
    (hallowed : ∀ peer ∈ conf.peers, ∀ t ∈ peer.allowed_ips, ListedText t) :
    Conf.read conf.render = conf := by
  have hsplit : split '\n' conf.render = conf.lines ++ [""] := split_join_lines hlines
  have hinterface : ["[Interface]", entryLine "ListenPort" conf.listen_port,
      entryLine "PrivateKey" conf.private_key].foldl Conf.readLine ⟨"", "", []⟩ =
        ⟨conf.listen_port, conf.private_key, []⟩ := by
    have hheader : Conf.readLine ⟨"", "", []⟩ "[Interface]" = ⟨"", "", []⟩ := rfl
    simp [hheader, Conf.readLine_entryLine, Conf.readEntry]
  rw [Conf.read, hsplit, List.foldl_append, Conf.lines, List.foldl_append, hinterface,
    Conf.foldl_sections _ _ hallowed]
  simp [Conf.readLine_empty]

/-! ### Generated files -/

/-- The texts of keys are single lines and tell keys apart. -/
structure KeyText.Legible (keys : KeyText) : Prop where
  pubkey : Function.Injective keys.pubkey
  privkey : Function.Injective keys.privkey
  secret : Function.Injective keys.secret
  pubkey_line : ∀ k, '\n' ∉ (keys.pubkey k).toList
  privkey_line : ∀ k, '\n' ∉ (keys.privkey k).toList
  secret_line : ∀ k, '\n' ∉ (keys.secret k).toList

/-- The endpoints of a network are those texts can give. -/
def NetworkState.EndpointsFromText (network : NetworkState) : Prop :=
  ∀ (k : Pubkey) (peer : PeerState), network.peers[k]? = some peer → ∀ e ∈ peer.endpoint, e.FromText

/-- Two peers with the same options. -/
structure SamePeer (p q : PeerState) : Prop where
  preshared_key : p.preshared_key = q.preshared_key
  endpoint : p.endpoint = q.endpoint
  allowed_ips : p.allowed_ips.map IpNet.trunc = q.allowed_ips.map IpNet.trunc

/-- Two networks with the same interface and the same peers. -/
structure SameNetwork (n m : NetworkState) : Prop where
  listen_port : n.listen_port = m.listen_port
  private_key : n.private_key = m.private_key
  keys : ∀ k, k ∈ n.peers ↔ k ∈ m.peers
  peers : ∀ (k : Pubkey) (p q : PeerState), n.peers[k]? = some p → m.peers[k]? = some q → SamePeer p q

section
variable {keys : KeyText}

theorem IpNet.text_listed (net : IpNet) : ListedText net.text := by
  refine ⟨net.text_over.not_mem (by decide), net.text_over.not_mem (by decide), ?_⟩
  intro h
  have hslash : '/' ∈ net.text.toList := by simp [IpNet.text]
  rw [h] at hslash
  cases hslash

theorem NetworkState.conf_allowed (keys : KeyText) (network : NetworkState) :
    ∀ peer ∈ (network.conf keys).peers, ∀ t ∈ peer.allowed_ips, ListedText t := by
  intro peer hpeer t ht
  obtain ⟨⟨k, p⟩, _, rfl⟩ := List.mem_map.mp hpeer
  obtain ⟨net, _, rfl⟩ := List.mem_map.mp ht
  exact net.trunc.text_listed

theorem entryLine_not_mem {c : Char} {name value : String} (hname : c ∉ (name ++ " = ").toList)
    (hvalue : c ∉ value.toList) : c ∉ (entryLine name value).toList := by
  rw [entryLine, String.toList_append, List.mem_append, not_or]
  exact ⟨hname, hvalue⟩

theorem PeerState.conf_lines (hkeys : keys.Legible) (k : Pubkey) (peer : PeerState) :
    ∀ line ∈ (peer.conf keys k).lines, '\n' ∉ line.toList := by
  have hallowed : '\n' ∉ (", ".intercalate (peer.conf keys k).allowed_ips).toList := by
    refine not_mem_intercalate (by decide) fun t ht => ?_
    obtain ⟨net, _, rfl⟩ := List.mem_map.mp ht
    exact net.trunc.text_over.not_mem (by decide)
  intro line hline
  simp only [ConfPeer.lines, List.mem_append, List.mem_cons, List.not_mem_nil, or_false,
    Option.mem_toList, Option.map_eq_some_iff] at hline
  rcases hline with ((h | h) | h) | h
  · rcases h with rfl | rfl | rfl | rfl
    · decide
    · decide
    · exact entryLine_not_mem (by decide) (hkeys.pubkey_line k)
    · exact entryLine_not_mem (by decide) hallowed
  · obtain ⟨_, hsecret, rfl⟩ := h
    obtain ⟨secret, _, rfl⟩ := Option.map_eq_some_iff.mp hsecret
    exact entryLine_not_mem (by decide) (hkeys.secret_line secret)
  · obtain ⟨_, hendpoint, rfl⟩ := h
    obtain ⟨endpoint, _, rfl⟩ := Option.map_eq_some_iff.mp hendpoint
    exact entryLine_not_mem (by decide) (endpoint.text_over.not_mem (by decide))
  · rcases h with rfl | rfl
    · decide
    · decide

theorem NetworkState.conf_lines (hkeys : keys.Legible) (network : NetworkState) :
    ∀ line ∈ (network.conf keys).lines, '\n' ∉ line.toList := by
  intro line hline
  rw [Conf.lines, List.mem_append, List.mem_flatMap] at hline
  rcases hline with hline | ⟨peer, hpeer, hline⟩
  · simp only [List.mem_cons, List.not_mem_nil, or_false] at hline
    rcases hline with rfl | rfl | rfl
    · decide
    · exact entryLine_not_mem (by decide) ((over_nat _).not_mem (by decide))
    · exact entryLine_not_mem (by decide) (hkeys.privkey_line _)
  · obtain ⟨⟨k, p⟩, _, rfl⟩ := List.mem_map.mp hpeer
    exact p.conf_lines hkeys k line hline

/-- What is read from a generated file. -/
theorem NetworkState.read_to_config (hkeys : keys.Legible) (network : NetworkState) :
    Conf.read (network.to_config keys) = network.conf keys := by
  rw [NetworkState.to_config_eq]
  exact Conf.read_render (network.conf_lines hkeys) (network.conf_allowed keys)

/-- The options of a peer, as they are written, tell them apart. -/
theorem PeerState.conf_inj (hkeys : keys.Legible) {j k : Pubkey} {p q : PeerState}
    (hp : ∀ e ∈ p.endpoint, e.FromText) (hq : ∀ e ∈ q.endpoint, e.FromText)
    (h : p.conf keys j = q.conf keys k) : j = k ∧ SamePeer p q := by
  simp only [PeerState.conf, ConfPeer.mk.injEq] at h
  obtain ⟨hkey, hallowed, hsecret, hendpoint⟩ := h
  refine ⟨hkeys.pubkey hkey, ?_, ?_, ?_⟩
  · exact Option.map_injective hkeys.secret hsecret
  · cases hpe : p.endpoint with
    | none =>
      rw [hpe] at hendpoint
      exact (Option.map_eq_none_iff.mp hendpoint.symm).symm
    | some e =>
      rw [hpe] at hendpoint
      obtain ⟨e', hqe, htext⟩ := Option.map_eq_some_iff.mp hendpoint.symm
      rw [hqe, SocketAddr.text_inj (hp e hpe) (hq e' hqe) htext.symm]
  · refine List.map_injective_iff.mpr IpNet.text_injective ?_
    rw [List.map_map, List.map_map]
    exact hallowed

theorem SamePeer.conf {p q : PeerState} (h : SamePeer p q) (k : Pubkey) : p.conf keys k = q.conf keys k := by
  have hallowed : (p.allowed_ips.map fun ip => ip.trunc.text) = q.allowed_ips.map fun ip => ip.trunc.text := by
    have := congrArg (List.map IpNet.text) h.allowed_ips
    rwa [List.map_map, List.map_map] at this
  rw [PeerState.conf, PeerState.conf, h.preshared_key, h.endpoint, hallowed]

/-- Every peer of one network is a peer of the other, when the files say the same. -/
theorem NetworkState.peer_of_conf_eq (hkeys : keys.Legible) {n m : NetworkState}
    (hn : n.EndpointsFromText) (hm : m.EndpointsFromText) (h : (n.conf keys).peers = (m.conf keys).peers)
    {k : Pubkey} {p : PeerState} (hp : n.peers[k]? = some p) :
    ∃ q, m.peers[k]? = some q ∧ SamePeer p q := by
  have hmem : p.conf keys k ∈ (m.conf keys).peers := by
    rw [← h]
    exact List.mem_map.mpr ⟨(k, p), (OrdMap.mem_toList_iff _ _ _).mpr hp, rfl⟩
  obtain ⟨⟨j, q⟩, hjq, heq⟩ := List.mem_map.mp hmem
  have hq := (OrdMap.mem_toList_iff _ _ _).mp hjq
  obtain ⟨rfl, hsame⟩ := PeerState.conf_inj hkeys (hn k p hp) (hm j q hq) heq.symm
  exact ⟨q, hq, hsame⟩

theorem NetworkState.same_of_conf_eq (hkeys : keys.Legible) {n m : NetworkState}
    (hn : n.EndpointsFromText) (hm : m.EndpointsFromText) (h : n.conf keys = m.conf keys) :
    SameNetwork n m := by
  have hpeers := congrArg Conf.peers h
  refine ⟨?_, hkeys.privkey (congrArg Conf.private_key h), ?_, ?_⟩
  · exact UInt16.toNat_inj.mp (toString_nat_injective (congrArg Conf.listen_port h))
  · intro k
    rw [OrdMap.mem_iff_get, OrdMap.mem_iff_get]
    constructor
    · rintro ⟨p, hp⟩
      obtain ⟨q, hq, _⟩ := NetworkState.peer_of_conf_eq hkeys hn hm hpeers hp
      exact ⟨q, hq⟩
    · rintro ⟨q, hq⟩
      obtain ⟨p, hp, _⟩ := NetworkState.peer_of_conf_eq hkeys hm hn hpeers.symm hq
      exact ⟨p, hp⟩
  · intro k p q hp hq
    obtain ⟨q', hq', hsame⟩ := NetworkState.peer_of_conf_eq hkeys hn hm hpeers hp
    rw [hq] at hq'
    cases hq'
    exact hsame

/-- Same peers under the same keys are written in the same order. -/
theorem SameNetwork.conf {n m : NetworkState} (h : SameNetwork n m) : n.conf keys = m.conf keys := by
  have hmap : n.peers.map (fun k p => p.conf keys k) = m.peers.map (fun k q => q.conf keys k) := by
    refine ExtTreeMap.ext_getElem? fun k => ?_
    rw [ExtTreeMap.getElem?_map, ExtTreeMap.getElem?_map]
    cases hp : n.peers[k]? with
    | none =>
      have hnot : k ∉ m.peers := fun hk => (OrdMap.not_mem_iff_get _ _).mpr hp ((h.keys k).mpr hk)
      rw [(OrdMap.not_mem_iff_get _ _).mp hnot]
    | some p =>
      have hk : k ∈ m.peers := (h.keys k).mp ((OrdMap.mem_iff_get _ _).mpr ⟨p, hp⟩)
      obtain ⟨q, hq⟩ := (OrdMap.mem_iff_get _ _).mp hk
      rw [hq, Option.map_some, Option.map_some, (h.peers k p q hp hq).conf k]
  have hpeers : (n.conf keys).peers = (m.conf keys).peers := by
    have hlist := congrArg (fun t => t.toList.map Prod.snd) hmap
    simp only [ExtTreeMap.toList_map, List.map_map] at hlist
    exact hlist
  have hport : (n.conf keys).listen_port = (m.conf keys).listen_port :=
    congrArg (fun port : UInt16 => toString port.toNat) h.listen_port
  have hprivate : (n.conf keys).private_key = (m.conf keys).private_key :=
    congrArg keys.privkey h.private_key
  calc n.conf keys = ⟨(n.conf keys).listen_port, (n.conf keys).private_key, (n.conf keys).peers⟩ := rfl
    _ = m.conf keys := by rw [hport, hprivate, hpeers]

end

/-- A generated file is read back as what it was generated from, the peers in key order with each
    its own options, and it is the same for two networks exactly when they are the same. -/
theorem config_determines_network (keys : KeyText) (hkeys : keys.Legible) (n m : NetworkState)
    (hn : n.EndpointsFromText) (hm : m.EndpointsFromText) :
    Conf.read (n.to_config keys) = n.conf keys ∧
      (n.to_config keys = m.to_config keys ↔ SameNetwork n m) := by
  refine ⟨n.read_to_config hkeys, ?_⟩
  constructor
  · intro h
    refine NetworkState.same_of_conf_eq hkeys hn hm ?_
    rw [← n.read_to_config hkeys, h, m.read_to_config hkeys]
  · intro h
    rw [NetworkState.to_config_eq, NetworkState.to_config_eq, h.conf]

/-! ### A sample network -/

def base64Chars : List Char := "ABCDEFGHIJKLMNOPQRSTUVWXYZabcdefghijklmnopqrstuvwxyz0123456789+/".toList

def base64Char (d : ℕ) : Char := base64Chars[d]?.getD '='

/-- The base64 text of 32 bytes: 43 digits and one sign of padding. -/
def base64 (bytes : BitVec 256) : String :=
  String.ofList ((List.range 43).map fun i => base64Char (bytes.toNat * 4 / 64 ^ (42 - i) % 64)) ++ "="

theorem base64Chars_nodup : base64Chars.Nodup := by decide +kernel

theorem base64Char_eq {d : ℕ} (h : d < base64Chars.length) : base64Char d = base64Chars[d] := by
  rw [base64Char, List.getElem?_eq_getElem h, Option.getD_some]

theorem base64Char_inj {d e : ℕ} (hd : d < 64) (he : e < 64) (h : base64Char d = base64Char e) : d = e := by
  have hlen : base64Chars.length = 64 := rfl
  rw [base64Char_eq (by omega), base64Char_eq (by omega)] at h
  exact (List.Nodup.getElem_inj_iff base64Chars_nodup).mp h

theorem base64Char_ne_newline {d : ℕ} (hd : d < 64) : base64Char d ≠ '\n' := by
  have hlen : base64Chars.length = 64 := rfl
  have hnot : '\n' ∉ base64Chars := by decide
  rw [base64Char_eq (by omega)]
  intro h
  exact hnot (h ▸ List.getElem_mem _)

theorem base64_injective : Function.Injective base64 := by
  intro a b h
  have hdigits : (List.range 43).map (fun i => base64Char (a.toNat * 4 / 64 ^ (42 - i) % 64)) =
      (List.range 43).map fun i => base64Char (b.toNat * 4 / 64 ^ (42 - i) % 64) := by
    have hlist := congrArg String.toList h
    simp only [base64, String.toList_append, String.toList_ofList] at hlist
    exact List.append_cancel_right hlist
  have heach : ∀ i < 43, a.toNat * 4 / 64 ^ i % 64 = b.toNat * 4 / 64 ^ i % 64 := by
    intro i hi
    have hchar := List.map_inj_left.mp hdigits (42 - i) (List.mem_range.mpr (by omega))
    have hsub : 42 - (42 - i) = i := by omega
    rw [hsub] at hchar
    exact base64Char_inj (Nat.mod_lt _ (by decide)) (Nat.mod_lt _ (by decide)) hchar
  have ha := a.isLt
  have hb := b.isLt
  have hquad : a.toNat * 4 = b.toNat * 4 := eq_of_digits (k := 43) (by decide) (by omega) (by omega) heach
  exact BitVec.eq_of_toNat_eq (by omega)

theorem base64_line (bytes : BitVec 256) : '\n' ∉ (base64 bytes).toList := by
  rw [base64, String.toList_append, String.toList_ofList, List.mem_append, not_or]
  refine ⟨fun hmem => ?_, by decide⟩
  obtain ⟨i, _, hchar⟩ := List.mem_map.mp hmem
  exact base64Char_ne_newline (Nat.mod_lt _ (by decide)) hchar

def base64Keys : KeyText := ⟨fun k => base64 k.bytes, fun k => base64 k.bytes, fun k => base64 k.bytes⟩

theorem base64Keys_legible : base64Keys.Legible where
  pubkey := base64_injective.comp Pubkey.bytes_injective
  privkey := fun ⟨_⟩ ⟨_⟩ h => congrArg Privkey.mk (base64_injective h)
  secret := fun ⟨_⟩ ⟨_⟩ h => congrArg Secret.mk (base64_injective h)
  pubkey_line := fun k => base64_line k.bytes
  privkey_line := fun k => base64_line k.bytes
  secret_line := fun k => base64_line k.bytes

/-- A network with one peer, which is allowed the network of an address. -/
def onePeerNetwork (host : ℕ) : NetworkState where
  private_key := ⟨3⟩
  listen_port := 51820
  mtu := 1420
  address := []
  peers := (∅ : ExtTreeMap Pubkey PeerState).insert ⟨1⟩
    ⟨some ⟨2⟩, [⟨.v4 (Ipv4Addr.new 10 1 0 host), 24⟩], some (.v4 (Ipv4Addr.new 192 0 2 1) 51820)⟩
  proxy := ∅

theorem onePeerNetwork_endpoints (host : ℕ) : (onePeerNetwork host).EndpointsFromText := by
  intro k peer hpeer e he
  rw [onePeerNetwork, OrdMap.get_insert] at hpeer
  split at hpeer
  · cases hpeer
    cases he
    exact trivial
  · simp at hpeer

/-- Two hosts of one network are written as the network. -/
theorem config_determines_network_hosts :
    (onePeerNetwork 7).to_config base64Keys = (onePeerNetwork 9).to_config base64Keys := by
  refine (config_determines_network base64Keys base64Keys_legible (onePeerNetwork 7)
    (onePeerNetwork 9) (onePeerNetwork_endpoints 7) (onePeerNetwork_endpoints 9)).2.mpr ?_
  refine ⟨rfl, rfl, fun k => ?_, fun k p q hp hq => ?_⟩
  · simp only [onePeerNetwork, OrdMap.mem_insert]
  · rw [onePeerNetwork, OrdMap.get_insert] at hp hq
    split at hp
    · next hk =>
      rw [if_pos hk] at hq
      cases hp
      cases hq
      exact ⟨rfl, rfl, by decide⟩
    · simp at hp

end FractalGateway
