import FractalGateway.Lib.Fields
import FractalGateway.Net

/-! The forwarding given on the command line.

    An entry is a URL, an equals sign and a socket address. A URL may have equals signs of its own,
    in its query; a socket address has none, so the last one is where an entry divides. The gateway
    divides it at the first one and reads the socket up to the second. -/

namespace FractalGateway
open Std Exec Text

/-- `parse_custom_forwarding`: what follows a second equals sign is not looked at. -/
def parse_custom_forwarding (read : Readers) (text : String) : Except Fail (Url × SocketAddr) := do
  let parts := split '=' text
  let url_part ← okOr "Missing URL part" parts[0]?
  let url ← (parsed (read.url url_part)).mapError (Fail.context "While parsing forwarding URL")
  let socket_part ← okOr "Missing socket part" parts[1]?
  let socket ← parsed (read.socket socket_part)
  return (url, socket)

/-- The text is a URL text, an equals sign and a socket text. -/
def IsForwarding (read : Readers) (text : String) (url : Url) (socket : SocketAddr) : Prop :=
  ∃ url_part socket_part, text = url_part ++ "=" ++ socket_part ∧ read.url url_part = .ok url ∧
    read.socket socket_part = .ok socket

/-- The URL and the socket two texts stand for, when both can be read. -/
def readParts (read : Readers) (url_part socket_part : String) : Option (Url × SocketAddr) :=
  match read.url url_part, read.socket socket_part with
  | .ok url, .ok socket => some (url, socket)
  | _, _ => none

/-- A text with two equals signs or more reads around its first one, up to the second, as it reads
    around its last. -/
def DividesAlike (read : Readers) (text : String) : Prop :=
  ∀ a b c d e : String, text = a ++ "=" ++ b ++ "=" ++ c → '=' ∉ a.toList → '=' ∉ b.toList →
    text = d ++ "=" ++ e → '=' ∉ e.toList → readParts read a b = readParts read d e

section
variable {read : Readers} {text : String} {url : Url} {socket : SocketAddr}

theorem readParts_eq_some_iff {a b : String} :
    readParts read a b = some (url, socket) ↔ read.url a = .ok url ∧ read.socket b = .ok socket := by
  unfold readParts
  split
  · next hu hs => rw [hu, hs]; simp
  · next hnot =>
    constructor
    · intro h
      cases h
    · rintro ⟨hu, hs⟩
      exact (hnot _ _ hu hs).elim

/-- What is read are the first two parts. -/
theorem parse_custom_forwarding_eq {a b : String} {rest : List String}
    (h : split '=' text = a :: b :: rest) :
    parse_custom_forwarding read text = .ok (url, socket) ↔ readParts read a b = some (url, socket) := by
  simp only [parse_custom_forwarding, h, except_bind_ok_iff, okOr_ok_iff, mapError_ok_iff,
    parsed_ok_iff, readParts_eq_some_iff]
  constructor
  · rintro ⟨_, ha, u, hu, _, hb, s, hs, heq⟩
    cases ha
    cases hb
    cases heq
    exact ⟨hu, hs⟩
  · rintro ⟨hu, hs⟩
    exact ⟨a, rfl, url, hu, b, rfl, socket, hs, rfl⟩

/-- Without an equals sign there is nothing to read. -/
theorem parse_custom_forwarding_of_not_mem (h : '=' ∉ text.toList) :
    parse_custom_forwarding read text ≠ .ok (url, socket) := by
  simp only [parse_custom_forwarding, split_of_not_mem h, ne_eq, except_bind_ok_iff, okOr_ok_iff]
  rintro ⟨_, _, _, _, _, hnone, _⟩
  cases hnone

/-- An entry divides at its last equals sign. -/
theorem isForwarding_iff (hsocket : ∀ t s, read.socket t = .ok s → '=' ∉ t.toList) {d e : String}
    (htext : text = d ++ "=" ++ e) (he : '=' ∉ e.toList) :
    IsForwarding read text url socket ↔ readParts read d e = some (url, socket) := by
  rw [readParts_eq_some_iff]
  constructor
  · rintro ⟨a, b, hab, hu, hs⟩
    obtain ⟨rfl, rfl⟩ := cut_last rfl (hsocket b socket hs) he (hab.symm.trans htext)
    exact ⟨hu, hs⟩
  · rintro ⟨hu, hs⟩
    exact ⟨d, e, htext, hu, hs⟩

/-- A text with an equals sign has a last one. -/
theorem exists_last_part (h : '=' ∈ text.toList) :
    ∃ d e : String, text = d ++ "=" ++ e ∧ '=' ∉ e.toList := by
  obtain ⟨d, e, htext, he⟩ := exists_last h
  refine ⟨String.ofList d, String.ofList e, String.toList_inj.mp ?_, by simpa using he⟩
  simpa using htext

/-- A text with an equals sign has a first one, which may be its last. -/
theorem first_parts (h : '=' ∈ text.toList) :
    (∃ a b : String, text = a ++ "=" ++ b ∧ '=' ∉ a.toList ∧ '=' ∉ b.toList ∧
        split '=' text = [a, b]) ∨
      ∃ a b c : String, text = a ++ "=" ++ b ++ "=" ++ c ∧ '=' ∉ a.toList ∧ '=' ∉ b.toList ∧
        split '=' text = a :: b :: split '=' c := by
  obtain ⟨a, t, htext, ha⟩ := List.eq_append_cons_of_mem h
  have hsplit := split_cons ha htext
  by_cases ht : '=' ∈ t
  · right
    obtain ⟨b, c, rfl, hb⟩ := List.eq_append_cons_of_mem ht
    refine ⟨String.ofList a, String.ofList b, String.ofList c, String.toList_inj.mp ?_,
      by simpa using ha, by simpa using hb, ?_⟩
    · simpa using htext
    · rw [hsplit, split_cons hb String.toList_ofList]
  · left
    refine ⟨String.ofList a, String.ofList t, String.toList_inj.mp ?_, by simpa using ha,
      by simpa using ht, ?_⟩
    · simpa using htext
    · rw [hsplit, split_of_not_mem (by simpa using ht)]

theorem first_of_three (a b c : String) : a ++ "=" ++ b ++ "=" ++ c = a ++ "=" ++ (b ++ "=" ++ c) := by
  simp only [String.append_assoc]

/-- At most one equals sign leaves nothing to compare. -/
theorem dividesAlike_of_count (h : text.toList.count '=' ≤ 1) : DividesAlike read text := by
  intro a b c d e htext _ _ _ _
  rw [htext] at h
  simp only [String.toList_append, List.count_append] at h
  have hone : "=".toList.count '=' = 1 := by decide
  omega

/-- With more of them, the two divisions are to be compared. -/
theorem dividesAlike_iff {a b c d e : String} (htext : text = a ++ "=" ++ b ++ "=" ++ c)
    (ha : '=' ∉ a.toList) (hb : '=' ∉ b.toList) (hlast : text = d ++ "=" ++ e)
    (he : '=' ∉ e.toList) : DividesAlike read text ↔ readParts read a b = readParts read d e := by
  constructor
  · intro h
    exact h a b c d e htext ha hb hlast he
  · intro h a' b' c' d' e' htext' ha' hb' hlast' he'
    rw [first_of_three] at htext htext'
    obtain ⟨rfl, hrest⟩ := cut_first rfl ha ha' (htext.symm.trans htext')
    obtain ⟨rfl, _⟩ := cut_first rfl hb hb' hrest
    obtain ⟨rfl, rfl⟩ := cut_last rfl he he' (hlast.symm.trans hlast')
    exact h

end

/-- Entries are parsed as what they are exactly when they have one equals sign at most, or more of
    them make no difference to what is read. -/
theorem forwarding_parsed_exactly_iff (read : Readers)
    (hsocket : ∀ t s, read.socket t = .ok s → '=' ∉ t.toList) (text : String) :
    (∀ url socket, parse_custom_forwarding read text = .ok (url, socket) ↔
        IsForwarding read text url socket) ↔
      text.toList.count '=' ≤ 1 ∨ DividesAlike read text := by
  rw [or_iff_right_of_imp dividesAlike_of_count]
  by_cases hmem : '=' ∈ text.toList
  · rcases first_parts hmem with ⟨a, b, htext, ha, hb, hsplit⟩ | ⟨a, b, c, htext, ha, hb, hsplit⟩
    · have hcount : text.toList.count '=' ≤ 1 := by
        rw [htext]
        simp [List.count_append, List.count_eq_zero.mpr ha, List.count_eq_zero.mpr hb]
      refine iff_of_true (fun url socket => ?_) (dividesAlike_of_count hcount)
      rw [parse_custom_forwarding_eq hsplit, isForwarding_iff hsocket htext hb]
    · obtain ⟨d, e, hlast, he⟩ := exists_last_part hmem
      simp only [parse_custom_forwarding_eq hsplit, isForwarding_iff hsocket hlast he]
      rw [dividesAlike_iff htext ha hb hlast he, Option.ext_iff, Prod.forall]
  · refine iff_of_true (fun url socket => ?_) (dividesAlike_of_count ?_)
    · refine iff_of_false (parse_custom_forwarding_of_not_mem hmem) ?_
      rintro ⟨a, b, rfl, _⟩
      simp at hmem
    · rw [List.count_eq_zero.mpr hmem]
      exact Nat.zero_le 1

def benchUrl (text : String) : Url := ⟨text, "https", some "domain.com", fun _ => rfl⟩
def benchSocket : SocketAddr := .v4 (Ipv4Addr.new 127 0 0 1) 8000

/-- Readers for the URLs of one host and for one socket. -/
def benchReaders : Readers where
  url text :=
    if "https://domain.com/".toList.isPrefixOf text.toList then .ok (benchUrl text)
    else .error "relative URL without a base"
  socket text :=
    if text = "127.0.0.1:8000" then .ok benchSocket
    else .error "invalid socket address syntax"
  ipnet _ := .error "invalid IP address syntax"
  privkey _ := .error "bad key"
  pubkey _ := .error "bad key"
  secret _ := .error "bad key"

theorem benchReaders_socket {text : String} {socket : SocketAddr}
    (h : benchReaders.socket text = .ok socket) : text = "127.0.0.1:8000" := by
  by_contra hne
  have herr : benchReaders.socket text = .error "invalid socket address syntax" := if_neg hne
  rw [herr] at h
  cases h

theorem forwarding_parsed_exactly_bench :
    parse_custom_forwarding benchReaders "https://domain.com/=127.0.0.1:8000" =
        .ok (benchUrl "https://domain.com/", benchSocket) ↔
      IsForwarding benchReaders "https://domain.com/=127.0.0.1:8000"
        (benchUrl "https://domain.com/") benchSocket := by
  refine (forwarding_parsed_exactly_iff benchReaders ?_ _).mpr ?_ _ _
  · intro t s hts
    rw [benchReaders_socket hts]
    decide
  · exact Or.inl (by decide)

/-- What follows the socket is accepted, and a URL with a query is not. -/
theorem forwarding_divides_at_first :
    parse_custom_forwarding benchReaders "https://domain.com/=127.0.0.1:8000=junk" =
        .ok (benchUrl "https://domain.com/", benchSocket) ∧
      ¬IsForwarding benchReaders "https://domain.com/=127.0.0.1:8000=junk"
        (benchUrl "https://domain.com/") benchSocket ∧
      parse_custom_forwarding benchReaders "https://domain.com/?k=v=127.0.0.1:8000" =
        .error (.err ["invalid socket address syntax"]) ∧
      IsForwarding benchReaders "https://domain.com/?k=v=127.0.0.1:8000"
        (benchUrl "https://domain.com/?k=v") benchSocket := by
  refine ⟨by decide +kernel, ?_, by decide +kernel,
    "https://domain.com/?k=v", "127.0.0.1:8000", rfl, by decide +kernel, by decide +kernel⟩
  rintro ⟨a, b, htext, _, hs⟩
  rw [benchReaders_socket hs] at htext
  have hend := congrArg (fun t => t.toList.getLast?) htext
  simp at hend

end FractalGateway
