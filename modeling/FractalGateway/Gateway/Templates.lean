import Mathlib.Data.List.TakeWhile
import FractalGateway.Lib.Lines
import FractalGateway.Texts
import FractalGateway.Gateway.Types

/-! The texts the gateway writes: the rule file given to `iptables-restore`, the two configuration
    files of nginx, and the cleaned form in which two rule files are compared.

    A rule file is rendered from a list of rules, so that what the kernel does with a packet is read
    off the rules and what the gateway compares is read off the text. Cleaning is idempotent on
    every rendered file (`clean_iptables_render`): a file that was restored and saved again compares
    equal to the file it came from. -/

namespace FractalGateway
open Std Text

/-! ### `iptables.save` -/

/-- A rule of the nat table, as the template writes them. -/
inductive Rule where
  | prerouting (interface_in : String) (port_in : UInt16) (ip_out : IpAddr) (port_out : UInt16)
  | postrouting (interface_out : String) (port_out : UInt16) (ip_source : IpAddr)
  deriving DecidableEq

def Rule.line : Rule → String
  | .prerouting interface_in port_in ip_out port_out =>
    "-A PREROUTING -i " ++ interface_in ++ " -p tcp -m tcp --dport " ++ toString port_in.toNat ++
      " -j DNAT --to-destination " ++ ip_out.text ++ ":" ++ toString port_out.toNat
  | .postrouting interface_out port_out ip_source =>
    "-A POSTROUTING -o " ++ interface_out ++ " -p tcp -m tcp --dport " ++ toString port_out.toNat ++
      " -j SNAT --to-source " ++ ip_source.text

/-- The two loops of the template. -/
def PortConfig.rules (config : PortConfig) : List Rule :=
  config.mappings.map (fun m => .prerouting config.interface_in m.port_in m.ip_out m.port_out) ++
    config.mappings.map (fun m => .postrouting config.interface_out m.port_out config.ip_source)

def PortConfig.render (config : PortConfig) : String :=
  "*nat\n:PREROUTING ACCEPT [0:0]\n:INPUT ACCEPT [0:0]\n:OUTPUT ACCEPT [0:0]\n" ++
    ":POSTROUTING ACCEPT [0:0]\n" ++ String.join (config.rules.map fun rule => rule.line ++ "\n") ++
    "COMMIT\n"

/-! ### `nginx.conf` and `sites.nginx.conf` -/

/-- The `server` lines of an upstream. -/
def serverLines (indent : String) (servers : List SocketAddr) : String :=
  String.join (servers.map fun server => "\n" ++ indent ++ "server " ++ server.text ++ ";")

/-- `nginx.conf`, the https side. -/
def Forwarding.nginx_conf (self : Forwarding) : String :=
  "stream \x7b\n  map $ssl_preread_server_name $https_backend \x7b " ++
    String.join (self.https.forwarding.toList.map fun e =>
      "\n    " ++ e.1 ++ " " ++ e.2 ++ ";") ++
    "\n  \x7d\n  " ++
    String.join (self.https.upstream.toList.map fun e =>
      "\n  upstream " ++ e.1 ++ " \x7b " ++ serverLines "    " e.2 ++ "\n  \x7d\n  ") ++
    "\n  server \x7b\n    listen 443;\n    proxy_connect_timeout 1s;\n    proxy_timeout 60s;\n" ++
    "    proxy_pass $https_backend;\n    ssl_preread on;\n  \x7d\n\x7d\n"

/-- `sites.nginx.conf`, the http side. -/
def Forwarding.sites_nginx_conf (self : Forwarding) : String :=
  String.join (self.http.upstream.toList.map fun e =>
      "upstream " ++ e.1 ++ " \x7b" ++ serverLines "  " e.2 ++ "\n\x7d\n\n") ++
    String.join (self.http.forwarding.toList.map fun e =>
      "\nserver \x7b\n  server_name " ++ e.1 ++ ";\n  listen 80;\n" ++
        "  #listen [::]:80 ipv6only=off;\n\n  location / \x7b\n" ++
        "    proxy_set_header Host $host;\n    proxy_set_header X-Real-IP $remote_addr;\n" ++
        "    proxy_pass http://" ++ e.2 ++ ";\n  \x7d\n\x7d\n") ++
    "\n"

/-! ### Cleaning a rule file -/

/-- The zeros of the decimal digits of Unicode, which come in blocks of ten; `\d` of the `regex`
    crate matches all of them. -/
def digitZeros : List ℕ :=
  [0x30, 0x660, 0x6f0, 0x7c0, 0x966, 0x9e6, 0xa66, 0xae6, 0xb66, 0xbe6, 0xc66, 0xce6, 0xd66, 0xde6,
    0xe50, 0xed0, 0xf20, 0x1040, 0x1090, 0x17e0, 0x1810, 0x1946, 0x19d0, 0x1a80, 0x1a90, 0x1b50,
    0x1bb0, 0x1c40, 0x1c50, 0xa620, 0xa8d0, 0xa900, 0xa9d0, 0xa9f0, 0xaa50, 0xabf0, 0xff10, 0x104a0,
    0x10d30, 0x11066, 0x110f0, 0x11136, 0x111d0, 0x112f0, 0x11450, 0x114d0, 0x11650, 0x116c0,
    0x11730, 0x118e0, 0x11950, 0x11c50, 0x11d50, 0x11da0, 0x16a60, 0x16ac0, 0x16b50, 0x1d7ce,
    0x1d7d8, 0x1d7e2, 0x1d7ec, 0x1d7f6, 0x1e140, 0x1e2f0, 0x1e950, 0x1fbf0]

def isDigit (c : Char) : Bool := digitZeros.any fun z => decide (z ≤ c.toNat ∧ c.toNat < z + 10)

/-- Whether a text is `\d+` followed by `close`, and what comes after it. -/
def digitsThen (close : Char) (cs : List Char) : Option (List Char) :=
  if cs.takeWhile isDigit = [] then none
  else match cs.dropWhile isDigit with
    | c :: rest => if c = close then some rest else none
    | [] => none

/-- Whether a whole text matches `\[\d+:\d+\]`. -/
def isCounter : List Char → Bool
  | '[' :: cs => decide (((digitsThen ':' cs).bind (digitsThen ']')) = some [])
  | _ => false

/-- `IPTABLES_PACKET_COUNTER_REGEX.replace`: the leftmost match that reaches the end of the line. -/
def replaceCounter : List Char → List Char
  | [] => []
  | c :: cs => if isCounter (c :: cs) then "[0:0]".toList else c :: replaceCounter cs

/-- The lines that are neither comments nor empty. -/
def isRule (line : List Char) : Bool := decide (line.head? ≠ some '#' ∧ line.head? ≠ none)

def cleanLines (input : List Char) : List (List Char) :=
  ((lines input).filter isRule).map replaceCounter

def clean_iptables (input : String) : String :=
  String.ofList (unlines (cleanLines input.toList))

/-! ### Cleaning twice -/

theorem mem_of_digitsThen {close x : Char} {cs rest : List Char} (h : digitsThen close cs = some rest)
    (hx : x ∈ cs) : isDigit x ∨ x = close ∨ x ∈ rest := by
  unfold digitsThen at h
  split at h
  · cases h
  · rw [← List.takeWhile_append_dropWhile (p := isDigit) (l := cs), List.mem_append] at hx
    rcases hx with hx | hx
    · exact Or.inl (List.mem_takeWhile_imp hx)
    · split at h
      · next c r hd =>
        split at h
        · next hc =>
          cases h
          rw [hd, List.mem_cons] at hx
          exact Or.inr (hx.imp (fun h => h.trans hc) id)
        · cases h
      · cases h

/-- A counter has one bracket to open. -/
theorem bracket_not_mem_of_isCounter {c : Char} {cs : List Char} (h : isCounter (c :: cs) = true) :
    '[' ∉ cs := by
  unfold isCounter at h
  split at h
  · next ds heq =>
    cases heq
    intro hm
    obtain ⟨rest, h₁, h₂⟩ := Option.bind_eq_some_iff.mp (of_decide_eq_true h)
    rcases mem_of_digitsThen h₁ hm with hd | hd | hm
    · exact absurd hd (by decide)
    · exact absurd hd (by decide)
    · rcases mem_of_digitsThen h₂ hm with hd | hd | hm
      · exact absurd hd (by decide)
      · exact absurd hd (by decide)
      · cases hm
  · cases h

theorem replaceCounter_eq_or : ∀ (cs : List Char), replaceCounter cs = cs ∨ '[' ∈ replaceCounter cs
  | [] => Or.inl rfl
  | c :: cs => by
      rw [replaceCounter]
      split
      · exact Or.inr (by decide)
      · rcases replaceCounter_eq_or cs with h | h
        · exact Or.inl (by rw [h])
        · exact Or.inr (List.mem_cons_of_mem _ h)

theorem replaceCounter_idem : ∀ (cs : List Char), replaceCounter (replaceCounter cs) = replaceCounter cs
  | [] => rfl
  | c :: cs => by
      rw [replaceCounter]
      split
      · decide
      · next hc =>
        -- a replacement further right has put a bracket there, so no counter starts here
        have hn : isCounter (c :: replaceCounter cs) = false := by
          rcases replaceCounter_eq_or cs with h | h
          · rw [h]
            exact Bool.eq_false_iff.mpr hc
          · exact Bool.eq_false_iff.mpr fun hi => bracket_not_mem_of_isCounter hi h
        rw [replaceCounter, hn, replaceCounter_idem cs]
        rfl

theorem mem_of_mem_replaceCounter {x : Char} :
    ∀ {cs : List Char}, x ∈ replaceCounter cs → x ∈ cs ∨ x ∈ "[0:0]".toList
  | [], h => Or.inl h
  | c :: cs, h => by
      rw [replaceCounter] at h
      split at h
      · exact Or.inr h
      · rcases List.mem_cons.mp h with rfl | h
        · exact Or.inl List.mem_cons_self
        · exact (mem_of_mem_replaceCounter h).imp (List.mem_cons_of_mem _) id

theorem isRule_replaceCounter {cs : List Char} (h : isRule cs = true) :
    isRule (replaceCounter cs) = true := by
  cases cs with
  | nil => exact h
  | cons c cs =>
    rw [replaceCounter]
    split
    · decide
    · simpa [isRule] using h

theorem cleanLines_isRule {input l : List Char} (hl : l ∈ cleanLines input) : isRule l = true := by
  obtain ⟨raw, hraw, rfl⟩ := List.mem_map.mp hl
  exact isRule_replaceCounter (List.mem_filter.mp hraw).2

theorem newline_not_mem_cleanLines {input l : List Char} (hl : l ∈ cleanLines input) : '\n' ∉ l := by
  obtain ⟨raw, hraw, rfl⟩ := List.mem_map.mp hl
  intro h
  rcases mem_of_mem_replaceCounter h with h | h
  · exact newline_not_mem_linesFrom input [] (by simp) (List.mem_filter.mp hraw).1 h
  · exact absurd h (by decide)

/-- What holds of a cleaned line. -/
theorem cleanLines_mem {input l : List Char} (hr : '\r' ∉ input) (hl : l ∈ cleanLines input) :
    ('\n' ∉ l ∧ '\r' ∉ l) ∧ isRule l = true ∧ replaceCounter l = l := by
  refine ⟨⟨newline_not_mem_cleanLines hl, fun h => ?_⟩, cleanLines_isRule hl, ?_⟩
  · obtain ⟨raw, hraw, rfl⟩ := List.mem_map.mp hl
    rcases mem_of_mem_replaceCounter h with h | h
    · rcases mem_of_mem_linesFrom input [] (List.mem_filter.mp hraw).1 h with h | h
      · cases h
      · exact hr h
    · exact absurd h (by decide)
  · obtain ⟨raw, _, rfl⟩ := List.mem_map.mp hl
    exact replaceCounter_idem raw

theorem cleanLines_unlines {input : List Char} (hr : '\r' ∉ input) :
    cleanLines (unlines (cleanLines input)) = cleanLines input := by
  cases hne : cleanLines input with
  | nil => rfl
  | cons l ls =>
    have hmem : ∀ m ∈ l :: ls, ('\n' ∉ m ∧ '\r' ∉ m) ∧ isRule m = true ∧ replaceCounter m = m :=
      fun m hm => cleanLines_mem hr (by rwa [hne])
    have hlines := lines_unlines (List.cons_ne_nil l ls) fun m hm => (hmem m hm).1
    have hfilter : (l :: ls).filter isRule = l :: ls :=
      List.filter_eq_self.mpr fun m hm => (hmem m hm).2.1
    have hmap : (l :: ls).map replaceCounter = l :: ls :=
      (List.map_congr_left fun m hm => (hmem m hm).2.2).trans (List.map_id _)
    rw [cleanLines, hlines, hfilter, hmap]

/-- A comment in front of a rule file makes no difference. -/
theorem clean_iptables_comment {comment : String} (hn : '\n' ∉ comment.toList)
    (hr : '\r' ∉ comment.toList) (text : String) :
    clean_iptables ("#" ++ comment ++ "\n" ++ text) = clean_iptables text := by
  have htext : ("#" ++ comment ++ "\n" ++ text).toList =
      '#' :: comment.toList ++ '\n' :: text.toList := by
    simp [String.toList_append]
  have hlines : lines ('#' :: comment.toList ++ '\n' :: text.toList) =
      ('#' :: comment.toList) :: lines text.toList :=
    lines_append_newline (by simpa using hn) (by simpa using hr) text.toList
  rw [clean_iptables, cleanLines, htext, hlines, List.filter_cons_of_neg (by simp [isRule])]
  rfl

/-! ### Rendered texts have no carriage returns -/

/-- A text without carriage returns. -/
def Plain (text : String) : Prop := '\r' ∉ text.toList

instance (text : String) : Decidable (Plain text) := inferInstanceAs (Decidable ('\r' ∉ text.toList))

theorem Plain.append {a b : String} (ha : Plain a) (hb : Plain b) : Plain (a ++ b) := by
  rw [Plain, String.toList_append, List.mem_append]
  rintro (h | h)
  · exact ha h
  · exact hb h

theorem Plain.join {texts : List String} (h : ∀ t ∈ texts, Plain t) : Plain (String.join texts) := by
  rw [Plain, String.toList_join, List.mem_flatMap]
  rintro ⟨t, ht, hc⟩
  exact h t ht hc

theorem Plain.nat (n : ℕ) : Plain (toString n) := (over_nat n).not_mem (by decide)

theorem Plain.ip (a : IpAddr) : Plain a.text := a.text_over.not_mem (by decide)

theorem Plain.portName {start : String} (h : Plain start) (port : UInt16) :
    Plain (portName start port) := h.append (Plain.nat _)

theorem Rule.line_plain {rule : Rule} (h : match rule with
      | .prerouting interface _ _ _ => Plain interface
      | .postrouting interface _ _ => Plain interface) : Plain rule.line := by
  cases rule with
  | prerouting interface_in port_in ip_out port_out =>
    exact ((((((Plain.append (by decide) h).append (by decide)).append (Plain.nat _)).append
      (by decide)).append (Plain.ip _)).append (by decide)).append (Plain.nat _)
  | postrouting interface_out port_out ip_source =>
    exact ((((Plain.append (by decide) h).append (by decide)).append (Plain.nat _)).append
      (by decide)).append (Plain.ip _)

theorem PortConfig.render_plain {config : PortConfig} (hin : Plain config.interface_in)
    (hout : Plain config.interface_out) : Plain config.render := by
  refine ((Plain.append (by decide) (by decide)).append (Plain.join fun t ht => ?_)).append (by decide)
  obtain ⟨rule, hrule, rfl⟩ := List.mem_map.mp ht
  refine (Rule.line_plain ?_).append (by decide)
  rcases List.mem_append.mp hrule with h | h
  · obtain ⟨m, _, rfl⟩ := List.mem_map.mp h
    exact hin
  · obtain ⟨m, _, rfl⟩ := List.mem_map.mp h
    exact hout

/-- A cleaned rule file is clean. -/
theorem clean_iptables_idem {text : String} (h : Plain text) :
    clean_iptables (clean_iptables text) = clean_iptables text := by
  rw [clean_iptables, clean_iptables, String.toList_ofList, cleanLines_unlines h]

/-- The rules a network is given have no carriage returns. -/
theorem NetworkState.render_plain {build : Build} {network : NetworkState} {config : PortConfig}
    (h : network.port_config build = .ok config) : Plain config.render := by
  obtain ⟨address, mappings, _, _, rfl⟩ := network.port_config_ok h
  exact PortConfig.render_plain (Plain.portName (by decide) _) (Plain.portName (by decide) _)

/-- Cleaning the rule file of a network twice is cleaning it once. -/
theorem clean_iptables_render {build : Build} {network : NetworkState} {config : PortConfig}
    (h : network.port_config build = .ok config) :
    clean_iptables (clean_iptables config.render) = clean_iptables config.render :=
  clean_iptables_idem (NetworkState.render_plain h)

end FractalGateway
