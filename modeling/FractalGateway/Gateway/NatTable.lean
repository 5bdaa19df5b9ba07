import FractalGateway.Gateway.Templates

/-! The nat table of a namespace, as a reader of its text finds it.

    The table is the IPv4 one: a rule in it names dotted addresses, and a file with a rule that
    cannot be read is refused as a whole. A rule the template writes is read back as itself when its
    address is an IPv4 one (`Rule.readRule_words`) and not at all when it is an IPv6 one, whose text
    has no brackets there. Cleaning does not touch the rules, so files that compare equal hold the
    same ones (`PortConfig.readNat_eq`). -/

namespace FractalGateway
open Std Exec Text

/-! ### Reading a rule -/

/-- A rule of the kernel's nat table. -/
inductive NatRule where
  | prerouting (interface_in : String) (port_in : UInt16) (ip_out : BitVec 32) (port_out : UInt16)
  | postrouting (interface_out : String) (port_out : UInt16) (ip_source : BitVec 32)
  deriving DecidableEq

/-- Read a dotted address. -/
def Ipv4Addr.read (text : String) : Option (BitVec 32) :=
  match split '.' text with
  | [a, b, c, d] => do
    let a ← readDigits 8 a
    let b ← readDigits 8 b
    let c ← readDigits 8 c
    let d ← readDigits 8 d
    return Ipv4Addr.new a b c d
  | _ => none

/-- Read a dotted address and a port. -/
def readEndpoint (text : String) : Option (BitVec 32 × UInt16) :=
  match split ':' text with
  | [ip, port] => do
    let ip ← Ipv4Addr.read ip
    let port ← readDigits 16 port
    return (ip, UInt16.ofNat port)
  | _ => none

/-- The words of a rule that takes connections to a port on an interface, up to where it sends
    them. -/
def dnatWords (interface dport : String) : List String :=
  ["-A", "PREROUTING", "-i", interface, "-p", "tcp", "-m", "tcp", "--dport", dport, "-j", "DNAT",
    "--to-destination"]

/-- The words of a rule that gives connections leaving for a port their source, up to that source. -/
def snatWords (interface dport : String) : List String :=
  ["-A", "POSTROUTING", "-o", interface, "-p", "tcp", "-m", "tcp", "--dport", dport, "-j", "SNAT",
    "--to-source"]

/-- Read a rule from its words. -/
def readRule (words : List String) : Option NatRule := do
  let interface ← words[3]?
  let dport ← words[9]?
  let goal ← words.getLast?
  let port ← readDigits 16 dport
  if words = dnatWords interface dport ++ [goal] then
    (readEndpoint goal).map fun target => .prerouting interface (UInt16.ofNat port) target.1 target.2
  else if words = snatWords interface dport ++ [goal] then
    (Ipv4Addr.read goal).map fun source => .postrouting interface (UInt16.ofNat port) source
  else none

/-- Whether a line appends a rule. -/
def appends (line : List Char) : Bool := decide (line.head? = some '-')

/-- The rules of a nat table, all of them or none. -/
def readNat (nat : String) : Option (List NatRule) :=
  (((lines nat.toList).filter appends).map fun line => split ' ' (String.ofList line)).mapM readRule

/-- Where a rule sends a connection that comes in for a port on an interface. -/
def NatRule.sends (interface : String) (dport : UInt16) : NatRule → Option SocketAddr
  | .prerouting interface_in port_in ip_out port_out =>
    if interface_in = interface ∧ port_in = dport then some (.v4 ip_out port_out) else none
  | .postrouting _ _ _ => none

/-- Where the first rule for a port on an interface sends a connection. -/
def firstDnat (rules : List NatRule) (interface : String) (dport : UInt16) : Option SocketAddr :=
  rules.findSome? (NatRule.sends interface dport)

/-! ### Addresses read back -/

theorem Ipv4Addr.read_text (a : BitVec 32) : Ipv4Addr.read (Ipv4Addr.text a) = some a := by
  have hbits : a.toNat < 2 ^ 32 := a.isLt
  have hnew : Ipv4Addr.new (a.toNat / 2 ^ 24) (a.toNat / 2 ^ 16 % 256) (a.toNat / 2 ^ 8 % 256)
      (a.toNat % 256) = a := by
    rw [Ipv4Addr.new]
    refine BitVec.eq_of_toNat_eq ?_
    rw [BitVec.toNat_ofNat]
    omega
  rw [Ipv4Addr.read, Ipv4Addr.split_text]
  dsimp only
  rw [readDigits_toString (by omega), readDigits_toString (by omega), readDigits_toString (by omega),
    readDigits_toString (by omega)]
  exact congrArg some hnew

/-- A text with a colon is no dotted address. -/
theorem Ipv4Addr.read_eq_none {text : String} (h : ':' ∈ text.toList) :
    Ipv4Addr.read text = none := by
  obtain ⟨t, ht, hc⟩ : ∃ t ∈ split '.' text, ':' ∈ t.toList := exists_mem_split h (by decide)
  have hnone : readDigits 8 t = none := readDigits_eq_none hc (by decide)
  unfold Ipv4Addr.read
  split
  · next a b c d heq =>
    rw [heq] at ht
    simp only [List.mem_cons, List.not_mem_nil, or_false] at ht
    rcases ht with rfl | rfl | rfl | rfl <;> simp [hnone]
  · rfl

theorem readDigits_port (port : UInt16) : readDigits 16 (toString port.toNat) = some port.toNat :=
  readDigits_toString port.toNat_lt

/-- An address and a port as a rule writes them. -/
def endpointText (ip : IpAddr) (port : UInt16) : String := ip.text ++ ":" ++ toString port.toNat

theorem split_endpointText (ip : IpAddr) (port : UInt16) :
    split ':' (endpointText ip port) = split ':' ip.text ++ [toString port.toNat] := by
  have hcut : split ':' (endpointText ip port) =
      split ':' ip.text ++ split ':' (toString port.toNat) := split_append (by simp [endpointText])
  rw [hcut, split_of_not_mem ((over_nat _).not_mem (by decide))]

theorem readEndpoint_v4 (ip : BitVec 32) (port : UInt16) :
    readEndpoint (endpointText (.v4 ip) port) = some (ip, port) := by
  rw [readEndpoint, split_endpointText, IpAddr.text,
    split_of_not_mem (Ipv4Addr.colon_not_mem_text ip)]
  dsimp only [List.cons_append, List.nil_append]
  rw [Ipv4Addr.read_text, readDigits_port]
  exact congrArg (fun q => some (ip, q)) port.ofNat_toNat

/-- The port after an IPv6 address without brackets is one colon too many. -/
theorem readEndpoint_v6 (ip : BitVec 128) (port : UInt16) :
    readEndpoint (endpointText (.v6 ip) port) = none := by
  have hlen : 1 < (split ':' (IpAddr.text (.v6 ip))).length :=
    one_lt_length_split (Ipv6Addr.colon_mem_text ip)
  unfold readEndpoint
  split
  · next a b heq =>
    rw [split_endpointText] at heq
    have := congrArg List.length heq
    simp only [List.length_append, List.length_cons, List.length_nil] at this
    omega
  · rfl

/-! ### The words of a rule -/

def Rule.words : Rule → List String
  | .prerouting interface_in port_in ip_out port_out =>
    dnatWords interface_in (toString port_in.toNat) ++ [endpointText ip_out port_out]
  | .postrouting interface_out port_out ip_source =>
    snatWords interface_out (toString port_out.toNat) ++ [ip_source.text]

def Rule.interface : Rule → String
  | .prerouting interface_in _ _ _ => interface_in
  | .postrouting interface_out _ _ => interface_out

/-- What the kernel makes of a rule. -/
def Rule.nat : Rule → Option NatRule
  | .prerouting interface_in port_in (.v4 ip_out) port_out =>
    some (.prerouting interface_in port_in ip_out port_out)
  | .postrouting interface_out port_out (.v4 ip_source) =>
    some (.postrouting interface_out port_out ip_source)
  | .prerouting _ _ (.v6 _) _ | .postrouting _ _ (.v6 _) => none

theorem readRule_dnat {interface dport goal : String} {port : ℕ}
    (h : readDigits 16 dport = some port) : readRule (dnatWords interface dport ++ [goal]) =
      (readEndpoint goal).map fun target =>
        .prerouting interface (UInt16.ofNat port) target.1 target.2 := by
  simp [readRule, dnatWords, h]

theorem readRule_snat {interface dport goal : String} {port : ℕ}
    (h : readDigits 16 dport = some port) : readRule (snatWords interface dport ++ [goal]) =
      (Ipv4Addr.read goal).map fun source => .postrouting interface (UInt16.ofNat port) source := by
  simp [readRule, dnatWords, snatWords, h]

/-- A rule with an IPv4 address is read back, one with an IPv6 address is not a rule. -/
theorem Rule.readRule_words (rule : Rule) : readRule rule.words = rule.nat := by
  rcases rule with ⟨interface_in, port_in, ip_out, port_out⟩ | ⟨interface_out, port_out, ip_source⟩
  · rw [Rule.words, readRule_dnat (readDigits_port port_in), UInt16.ofNat_toNat]
    cases ip_out with
    | v4 ip => rw [readEndpoint_v4]; rfl
    | v6 ip => rw [readEndpoint_v6]; rfl
  · rw [Rule.words, readRule_snat (readDigits_port port_out), UInt16.ofNat_toNat]
    cases ip_source with
    | v4 ip => rw [IpAddr.text, Ipv4Addr.read_text]; rfl
    | v6 ip => rw [IpAddr.text, Ipv4Addr.read_eq_none (Ipv6Addr.colon_mem_text ip)]; rfl

/-- Whether an address is an IPv4 one. -/
def IpAddr.is_ipv4 : IpAddr → Bool
  | .v4 _ => true
  | .v6 _ => false

theorem IpAddr.is_ipv4_iff {ip : IpAddr} : ip.is_ipv4 ↔ ∃ bits, ip = .v4 bits := by
  cases ip <;> simp [IpAddr.is_ipv4]

/-- The address a rule names. -/
def Rule.address : Rule → IpAddr
  | .prerouting _ _ ip_out _ => ip_out
  | .postrouting _ _ ip_source => ip_source

theorem Rule.nat_isSome (rule : Rule) : rule.nat.isSome = rule.address.is_ipv4 := by
  rcases rule with ⟨_, _, _ | _, _⟩ | ⟨_, _, _ | _⟩ <;> rfl

/-! ### Lines and words -/

/-- A line of the template with its words told apart. -/
theorem intercalate_rule {head jump chain flag action goal : String} (interface dport target : String)
    (hhead : head = "-A" ++ (" " ++ (chain ++ (" " ++ (flag ++ " ")))))
    (hjump : jump = " " ++ ("-j" ++ (" " ++ (action ++ (" " ++ (goal ++ " ")))))) :
    head ++ (interface ++ (" -p tcp -m tcp --dport " ++ (dport ++ (jump ++ target)))) =
      " ".intercalate (["-A", chain, flag, interface, "-p", "tcp", "-m", "tcp", "--dport", dport, "-j",
        action, goal] ++ [target]) := by
  have hdport : " -p tcp -m tcp --dport " = " " ++ ("-p" ++ (" " ++ ("tcp" ++ (" " ++ ("-m" ++ (" " ++
    ("tcp" ++ (" " ++ ("--dport" ++ " "))))))))) := by simp
  subst hhead hjump
  simp only [List.cons_append, List.nil_append, String.intercalate_cons_cons,
    String.intercalate_singleton, hdport, String.append_assoc, -String.reduceAppend]

theorem Rule.line_eq (rule : Rule) : rule.line = " ".intercalate rule.words := by
  cases rule with
  | prerouting interface_in port_in ip_out port_out =>
    have hhead : "-A PREROUTING -i " =
      "-A" ++ (" " ++ ("PREROUTING" ++ (" " ++ ("-i" ++ " ")))) := by simp
    have hjump : " -j DNAT --to-destination " =
      " " ++ ("-j" ++ (" " ++ ("DNAT" ++ (" " ++ ("--to-destination" ++ " "))))) := by simp
    unfold Rule.line Rule.words dnatWords
    rw [← intercalate_rule interface_in (toString port_in.toNat) _ hhead hjump]
    simp only [endpointText, String.append_assoc]
  | postrouting interface_out port_out ip_source =>
    have hhead : "-A POSTROUTING -o " =
      "-A" ++ (" " ++ ("POSTROUTING" ++ (" " ++ ("-o" ++ " ")))) := by simp
    have hjump : " -j SNAT --to-source " =
      " " ++ ("-j" ++ (" " ++ ("SNAT" ++ (" " ++ ("--to-source" ++ " "))))) := by simp
    unfold Rule.line Rule.words snatWords
    rw [← intercalate_rule interface_out (toString port_out.toNat) _ hhead hjump]
    simp only [String.append_assoc]

/-- The characters that would end a word or a line, or begin a counter. -/
def breaks : List Char := [' ', '\n', '\r', '[']

/-- A text that stays one word of a rule. -/
def Unbroken (text : String) : Prop := ∀ c ∈ breaks, c ∉ text.toList

instance (text : String) : Decidable (Unbroken text) :=
  decidable_of_iff (breaks.all fun c => !text.toList.contains c) (by simp [Unbroken])

theorem Unbroken.of_over {chars : List Char} {text : String} (h : Over chars text)
    (hchars : breaks.all (fun c => !chars.contains c) = true) : Unbroken text := by
  intro c hc
  exact h.not_mem (by simpa using List.all_eq_true.mp hchars c hc)

theorem Unbroken.nat (n : ℕ) : Unbroken (toString n) := .of_over (over_nat n) (by decide)

theorem Unbroken.portName {start : String} (h : Unbroken start) (port : UInt16) :
    Unbroken (portName start port) := by
  intro c hc
  rw [FractalGateway.portName, String.toList_append, List.mem_append, not_or]
  exact ⟨h c hc, Unbroken.nat _ c hc⟩

theorem endpointText_unbroken (ip : IpAddr) (port : UInt16) : Unbroken (endpointText ip port) :=
  .of_over ((ip.text_over.append (by decide)).append ((over_nat _).mono (by decide))) (by decide)

theorem Rule.words_unbroken {rule : Rule} (h : Unbroken rule.interface) :
    ∀ word ∈ rule.words, Unbroken word := by
  have hall : ∀ {chain flag interface dport action goal target : String}, Unbroken chain →
      Unbroken flag → Unbroken interface → Unbroken dport → Unbroken action → Unbroken goal →
      Unbroken target → ∀ word ∈ ["-A", chain, flag, interface, "-p", "tcp", "-m", "tcp", "--dport",
        dport, "-j", action, goal] ++ [target], Unbroken word := by
    intro chain flag interface dport action goal target h₁ h₂ h₃ h₄ h₅ h₆ h₇
    simp only [List.cons_append, List.nil_append, List.forall_mem_cons, List.not_mem_nil]
    exact ⟨by decide, h₁, h₂, h₃, by decide, by decide, by decide, by decide, by decide, h₄, by decide,
      h₅, h₆, h₇, by simp⟩
  cases rule with
  | prerouting interface_in port_in ip_out port_out =>
    exact hall (by decide) (by decide) h (Unbroken.nat _) (by decide) (by decide)
      (endpointText_unbroken _ _)
  | postrouting interface_out port_out ip_source =>
    exact hall (by decide) (by decide) h (Unbroken.nat _) (by decide) (by decide)
      (.of_over ip_source.text_over (by decide))

theorem Rule.words_ne_nil (rule : Rule) : rule.words ≠ [] := by
  cases rule <;> simp [Rule.words]

/-- A line is cut into its words. -/
theorem Rule.split_line {rule : Rule} (h : Unbroken rule.interface) :
    split ' ' rule.line = rule.words := by
  rw [rule.line_eq]
  exact split_intercalate (fun word hw => Rule.words_unbroken h word hw ' ' (by decide))
    rule.words_ne_nil

/-- But for the blanks between its words a line has no breaks. -/
theorem Rule.line_not_mem {rule : Rule} (h : Unbroken rule.interface) {c : Char} (hc : c ∈ breaks)
    (hblank : c ≠ ' ') : c ∉ rule.line.toList := by
  rw [rule.line_eq]
  exact not_mem_intercalate (by simpa using hblank) fun word hw => Rule.words_unbroken h word hw c hc

theorem replaceCounter_of_not_mem : ∀ {cs : List Char}, '[' ∉ cs → replaceCounter cs = cs
  | [], _ => rfl
  | c :: cs, h => by
      obtain ⟨hc, hcs⟩ := not_or.mp (mt List.mem_cons.mpr h)
      have hcounter : isCounter (c :: cs) = false := by
        unfold isCounter
        split
        · next heq => exact absurd (List.cons.inj heq).1.symm hc
        · rfl
      rw [replaceCounter, hcounter, replaceCounter_of_not_mem hcs]
      rfl

/-- The lines of a rule file before its rules. -/
def headLines : List String :=
  ["*nat", ":PREROUTING ACCEPT [0:0]", ":INPUT ACCEPT [0:0]", ":OUTPUT ACCEPT [0:0]",
    ":POSTROUTING ACCEPT [0:0]"]

/-- A rule file, line by line. -/
def PortConfig.fileLines (config : PortConfig) : List (List Char) :=
  headLines.map String.toList ++ config.rules.map (fun rule => rule.line.toList) ++ ["COMMIT".toList]

theorem PortConfig.render_toList (config : PortConfig) :
    config.render.toList = config.fileLines.flatMap (· ++ ['\n']) := by
  have hhead : ("*nat\n:PREROUTING ACCEPT [0:0]\n:INPUT ACCEPT [0:0]\n:OUTPUT ACCEPT [0:0]\n" ++
      ":POSTROUTING ACCEPT [0:0]\n").toList = (headLines.map String.toList).flatMap (· ++ ['\n']) := by
    decide
  have hend : "COMMIT\n".toList = ["COMMIT".toList].flatMap (· ++ ['\n']) := by decide
  unfold PortConfig.render PortConfig.fileLines
  rw [String.toList_append, String.toList_append, hhead, hend, String.toList_join,
    List.flatMap_append, List.flatMap_append, List.flatMap_map]
  simp [List.flatMap_map]

/-- The interfaces in a network's rules are one word each. -/
theorem NetworkState.rules_unbroken {build : Build} {network : NetworkState} {config : PortConfig}
    (h : network.port_config build = .ok config) : ∀ rule ∈ config.rules, Unbroken rule.interface := by
  obtain ⟨address, mappings, _, _, rfl⟩ := network.port_config_ok h
  intro rule hrule
  rcases List.mem_append.mp hrule with hm | hm
  · obtain ⟨m, _, rfl⟩ := List.mem_map.mp hm
    exact Unbroken.portName (by decide) _
  · obtain ⟨m, _, rfl⟩ := List.mem_map.mp hm
    exact Unbroken.portName (by decide) _

theorem PortConfig.filter_appends_fileLines (config : PortConfig) :
    config.fileLines.filter appends = config.rules.map fun rule => rule.line.toList := by
  have hrule : ∀ line ∈ config.rules.map (fun rule => rule.line.toList), appends line = true := by
    intro line hl
    obtain ⟨rule, _, rfl⟩ := List.mem_map.mp hl
    cases rule <;> unfold Rule.line <;> simp [appends]
  have hhead : (headLines.map String.toList).filter appends = [] := by decide
  have hend : ["COMMIT".toList].filter appends = [] := by decide
  rw [PortConfig.fileLines, List.filter_append, List.filter_append, hhead, hend,
    List.filter_eq_self.mpr hrule, List.nil_append, List.append_nil]

theorem appends_replaceCounter (line : List Char) : appends (replaceCounter line) = appends line := by
  cases line with
  | nil => rfl
  | cons c cs =>
    rw [replaceCounter]
    split
    · next hcounter =>
      unfold isCounter at hcounter
      split at hcounter
      · next heq =>
        cases heq
        rfl
      · cases hcounter
    · rfl

/-- Cleaning a file keeps the lines that append rules. -/
theorem filter_appends_cleanLines (input : List Char) :
    (cleanLines input).filter appends = ((lines input).filter appends).map replaceCounter := by
  have hsame : appends ∘ replaceCounter = appends := funext appends_replaceCounter
  have hsub : (fun line => appends line && isRule line) = appends := by
    funext line
    cases line with
    | nil => rfl
    | cons c cs =>
      by_cases hc : c = '-' <;> simp [appends, isRule, hc]
  rw [cleanLines, List.filter_map, hsame, List.filter_filter, hsub]

theorem cleanLines_line {input line : List Char} (h : line ∈ cleanLines input) :
    '\n' ∉ line ∧ line ≠ [] := by
  refine ⟨newline_not_mem_cleanLines h, ?_⟩
  rintro rfl
  exact absurd (cleanLines_isRule h) (by decide)

section
variable {config : PortConfig} (h : ∀ rule ∈ config.rules, Unbroken rule.interface)
include h

/-- Every line of a rule file is kept by cleaning, as it is. -/
theorem PortConfig.fileLines_clean : ∀ line ∈ config.fileLines,
    ('\n' ∉ line ∧ '\r' ∉ line) ∧ isRule line = true ∧ replaceCounter line = line := by
  intro line hl
  rw [PortConfig.fileLines, List.mem_append, List.mem_append] at hl
  rcases hl with (hl | hl) | hl
  · revert line
    decide
  · obtain ⟨rule, hrule, rfl⟩ := List.mem_map.mp hl
    have hnot := fun {c} => Rule.line_not_mem (h rule hrule) (c := c)
    refine ⟨⟨hnot (by decide) (by decide), hnot (by decide) (by decide)⟩, ?_,
      replaceCounter_of_not_mem (hnot (by decide) (by decide))⟩
    have hfirst : rule.line.toList.head? = some '-' := by
      cases rule <;> unfold Rule.line <;> simp
    simp [isRule, hfirst]
  · revert line
    decide

/-- The lines a rule file is compared by. -/
theorem PortConfig.cleanLines_render : cleanLines config.render.toList = config.fileLines := by
  have hclean := PortConfig.fileLines_clean h
  have hlines : lines config.render.toList = config.fileLines := by
    rw [config.render_toList]
    exact lines_flatMap_newline fun line hl =>
      ⟨(hclean line hl).1.1, fun hlast => (hclean line hl).1.2 (List.mem_of_getLast? hlast)⟩
  rw [cleanLines, hlines, List.filter_eq_self.mpr fun line hl => (hclean line hl).2.1]
  exact (List.map_congr_left fun line hl => (hclean line hl).2.2).trans (List.map_id _)

/-- A table that compares equal to a rule file holds the rules of the file. -/
theorem PortConfig.readNat_eq {nat : String}
    (hnat : clean_iptables nat = clean_iptables config.render) :
    readNat nat = config.rules.mapM Rule.nat := by
  have hclean : cleanLines nat.toList = config.fileLines := by
    rw [← PortConfig.cleanLines_render h]
    exact unlines_inj (fun _ => cleanLines_line) (fun _ => cleanLines_line)
      (String.ofList_inj.mp hnat)
  -- counters aside, the lines of the table that append rules are those of the file
  have hcounted : ((lines nat.toList).filter appends).map replaceCounter =
      config.rules.map fun rule => rule.line.toList := by
    rw [← filter_appends_cleanLines, hclean]
    exact PortConfig.filter_appends_fileLines config
  have hrules : (lines nat.toList).filter appends =
      config.rules.map fun rule => rule.line.toList := by
    rw [← hcounted]
    refine ((List.map_congr_left fun line hl => ?_).trans (List.map_id _)).symm
    refine (replaceCounter_eq_or line).resolve_right fun hbracket => ?_
    have hin := List.mem_map_of_mem hl (f := replaceCounter)
    rw [hcounted] at hin
    obtain ⟨rule, hrule, heq⟩ := List.mem_map.mp hin
    exact Rule.line_not_mem (h rule hrule) (by decide) (by decide) (heq ▸ hbracket)
  have hwords : config.rules.map (fun rule => split ' ' rule.line) = config.rules.map Rule.words :=
    List.map_congr_left fun rule hrule => Rule.split_line (h rule hrule)
  rw [readNat, hrules, List.map_map]
  simp only [Function.comp_def, String.ofList_toList]
  rw [hwords, List.mapM_map]
  exact congrArg (fun f => config.rules.mapM f) (funext Rule.readRule_words)

end

end FractalGateway
