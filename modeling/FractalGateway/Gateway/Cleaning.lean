import FractalGateway.Gateway.Apply

/-! When two rule files are the same.

    What the gateway compares are cleaned texts. What it wants to know is whether two files have the
    same rules: the same lines, comments and blank lines aside, with the packet counters that may
    stand at the end of a line not looked at. `SameRules` says that of the texts as they are, and
    cleaning decides it. -/

namespace FractalGateway
open Std Exec Text

/-! ### Rule files up to comments, blank lines and counters -/

/-- The lines that are neither empty nor comments. -/
def ruleLines (text : String) : List (List Char) :=
  (text.toList.splitOn '\n').filter fun line => decide (line ≠ [] ∧ line.head? ≠ some '#')

/-- A packet counter: `[digits:digits]`. -/
def Counter (cs : List Char) : Prop :=
  ∃ a b : List Char, a ≠ [] ∧ b ≠ [] ∧ (∀ c ∈ a, isDigit c) ∧ (∀ c ∈ b, isDigit c) ∧
    cs = '[' :: (a ++ ':' :: (b ++ [']']))

/-- The second line is the first with its trailing counter, if it has one, replaced by `[0:0]`. -/
inductive Zeroed (line : List Char) : List Char → Prop where
  | counter {start counter : List Char} (hcounter : Counter counter) (hline : line = start ++ counter) :
    Zeroed line (start ++ "[0:0]".toList)
  | plain (hnone : ∀ start counter, Counter counter → line ≠ start ++ counter) : Zeroed line line

/-- Two texts have the same lines, up to comments, empty lines and trailing counters. -/
def SameRules (x y : String) : Prop :=
  ∃ lines, List.Forall₂ Zeroed (ruleLines x) lines ∧ List.Forall₂ Zeroed (ruleLines y) lines

/-! ### What the pattern matches -/

theorem digitsThen_eq_some_iff {close : Char} (hclose : isDigit close = false)
    {cs rest : List Char} : digitsThen close cs = some rest ↔
      ∃ a : List Char, a ≠ [] ∧ (∀ c ∈ a, isDigit c) ∧ cs = a ++ close :: rest := by
  constructor
  · intro h
    unfold digitsThen at h
    split at h
    · cases h
    · next hne =>
      split at h
      · next c cs' hdrop =>
        split at h
        · next hc =>
          cases h
          refine ⟨cs.takeWhile isDigit, hne, fun c hc => List.mem_takeWhile_imp hc, ?_⟩
          rw [← hc, ← hdrop, List.takeWhile_append_dropWhile]
        · cases h
      · cases h
  · rintro ⟨a, hne, hdigits, rfl⟩
    have htake : (a ++ close :: rest).takeWhile isDigit = a := by
      rw [List.takeWhile_append_of_pos hdigits, List.takeWhile_cons_of_neg (by simp [hclose]),
        List.append_nil]
    have hdrop : (a ++ close :: rest).dropWhile isDigit = close :: rest := by
      rw [List.dropWhile_append_of_pos hdigits, List.dropWhile_cons_of_neg (by simp [hclose])]
    rw [digitsThen, htake, if_neg hne, hdrop]
    exact if_pos rfl

theorem isCounter_iff (cs : List Char) : isCounter cs = true ↔ Counter cs := by
  constructor
  · intro h
    unfold isCounter at h
    split at h
    · next cs =>
      obtain ⟨rest, h₁, h₂⟩ := Option.bind_eq_some_iff.mp (of_decide_eq_true h)
      obtain ⟨a, ha, had, rfl⟩ := (digitsThen_eq_some_iff (by decide)).mp h₁
      obtain ⟨b, hb, hbd, rfl⟩ := (digitsThen_eq_some_iff (by decide)).mp h₂
      exact ⟨a, b, ha, hb, had, hbd, rfl⟩
    · cases h
  · rintro ⟨a, b, ha, hb, had, hbd, rfl⟩
    have h₁ : digitsThen ':' (a ++ ':' :: (b ++ [']'])) = some (b ++ [']']) :=
      (digitsThen_eq_some_iff (by decide)).mpr ⟨a, ha, had, rfl⟩
    have h₂ : digitsThen ']' (b ++ [']']) = some [] :=
      (digitsThen_eq_some_iff (by decide)).mpr ⟨b, hb, hbd, rfl⟩
    simp [isCounter, h₁, h₂]

/-- The trailing counter is replaced, whatever stands before it. -/
theorem replaceCounter_append {counter : List Char} (hc : Counter counter) :
    ∀ start : List Char, replaceCounter (start ++ counter) = start ++ "[0:0]".toList
  | [] => by
      obtain ⟨a, b, _, _, _, _, hcs⟩ := id hc
      rw [List.nil_append, hcs, replaceCounter, if_pos]
      · rfl
      · rw [← hcs]
        exact (isCounter_iff counter).mpr hc
  | c :: start => by
      have hmem : '[' ∈ start ++ counter := by
        obtain ⟨a, b, _, _, _, _, rfl⟩ := id hc
        simp
      have hnot : ¬isCounter (c :: (start ++ counter)) = true := fun h =>
        bracket_not_mem_of_isCounter h hmem
      rw [List.cons_append, replaceCounter, if_neg hnot, replaceCounter_append hc start]
      rfl

theorem replaceCounter_of_none : ∀ {line : List Char},
    (∀ start counter, Counter counter → line ≠ start ++ counter) → replaceCounter line = line
  | [], _ => rfl
  | c :: line, h => by
      have hnot : ¬isCounter (c :: line) = true := fun hc =>
        h [] (c :: line) ((isCounter_iff _).mp hc) rfl
      rw [replaceCounter, if_neg hnot, replaceCounter_of_none fun start counter hc heq =>
        h (c :: start) counter hc (by rw [heq]; rfl)]

/-- The replacement finds the trailing counter, and nothing else. -/
theorem zeroed_iff (line line' : List Char) : Zeroed line line' ↔ line' = replaceCounter line := by
  constructor
  · intro h
    cases h with
    | counter hcounter hline => rw [hline, replaceCounter_append hcounter]
    | plain hnone => rw [replaceCounter_of_none hnone]
  · rintro rfl
    by_cases h : ∃ start counter, Counter counter ∧ line = start ++ counter
    · obtain ⟨start, counter, hcounter, hline⟩ := h
      rw [hline, replaceCounter_append hcounter]
      exact .counter hcounter rfl
    · have hnone : ∀ start counter, Counter counter → line ≠ start ++ counter :=
        fun start counter hc heq => h ⟨start, counter, hc, heq⟩
      rw [replaceCounter_of_none hnone]
      exact .plain hnone

/-! ### What cleaning decides -/

theorem cleanLines_eq {text : String} (h : Plain text) :
    cleanLines text.toList = (ruleLines text).map replaceCounter := by
  have hsame : (fun line : List Char => decide (line ≠ [] ∧ line.head? ≠ some '#')) = isRule := by
    funext line
    cases line with
    | nil => rfl
    | cons c line => simp [isRule]
  rw [cleanLines, ruleLines, filter_lines rfl h, hsame]

/-- The lines two rule files are compared by. -/
theorem sameRules_iff {x y : String} (hx : Plain x) (hy : Plain y) :
    SameRules x y ↔ cleanLines x.toList = cleanLines y.toList := by
  have hzeroed : ∀ lines lines' : List (List Char),
      List.Forall₂ Zeroed lines lines' ↔ lines' = lines.map replaceCounter := by
    intro lines lines'
    have hrel : Zeroed = fun line line' => replaceCounter line = line' := by
      funext line line'
      exact propext ((zeroed_iff line line').trans eq_comm)
    rw [hrel, ← List.forall₂_map_left_iff, List.forall₂_eq_eq_eq, eq_comm]
  rw [cleanLines_eq hx, cleanLines_eq hy]
  constructor
  · rintro ⟨lines, h, h'⟩
    rw [← (hzeroed _ _).mp h, ← (hzeroed _ _).mp h']
  · intro h
    exact ⟨_, (hzeroed _ _).mpr rfl, (hzeroed _ _).mpr h⟩

/-- Cleaned texts are the same exactly when their lines are. -/
theorem clean_iptables_eq_iff {x y : String} (hx : Plain x) (hy : Plain y) :
    clean_iptables x = clean_iptables y ↔ SameRules x y := by
  rw [sameRules_iff hx hy, clean_iptables, clean_iptables, String.ofList_inj]
  constructor
  · intro h
    rw [← cleanLines_unlines hx, h, cleanLines_unlines hy]
  · intro h
    rw [h]

/-- Normalising rule files is stable and decides whether they have the same rules; so the rules of a
    namespace are restored exactly when those it has are not those of its network. -/
theorem cleaning_decides (x y : String) (hx : Plain x) (hy : Plain y) :
    clean_iptables (clean_iptables x) = clean_iptables x ∧
      (clean_iptables x = clean_iptables y ↔ SameRules x y) ∧
      ∀ (os : Os) (deploy : Deployment) (network : NetworkState) (config : PortConfig)
        (m m₁ : Machine), network.port_config deploy.build = .ok config →
        (iptables_save os network.netns_name).run m = .ok y m₁ →
        (SameRules config.render y → (apply_forwarding os deploy network).run m = .ok () m₁) ∧
        (¬SameRules config.render y → (apply_forwarding os deploy network).run m =
          (iptables_restore os network.netns_name (clean_iptables config.render)).run m₁) := by
  refine ⟨clean_iptables_idem hx, clean_iptables_eq_iff hx hy, ?_⟩
  intro os deploy network config m m₁ hconfig hsave
  have hrun : (apply_forwarding os deploy network).run m =
      (skipIf (¬clean_iptables config.render ≠ clean_iptables y)
        (iptables_restore os network.netns_name (clean_iptables config.render))).run m₁ := by
    rw [apply_forwarding, bind_of_ok (liftE_ok_iff.mpr ⟨hconfig, rfl⟩), bind_of_ok hsave]
  rw [hrun, ← clean_iptables_eq_iff (NetworkState.render_plain hconfig) hy]
  constructor
  · intro heq
    rw [skipIf, if_pos (not_not.mpr heq)]
    rfl
  · intro hne
    rw [skipIf, if_neg (not_not.mpr hne)]

/-- A dump with comments, an empty line and counters has the rules of the file it came from. -/
theorem cleaning_decides_dump :
    SameRules "*nat\n:INPUT ACCEPT [0:0]\nCOMMIT\n"
      "# saved\n*nat\n\n:INPUT ACCEPT [12:3456]\nCOMMIT\n# done" :=
  (cleaning_decides _ _ (by decide) (by decide)).2.1.mp (by decide)

end FractalGateway
