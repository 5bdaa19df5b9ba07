import Mathlib.Tactic.Linarith

/-! Texts as lines, the way `str::lines` reads them.

    A line ends at a newline, and a carriage return right before the newline belongs to the ending.
    The last newline is optional. Lines without either character, joined by newlines and closed by
    one more, are read back as they were (`lines_unlines`). -/

namespace Text

/-- A line's characters in reverse order, its carriage return dropped. -/
def chomp : List Char → List Char
  | '\r' :: cs => cs
  | cs => cs

/-- Read lines, with the characters of the current one in reverse order. -/
def linesFrom : List Char → List Char → List (List Char)
  | [], [] => []
  | cur, [] => [cur.reverse]
  | cur, '\n' :: cs => (chomp cur).reverse :: linesFrom [] cs
  | cur, c :: cs => linesFrom (c :: cur) cs

/-- `str::lines`. -/
def lines (text : List Char) : List (List Char) := linesFrom [] text

/-- Lines joined by newlines, with one more at the end. -/
def unlines (ls : List (List Char)) : List Char := ['\n'].intercalate ls ++ ['\n']

theorem linesFrom_newline (cur cs : List Char) :
    linesFrom cur ('\n' :: cs) = (chomp cur).reverse :: linesFrom [] cs := by
  cases cur <;> rfl

theorem linesFrom_cons {c : Char} (h : c ≠ '\n') (cur cs : List Char) :
    linesFrom cur (c :: cs) = linesFrom (c :: cur) cs := by
  cases cur <;> simp [linesFrom]

theorem chomp_eq_self {cs : List Char} (h : '\r' ∉ cs) : chomp cs = cs := by
  unfold chomp
  split
  · simp at h
  · rfl

theorem mem_of_mem_chomp {cs : List Char} {c : Char} (h : c ∈ chomp cs) : c ∈ cs := by
  unfold chomp at h
  split at h
  · exact List.mem_cons_of_mem _ h
  · exact h

/-- Lines are made of the characters of the text. -/
theorem mem_of_mem_linesFrom {c : Char} :
    ∀ (cs cur : List Char) {l : List Char}, l ∈ linesFrom cur cs → c ∈ l → c ∈ cur ∨ c ∈ cs
  | [], [], _, hl, _ => by simp [linesFrom] at hl
  | [], _ :: _, _, hl, hc => by
      rw [linesFrom, List.mem_singleton] at hl
      · subst hl
        exact Or.inl (List.mem_reverse.mp hc)
      · simp
  | d :: cs, cur, l, hl, hc => by
      by_cases hd : d = '\n'
      · subst hd
        rw [linesFrom_newline, List.mem_cons] at hl
        rcases hl with rfl | hl
        · exact Or.inl (mem_of_mem_chomp (List.mem_reverse.mp hc))
        · rcases mem_of_mem_linesFrom cs [] hl hc with h | h
          · cases h
          · exact Or.inr (List.mem_cons_of_mem _ h)
      · rw [linesFrom_cons hd] at hl
        rcases mem_of_mem_linesFrom cs (d :: cur) hl hc with h | h
        · rcases List.mem_cons.mp h with rfl | h
          · exact Or.inr List.mem_cons_self
          · exact Or.inl h
        · exact Or.inr (List.mem_cons_of_mem _ h)

/-- No line holds a newline. -/
theorem newline_not_mem_linesFrom :
    ∀ (cs cur : List Char) {l : List Char}, '\n' ∉ cur → l ∈ linesFrom cur cs → '\n' ∉ l
  | [], [], _, _, hl => by simp [linesFrom] at hl
  | [], _ :: _, _, hcur, hl => by
      rw [linesFrom, List.mem_singleton] at hl
      · subst hl
        exact fun h => hcur (List.mem_reverse.mp h)
      · simp
  | d :: cs, cur, l, hcur, hl => by
      by_cases hd : d = '\n'
      · subst hd
        rw [linesFrom_newline, List.mem_cons] at hl
        rcases hl with rfl | hl
        · exact fun h => hcur (mem_of_mem_chomp (List.mem_reverse.mp h))
        · exact newline_not_mem_linesFrom cs [] (by simp) hl
      · rw [linesFrom_cons hd] at hl
        refine newline_not_mem_linesFrom cs (d :: cur) ?_ hl
        rw [List.mem_cons]
        rintro (h | h)
        · exact hd h.symm
        · exact hcur h

/-- A line without newlines, read up to the newline that ends it. -/
theorem linesFrom_append_newline {l : List Char} (hn : '\n' ∉ l) (cur cs : List Char) :
    linesFrom cur (l ++ '\n' :: cs) = (chomp (l.reverse ++ cur)).reverse :: linesFrom [] cs := by
  induction l generalizing cur with
  | nil => exact linesFrom_newline cur cs
  | cons c l ih =>
    rw [List.mem_cons, not_or] at hn
    rw [List.cons_append, linesFrom_cons (Ne.symm hn.1), ih hn.2]
    simp

/-- A line that does not end in a carriage return, read up to its newline. -/
theorem lines_append_newline_of_last {l : List Char} (hn : '\n' ∉ l) (hr : l.getLast? ≠ some '\r')
    (cs : List Char) : lines (l ++ '\n' :: cs) = l :: lines cs := by
  have hchomp : chomp l.reverse = l.reverse := by
    unfold chomp
    split
    · next heq =>
      rw [List.getLast?_eq_head?_reverse, heq] at hr
      exact absurd rfl hr
    · rfl
  rw [lines, linesFrom_append_newline hn, List.append_nil, hchomp, List.reverse_reverse]
  rfl

theorem lines_append_newline {l : List Char} (hn : '\n' ∉ l) (hr : '\r' ∉ l) (cs : List Char) :
    lines (l ++ '\n' :: cs) = l :: lines cs :=
  lines_append_newline_of_last hn (fun h => hr (List.mem_of_getLast? h)) cs

/-- Lines written one by one, each with its newline, are read back. -/
theorem lines_flatMap_newline : ∀ {ls : List (List Char)},
    (∀ l ∈ ls, '\n' ∉ l ∧ l.getLast? ≠ some '\r') → lines (ls.flatMap (· ++ ['\n'])) = ls
  | [], _ => rfl
  | l :: ls, h => by
      obtain ⟨hn, hr⟩ := h l List.mem_cons_self
      have htext : (l :: ls).flatMap (· ++ ['\n']) = l ++ '\n' :: ls.flatMap (· ++ ['\n']) := by
        simp
      rw [htext, lines_append_newline_of_last hn hr,
        lines_flatMap_newline fun m hm => h m (List.mem_cons_of_mem _ hm)]

theorem unlines_cons_cons (l l' : List Char) (ls : List (List Char)) :
    unlines (l :: l' :: ls) = l ++ '\n' :: unlines (l' :: ls) := by
  simp [unlines, List.intercalate, List.intersperse]

/-- What is written line by line is read back. -/
theorem lines_unlines :
    ∀ {ls : List (List Char)}, ls ≠ [] → (∀ l ∈ ls, '\n' ∉ l ∧ '\r' ∉ l) → lines (unlines ls) = ls
  | [l], _, h => by
      obtain ⟨hn, hr⟩ := h l (List.mem_singleton_self l)
      have : unlines [l] = l ++ '\n' :: [] := by simp [unlines]
      rw [this, lines_append_newline hn hr]
      rfl
  | l :: l' :: ls, _, h => by
      obtain ⟨hn, hr⟩ := h l List.mem_cons_self
      rw [unlines_cons_cons, lines_append_newline hn hr,
        lines_unlines (List.cons_ne_nil l' ls) fun m hm => h m (List.mem_cons_of_mem _ hm)]

/-- Lines that are not empty are the pieces of their text that are not. -/
theorem filter_splitOn_unlines {ls : List (List Char)} (h : ∀ l ∈ ls, '\n' ∉ l ∧ l ≠ []) :
    ((unlines ls).splitOn '\n').filter (fun l => decide (l ≠ [])) = ls := by
  have hpieces : (unlines ls).splitOn '\n' = (['\n'].intercalate ls).splitOn '\n' ++ [[]] := by
    rw [unlines, List.splitOn_append_cons_self, List.splitOn_nil]
  rw [hpieces, List.filter_append]
  by_cases hne : ls = []
  · subst hne
    rfl
  · rw [List.splitOn_intercalate '\n' (fun l hl => (h l hl).1) hne,
      List.filter_eq_self.mpr fun l hl => decide_eq_true (h l hl).2]
    simp

/-- Lines without newlines, none of them empty, are told apart by their text. -/
theorem unlines_inj {ls ls' : List (List Char)} (h : ∀ l ∈ ls, '\n' ∉ l ∧ l ≠ [])
    (h' : ∀ l ∈ ls', '\n' ∉ l ∧ l ≠ []) (heq : unlines ls = unlines ls') : ls = ls' := by
  rw [← filter_splitOn_unlines h, heq, filter_splitOn_unlines h']

theorem modifyHead_append_nil (ls : List (List Char)) :
    ls.modifyHead (([] : List Char).reverse ++ ·) = ls := by
  cases ls <;> rfl

/-- Without carriage returns, the lines are the pieces between the newlines, but for an empty last
    one. -/
theorem filter_linesFrom {p : List Char → Bool} (hp : p [] = false) :
    ∀ {cs cur : List Char}, '\r' ∉ cs → '\r' ∉ cur →
      (linesFrom cur cs).filter p = ((cs.splitOn '\n').modifyHead (cur.reverse ++ ·)).filter p
  | [], [], _, _ => by simp [linesFrom, hp]
  | [], _ :: _, _, _ => by simp [linesFrom]
  | c :: cs, cur, hcs, hcur => by
      rw [List.mem_cons, not_or] at hcs
      rw [List.splitOn_cons_eq_if_modifyHead]
      by_cases hc : c = '\n'
      · subst hc
        rw [linesFrom_newline, chomp_eq_self hcur, List.filter_cons,
          filter_linesFrom hp hcs.2 (by simp), modifyHead_append_nil]
        simp [List.filter_cons]
      · have hcur' : '\r' ∉ c :: cur := by
          rw [List.mem_cons, not_or]
          exact ⟨hcs.1, hcur⟩
        rw [linesFrom_cons hc, filter_linesFrom hp hcs.2 hcur', if_neg (by simpa using hc),
          List.modifyHead_modifyHead]
        congr 2
        funext l
        simp

theorem filter_lines {p : List Char → Bool} (hp : p [] = false) {text : List Char}
    (hr : '\r' ∉ text) : (lines text).filter p = (text.splitOn '\n').filter p := by
  rw [lines, filter_linesFrom hp hr (by simp), modifyHead_append_nil]

end Text
