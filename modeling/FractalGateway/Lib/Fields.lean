import Mathlib.Data.List.Basic

/-! Texts as fields, the way `str::split` cuts them at a character.

    A text without the separator is one field; otherwise it has a first field, which ends at the
    first separator, and a last one, which starts after the last separator. Fields without the
    separator, joined by it, are read back as they were (`split_intercalate`). -/

namespace Text

/-- `str::split` at a character. -/
def split (sep : Char) (text : String) : List String := (text.toList.splitOn sep).map String.ofList

theorem split_ne_nil (sep : Char) (text : String) : split sep text ≠ [] := by
  simp [split, List.splitOn_ne_nil]

theorem split_of_not_mem {sep : Char} {text : String} (h : sep ∉ text.toList) :
    split sep text = [text] := by
  rw [split, List.splitOn_eq_singleton h]
  simp

theorem split_cons {sep : Char} {text : String} {first rest : List Char} (h : sep ∉ first)
    (htext : text.toList = first ++ sep :: rest) :
    split sep text = String.ofList first :: split sep (String.ofList rest) := by
  rw [split, htext, List.splitOn_append_cons_self_of_not_mem h, List.map_cons, split,
    String.toList_ofList]

theorem split_append {sep : Char} {text a b : String}
    (htext : text.toList = a.toList ++ sep :: b.toList) :
    split sep text = split sep a ++ split sep b := by
  rw [split, htext, List.splitOn_append_cons_self, List.map_append]
  rfl

/-- What is joined by the separator is cut there again. -/
theorem split_intercalate {sep : Char} {texts : List String} (h : ∀ t ∈ texts, sep ∉ t.toList)
    (hne : texts ≠ []) : split sep ((String.singleton sep).intercalate texts) = texts := by
  have hlist : ((String.singleton sep).intercalate texts).toList =
      [sep].intercalate (texts.map String.toList) := by
    rw [String.toList_intercalate, String.toList_singleton]
  have hsplit : ([sep].intercalate (texts.map String.toList)).splitOn sep = texts.map String.toList := by
    refine List.splitOn_intercalate sep ?_ (by simpa using hne)
    intro l hl
    obtain ⟨t, ht, rfl⟩ := List.mem_map.mp hl
    exact h t ht
  rw [split, hlist, hsplit, List.map_map]
  exact (List.map_congr_left fun t _ => String.ofList_toList).trans (List.map_id _)

/-- Lines written one by one are cut at their newlines, with an empty piece after the last. -/
theorem split_join_lines {sep : Char} : ∀ {texts : List String}, (∀ t ∈ texts, sep ∉ t.toList) →
    split sep (String.join (texts.map (· ++ String.singleton sep))) = texts ++ [""]
  | [], _ => rfl
  | t :: ts, h => by
      have htext : (String.join ((t :: ts).map (· ++ String.singleton sep))).toList =
          t.toList ++ sep :: (String.join (ts.map (· ++ String.singleton sep))).toList := by
        simp
      rw [split_cons (h t List.mem_cons_self) htext, String.ofList_toList, String.ofList_toList,
        split_join_lines fun u hu => h u (List.mem_cons_of_mem _ hu), List.cons_append]

/-- What holds of the characters of the separator and of every text holds of those of the joined
    text. -/
theorem forall_mem_intercalate {p : Char → Prop} {sep : String} (hs : ∀ c ∈ sep.toList, p c) :
    ∀ {texts : List String}, (∀ t ∈ texts, ∀ c ∈ t.toList, p c) →
      ∀ c ∈ (sep.intercalate texts).toList, p c
  | [], _ => by simp
  | [t], h => by
      rw [String.intercalate_singleton]
      exact h t (List.mem_singleton_self t)
  | t :: t' :: ts, h => by
      rw [String.intercalate_cons_cons, String.toList_append, String.toList_append]
      simp only [List.mem_append]
      rintro c ((hc | hc) | hc)
      · exact h t List.mem_cons_self c hc
      · exact hs c hc
      · exact forall_mem_intercalate hs (fun u hu => h u (List.mem_cons_of_mem _ hu)) c hc

theorem not_mem_intercalate {c : Char} {sep : String} {texts : List String} (hs : c ∉ sep.toList)
    (h : ∀ t ∈ texts, c ∉ t.toList) : c ∉ (sep.intercalate texts).toList := by
  have hne : ∀ d ∈ (sep.intercalate texts).toList, d ≠ c := by
    refine forall_mem_intercalate (p := fun d => d ≠ c) ?_ ?_
    · rintro d hd rfl
      exact hs hd
    · rintro t ht d hd rfl
      exact h t ht hd
  exact fun hc => hne c hc rfl

/-- What is cut at the separator is joined by it again. -/
theorem intercalate_split (sep : Char) (text : String) :
    (String.singleton sep).intercalate (split sep text) = text := by
  have hlist : ((String.singleton sep).intercalate (split sep text)).toList = text.toList := by
    rw [String.toList_intercalate, String.toList_singleton, split, List.map_map]
    have hid : (String.toList ∘ String.ofList) = id := funext fun l => String.toList_ofList
    rw [hid, List.map_id, List.intercalate_splitOn]
  exact String.toList_inj.mp hlist

/-- A character other than the separator is in one of the fields. -/
theorem exists_mem_split {sep c : Char} {text : String} (h : c ∈ text.toList) (hne : c ≠ sep) :
    ∃ t ∈ split sep text, c ∈ t.toList := by
  by_contra hnone
  simp only [not_exists, not_and] at hnone
  have hnot : c ∉ ((String.singleton sep).intercalate (split sep text)).toList :=
    not_mem_intercalate (by simpa using hne) hnone
  rw [intercalate_split] at hnot
  exact hnot h

/-- A text with a separator has more than one field. -/
theorem one_lt_length_split {sep : Char} {text : String} (h : sep ∈ text.toList) :
    1 < (split sep text).length := by
  obtain ⟨a, b, hcut⟩ := List.mem_iff_append.mp h
  have hpieces : split sep text = split sep (String.ofList a) ++ split sep (String.ofList b) :=
    split_append (by rw [String.toList_ofList, String.toList_ofList, hcut])
  have ha := List.length_pos_of_ne_nil (split_ne_nil sep (String.ofList a))
  have hb := List.length_pos_of_ne_nil (split_ne_nil sep (String.ofList b))
  rw [hpieces, List.length_append]
  omega

/-- A joined text ends as its last field does. -/
theorem getLast_intercalate (sep : String) :
    ∀ {texts : List String} {last : String}, texts.getLast? = some last → last.toList ≠ [] →
      (sep.intercalate texts).toList.getLast? = last.toList.getLast?
  | [], _, h, _ => by cases h
  | [t], last, h, _ => by
      cases h
      rw [String.intercalate_singleton]
      rfl
  | t :: t' :: ts, last, h, hne => by
      rw [List.getLast?_cons_cons] at h
      rw [String.intercalate_cons_cons, String.toList_append, List.getLast?_append,
        getLast_intercalate sep h hne, List.getLast?_eq_some_getLast hne]
      rfl

/-- The first separator cuts a text in one way. -/
theorem first_unique {sep : Char} {a a' b b' : List Char} (ha : sep ∉ a) (ha' : sep ∉ a')
    (h : a ++ sep :: b = a' ++ sep :: b') : a = a' ∧ b = b' := by
  induction a generalizing a' with
  | nil =>
    cases a' with
    | nil => exact ⟨rfl, List.tail_eq_of_cons_eq h⟩
    | cons c a' =>
      cases h
      exact absurd List.mem_cons_self ha'
  | cons c a ih =>
    cases a' with
    | nil =>
      cases h
      exact absurd List.mem_cons_self ha
    | cons c' a' =>
      rw [List.mem_cons, not_or] at ha ha'
      rw [List.cons_append, List.cons_append, List.cons.injEq] at h
      obtain ⟨ha, hb⟩ := ih ha.2 ha'.2 h.2
      exact ⟨by rw [h.1, ha], hb⟩

/-- The last separator cuts a text in one way. -/
theorem last_unique {sep : Char} {a a' b b' : List Char} (hb : sep ∉ b) (hb' : sep ∉ b')
    (h : a ++ sep :: b = a' ++ sep :: b') : a = a' ∧ b = b' := by
  have hrev : b.reverse ++ sep :: a.reverse = b'.reverse ++ sep :: a'.reverse := by
    have := congrArg List.reverse h
    simpa using this
  obtain ⟨hb, ha⟩ := first_unique (by simpa using hb) (by simpa using hb') hrev
  exact ⟨List.reverse_injective ha, List.reverse_injective hb⟩

section
variable {sep : Char} {cut a a' b b' : String}

/-- Texts cut at the first of a separator. -/
theorem cut_first (hcut : cut.toList = [sep]) (ha : sep ∉ a.toList) (ha' : sep ∉ a'.toList)
    (h : a ++ cut ++ b = a' ++ cut ++ b') : a = a' ∧ b = b' := by
  have hlists := congrArg String.toList h
  simp only [String.toList_append, hcut, List.append_assoc, List.singleton_append] at hlists
  obtain ⟨ha, hb⟩ := first_unique ha ha' hlists
  exact ⟨String.toList_inj.mp ha, String.toList_inj.mp hb⟩

/-- Texts cut at the last of a separator. -/
theorem cut_last (hcut : cut.toList = [sep]) (hb : sep ∉ b.toList) (hb' : sep ∉ b'.toList)
    (h : a ++ cut ++ b = a' ++ cut ++ b') : a = a' ∧ b = b' := by
  have hlists := congrArg String.toList h
  simp only [String.toList_append, hcut, List.append_assoc, List.singleton_append] at hlists
  obtain ⟨ha, hb⟩ := last_unique hb hb' hlists
  exact ⟨String.toList_inj.mp ha, String.toList_inj.mp hb⟩

end

/-- A text that has the separator has a last one. -/
theorem exists_last {sep : Char} {text : List Char} (h : sep ∈ text) :
    ∃ a b, text = a ++ sep :: b ∧ sep ∉ b := by
  obtain ⟨a, b, hrev, hnot⟩ := List.eq_append_cons_of_mem (List.mem_reverse.mpr h)
  refine ⟨b.reverse, a.reverse, ?_, by simpa using hnot⟩
  have := congrArg List.reverse hrev
  simpa using this

end Text
