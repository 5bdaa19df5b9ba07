import Mathlib.Data.List.Basic

/-! Configuration files made of directives: words ended by a semicolon, or followed by a block in
    braces.

    The reader is a machine that takes one character at a time and is folded over the text. It knows
    blanks, semicolons, braces and comments. Quotes, escapes and braces around a variable's name are
    refused, so a text that is read at all is read the same way where these have a meaning. What a
    stretch of text does to the machine is a `Reads`, and a file is read stretch by stretch. -/

namespace Directives

/-- Words ended by a semicolon, or words and the block after them. -/
inductive Directive where
  | line (words : List String)
  | block (head : List String) (body : List Directive)

/-- The word and the directive being read, backwards, what is complete of the open block, and the
    blocks around it, each with its head and the directives before it. -/
structure Reader where
  word : List Char
  words : List String
  done : List Directive
  outer : List (List String × List Directive)
  comment : Bool

/-- A reader between two directives. -/
def Reader.rest (outer : List (List String × List Directive)) (done : List Directive) : Reader :=
  ⟨[], [], done, outer, false⟩

/-- The word is complete. -/
def Reader.flush (r : Reader) : Reader :=
  if r.word = [] then r
  else { r with word := [], words := String.ofList r.word.reverse :: r.words }

def Reader.semicolon (r : Reader) : Option Reader :=
  if r.words = [] then none
  else some { r with words := [], done := .line r.words.reverse :: r.done }

def Reader.openBlock (r : Reader) : Option Reader :=
  if r.words = [] then none
  else some { r with words := [], done := [], outer := (r.words.reverse, r.done) :: r.outer }

def Reader.closeBlock (r : Reader) : Option Reader :=
  match r.words, r.outer with
  | [], (head, before) :: outer =>
    some { r with done := .block head r.done.reverse :: before, outer := outer }
  | _, _ => none

def blanks : List Char := [' ', '\t', '\n', '\r']

/-- The two quotes and the backslash. -/
def quotes : List Char := [34, 39, 92].map Char.ofNat

/-- The characters that are not simply part of a word. -/
def special : List Char := blanks ++ quotes ++ [';', '\x7b', '\x7d', '#', '$']

def Reader.step (r : Reader) (c : Char) : Option Reader :=
  if r.comment then some { r with comment := decide (c ≠ '\n') }
  else if c ∈ blanks then some r.flush
  else if c = ';' then r.flush.semicolon
  else if c = '\x7b' then if r.word.head? = some '$' then none else r.flush.openBlock
  else if c = '\x7d' then r.flush.closeBlock
  else if c = '#' ∧ r.word = [] then some { r with comment := true }
  else if c ∈ quotes then none
  else some { r with word := c :: r.word }

/-- The directives of a whole text. -/
def read (text : String) : Option (List Directive) :=
  (text.toList.foldlM Reader.step (Reader.rest [] [])).bind fun r =>
    if r.word = [] ∧ r.words = [] ∧ r.outer = [] then some r.done.reverse else none

/-! ### Stretches of text -/

/-- The text takes the reader from one state to another. -/
def Reads (r : Reader) (text : String) (r' : Reader) : Prop :=
  text.toList.foldlM Reader.step r = some r'

section
variable {r r' r'' : Reader} {a b : String}

theorem Reads.append (ha : Reads r a r') (hb : Reads r' b r'') : Reads r (a ++ b) r'' := by
  rw [Reads, String.toList_append, List.foldlM_append, ha]
  exact hb

theorem Reader.step_plain {c : Char} (hr : r.comment = false) (hc : c ∉ special) :
    r.step c = some { r with word := c :: r.word } := by
  simp only [special, List.mem_append, List.mem_cons, not_or] at hc
  simp [Reader.step, hr, hc]

theorem foldlM_plain : ∀ {word : List Char} {r : Reader}, (∀ c ∈ word, c ∉ special) →
    r.comment = false → word.foldlM Reader.step r = some { r with word := word.reverse ++ r.word }
  | [], _, _, _ => rfl
  | c :: word, r, h, hr => by
      obtain ⟨hc, hword⟩ := List.forall_mem_cons.mp h
      have hrest := foldlM_plain (r := { r with word := c :: r.word }) hword hr
      rw [List.foldlM_cons, Reader.step_plain hr hc, List.reverse_cons, List.append_assoc]
      exact hrest

/-- Stretches that each add one directive add them all. -/
theorem Reads.join {α : Type} {outer : List (List String × List Directive)} {text : α → String}
    {of : α → Directive} : ∀ {l : List α} {done : List Directive},
      (∀ a ∈ l, ∀ done, Reads (.rest outer done) (text a) (.rest outer (of a :: done))) →
      Reads (.rest outer done) (String.join (l.map text)) (.rest outer ((l.map of).reverse ++ done))
  | [], done, _ => rfl
  | a :: l, done, h => by
      rw [List.map_cons, String.join_cons, List.map_cons, List.reverse_cons, List.append_assoc]
      exact (h a List.mem_cons_self done).append
        (Reads.join fun b hb => h b (List.mem_cons_of_mem _ hb))

theorem read_eq {text : String} {done : List Directive} (h : Reads (.rest [] []) text (.rest [] done)) :
    read text = some done.reverse := by
  rw [read, show text.toList.foldlM Reader.step (.rest [] []) = _ from h]
  rfl

end

/-! ### Words -/

/-- A text without special characters. -/
def Ordinary (text : String) : Prop := ∀ c ∈ text.toList, c ∉ special

instance (text : String) : Decidable (Ordinary text) :=
  decidable_of_iff (text.toList.all fun c => !special.contains c) (by simp [Ordinary])

/-- A name that is read as one word. -/
structure Word (name : String) : Prop where
  ne_nil : name.toList ≠ []
  plain : Ordinary name

instance (name : String) : Decidable (Word name) :=
  decidable_of_iff (name.toList ≠ [] ∧ Ordinary name) ⟨fun h => ⟨h.1, h.2⟩, fun h => ⟨h.1, h.2⟩⟩

/-- A word with ordinary characters in front is a word. -/
theorem Word.after {a b : String} (ha : Ordinary a) (hb : Word b) : Word (a ++ b) := by
  have htext := String.toList_append (s := a) (t := b)
  refine ⟨?_, fun c hc => ?_⟩
  · rw [htext]
    exact fun hnil => hb.ne_nil (List.append_eq_nil_iff.mp hnil).2
  · rw [htext, List.mem_append] at hc
    rcases hc with hc | hc
    · exact ha c hc
    · exact hb.plain c hc

section
variable {name rest : String} {r r' : Reader} (hname : Word name) (hr : r.word = [])
include hname hr

theorem Word.flush : Reader.flush { r with word := name.toList.reverse } =
    { r with words := name :: r.words } := by
  have hne : name.toList.reverse ≠ [] := by simpa using hname.ne_nil
  simp only [Reader.flush, if_neg hne, List.reverse_reverse, String.ofList_toList, hr]

variable (hc : r.comment = false)
include hc

theorem Word.reads : Reads r name { r with word := name.toList.reverse } := by
  rw [Reads, foldlM_plain hname.plain hc, hr, List.append_nil]

/-- A word and a blank, and what follows. -/
theorem Word.blank (h : Reads { r with words := name :: r.words } rest r') :
    Reads r (name ++ (" " ++ rest)) r' := by
  refine (hname.reads hr hc).append (Reads.append ?_ h)
  have hstep : Reader.step { r with word := name.toList.reverse } ' ' =
      some (Reader.flush { r with word := name.toList.reverse }) := by
    simp [Reader.step, hc, blanks]
  show List.foldlM Reader.step _ [' '] = _
  rw [List.foldlM_cons, hstep, hname.flush hr]
  rfl

/-- A word and a semicolon, and what follows. -/
theorem Word.semicolon
    (h : Reads { r with words := [], done := .line (name :: r.words).reverse :: r.done } rest r') :
    Reads r (name ++ (";" ++ rest)) r' := by
  refine (hname.reads hr hc).append (Reads.append ?_ h)
  have hstep : Reader.step { r with word := name.toList.reverse } ';' =
      (Reader.flush { r with word := name.toList.reverse }).semicolon := by
    simp [Reader.step, hc, blanks]
  show List.foldlM Reader.step _ [';'] = _
  rw [List.foldlM_cons, hstep, hname.flush hr]
  rfl

/-- A word and a semicolon at the end. -/
theorem Word.last : Reads r (name ++ ";")
    { r with words := [], done := .line (name :: r.words).reverse :: r.done } := by
  have hnil : ∀ r, Reads r "" r := fun _ => rfl
  have h := hname.semicolon hr hc (hnil _)
  rwa [String.append_empty] at h

end

end Directives
