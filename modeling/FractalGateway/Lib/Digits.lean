import FractalGateway.Lib.Fields
import Mathlib.Tactic.IntervalCases

/-! Texts over an alphabet, and numbers as texts: the digits `Display` writes and how the integer
    types read them back.

    The digits of a number tell it apart from every other (`toDigits_injective`), and a decimal is
    read back whenever it fits the type (`parseDecimal_toString`). -/

namespace Text

/-! ### Alphabets -/

/-- Every character of the text is one of `chars`. -/
def Over (chars : List Char) (text : String) : Prop := ∀ c ∈ text.toList, c ∈ chars

instance (chars : List Char) (text : String) : Decidable (Over chars text) :=
  decidable_of_iff (text.toList.all fun c => chars.contains c) (by simp [Over])

section
variable {chars chars' : List Char} {a b : String}

theorem Over.append (ha : Over chars a) (hb : Over chars b) : Over chars (a ++ b) := by
  intro c hc
  rw [String.toList_append, List.mem_append] at hc
  rcases hc with hc | hc
  · exact ha c hc
  · exact hb c hc

theorem Over.mono (h : Over chars a) (hsub : chars ⊆ chars') : Over chars' a :=
  fun c hc => hsub (h c hc)

theorem Over.not_mem (h : Over chars a) {c : Char} (hc : c ∉ chars) : c ∉ a.toList :=
  fun hmem => hc (h c hmem)

theorem Over.ne (h : Over chars a) (c : Char) (hc : c ∉ chars) (hb : c ∈ b.toList) : a ≠ b := by
  rintro rfl
  exact h.not_mem hc hb

theorem Over.intercalate {sep : String} {texts : List String} (hs : Over chars sep)
    (h : ∀ t ∈ texts, Over chars t) : Over chars (sep.intercalate texts) :=
  forall_mem_intercalate hs h

end

/-! ### Digits -/

def hexDigits : List Char := "0123456789abcdef".toList

def decDigits : List Char := "0123456789".toList

theorem digitChar_mem_hexDigits {d : ℕ} (h : d < 16) : Nat.digitChar d ∈ hexDigits := by
  interval_cases d <;> decide

theorem digitChar_mem_decDigits {d : ℕ} (h : d < 10) : Nat.digitChar d ∈ decDigits := by
  interval_cases d <;> decide

/-- Digits of a base lie where its single digits do. -/
theorem toDigits_subset {b : ℕ} (hb : 1 < b) {chars : List Char}
    (hdigit : ∀ d < b, Nat.digitChar d ∈ chars) (n : ℕ) : ∀ c ∈ Nat.toDigits b n, c ∈ chars := by
  induction n using Nat.strongRecOn with
  | _ n ih =>
    rw [Nat.toDigits_eq_if hb]
    split
    · next hlt =>
      intro c hc
      rw [List.mem_singleton.mp hc]
      exact hdigit n hlt
    · next hge =>
      intro c hc
      rw [List.mem_append, List.mem_singleton] at hc
      rcases hc with hc | hc
      · exact ih (n / b) (Nat.div_lt_self (by omega) hb) c hc
      · rw [hc]
        exact hdigit _ (Nat.mod_lt n (by omega))

theorem over_nat (n : ℕ) : Over decDigits (toString n) := by
  rw [Over, Nat.toString_eq_repr, Nat.toList_repr]
  exact toDigits_subset (by decide) (fun d => digitChar_mem_decDigits) n

theorem digitChar_injOn : ∀ d < 16, ∀ d' < 16, Nat.digitChar d = Nat.digitChar d' → d = d' := by
  decide

/-- The digits of a number, in a base of at most sixteen, tell it apart. -/
theorem toDigits_injective {b : ℕ} (hb : 1 < b) (hb' : b ≤ 16) : Function.Injective (Nat.toDigits b) := by
  intro n
  induction n using Nat.strongRecOn with
  | _ n ih =>
    intro m h
    rw [Nat.toDigits_eq_if (n := n) hb, Nat.toDigits_eq_if (n := m) hb] at h
    split at h
    · next hn =>
      split at h
      · next hm => exact digitChar_injOn n (by omega) m (by omega) (List.singleton_inj.mp h)
      · have hlen := congrArg List.length h
        have hpos : 0 < (Nat.toDigits b (m / b)).length := Nat.length_toDigits_pos
        simp only [List.length_append, List.length_singleton] at hlen
        omega
    · next hn =>
      split at h
      · have hlen := congrArg List.length h
        have hpos : 0 < (Nat.toDigits b (n / b)).length := Nat.length_toDigits_pos
        simp only [List.length_append, List.length_singleton] at hlen
        omega
      · obtain ⟨hinit, hlast⟩ := List.append_inj' h rfl
        have hdiv := ih (n / b) (Nat.div_lt_self (by omega) hb) hinit
        have hmod : n % b = m % b := by
          have hn := Nat.mod_lt n (show 0 < b by omega)
          have hm := Nat.mod_lt m (show 0 < b by omega)
          exact digitChar_injOn _ (by omega) _ (by omega) (List.singleton_inj.mp hlast)
        rw [← Nat.div_add_mod n b, hdiv, hmod, Nat.div_add_mod]

theorem toString_nat_injective {n m : ℕ} (h : toString n = toString m) : n = m := by
  refine toDigits_injective (b := 10) (by decide) (by decide) ?_
  have := congrArg String.toList h
  simpa [Nat.toString_eq_repr, Nat.toList_repr] using this

/-- Numbers of at most `k` digits are told apart by them. -/
theorem eq_of_digits {b : ℕ} (hb : 0 < b) : ∀ {k n m : ℕ}, n < b ^ k → m < b ^ k →
    (∀ i < k, n / b ^ i % b = m / b ^ i % b) → n = m
  | 0, n, m, hn, hm, _ => by
      rw [Nat.pow_zero, Nat.lt_one_iff] at hn hm
      rw [hn, hm]
  | k + 1, n, m, hn, hm, h => by
      have hlow : n % b = m % b := by
        have := h 0 (Nat.succ_pos k)
        rwa [Nat.pow_zero, Nat.div_one, Nat.div_one] at this
      have hhigh : n / b = m / b := by
        refine eq_of_digits hb (k := k) ?_ ?_ fun i hi => ?_
        · exact Nat.div_lt_of_lt_mul (by rwa [Nat.pow_succ, Nat.mul_comm] at hn)
        · exact Nat.div_lt_of_lt_mul (by rwa [Nat.pow_succ, Nat.mul_comm] at hm)
        · have := h (i + 1) (Nat.succ_lt_succ hi)
          rwa [Nat.pow_succ, Nat.mul_comm, ← Nat.div_div_eq_div_mul, ← Nat.div_div_eq_div_mul] at this
      rw [← Nat.div_add_mod n b, hhigh, hlow, Nat.div_add_mod]

/-! ### Reading decimals -/

/-- One digit more, as long as the number stays below `bound`. -/
def decimalStep (bound n : ℕ) (c : Char) : Except String ℕ :=
  if c.isDigit then
    let n := n * 10 + (c.toNat - '0'.toNat)
    if n < bound then .ok n else .error "number too large to fit in target type"
  else .error "invalid digit found in string"

/-- `FromStr` of the unsigned integers: digits, with a plus sign in front or not. -/
def parseDecimal (bits : ℕ) (text : String) : Except String ℕ :=
  match text.toList with
  | [] => .error "cannot parse integer from empty string"
  | ['+'] => .error "invalid digit found in string"
  | '+' :: cs => cs.foldlM (decimalStep (2 ^ bits)) 0
  | cs => cs.foldlM (decimalStep (2 ^ bits)) 0

theorem le_ofDigitChars (cs : List Char) (n : ℕ) : n ≤ Nat.ofDigitChars 10 cs n := by
  rw [Nat.ofDigitChars_eq_ofDigitChars_zero]
  exact Nat.le_trans (Nat.le_mul_of_pos_left _ (Nat.pow_pos (by decide))) (Nat.le_add_right _ _)

/-- Digits are read as the number they spell, when it stays below the bound. -/
theorem foldlM_decimalStep_iff {bound m : ℕ} : ∀ {cs : List Char} {n : ℕ}, (∀ c ∈ cs, c.isDigit) →
    n < bound → (cs.foldlM (decimalStep bound) n = .ok m ↔ m = Nat.ofDigitChars 10 cs n ∧ m < bound)
  | [], n, _, hn => by
      rw [List.foldlM_nil, Nat.ofDigitChars_nil]
      constructor
      · intro h
        cases h
        exact ⟨rfl, hn⟩
      · rintro ⟨rfl, _⟩
        rfl
  | c :: cs, n, hdigits, hn => by
      rw [List.foldlM_cons, Nat.ofDigitChars_cons, decimalStep, if_pos (hdigits c List.mem_cons_self),
        Nat.mul_comm n 10]
      by_cases hlt : 10 * n + (c.toNat - '0'.toNat) < bound
      · rw [if_pos hlt]
        exact foldlM_decimalStep_iff (fun c hc => hdigits c (List.mem_cons_of_mem _ hc)) hlt
      · rw [if_neg hlt]
        have hle := le_ofDigitChars cs (10 * n + (c.toNat - '0'.toNat))
        constructor
        · intro h
          cases h
        · rintro ⟨rfl, hm⟩
          exact absurd (Nat.lt_of_le_of_lt hle hm) hlt

/-- A decimal is read as the number it was written for, when the number fits. -/
theorem parseDecimal_toString_iff {bits n m : ℕ} :
    parseDecimal bits (toString n) = .ok m ↔ m = n ∧ n < 2 ^ bits := by
  have hdigits : ∀ c ∈ Nat.toDigits 10 n, c.isDigit := fun c hc =>
    Nat.isDigit_of_mem_toDigits (by decide) (by decide) hc
  have hread : (Nat.toDigits 10 n).foldlM (decimalStep (2 ^ bits)) 0 = .ok m ↔ m = n ∧ n < 2 ^ bits := by
    rw [foldlM_decimalStep_iff hdigits (Nat.two_pow_pos bits), Nat.ofDigitChars_ten_toDigits]
    exact and_congr_right fun h => by rw [h]
  unfold parseDecimal
  rw [Nat.toString_eq_repr, Nat.toList_repr]
  split
  · next hnil => exact absurd hnil Nat.toDigits_ne_nil
  · next hplus =>
    rw [hplus] at hdigits
    exact absurd (hdigits '+' List.mem_cons_self) (by decide)
  · next hplus =>
    rw [hplus] at hdigits
    exact absurd (hdigits '+' List.mem_cons_self) (by decide)
  · exact hread

theorem parseDecimal_toString {bits n : ℕ} (h : n < 2 ^ bits) : parseDecimal bits (toString n) = .ok n :=
  parseDecimal_toString_iff.mpr ⟨rfl, h⟩

/-- Read a decimal without a sign. -/
def readDigits (bits : ℕ) (text : String) : Option ℕ :=
  if text.toList.all Char.isDigit then (parseDecimal bits text).toOption else none

theorem readDigits_toString {bits n : ℕ} (h : n < 2 ^ bits) :
    readDigits bits (toString n) = some n := by
  have hdigits : (toString n).toList.all Char.isDigit = true := by
    rw [List.all_eq_true, Nat.toString_eq_repr, Nat.toList_repr]
    exact fun c hc => Nat.isDigit_of_mem_toDigits (by decide) (by decide) hc
  rw [readDigits, if_pos hdigits, parseDecimal_toString h]
  rfl

theorem readDigits_eq_none {bits : ℕ} {text : String} {c : Char} (hc : c ∈ text.toList)
    (h : c.isDigit = false) : readDigits bits text = none := by
  refine if_neg fun hall => ?_
  rw [List.all_eq_true.mp hall c hc] at h
  cases h

end Text
