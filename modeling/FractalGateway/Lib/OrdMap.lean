import Mathlib.Data.List.Induction
import Mathlib.Tactic.Linarith

/-! Ordered maps as `Std.ExtTreeMap`, read through lookups.

    The keys of a map are compared by an injective image of theirs (`compareOn`), and every update
    is described by the lookup it leaves behind, with the key test an equation rather than an
    `Ordering`. Two maps are equal when their lookups are. A map filled item by item, each item going
    to the value of its key, holds for every key what the items of that key make (`get_gather`). -/

namespace OrdMap
open Std

variable {α β γ : Type} {cmp : α → α → Ordering}

/-- Comparing through an injective function is a lawful order. -/
theorem lawfulEqCmp_compareOn [Ord γ] [LawfulEqOrd γ] {f : α → γ} (hf : Function.Injective f) :
    LawfulEqCmp (compareOn f : α → α → Ordering) where
  compare_self := Std.ReflCmp.compare_self
  eq_of_compare h := hf (LawfulEqCmp.eq_of_compare h)

variable [TransCmp cmp]

@[simp] theorem get_empty (a : α) : (∅ : ExtTreeMap α β cmp)[a]? = none :=
  ExtTreeMap.getElem?_empty

theorem mem_iff_get (t : ExtTreeMap α β cmp) (a : α) : a ∈ t ↔ ∃ v, t[a]? = some v := by
  rw [ExtTreeMap.mem_iff_isSome_getElem?, Option.isSome_iff_exists]

theorem not_mem_iff_get (t : ExtTreeMap α β cmp) (a : α) : a ∉ t ↔ t[a]? = none := by
  rw [ExtTreeMap.mem_iff_isSome_getElem?, Bool.not_eq_true, Option.isSome_eq_false_iff,
    Option.isNone_iff_eq_none]

variable [LawfulEqCmp cmp]

@[simp] theorem get_insert (t : ExtTreeMap α β cmp) (k a : α) (v : β) [DecidableEq α] :
    (t.insert k v)[a]? = if k = a then some v else t[a]? := by
  rw [ExtTreeMap.getElem?_insert]
  simp only [LawfulEqCmp.compare_eq_iff_eq]

@[simp] theorem get_erase (t : ExtTreeMap α β cmp) (k a : α) [DecidableEq α] :
    (t.erase k)[a]? = if k = a then none else t[a]? := by
  rw [ExtTreeMap.getElem?_erase]
  simp only [LawfulEqCmp.compare_eq_iff_eq]

theorem mem_insert (t : ExtTreeMap α β cmp) (k a : α) (v : β) :
    a ∈ t.insert k v ↔ k = a ∨ a ∈ t := by
  rw [ExtTreeMap.mem_insert, LawfulEqCmp.compare_eq_iff_eq]

theorem mem_erase (t : ExtTreeMap α β cmp) (k a : α) : a ∈ t.erase k ↔ k ≠ a ∧ a ∈ t := by
  rw [ExtTreeMap.mem_erase, ne_eq, LawfulEqCmp.compare_eq_iff_eq]

theorem mem_toList_iff (t : ExtTreeMap α β cmp) (a : α) (v : β) :
    (a, v) ∈ t.toList ↔ t[a]? = some v :=
  ExtTreeMap.mem_toList_iff_getElem?_eq_some

/-- A map lists each key once. -/
theorem toList_pairwise (t : ExtTreeMap α β cmp) : t.toList.Pairwise fun a b => a.1 ≠ b.1 :=
  t.distinct_keys_toList.imp fun h heq => h (by rw [heq]; exact ReflCmp.compare_self)

/-- Going through the list of a map finds what is under a key. -/
theorem findSome_toList [DecidableEq α] (t : ExtTreeMap α β cmp) (k : α) (f : β → γ) :
    (t.toList.findSome? fun e => if e.1 = k then some (f e.2) else none) = t[k]?.map f := by
  cases hk : t[k]? with
  | none =>
    refine List.findSome?_eq_none_iff.mpr fun e he => if_neg fun heq => ?_
    have hget := (mem_toList_iff t e.1 e.2).mp he
    rw [heq, hk] at hget
    cases hget
  | some v =>
    have hmem := (mem_toList_iff t k v).mpr hk
    have hothers : ∀ e ∈ t.toList, e.1 = k → e.2 = v := by
      intro e he heq
      have hget := (mem_toList_iff t e.1 e.2).mp he
      rw [heq, hk] at hget
      exact (Option.some.inj hget).symm
    cases hfind : t.toList.findSome? fun e => if e.1 = k then some (f e.2) else none with
    | none =>
      have hnone := List.findSome?_eq_none_iff.mp hfind (k, v) hmem
      rw [if_pos rfl] at hnone
      cases hnone
    | some x =>
      obtain ⟨e, he, hx⟩ := List.exists_of_findSome?_eq_some hfind
      split at hx
      · next heq => rw [Option.map_some, ← Option.some.inj hx, hothers e he heq]
      · cases hx

/-- `entry(k).or_insert(d)` followed by an update of the slot in place. -/
def upsert (t : ExtTreeMap α β cmp) (k : α) (d : β) (f : β → β) : ExtTreeMap α β cmp :=
  t.insert k (f (t[k]?.getD d))

@[simp] theorem get_upsert (t : ExtTreeMap α β cmp) (k a : α) (d : β) (f : β → β)
    [DecidableEq α] :
    (upsert t k d f)[a]? = if k = a then some (f (t[k]?.getD d)) else t[a]? :=
  get_insert t k a _

@[simp] theorem get_modify (t : ExtTreeMap α β cmp) (k a : α) (f : β → β) [DecidableEq α] :
    (t.modify k f)[a]? = if k = a then t[a]?.map f else t[a]? := by
  rw [ExtTreeMap.getElem?_modify]
  split
  · next h => rw [if_pos (LawfulEqCmp.eq_of_compare h), LawfulEqCmp.eq_of_compare h]
  · next h => rw [if_neg fun hk => h (LawfulEqCmp.compare_eq_iff_eq.mpr hk)]

@[simp] theorem get_filter (t : ExtTreeMap α β cmp) (a : α) (p : α → β → Bool) :
    (t.filter p)[a]? = t[a]?.filter (p a) :=
  ExtTreeMap.getElem?_filter'

/-! ### Maps that agree through a view of their values -/

/-- The maps hold the same under every key, as far as `f` shows it. -/
def AgreeBy (f : β → γ) (s t : ExtTreeMap α β cmp) : Prop :=
  ∀ a : α, s[a]?.map f = t[a]?.map f

section
variable {f : β → γ} {s t : ExtTreeMap α β cmp}

theorem AgreeBy.map_eq (h : AgreeBy f s t) : (s.map fun _ v => f v) = t.map fun _ v => f v := by
  refine ExtTreeMap.ext_getElem? fun a => ?_
  rw [ExtTreeMap.getElem?_map, ExtTreeMap.getElem?_map, h a]

theorem AgreeBy.keys (h : AgreeBy f s t) : s.keys = t.keys := by
  rw [← ExtTreeMap.keys_map (t := s) (f := fun _ v => f v), h.map_eq, ExtTreeMap.keys_map]

/-- What is made of the entries through the view is the same. -/
theorem AgreeBy.toList_map {δ : Type} (h : AgreeBy f s t) (g : α × γ → δ) :
    (s.toList.map fun e => g (e.1, f e.2)) = t.toList.map fun e => g (e.1, f e.2) := by
  have hlist := congrArg ExtTreeMap.toList h.map_eq
  rw [ExtTreeMap.toList_map, ExtTreeMap.toList_map] at hlist
  have hmap := congrArg (List.map g) hlist
  rwa [List.map_map, List.map_map] at hmap

theorem AgreeBy.insert [DecidableEq α] (h : AgreeBy f s t) (k : α) {v v' : β} (hv : f v = f v') :
    AgreeBy f (s.insert k v) (t.insert k v') := by
  intro a
  rw [get_insert, get_insert]
  by_cases hk : k = a
  · rw [if_pos hk, if_pos hk, Option.map_some, Option.map_some, hv]
  · rw [if_neg hk, if_neg hk, h a]

theorem AgreeBy.erase [DecidableEq α] (h : AgreeBy f s t) (k : α) :
    AgreeBy f (s.erase k) (t.erase k) := by
  intro a
  rw [get_erase, get_erase]
  by_cases hk : k = a
  · rw [if_pos hk, if_pos hk]
  · rw [if_neg hk, if_neg hk, h a]

end

/-! ### Items gathered by key -/

/-- Every item goes to the value of its key, which starts as `d`. -/
def gather (key : γ → α) (d : β) (step : β → γ → β) (items : List γ) :
    ExtTreeMap α β cmp :=
  items.foldl (fun t c => upsert t (key c) d (step · c)) ∅

/-- The value of a key is made from the items of that key, in order. -/
theorem get_gather [DecidableEq α] (key : γ → α) (d : β) (step : β → γ → β) (items : List γ) (k : α) :
    (gather key d step items : ExtTreeMap α β cmp)[k]? =
      if items.filter (fun c => decide (key c = k)) = [] then none
      else some ((items.filter fun c => decide (key c = k)).foldl step d) := by
  induction items using List.reverseRecOn with
  | nil => simp [gather]
  | append_singleton items c ih =>
    have hstep : (gather key d step (items ++ [c]) : ExtTreeMap α β cmp) =
        upsert (gather key d step items) (key c) d (step · c) := by
      simp [gather, List.foldl_append]
    rw [hstep, get_upsert, List.filter_append]
    by_cases hk : key c = k
    · subst hk
      rw [if_pos rfl, ih]
      by_cases hnil : items.filter (fun d => decide (key d = key c)) = []
      · simp [hnil]
      · simp [hnil, List.foldl_append]
    · rw [if_neg hk, ih]
      simp [hk]

/-! ### Sums over the values -/

/-- The list of a map, with one key taken out in front. -/
theorem toList_perm_erase [DecidableEq α] (t : ExtTreeMap α β cmp) (k : α) :
    t.toList.Perm ((t[k]?.map fun v => (k, v)).toList ++ (t.erase k).toList) := by
  have hnd : ∀ t : ExtTreeMap α β cmp, t.toList.Nodup := fun t =>
    (toList_pairwise t).imp fun h heq => h (congrArg Prod.fst heq)
  rw [List.perm_ext_iff_of_nodup (hnd t)]
  · rintro ⟨a, v⟩
    rw [List.mem_append, mem_toList_iff, mem_toList_iff, get_erase, Option.mem_toList,
      Option.map_eq_some_iff]
    by_cases hk : k = a
    · subst hk
      simp
    · simp [hk]
  · rw [List.nodup_append]
    refine ⟨by cases t[k]? <;> simp, hnd _, ?_⟩
    rintro a ha b hb rfl
    obtain ⟨v, _, rfl⟩ := Option.map_eq_some_iff.mp (Option.mem_toList.mp ha)
    rw [mem_toList_iff, get_erase, if_pos rfl] at hb
    cases hb

/-- The sum of a weight over the values of a map. -/
def total (f : β → ℕ) (t : ExtTreeMap α β cmp) : ℕ := (t.toList.map fun e => f e.2).sum

omit [LawfulEqCmp cmp] in
theorem total_empty (f : β → ℕ) : total f (∅ : ExtTreeMap α β cmp) = 0 := by
  rfl

theorem total_erase [DecidableEq α] (f : β → ℕ) (t : ExtTreeMap α β cmp) (k : α) :
    total f t = (t[k]?.map f).getD 0 + total f (t.erase k) := by
  rw [total, ((toList_perm_erase t k).map _).sum_nat, List.map_append, List.sum_append, total]
  cases t[k]? <;> simp

/-- A map that holds the sums of some items by key holds their whole sum. -/
theorem total_eq_sum [DecidableEq α] {f : β → ℕ} {key : γ → α} {amount : γ → ℕ} {items : List γ} :
    ∀ {t : ExtTreeMap α β cmp}, (∀ k, t[k]?.map f =
        if items.filter (fun c => decide (key c = k)) = [] then none
        else some ((items.filter fun c => decide (key c = k)).map amount).sum) →
      total f t = (items.map amount).sum := by
  -- the items of one key after the other
  induction hn : items.length using Nat.strongRecOn generalizing items with
  | _ n ih =>
    intro t h
    cases items with
    | nil =>
      have hempty : t = ∅ := ExtTreeMap.ext_getElem? fun a => by simpa using h a
      rw [hempty, total_empty]
      rfl
    | cons c cs =>
      have hrest : total f (t.erase (key c)) =
          (((c :: cs).filter fun d => !decide (key d = key c)).map amount).sum := by
        refine ih _ ?_ rfl fun k => ?_
        · rw [← hn]
          exact List.length_filter_lt_length_iff_exists.mpr ⟨c, List.mem_cons_self, by simp⟩
        · rw [get_erase, List.filter_filter]
          by_cases hk : key c = k
          · subst hk
            simp
          · have hsame : (c :: cs).filter (fun d => decide (key d = k) && !decide (key d = key c)) =
                (c :: cs).filter fun d => decide (key d = k) := by
              refine List.filter_congr fun d _ => ?_
              by_cases hd : key d = k
              · simp [hd, Ne.symm hk]
              · simp [hd]
            rw [if_neg hk, hsame]
            exact h k
      have hown : (c :: cs).filter (fun d => decide (key d = key c)) ≠ [] := by simp
      rw [total_erase f t (key c), h, if_neg hown, hrest, Option.getD_some, ← List.sum_append,
        ← List.map_append]
      exact ((List.filter_append_perm _ _).map amount).sum_nat

/-- Values that weigh what their items amount to weigh as much as all items together. -/
theorem total_gather [DecidableEq α] {f : β → ℕ} {key : γ → α} {d : β} {step : β → γ → β}
    {amount : γ → ℕ} {items : List γ}
    (h : ∀ k, f ((items.filter fun c => decide (key c = k)).foldl step d) =
      ((items.filter fun c => decide (key c = k)).map amount).sum) :
    total f (gather key d step items : ExtTreeMap α β cmp) = (items.map amount).sum := by
  have hvalues : ∀ k, (gather key d step items : ExtTreeMap α β cmp)[k]?.map f =
      if items.filter (fun c => decide (key c = k)) = [] then none
      else some ((items.filter fun c => decide (key c = k)).map amount).sum := by
    intro k
    rw [get_gather]
    split
    · rfl
    · rw [Option.map_some, h k]
  exact total_eq_sum hvalues

end OrdMap
