import Mathlib.Data.List.Forall2
import Mathlib.Tactic.Linarith

/-! Programs that run on a state and may stop early, keeping the state they had reached.

    `EStateM Fail σ` is that monad: an early exit carries the state at the exit, so what a failed
    run has already done stays done. A `Fail` is either an error, which a caller may log or report,
    or a panic, which nobody below the task boundary catches.

    `Always R x` relates the first and the last state of every run of `x`, failed ones included (a
    frame: what `x` never touches). It is closed under sequencing and loops, so a program's judgment
    is assembled from its commands'. -/

namespace Exec

/-- Why a run stopped: an error with its context chain, outermost first, or a panic. -/
inductive Fail where
  | err (chain : List String)
  | panic (reason : String)
  deriving DecidableEq, Repr

/-- Put one more context line around an error; a panic passes through. -/
def Fail.context (msg : String) : Fail → Fail
  | .err chain => .err (msg :: chain)
  | .panic reason => .panic reason

variable {σ τ α β : Type}

/-- The state a result carries, however the run ended. -/
def final : EStateM.Result Fail σ α → σ
  | .ok _ s => s
  | .error _ s => s

@[simp] theorem final_ok (a : α) (s : σ) : final (.ok a s) = s := rfl
@[simp] theorem final_error (e : Fail) (s : σ) : final (.error e s : EStateM.Result Fail σ α) = s := rfl

/-- Whether a run has returned a value. -/
def returned : EStateM.Result Fail σ α → Bool
  | .ok _ _ => true
  | .error _ _ => false

/-- Whether a run has panicked. -/
def panicked : EStateM.Result Fail σ α → Bool
  | .error (.panic _) _ => true
  | _ => false

theorem panicked_eq_false {r : EStateM.Result Fail σ α}
    (h : ∀ reason s', r ≠ .error (.panic reason) s') : panicked r = false := by
  cases r with
  | ok a s => rfl
  | error e s =>
    cases e with
    | err chain => rfl
    | panic reason => exact absurd rfl (h reason s)

theorem ok_of_returned {x : EStateM Fail σ Unit} {s : σ} (h : returned (x.run s) = true) :
    x.run s = .ok () (final (x.run s)) := by
  cases hr : x.run s with
  | ok a t => rfl
  | error e t => rw [hr] at h; cases h

theorem error_of_not_returned {x : EStateM Fail σ α} {s : σ} (h : returned (x.run s) = false) :
    ∃ e, x.run s = .error e (final (x.run s)) := by
  cases hr : x.run s with
  | ok a t => rw [hr] at h; cases h
  | error e t => exact ⟨e, rfl⟩

/-- `x` with a context line added to its errors. -/
def context (msg : String) (x : EStateM Fail σ α) : EStateM Fail σ α :=
  EStateM.adaptExcept (Fail.context msg) x

/-- Run `x` and carry on after an error; a panic still unwinds. -/
def logged (x : EStateM Fail σ Unit) : EStateM Fail σ Unit := fun s =>
  match x.run s with
  | .error (.err _) s' => .ok () s'
  | r => r

/-- Run `x` on a part of the state, writing the part back however `x` ends. -/
def zoom (get : σ → τ) (put : τ → σ → σ) (x : EStateM Fail τ α) : EStateM Fail σ α := fun s =>
  match x.run (get s) with
  | .ok a t => .ok a (put t s)
  | .error e t => .error e (put t s)

/-- Run `x` unless there is no need to. -/
def skipIf (c : Prop) [Decidable c] (x : EStateM Fail σ Unit) : EStateM Fail σ Unit :=
  if c then pure () else x

/-- A computation that touches no state. -/
def liftE : Except Fail α → EStateM Fail σ α
  | .ok a => pure a
  | .error e => throw e

/-! ### Computations without a state -/

/-- What an option holds, or an error. -/
def okOr (msg : String) : Option α → Except Fail α
  | some a => .ok a
  | none => .error (.err [msg])

/-- What a reader has read; its complaint starts the error chain. -/
def parsed : Except String α → Except Fail α
  | .ok a => .ok a
  | .error msg => .error (.err [msg])

@[simp] theorem okOr_ok_iff {msg : String} {o : Option α} {a : α} : okOr msg o = .ok a ↔ o = some a := by
  cases o <;> simp [okOr]

@[simp] theorem parsed_ok_iff {x : Except String α} {a : α} : parsed x = .ok a ↔ x = .ok a := by
  cases x <;> simp [parsed]

section
variable {ε : Type}

@[simp] theorem mapError_ok_iff {ε' : Type} {f : ε → ε'} {x : Except ε α} {a : α} :
    x.mapError f = .ok a ↔ x = .ok a := by
  cases x <;> simp [Except.mapError]

@[simp] theorem except_ok_bind (a : α) (f : α → Except ε β) : ((.ok a : Except ε α) >>= f) = f a := rfl

theorem except_bind_ok_iff {x : Except ε α} {f : α → Except ε β} {b : β} :
    (x >>= f) = .ok b ↔ ∃ a, x = .ok a ∧ f a = .ok b := by
  cases x with
  | error e => simp [bind, Except.bind]
  | ok a => simp [bind, Except.bind]

/-- `mapM` returns a value for every element, in order. -/
theorem mapM_ok_iff {f : α → Except ε β} : ∀ {l : List α} {l' : List β},
    l.mapM f = .ok l' ↔ List.Forall₂ (fun a b => f a = .ok b) l l'
  | [], l' => by
      rw [List.mapM_nil, List.forall₂_nil_left_iff]
      exact ⟨fun h => (Except.ok.inj h).symm, fun h => h ▸ rfl⟩
  | a :: l, l' => by
      simp only [List.mapM_cons, except_bind_ok_iff, List.forall₂_cons_left_iff, mapM_ok_iff]
      constructor
      · rintro ⟨b, hb, bs, hbs, hl'⟩
        exact ⟨b, bs, hb, hbs, (Except.ok.inj hl').symm⟩
      · rintro ⟨b, bs, hb, hbs, rfl⟩
        exact ⟨b, hb, bs, hbs, rfl⟩

/-- In `Option`, too, there is a value for every element, or none at all. -/
theorem mapM_some_iff {f : α → Option β} : ∀ {l : List α} {l' : List β},
    l.mapM f = some l' ↔ l.map f = l'.map some
  | [], l' => by
      rw [List.mapM_nil, List.map_nil, eq_comm (a := []), List.map_eq_nil_iff]
      exact ⟨fun h => (Option.some.inj h).symm, fun h => h ▸ rfl⟩
  | a :: l, [] => by
      rw [List.mapM_cons]
      cases f a <;> cases l.mapM f <;> simp
  | a :: l, b :: l' => by
      rw [List.mapM_cons, List.map_cons, List.map_cons, List.cons.injEq, ← mapM_some_iff]
      cases f a <;> cases l.mapM f <;> simp

theorem mapM_some_mem {f : α → Option β} {l : List α} {l' : List β} (h : l.mapM f = some l') {a : α}
    (ha : a ∈ l) : ∃ b ∈ l', f a = some b := by
  have hmem := List.mem_map_of_mem (f := f) ha
  rw [mapM_some_iff.mp h] at hmem
  obtain ⟨b, hb, heq⟩ := List.mem_map.mp hmem
  exact ⟨b, hb, heq.symm⟩

theorem exists_mapM_some {f : α → Option β} {l : List α} (h : ∀ a ∈ l, (f a).isSome) :
    ∃ l', l.mapM f = some l' := by
  refine ⟨l.filterMap f, mapM_some_iff.mpr ?_⟩
  rw [List.map_filterMap_some_eq_filter_map_isSome, List.filter_eq_self.mpr (by simpa using h)]

/-- Every value comes from an element. -/
theorem mapM_ok_mem {f : α → Except ε β} {b : β} : ∀ {l : List α} {l' : List β},
    l.mapM f = .ok l' → b ∈ l' → ∃ a ∈ l, f a = .ok b := by
  intro l l' h hb
  have hall := mapM_ok_iff.mp h
  induction hall with
  | nil => cases hb
  | @cons a b' l l' hf hrest ih =>
    rcases List.mem_cons.mp hb with rfl | hb
    · exact ⟨a, List.mem_cons_self, hf⟩
    · obtain ⟨a', ha', hf'⟩ := ih (mapM_ok_iff.mpr hrest) hb
      exact ⟨a', List.mem_cons_of_mem _ ha', hf'⟩

end

/-! ### Reading a successful run -/

theorem pure_ok_iff {a b : α} {s s' : σ} :
    (pure a : EStateM Fail σ α).run s = .ok b s' ↔ a = b ∧ s = s' := by
  simp

theorem bind_of_ok {x : EStateM Fail σ α} {f : α → EStateM Fail σ β} {s t : σ} {a : α}
    (h : x.run s = .ok a t) : (x >>= f).run s = (f a).run t := by
  simp only [EStateM.run_bind, h]

theorem bind_of_error {x : EStateM Fail σ α} {f : α → EStateM Fail σ β} {s t : σ} {e : Fail}
    (h : x.run s = .error e t) : (x >>= f).run s = .error e t := by
  simp only [EStateM.run_bind, h]

theorem bind_ok_iff {x : EStateM Fail σ α} {f : α → EStateM Fail σ β} {s s' : σ} {b : β} :
    (x >>= f).run s = .ok b s' ↔ ∃ a t, x.run s = .ok a t ∧ (f a).run t = .ok b s' := by
  cases hr : x.run s with
  | ok a t => simp [bind_of_ok hr]
  | error e t => simp [bind_of_error hr]

/-- A sequence that stopped did so in its first part or in its second. -/
theorem bind_error_iff {x : EStateM Fail σ α} {f : α → EStateM Fail σ β} {s s' : σ} {e : Fail} :
    (x >>= f).run s = .error e s' ↔
      x.run s = .error e s' ∨ ∃ a t, x.run s = .ok a t ∧ (f a).run t = .error e s' := by
  cases hr : x.run s with
  | ok a t => simp [bind_of_ok hr]
  | error e t => simp [bind_of_error hr]

theorem context_ok_iff {msg : String} {x : EStateM Fail σ α} {s s' : σ} {a : α} :
    (context msg x).run s = .ok a s' ↔ x.run s = .ok a s' := by
  cases hr : x.run s <;> simp [context, hr]

theorem throw_ok_iff {e : Fail} {s s' : σ} {a : α} :
    (throw e : EStateM Fail σ α).run s = .ok a s' ↔ False := by
  show EStateM.Result.error e s = .ok a s' ↔ False
  simp

theorem skipIf_ok_iff {c : Prop} [Decidable c] {x : EStateM Fail σ Unit} {s s' : σ} :
    (skipIf c x).run s = .ok () s' ↔ c ∧ s = s' ∨ ¬c ∧ x.run s = .ok () s' := by
  unfold skipIf
  split
  · next h => simp [h]
  · next h => simp [h]

theorem liftE_ok_iff {x : Except Fail α} {s s' : σ} {a : α} :
    (liftE x : EStateM Fail σ α).run s = .ok a s' ↔ x = .ok a ∧ s = s' := by
  cases x with
  | ok b => simp [liftE]
  | error e => exact throw_ok_iff.trans (by simp)

theorem logged_ok_iff {x : EStateM Fail σ Unit} {s s' : σ} :
    (logged x).run s = .ok () s' ↔
      x.run s = .ok () s' ∨ ∃ chain, x.run s = .error (.err chain) s' := by
  cases hr : x.run s with
  | ok a t => simp [logged, EStateM.run, show x s = .ok a t from hr]
  | error e t => cases e <;> simp [logged, EStateM.run, show x s = .error _ t from hr]

/-- A loop that stopped did so at one of its elements, after those before it. -/
theorem forM_error {f : β → EStateM Fail σ PUnit} {e : Fail} {t : σ} :
    ∀ {l : List β} {s : σ}, (forM l f).run s = .error e t →
      ∃ before b after u, l = before ++ b :: after ∧ (forM before f).run s = .ok ⟨⟩ u ∧
        (f b).run u = .error e t
  | [], _, h => by cases h
  | b :: l, s, h => by
      rw [List.forM_cons] at h
      cases hb : (f b).run s with
      | ok a u =>
        rw [bind_of_ok hb] at h
        obtain ⟨before, c, after, v, rfl, hbefore, hc⟩ := forM_error h
        refine ⟨b :: before, c, after, v, rfl, ?_, hc⟩
        rw [List.forM_cons, bind_of_ok hb]
        exact hbefore
      | error e' u =>
        rw [bind_of_error hb] at h
        cases h
        exact ⟨[], b, l, s, rfl, rfl, hb⟩

/-- A loop that went through went through each of its elements, after those before it. -/
theorem forM_split {f : β → EStateM Fail σ PUnit} {t : σ} :
    ∀ {l : List β} {s : σ}, (forM l f).run s = .ok ⟨⟩ t → ∀ b ∈ l,
      ∃ before after u v, l = before ++ b :: after ∧ (forM before f).run s = .ok ⟨⟩ u ∧
        (f b).run u = .ok ⟨⟩ v ∧ (forM after f).run v = .ok ⟨⟩ t
  | [], _, _, _, hb => by cases hb
  | c :: l, s, h, b, hb => by
      rw [List.forM_cons] at h
      obtain ⟨_, u, hc, hl⟩ := bind_ok_iff.mp h
      rcases List.mem_cons.mp hb with rfl | hb
      · exact ⟨[], l, s, u, rfl, rfl, hc, hl⟩
      · obtain ⟨before, after, v, v', rfl, hbefore, hrun, hafter⟩ := forM_split hl b hb
        refine ⟨c :: before, after, v, v', rfl, ?_, hrun, hafter⟩
        rw [List.forM_cons, bind_of_ok hc]
        exact hbefore

/-- A panic comes out of `logged` as it came in. -/
theorem logged_panic_iff {x : EStateM Fail σ Unit} {s s' : σ} {reason : String} :
    (logged x).run s = .error (.panic reason) s' ↔ x.run s = .error (.panic reason) s' := by
  cases hr : x.run s with
  | ok a t => simp [logged, EStateM.run, show x s = .ok a t from hr]
  | error e t => cases e <;> simp [logged, EStateM.run, show x s = .error _ t from hr]

/-- Logged errors do not come out. -/
theorem logged_ne_err (x : EStateM Fail σ Unit) (s t : σ) (chain : List String) :
    (logged x).run s ≠ .error (.err chain) t := by
  intro h
  simp only [logged, EStateM.run] at h
  cases hx : x s with
  | ok a u => simp [hx] at h
  | error e u => cases e <;> simp [hx] at h

/-- Nor do they come out of a loop. -/
theorem forM_logged_ne_err (f : β → EStateM Fail σ Unit) (chain : List String) (t : σ) :
    ∀ (l : List β) (s : σ), (forM l fun b => logged (f b)).run s ≠ .error (.err chain) t
  | [], _, h => by cases h
  | b :: l, s, h => by
      rw [List.forM_cons] at h
      cases hb : (logged (f b)).run s with
      | ok a u =>
        rw [bind_of_ok hb] at h
        exact forM_logged_ne_err f chain t l u h
      | error e u =>
        rw [bind_of_error hb] at h
        cases h
        exact logged_ne_err (f b) s t chain hb

theorem zoom_run (get : σ → τ) (put : τ → σ → σ) (x : EStateM Fail τ α) (s : σ) :
    (zoom get put x).run s =
      match x.run (get s) with
      | .ok a t => .ok a (put t s)
      | .error e t => .error e (put t s) := rfl

theorem logged_zoom (get : σ → τ) (put : τ → σ → σ) (x : EStateM Fail τ Unit) (s : σ) :
    (logged (zoom get put x)).run s = (zoom get put (logged x)).run s := by
  simp only [logged, EStateM.run, zoom]
  cases x (get s) with
  | ok a t => rfl
  | error e t => cases e <;> rfl

theorem zoom_ok_iff {get : σ → τ} {put : τ → σ → σ} {x : EStateM Fail τ α} {s s' : σ} {a : α} :
    (zoom get put x).run s = .ok a s' ↔ ∃ t, x.run (get s) = .ok a t ∧ put t s = s' := by
  rw [zoom_run]
  cases x.run (get s) <;> simp

theorem zoom_error_iff {get : σ → τ} {put : τ → σ → σ} {x : EStateM Fail τ α} {s s' : σ}
    {e : Fail} :
    (zoom get put x).run s = .error e s' ↔ ∃ t, x.run (get s) = .error e t ∧ put t s = s' := by
  rw [zoom_run]
  cases x.run (get s) <;> simp

/-! ### What every run keeps -/

/-- Every run of `x`, failed or not, ends in a state that `R` relates to its first one. -/
def Always (R : σ → σ → Prop) (x : EStateM Fail σ α) : Prop := ∀ s, R s (final (x.run s))

section Always
variable {R : σ → σ → Prop}

/-- What always holds holds of a run that stopped. -/
theorem Always.of_error {x : EStateM Fail σ α} (hx : Always R x) {s s' : σ} {e : Fail}
    (h : x.run s = .error e s') : R s s' := by
  have := hx s
  rwa [h] at this

/-- And of a run that returned. -/
theorem Always.of_ok {x : EStateM Fail σ α} (hx : Always R x) {s s' : σ} {a : α}
    (h : x.run s = .ok a s') : R s s' := by
  have := hx s
  rwa [h] at this

theorem Always.pure [Std.Refl R] (a : α) : Always R (pure a : EStateM Fail σ α) :=
  fun s => Std.Refl.refl s

theorem Always.throw [Std.Refl R] (e : Fail) : Always R (throw e : EStateM Fail σ α) :=
  fun s => Std.Refl.refl s

theorem Always.bind [IsTrans σ R] {x : EStateM Fail σ α} {f : α → EStateM Fail σ β}
    (hx : Always R x) (hf : ∀ a, Always R (f a)) : Always R (x >>= f) := by
  intro s
  have h := hx s
  cases hr : x.run s with
  | ok a t =>
    rw [hr] at h
    rw [bind_of_ok hr]
    exact IsTrans.trans _ _ _ h (hf a t)
  | error e t =>
    rw [hr] at h
    rw [bind_of_error hr]
    exact h

theorem Always.mono {S : σ → σ → Prop} {x : EStateM Fail σ α} (h : ∀ s s', R s s' → S s s')
    (hx : Always R x) : Always S x := fun s => h _ _ (hx s)

theorem Always.context {x : EStateM Fail σ α} (msg : String) (hx : Always R x) :
    Always R (context msg x) := by
  intro s
  have h := hx s
  cases hr : x.run s <;> rw [hr] at h <;> simpa [Exec.context, hr] using h

theorem Always.skipIf [Std.Refl R] {c : Prop} [Decidable c] {x : EStateM Fail σ Unit}
    (hx : Always R x) : Always R (skipIf c x) := by
  unfold Exec.skipIf
  split
  · exact Always.pure ()
  · exact hx

theorem Always.liftE [Std.Refl R] (x : Except Fail α) : Always R (liftE x : EStateM Fail σ α) := by
  cases x with
  | ok a => exact Always.pure a
  | error e => exact Always.throw e

theorem Always.logged {x : EStateM Fail σ Unit} (hx : Always R x) : Always R (logged x) := by
  intro s
  have h := hx s
  simp only [Exec.logged, EStateM.run] at h ⊢
  cases hr : x s with
  | ok a t => simpa [hr] using h
  | error e t => cases e <;> simpa [hr] using h

theorem Always.zoom {S : τ → τ → Prop} {get : σ → τ} {put : τ → σ → σ} {x : EStateM Fail τ α}
    (hput : ∀ s t, S (get s) t → R s (put t s)) (hx : Always S x) : Always R (zoom get put x) := by
  intro s
  have h := hx (get s)
  rw [zoom_run]
  cases hr : x.run (get s) <;> rw [hr] at h <;> exact hput s _ h

theorem Always.forM [Std.Refl R] [IsTrans σ R] {f : β → EStateM Fail σ PUnit} :
    ∀ {l : List β}, (∀ b ∈ l, Always R (f b)) → Always R (forM l f)
  | [], _ => Always.pure _
  | b :: _, h => Always.bind (h b List.mem_cons_self) fun _ =>
      Always.forM fun c hc => h c (List.mem_cons_of_mem _ hc)

end Always

/-! ### What runs add up to -/

/-- Relations indexed by lists that compose as the lists do; what stopped early is a run of a longer
    list all the same. -/
structure Graded {ι : Type} (R : List ι → σ → σ → Prop) : Prop where
  nil : ∀ s, R [] s s
  append : ∀ {a b s t u}, R a s t → R b t u → R (a ++ b) s u
  early : ∀ {a s t} (b : List ι), R a s t → R (a ++ b) s t

section Graded
variable {ι : Type} {R : List ι → σ → σ → Prop} (hR : Graded R)
include hR

theorem Graded.bind {a b : List ι} {x : EStateM Fail σ α} {f : α → EStateM Fail σ β}
    (hx : Always (R a) x) (hf : ∀ v, Always (R b) (f v)) : Always (R (a ++ b)) (x >>= f) := by
  intro s
  have h := hx s
  cases hr : x.run s with
  | ok v t =>
    rw [hr] at h
    rw [bind_of_ok hr]
    exact hR.append h (hf v t)
  | error e t =>
    rw [hr] at h
    rw [bind_of_error hr]
    exact hR.early b h

theorem Graded.forM {f : β → EStateM Fail σ PUnit} {of : β → List ι} :
    ∀ {l : List β}, (∀ b ∈ l, Always (R (of b)) (f b)) → Always (R (l.flatMap of)) (forM l f)
  | [], _ => hR.nil
  | b :: _, h => hR.bind (h b List.mem_cons_self) fun _ =>
      Graded.forM fun c hc => h c (List.mem_cons_of_mem _ hc)

end Graded

/-! ### Runs without panics -/

/-- No run of `x` panics. -/
def Calm (x : EStateM Fail σ α) : Prop := ∀ s reason s', x.run s ≠ .error (.panic reason) s'

theorem Calm.bind {x : EStateM Fail σ α} {f : α → EStateM Fail σ β} (hx : Calm x)
    (hf : ∀ a, Calm (f a)) : Calm (x >>= f) := by
  intro s reason s' h
  cases hr : x.run s with
  | ok a t =>
    rw [bind_of_ok hr] at h
    exact hf a t reason s' h
  | error e t =>
    rw [bind_of_error hr] at h
    cases h
    exact hx s reason s' hr

theorem Calm.pure (a : α) : Calm (pure a : EStateM Fail σ α) := fun _ _ _ h => by cases h

theorem Calm.context {x : EStateM Fail σ α} (msg : String) (hx : Calm x) :
    Calm (context msg x) := by
  intro s reason s' h
  cases hr : x.run s with
  | ok a t => simp [Exec.context, hr] at h
  | error e t =>
    cases e with
    | err chain => simp [Exec.context, hr, Fail.context] at h
    | panic r => exact hx s r t hr

theorem Calm.skipIf {c : Prop} [Decidable c] {x : EStateM Fail σ Unit} (hx : Calm x) :
    Calm (skipIf c x) := by
  unfold Exec.skipIf
  split
  · exact Calm.pure ()
  · exact hx

/-- A computation that touches no state panics only by itself. -/
theorem Calm.liftE {x : Except Fail α} (hx : ∀ reason, x ≠ .error (.panic reason)) :
    Calm (liftE x : EStateM Fail σ α) := by
  intro s reason s' h
  cases x with
  | ok a => cases h
  | error e =>
    cases h
    exact hx reason rfl

theorem Calm.logged {x : EStateM Fail σ Unit} (hx : Calm x) : Calm (logged x) := by
  intro s reason s' h
  simp only [Exec.logged, EStateM.run] at h
  cases hr : x s with
  | ok a t => simp [hr] at h
  | error e t =>
    cases e with
    | err chain => simp [hr] at h
    | panic r =>
      simp only [hr] at h
      exact hx s reason s' (hr.trans h)

theorem Calm.zoom {get : σ → τ} {put : τ → σ → σ} {x : EStateM Fail τ α} (hx : Calm x) :
    Calm (zoom get put x) := by
  intro s reason s' h
  rw [zoom_run] at h
  cases hr : x.run (get s) with
  | ok a t => simp [hr] at h
  | error e t =>
    simp only [hr] at h
    cases h
    exact hx (get s) reason t hr

theorem Calm.forM {f : β → EStateM Fail σ PUnit} :
    ∀ {l : List β}, (∀ b ∈ l, Calm (f b)) → Calm (forM l f)
  | [], _ => fun _ _ _ h => by cases h
  | b :: _, h => Calm.bind (h b List.mem_cons_self) fun _ =>
      Calm.forM fun c hc => h c (List.mem_cons_of_mem _ hc)

end Exec
