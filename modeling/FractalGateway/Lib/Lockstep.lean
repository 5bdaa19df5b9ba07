import FractalGateway.Lib.Exec

/-! Two runs side by side.

    `Lockstep R x y` says that from `R`-related states `x` and `y` end the same way, with the same
    value or the same failure, in `R`-related states. It is the relational counterpart of `Always`
    and is assembled in the same way, following the text of the program: a secret that no command
    on the way to a result looks at cannot show in the result.

    `Alike P x y` is for two programs on one state: wherever `P` holds they cannot be told apart. -/

namespace Exec

variable {σ τ α β : Type} {R : σ → τ → Prop}

/-- Two results that agree but for their states, which are related. -/
inductive Parallel (R : σ → τ → Prop) :
    EStateM.Result Fail σ α → EStateM.Result Fail τ α → Prop
  | ok (a : α) {s : σ} {t : τ} (h : R s t) : Parallel R (.ok a s) (.ok a t)
  | error (e : Fail) {s : σ} {t : τ} (h : R s t) : Parallel R (.error e s) (.error e t)

/-- From related states `x` and `y` end alike, in related states. -/
def Lockstep (R : σ → τ → Prop) (x : EStateM Fail σ α) (y : EStateM Fail τ α) : Prop :=
  ∀ s t, R s t → Parallel R (x.run s) (y.run t)

theorem Lockstep.pure (a : α) :
    Lockstep R (pure a : EStateM Fail σ α) (pure a : EStateM Fail τ α) :=
  fun _ _ h => .ok a h

theorem Lockstep.throw (e : Fail) :
    Lockstep R (throw e : EStateM Fail σ α) (throw e : EStateM Fail τ α) :=
  fun _ _ h => .error e h

theorem Lockstep.modify {f : σ → σ} {f' : τ → τ} (hf : ∀ s t, R s t → R (f s) (f' t)) :
    Lockstep R (modify f : EStateM Fail σ PUnit) (modify f' : EStateM Fail τ PUnit) :=
  fun s t h => .ok () (hf s t h)

/-- Programs that read the state first are compared from there. -/
theorem Lockstep.get {f : σ → EStateM Fail σ α} {f' : τ → EStateM Fail τ α}
    (hf : ∀ s t, R s t → Parallel R ((f s).run s) ((f' t).run t)) :
    Lockstep R (get >>= f) (get >>= f') :=
  fun s t h => hf s t h

theorem Lockstep.bind {x : EStateM Fail σ α} {y : EStateM Fail τ α} {f : α → EStateM Fail σ β}
    {f' : α → EStateM Fail τ β} (hx : Lockstep R x y) (hf : ∀ a, Lockstep R (f a) (f' a)) :
    Lockstep R (x >>= f) (y >>= f') := by
  intro s t h
  have hxy := hx s t h
  generalize hr : x.run s = r at hxy
  generalize hq : y.run t = q at hxy
  cases hxy with
  | ok a h' =>
    rw [bind_of_ok hr, bind_of_ok hq]
    exact hf a _ _ h'
  | error e h' =>
    rw [bind_of_error hr, bind_of_error hq]
    exact .error e h'

theorem Lockstep.logged {x : EStateM Fail σ Unit} {y : EStateM Fail τ Unit} (hx : Lockstep R x y) :
    Lockstep R (logged x) (logged y) := by
  intro s t h
  have hxy := hx s t h
  simp only [EStateM.run] at hxy
  simp only [Exec.logged, EStateM.run]
  generalize x s = r at hxy
  generalize y t = q at hxy
  cases hxy with
  | ok a h' => exact .ok a h'
  | error e h' =>
    cases e with
    | err chain => exact .ok () h'
    | panic reason => exact .error _ h'

theorem Lockstep.forM {f : β → EStateM Fail σ PUnit} {f' : β → EStateM Fail τ PUnit} :
    ∀ {l : List β}, (∀ b ∈ l, Lockstep R (f b) (f' b)) → Lockstep R (forM l f) (forM l f')
  | [], _ => Lockstep.pure _
  | b :: _, h => Lockstep.bind (h b List.mem_cons_self) fun _ =>
      Lockstep.forM fun c hc => h c (List.mem_cons_of_mem _ hc)

/-- Loops over lists that cannot be told apart by `h`. -/
theorem Lockstep.forM_map {γ δ : Type} {h : β → δ} {h' : γ → δ} {f : β → EStateM Fail σ PUnit}
    {f' : γ → EStateM Fail τ PUnit} (hf : ∀ b c, h b = h' c → Lockstep R (f b) (f' c)) :
    ∀ {l : List β} {l' : List γ}, l.map h = l'.map h' → Lockstep R (ForM.forM l f) (ForM.forM l' f')
  | [], [], _ => Lockstep.pure _
  | b :: l, c :: l', hl => by
      obtain ⟨hb, hl⟩ := List.cons.inj hl
      exact Lockstep.bind (hf b c hb) fun _ => Lockstep.forM_map hf hl

theorem Lockstep.zoom {σ' τ' : Type} {R' : σ' → τ' → Prop} {get : σ' → σ} {put : σ → σ' → σ'}
    {get' : τ' → τ} {put' : τ → τ' → τ'} {x : EStateM Fail σ α} {y : EStateM Fail τ α}
    (hget : ∀ s t, R' s t → R (get s) (get' t))
    (hput : ∀ s t s' t', R' s t → R s' t' → R' (put s' s) (put' t' t)) (hx : Lockstep R x y) :
    Lockstep R' (zoom get put x) (zoom get' put' y) := by
  intro s t h
  have hxy := hx _ _ (hget s t h)
  rw [zoom_run, zoom_run]
  generalize x.run (get s) = r at hxy
  generalize y.run (get' t) = q at hxy
  cases hxy with
  | ok a h' => exact .ok a (hput s t _ _ h h')
  | error e h' => exact .error e (hput s t _ _ h h')

/-- Two runs in lockstep end in related states. -/
theorem Lockstep.final {x : EStateM Fail σ α} {y : EStateM Fail τ α} (hx : Lockstep R x y) {s : σ}
    {t : τ} (h : R s t) : R (final (x.run s)) (final (y.run t)) := by
  have hxy := hx s t h
  generalize x.run s = r at hxy
  generalize y.run t = q at hxy
  cases hxy with
  | ok a h' => exact h'
  | error e h' => exact h'

/-- The value and the state of a lockstep partner of a successful run. -/
theorem Lockstep.ok {x : EStateM Fail σ α} {y : EStateM Fail τ α} (hx : Lockstep R x y)
    {s s' : σ} {t : τ} {a : α} (h : R s t) (hok : x.run s = .ok a s') :
    ∃ t', y.run t = .ok a t' ∧ R s' t' := by
  have hxy := hx s t h
  rw [hok] at hxy
  generalize y.run t = q at hxy
  cases hxy with
  | ok _ h' => exact ⟨_, rfl, h'⟩

/-! ### One program in the place of another -/

section Alike
variable {P : σ → Prop} {x y : EStateM Fail σ α}

/-- From a `P` state `x` runs just as `y` does, and however they end they end in a `P` state. -/
def Alike (P : σ → Prop) (x y : EStateM Fail σ α) : Prop :=
  ∀ s, P s → x.run s = y.run s ∧ P (final (y.run s))

theorem Alike.pure (a : α) : Alike P (pure a) (pure a) := fun _ h => ⟨rfl, h⟩

/-- What follows a value need only be alike for the values that `y` returns. -/
theorem Alike.bind {f g : α → EStateM Fail σ β} (hx : Alike P x y)
    (hf : ∀ a s s', P s → y.run s = .ok a s' → Alike P (f a) (g a)) :
    Alike P (x >>= f) (y >>= g) := by
  intro s h
  obtain ⟨heq, hfinal⟩ := hx s h
  cases hy : y.run s with
  | ok a t =>
    rw [hy] at heq hfinal
    rw [bind_of_ok heq, bind_of_ok hy]
    exact hf a s t h hy t hfinal
  | error e t =>
    rw [hy] at heq hfinal
    rw [bind_of_error heq, bind_of_error hy]
    exact ⟨rfl, hfinal⟩

/-- A part that does nothing is left out. -/
theorem Alike.skip {a : α} {f : α → EStateM Fail σ β} {z : EStateM Fail σ β}
    (hx : Alike P x (Pure.pure a)) (hf : Alike P (f a) z) : Alike P (x >>= f) z := by
  intro s h
  rw [bind_of_ok (hx s h).1]
  exact hf s h

theorem Alike.context (msg : String) (hx : Alike P x y) :
    Alike P (context msg x) (context msg y) := by
  intro s h
  obtain ⟨heq, hfinal⟩ := hx s h
  cases hy : y.run s <;> rw [hy] at heq hfinal <;> simpa [Exec.context, heq, hy] using hfinal

theorem Alike.skipIf {c : Prop} [Decidable c] {x : EStateM Fail σ Unit} (hc : c) :
    Alike P (skipIf c x) (Pure.pure ()) := by
  rw [Exec.skipIf, if_pos hc]
  exact Alike.pure ()

theorem Alike.zoom {Q : τ → Prop} {get : σ → τ} {put : τ → σ → σ} {x y : EStateM Fail τ α}
    (hget : ∀ s, P s → Q (get s)) (hput : ∀ s t, P s → Q t → P (put t s)) (hx : Alike Q x y) :
    Alike P (zoom get put x) (zoom get put y) := by
  intro s h
  obtain ⟨heq, hfinal⟩ := hx (get s) (hget s h)
  rw [zoom_run, zoom_run, heq]
  refine ⟨rfl, ?_⟩
  cases hy : y.run (get s) <;> rw [hy] at hfinal <;> exact hput s _ h hfinal

theorem Alike.forM {f g : β → EStateM Fail σ PUnit} :
    ∀ {l : List β}, (∀ b ∈ l, Alike P (f b) (g b)) → Alike P (forM l f) (forM l g)
  | [], _ => Alike.pure _
  | b :: _, h => Alike.bind (h b List.mem_cons_self) fun _ _ _ _ _ =>
      Alike.forM fun c hc => h c (List.mem_cons_of_mem _ hc)

/-- A loop that does nothing for any of its elements. -/
theorem Alike.forM_idle {f : β → EStateM Fail σ PUnit} :
    ∀ {l : List β}, (∀ b ∈ l, Alike P (f b) (Pure.pure ⟨⟩)) →
      Alike P (ForM.forM l f) (Pure.pure ⟨⟩)
  | [], _ => Alike.pure _
  | b :: _, h => Alike.skip (h b List.mem_cons_self)
      (Alike.forM_idle fun c hc => h c (List.mem_cons_of_mem _ hc))

/-- Run `x` and drop what it returns. -/
def look (x : EStateM Fail σ α) : EStateM Fail σ Unit := x >>= fun _ => Pure.pure ()

theorem look_then (x : EStateM Fail σ α) (z : EStateM Fail σ β) :
    (look x >>= fun _ => z) = x >>= fun _ => z := by
  simp [look]

theorem Alike.look {f : α → EStateM Fail σ β} {z : EStateM Fail σ β} (hx : Alike P x x)
    (hf : ∀ a s s', P s → x.run s = .ok a s' → Alike P (f a) z) :
    Alike P (x >>= f) (look x >>= fun _ => z) := by
  rw [look_then]
  exact hx.bind hf

end Alike

end Exec
