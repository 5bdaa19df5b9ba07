import FractalGateway.Gateway.Converge

/-! The stored configuration and the manager's mirror of it.

    A diff is worked off in port order and each entry is stored as it is done, so a diff that fails
    has stored the entries below some port and nothing else: what is stored is the client's own fold
    of that part (`below`). Folding the whole diff over a part of itself changes nothing, which is
    why a manager that sends a failed diff again until it gets through ends with the gateway storing
    what its mirror holds. -/

namespace FractalGateway
open Std Exec

/-! ### Parts of a diff -/

/-- The entries of a diff with ports below a bound. -/
def GatewayConfigPartial.below (diff : GatewayConfigPartial) (bound : ℕ) : GatewayConfigPartial :=
  diff.filter fun port _ => decide (port.toNat < bound)

/-- The entries before some place in port order are those below a bound. -/
theorem GatewayConfigPartial.toList_below (diff : GatewayConfigPartial)
    {before after : List (UInt16 × Option NetworkState)} (h : diff.toList = before ++ after) :
    ∃ bound, (diff.below bound).toList = before := by
  have hsorted : diff.toList.Pairwise fun a b => a.1.toNat < b.1.toNat :=
    diff.ordered_keys_toList.imp fun hlt => UInt16.lt_iff_toNat_lt.mp (Std.compare_eq_lt.mp hlt)
  have hlist : ∀ bound, (diff.below bound).toList =
      before.filter (fun e => decide (e.1.toNat < bound)) ++
        after.filter fun e => decide (e.1.toNat < bound) := by
    intro bound
    rw [GatewayConfigPartial.below, ExtTreeMap.toList_filter, h, List.filter_append]
  rw [h] at hsorted
  obtain ⟨_, hafter, hcross⟩ := List.pairwise_append.mp hsorted
  cases after with
  | nil =>
    refine ⟨2 ^ 16, ?_⟩
    rw [hlist, List.filter_nil, List.append_nil, List.filter_eq_self]
    exact fun e _ => decide_eq_true e.1.toNat_lt
  | cons next rest =>
    refine ⟨next.1.toNat, ?_⟩
    have hnone : (next :: rest).filter (fun e => decide (e.1.toNat < next.1.toNat)) = [] := by
      rw [List.filter_eq_nil_iff]
      intro e he hlt
      have hlt := of_decide_eq_true hlt
      rcases List.mem_cons.mp he with rfl | he
      · omega
      · have := (List.pairwise_cons.mp hafter).1 e he
        omega
    rw [hlist, hnone, List.append_nil, List.filter_eq_self]
    exact fun e he => decide_eq_true (hcross e he next List.mem_cons_self)

/-- The whole diff says everything its parts say. -/
theorem GatewayConfig.apply_partial_below (config : GatewayConfig) (diff : GatewayConfigPartial)
    (bound : ℕ) :
    GatewayConfig.apply_partial (config.apply_partial (diff.below bound)) diff =
      config.apply_partial diff := by
  refine ExtTreeMap.ext_getElem? fun port => ?_
  simp only [GatewayConfig.get_apply_partial, GatewayConfigPartial.below, OrdMap.get_filter]
  cases diff[port]? with
  | none => rfl
  | some entry => rfl

/-! ### What a diff stores -/

section
variable {os : Os} {deploy : Deployment}

/-- A diff that gets through is folded as the client folds it. -/
theorem apply_partial_stored {diff : GatewayConfigPartial} {w w' : World}
    (h : (FractalGateway.apply_partial os deploy diff).run w = .ok () w') :
    w'.stored = w.stored.apply_partial diff := by
  obtain ⟨names, t₁, hprep, h⟩ := bind_ok_iff.mp h
  obtain ⟨_, t₂, hloop, h⟩ := bind_ok_iff.mp h
  obtain ⟨_, t₃, hget, hnginx⟩ := bind_ok_iff.mp h
  cases hget
  rw [(handNginx_ok hnginx).1, apply_entries_stored hloop, (onMachine_ok hprep).2]
  rfl

theorem handNetwork_keepsStored (port : UInt16) (network : NetworkState) :
    Always (fun w w' : World => w'.stored = w.stored) (handNetwork os deploy port network) :=
  Always.bind (fun _ => rfl) fun _ => onMachine_keepsStored _

theorem handNginx_keepsStored (networks : List (UInt16 × NetworkState)) :
    Always (fun w w' : World => w'.stored = w.stored) (handNginx os deploy networks) :=
  Always.bind (fun _ => rfl) fun _ => onMachine_keepsStored _

/-- An entry that fails is stored if it removes a port, and not if it sets one up. -/
theorem apply_entry_error_stored {names : List String} {entry : UInt16 × Option NetworkState}
    {w w' : World} {e : Fail} (h : (apply_entry os deploy names entry).run w = .error e w') :
    w'.stored = w.stored ∨ w'.stored = w.stored.applyEntry entry := by
  obtain ⟨port, _ | network⟩ := entry
  · rcases bind_error_iff.mp h with hstore | ⟨_, t, hstore, hdel⟩
    · cases hstore
    · cases hstore
      exact Or.inr ((onMachine_keepsStored _).of_error hdel)
  · rcases bind_error_iff.mp h with hhand | ⟨_, t, _, hstore⟩
    · exact Or.inl ((handNetwork_keepsStored port network).of_error hhand)
    · cases hstore

/-- A loop over entries that fails has folded those before some place. -/
theorem apply_entries_error_stored {names : List String}
    {entries : List (UInt16 × Option NetworkState)} {w w' : World} {e : Fail}
    (h : (forM entries (apply_entry os deploy names)).run w = .error e w') :
    ∃ before after, entries = before ++ after ∧
      w'.stored = before.foldl GatewayConfig.applyEntry w.stored := by
  obtain ⟨before, entry, after, t, rfl, hbefore, hentry⟩ := forM_error h
  have ht := apply_entries_stored hbefore
  rcases apply_entry_error_stored hentry with hsame | hdone
  · exact ⟨before, entry :: after, rfl, hsame.trans ht⟩
  · refine ⟨before ++ [entry], after, by simp, ?_⟩
    rw [hdone, ht, List.foldl_append, List.foldl_cons, List.foldl_nil]

/-- A diff that fails has stored the fold of its entries below some port. -/
theorem apply_partial_error_stored {diff : GatewayConfigPartial} {w w' : World} {e : Fail}
    (h : (FractalGateway.apply_partial os deploy diff).run w = .error e w') :
    ∃ bound, w'.stored = w.stored.apply_partial (diff.below bound) := by
  have hfold : ∀ {before after : List (UInt16 × Option NetworkState)},
      diff.toList = before ++ after → w'.stored = before.foldl GatewayConfig.applyEntry w.stored →
      ∃ bound, w'.stored = w.stored.apply_partial (diff.below bound) := by
    intro before after hsplit hstored
    obtain ⟨bound, hbound⟩ := diff.toList_below hsplit
    exact ⟨bound, by rw [hstored, GatewayConfig.apply_partial, hbound]⟩
  rcases bind_error_iff.mp h with hprep | ⟨names, t, hprep, h⟩
  · exact hfold (List.nil_append _).symm ((onMachine_keepsStored _).of_error hprep)
  have hst := (onMachine_ok hprep).2
  rcases bind_error_iff.mp h with hloop | ⟨_, u, hloop, h⟩
  · obtain ⟨before, after, hsplit, hstored⟩ := apply_entries_error_stored hloop
    exact hfold hsplit (by rw [hstored, hst])
  rcases bind_error_iff.mp h with hget | ⟨_, v, hget, hnginx⟩
  · cases hget
  · cases hget
    refine hfold (List.append_nil _).symm ?_
    rw [(handNginx_keepsStored _).of_error hnginx, apply_entries_stored hloop, hst]

end

/-! ### The mirror -/

/-- A gateway's world with the mirror its manager keeps: the manager folds in a diff when it is told
    that it was applied, and after a diff that failed (`failed`) sends nothing but that diff, until
    it gets through, or a whole configuration. -/
inductive Managed (deploy : Deployment) :
    World → GatewayConfig → Option GatewayConfigPartial → Prop where
  | start {w} : w.stored = ∅ → Managed deploy w ∅ none
  | apply {w mirror failed} (os : Os) (config : GatewayConfig) : Managed deploy w mirror failed →
      Managed deploy (final ((apply os deploy config).run w)) config none
  | folded {w w' mirror failed} (os : Os) (diff : GatewayConfigPartial) :
      Managed deploy w mirror failed → (∀ d ∈ failed, d = diff) →
      (FractalGateway.apply_partial os deploy diff).run w = .ok () w' →
      Managed deploy w' (mirror.apply_partial diff) none
  | failed {w w' mirror failed e} (os : Os) (diff : GatewayConfigPartial) :
      Managed deploy w mirror failed → (∀ d ∈ failed, d = diff) →
      (FractalGateway.apply_partial os deploy diff).run w = .error e w' →
      Managed deploy w' mirror (some diff)

/-- With no diff outstanding the mirror is what is stored; with one, it is as soon as that diff is
    folded into both. -/
theorem Managed.stored {deploy : Deployment} {w : World} {mirror : GatewayConfig}
    {failed : Option GatewayConfigPartial} (h : Managed deploy w mirror failed) :
    match failed with
    | none => w.stored = mirror
    | some diff => w.stored.apply_partial diff = mirror.apply_partial diff := by
  induction h with
  | start hw => exact hw
  | apply os config _ _ => exact apply_stored config _
  | @folded w w' mirror outstanding os diff _ hsame hrun ih =>
    show w'.stored = mirror.apply_partial diff
    rw [apply_partial_stored hrun]
    cases outstanding with
    | none => rw [show w.stored = mirror from ih]
    | some d =>
      obtain rfl := hsame d rfl
      exact ih
  | @failed w w' mirror outstanding e os diff _ hsame hrun ih =>
    obtain ⟨bound, hstored⟩ := apply_partial_error_stored hrun
    show GatewayConfig.apply_partial w'.stored diff = mirror.apply_partial diff
    rw [hstored, GatewayConfig.apply_partial_below]
    cases outstanding with
    | none => rw [show w.stored = mirror from ih]
    | some d =>
      obtain rfl := hsame d rfl
      exact ih

/-- What requests store, whatever fails: a whole configuration always, a diff as the client folds it
    when it gets through and otherwise its entries below some port. And a manager that folds diffs
    in as they are acknowledged, and sends a failed one again until it is, has what is stored. -/
theorem stored_follows_mirror (deploy : Deployment) (w : World) :
    (∀ os config, (final ((apply os deploy config).run w)).stored = config) ∧
      (∀ os diff, match (FractalGateway.apply_partial os deploy diff).run w with
        | .ok _ w' => w'.stored = w.stored.apply_partial diff
        | .error _ w' => ∃ bound, w'.stored = w.stored.apply_partial (diff.below bound)) ∧
      ∀ mirror, Managed deploy w mirror none → w.stored = mirror := by
  refine ⟨fun os config => apply_stored config w, fun os diff => ?_, fun mirror h => h.stored⟩
  cases hrun : (FractalGateway.apply_partial os deploy diff).run w with
  | ok _ w' => exact apply_partial_stored hrun
  | error e w' => exact apply_partial_error_stored hrun

/-- The first command of all fails. -/
def Bench.failing : Os := { Bench.os with fails := fun k => k == 0 }

/-- A diff that fails and is sent again. -/
theorem stored_follows_mirror_resent :
    (final ((FractalGateway.apply_partial Bench.failing Bench.deploy
      (Bench.diff 5000 (Bench.bare 5000))).run
        (final ((FractalGateway.apply_partial Bench.failing Bench.deploy
          (Bench.diff 5000 (Bench.bare 5000))).run Bench.world)))).stored =
      GatewayConfig.apply_partial ∅ (Bench.diff 5000 (Bench.bare 5000)) := by
  obtain ⟨e, hfail⟩ := error_of_not_returned
    (x := FractalGateway.apply_partial Bench.failing Bench.deploy
      (Bench.diff 5000 (Bench.bare 5000))) (s := Bench.world) (by decide +kernel)
  refine (stored_follows_mirror Bench.deploy _).2.2 _ ?_
  exact .folded Bench.failing _ (.failed Bench.failing _ (.start rfl) (by simp) hfail) (by simp)
    (ok_of_returned (by decide +kernel))

end FractalGateway
