import Mathlib.Logic.Basic

/-!
# Runs of a machine with labelled steps

A machine is a partial step function `step : σ → α → Option σ`: `none` says that the action is not possible in
the state. Every choice of the environment (a scheduler, a network, a user) is in the action, so a run is a list
of actions.

* `run_invariant`: what every step preserves holds after every run;
* `along_invariant`: the same for the runs all of whose steps meet a condition on the state before the step and
  the action (`Along`);
* `throughout_iff_along`: where the condition is exactly what a step needs to keep the invariant, the invariant holds
  in every state of a run (`Throughout`) exactly when every step of it meets the condition.
-/

namespace Machine

variable {σ α : Type*} (step : σ → α → Option σ)

/-- The state after the actions, when each is possible in its turn. -/
def run : σ → List α → Option σ
  | s, [] => some s
  | s, a :: as => (step s a).bind (fun s' => run s' as)

/-- Every step of the run from `s` meets `ok` in the state it is taken from. -/
def Along (ok : σ → α → Prop) : σ → List α → Prop
  | _, [] => True
  | s, a :: as => ok s a ∧ ∀ s', step s a = some s' → Along ok s' as

/-- Every state of the run from `s` satisfies `P`. -/
def Throughout (P : σ → Prop) : σ → List α → Prop
  | s, [] => P s
  | s, a :: as => P s ∧ ∀ s', step s a = some s' → Throughout P s' as

variable {step}

@[simp] theorem run_nil (s : σ) : run step s [] = some s := rfl

theorem run_cons {s s' : σ} {a : α} {as : List α} :
    run step s (a :: as) = some s' ↔ ∃ t, step s a = some t ∧ run step t as = some s' := by
  simp only [run, Option.bind_eq_some_iff]

theorem run_append {s s' : σ} {as bs : List α} :
    run step s (as ++ bs) = some s' ↔ ∃ t, run step s as = some t ∧ run step t bs = some s' := by
  induction as generalizing s with
  | nil => simp
  | cons a as ih =>
    simp only [List.cons_append, run_cons, ih]
    constructor
    · rintro ⟨u, hu, t, ht, hs⟩
      exact ⟨t, ⟨u, hu, ht⟩, hs⟩
    · rintro ⟨t, ⟨u, hu, ht⟩, hs⟩
      exact ⟨u, hu, t, ht, hs⟩

/-- **The invariant rule.** -/
theorem run_invariant (inv : σ → Prop) (hstep : ∀ s a s', inv s → step s a = some s' → inv s') {s s' : σ}
    {as : List α} (hs : inv s) (hrun : run step s as = some s') : inv s' := by
  induction as generalizing s with
  | nil => exact Option.some.inj hrun ▸ hs
  | cons a as ih =>
    obtain ⟨t, ht, hrun⟩ := run_cons.mp hrun
    exact ih (hstep s a t hs ht) hrun

/-- **The invariant rule under a condition on the steps.** -/
theorem along_invariant {ok : σ → α → Prop} (inv : σ → Prop)
    (hstep : ∀ s a s', inv s → ok s a → step s a = some s' → inv s') {s s' : σ} {as : List α} (hs : inv s)
    (hok : Along step ok s as) (hrun : run step s as = some s') : inv s' := by
  induction as generalizing s with
  | nil => exact Option.some.inj hrun ▸ hs
  | cons a as ih =>
    obtain ⟨t, ht, hrun⟩ := run_cons.mp hrun
    exact ih (hstep s a t hs hok.1 ht) (hok.2 t ht) hrun

theorem Throughout.head {P : σ → Prop} {s : σ} {as : List α} (h : Throughout step P s as) : P s := by
  cases as with
  | nil => exact h
  | cons a as => exact h.1

/-- **The invariant rule where the condition is exact**, given a standing invariant. -/
theorem throughout_iff_along {ok : σ → α → Prop} (standing inv : σ → Prop)
    (hstanding : ∀ s a s', standing s → step s a = some s' → standing s')
    (hstep : ∀ s a s', standing s → inv s → step s a = some s' → (inv s' ↔ ok s a)) {s s' : σ} {as : List α}
    (hstand : standing s) (hs : inv s) (hrun : run step s as = some s') :
    Throughout step inv s as ↔ Along step ok s as := by
  induction as generalizing s with
  | nil => exact ⟨fun _ => trivial, fun _ => hs⟩
  | cons a as ih =>
    obtain ⟨t, ht, hrun⟩ := run_cons.mp hrun
    have hexact := hstep s a t hstand hs ht
    have hrest : ∀ P : σ → Prop, (∀ u, step s a = some u → P u) ↔ P t := by
      intro P
      simp [ht]
    rw [Throughout, Along, hrest, hrest]
    constructor
    · rintro ⟨-, hall⟩
      exact ⟨hexact.mp hall.head, (ih (hstanding s a t hstand ht) hall.head hrun).mp hall⟩
    · rintro ⟨hok, hall⟩
      exact ⟨hs, (ih (hstanding s a t hstand ht) (hexact.mpr hok) hrun).mpr hall⟩

/-- A decidable condition can be checked along a run. -/
instance Along.decidable {ok : σ → α → Prop} [∀ s a, Decidable (ok s a)] :
    (as : List α) → (s : σ) → Decidable (Along step ok s as)
  | [], _ => .isTrue trivial
  | a :: as, s =>
    match h : step s a with
    | none => decidable_of_iff (ok s a) ⟨fun hok => ⟨hok, fun _ hs => nomatch h ▸ hs⟩, And.left⟩
    | some t =>
      have : Decidable (Along step ok t as) := Along.decidable as t
      decidable_of_iff (ok s a ∧ Along step ok t as)
        ⟨fun hok => ⟨hok.1, fun _ hs => Option.some.inj (h.symm.trans hs) ▸ hok.2⟩, fun hok => ⟨hok.1, hok.2 t h⟩⟩

/-- A condition on the actions alone. -/
theorem along_of_forall {ok : α → Prop} {as : List α} (h : ∀ a ∈ as, ok a) (s : σ) :
    Along step (fun _ a => ok a) s as := by
  induction as generalizing s with
  | nil => trivial
  | cons a as ih =>
    rw [List.forall_mem_cons] at h
    exact ⟨h.1, fun s' _ => ih h.2 s'⟩

end Machine
