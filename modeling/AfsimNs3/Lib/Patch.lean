import Mathlib.Logic.Function.Basic

/-!
# Patches of tables

A table is a function from keys. The sender of a patch knows an `old` and a `new` table and sends the new value of
every touched key, where at least the keys on which the two differ are touched; the receiver overwrites those keys
in the table it holds.

* `apply_eq_new`: a receiver that holds the old table ends up with the new one;
* `apply_eq_new_iff`: a receiver that holds anything ends up with the new table exactly when every key on which it
  deviates from the old table is touched;
* `apply_self`: a receiver that holds the new table keeps it.
-/

namespace Patch

variable {κ ν : Type*} {touched : κ → Prop} [DecidablePred touched] {old new held : κ → ν}

def apply (touched : κ → Prop) [DecidablePred touched] (new held : κ → ν) : κ → ν :=
  fun k => if touched k then new k else held k

theorem apply_eq_new_iff (h : ∀ k, ¬ touched k → old k = new k) :
    apply touched new held = new ↔ ∀ k, held k ≠ old k → touched k := by
  rw [funext_iff]
  refine forall_congr' fun k => ?_
  unfold apply
  by_cases hk : touched k
  · simp [hk]
  · simp [hk, h k hk]

theorem apply_eq_new (h : ∀ k, ¬ touched k → old k = new k) : apply touched new old = new :=
  (apply_eq_new_iff h).mpr fun _ hne => absurd rfl hne

/-- A patch may be applied again. -/
theorem apply_self : apply touched new new = new := apply_eq_new fun _ _ => rfl

end Patch
