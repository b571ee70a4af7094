import Mathlib.Data.List.Basic

/-!
# Passes over a list

A loop that threads a state through the items of a list and gives one result for each: `pass f s xs` is the state it
leaves and the results in order.

* `pass_rule`: what every step keeps of the state holds at the end, and what every step shows of its result holds of
  every result;
* `map_pass`: the part of the results that no state has an influence on;
* `pass_once`: a part of the state that items change once, however many of them do.
-/

variable {σ α β γ : Type*}

def pass (f : σ → α → σ × β) : σ → List α → σ × List β
  | s, [] => (s, [])
  | s, x :: xs => ((pass f (f s x).1 xs).1, (f s x).2 :: (pass f (f s x).1 xs).2)

/-- **The rule for passes.** -/
theorem pass_rule {f : σ → α → σ × β} (inv : σ → Prop) (shown : α → β → Prop) {s : σ} {xs : List α} (hs : inv s)
    (hstep : ∀ s, inv s → ∀ x ∈ xs, inv (f s x).1 ∧ shown x (f s x).2) :
    inv (pass f s xs).1 ∧ ∀ y ∈ (pass f s xs).2, ∃ x ∈ xs, shown x y := by
  induction xs generalizing s with
  | nil => exact ⟨hs, List.forall_mem_nil _⟩
  | cons x xs ih =>
    obtain ⟨hnext, hshown⟩ := hstep s hs x List.mem_cons_self
    obtain ⟨hend, hrest⟩ := ih hnext fun t ht z hz => hstep t ht z (List.mem_cons_of_mem _ hz)
    refine ⟨hend, List.forall_mem_cons.mpr ⟨⟨x, List.mem_cons_self, hshown⟩, fun y hy => ?_⟩⟩
    obtain ⟨z, hz, hzy⟩ := hrest y hy
    exact ⟨z, List.mem_cons_of_mem _ hz, hzy⟩

theorem map_pass {f : σ → α → σ × β} {g : β → γ} {h : α → γ} {xs : List α} (hstep : ∀ s, ∀ x ∈ xs, g (f s x).2 = h x)
    (s : σ) : (pass f s xs).2.map g = xs.map h := by
  induction xs generalizing s with
  | nil => rfl
  | cons x xs ih =>
    show g _ :: (pass f _ xs).2.map g = h x :: xs.map h
    rw [hstep s x List.mem_cons_self, ih fun t z hz => hstep t z (List.mem_cons_of_mem _ hz)]

/-- A part of the state that no item changes. -/
theorem pass_keeps {f : σ → α → σ × β} (view : σ → γ) {xs : List α}
    (hstep : ∀ s, ∀ x ∈ xs, view (f s x).1 = view s) (s : σ) : view (pass f s xs).1 = view s := by
  induction xs generalizing s with
  | nil => rfl
  | cons x xs ih => exact (ih (fun t z hz => hstep t z (List.mem_cons_of_mem _ hz)) _).trans (hstep s x List.mem_cons_self)

/-- What some of the items do to a part of the state, and doing it again changes nothing. -/
theorem pass_once {f : σ → α → σ × β} (view : σ → γ) {change : γ → γ} (hagain : ∀ t, change (change t) = change t)
    {hit : α → Prop} [DecidablePred hit] {xs : List α} (hstep : ∀ s, ∀ x ∈ xs, view (f s x).1 =
      if hit x then change (view s) else view s) (s : σ) :
    view (pass f s xs).1 = if ∃ x ∈ xs, hit x then change (view s) else view s := by
  induction xs generalizing s with
  | nil => rw [if_neg (by simp)]; rfl
  | cons x xs ih =>
    show view (pass f (f s x).1 xs).1 = _
    rw [ih (fun t z hz => hstep t z (List.mem_cons_of_mem _ hz)), hstep s x List.mem_cons_self]
    simp only [List.exists_mem_cons_iff]
    by_cases hx : hit x
    · rw [if_pos hx, hagain, ite_self, if_pos (Or.inl hx)]
    · rw [if_neg hx]
      simp only [hx, false_or]
