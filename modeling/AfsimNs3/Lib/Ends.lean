import AfsimNs3.Lib.Except

/-!
# What a computation that may raise ends in

`Ends P E x`: the value of `x` satisfies `P`, or its exception `E`. The rules follow the statements: a sequence
(`Ends.bind`), a loop over the items of a list (`Ends.mapM`, `Ends.forM`), a loop with a state (`Ends.foldlM`).

Where a given exception comes from is said exactly: a sequence raises it in one of its parts (`bind_error_iff`), a loop
at the item it reaches (`mapM_error_iff`, `foldlM_error_iff`).
-/

namespace Except

universe u

variable {ε : Type*} {α β σ : Type u}

def Ends (P : α → Prop) (E : ε → Prop) : Except ε α → Prop
  | .ok a => P a
  | .error e => E e

variable {P : α → Prop} {Q : β → Prop} {E : ε → Prop}

@[simp] theorem ends_ok {a : α} : Ends P E (.ok a) ↔ P a := Iff.rfl

@[simp] theorem ends_error {e : ε} : Ends P E (.error e : Except ε α) ↔ E e := Iff.rfl

@[simp] theorem ends_pure {a : α} : Ends P E (pure a) ↔ P a := Iff.rfl

theorem Ends.value {x : Except ε α} (h : Ends P E x) {a : α} (ha : x = .ok a) : P a := by
  subst ha
  exact h

theorem Ends.raised {x : Except ε α} (h : Ends P E x) {e : ε} (he : x = .error e) : E e := by
  subst he
  exact h

/-- Only the errors of a computation without a result of interest matter. -/
theorem ends_of_error {x : Except ε α} (h : ∀ e, x = .error e → E e) : Ends (fun _ => True) E x := by
  cases x with
  | ok a => exact trivial
  | error e => exact h e rfl

theorem Ends.bind {x : Except ε α} {f : α → Except ε β} (hx : Ends P E x) (hf : ∀ a, P a → Ends Q E (f a)) :
    Ends Q E (x >>= f) := by
  cases x with
  | error e => exact hx
  | ok a => exact hf a hx

theorem Ends.mapM {f : σ → Except ε α} {xs : List σ} (h : ∀ x ∈ xs, Ends P E (f x)) :
    Ends (fun ys => ∀ y ∈ ys, P y) E (xs.mapM f) := by
  induction xs with
  | nil => exact List.forall_mem_nil _
  | cons x xs ih =>
    rw [List.forall_mem_cons] at h
    rw [List.mapM_cons]
    refine h.1.bind fun y hy => (ih h.2).bind fun ys hys => ?_
    exact List.forall_mem_cons.mpr ⟨hy, hys⟩

theorem Ends.forM {f : σ → Except ε PUnit} {xs : List σ} (h : ∀ x ∈ xs, Ends (fun _ => True) E (f x)) :
    Ends (fun _ => True) E (ForM.forM xs f) := by
  induction xs with
  | nil => exact trivial
  | cons x xs ih =>
    rw [List.forall_mem_cons] at h
    rw [List.forM_cons]
    exact h.1.bind fun _ _ => ih h.2

theorem Ends.foldlM {I : σ → Prop} {f : σ → β → Except ε σ} {xs : List β} {s : σ} (hs : I s)
    (h : ∀ s, I s → ∀ x ∈ xs, Ends I E (f s x)) : Ends I E (xs.foldlM f s) := by
  induction xs generalizing s with
  | nil => exact hs
  | cons x xs ih =>
    rw [List.foldlM_cons]
    refine (h s hs x List.mem_cons_self).bind fun t ht => ih ht ?_
    intro s hs y hy
    exact h s hs y (List.mem_cons_of_mem _ hy)

/-! ## Where an exception comes from -/

/-- The items before a bad one are good. -/
def Reaches (good bad : α → Prop) : List α → Prop
  | [] => False
  | x :: xs => bad x ∨ good x ∧ Reaches good bad xs

section
variable {x : Except ε α} {f : α → Except ε β} {e : ε}

theorem bind_error_iff : (x >>= f) = .error e ↔ x = .error e ∨ ∃ a, x = .ok a ∧ f a = .error e := by
  cases x with
  | error e' => simp
  | ok a => simp

/-- A part that does not raise it. -/
theorem bind_error_iff_of_ends (h : Ends P (· ≠ e) x) : (x >>= f) = .error e ↔ ∃ a, x = .ok a ∧ f a = .error e := by
  rw [bind_error_iff, or_iff_right]
  exact fun hx => h.raised hx rfl

theorem mapM_error_iff {xs : List α} :
    xs.mapM f = .error e ↔ Reaches (fun x => ∃ y, f x = .ok y) (fun x => f x = .error e) xs := by
  induction xs with
  | nil =>
    rw [List.mapM_nil, Reaches, iff_false]
    intro h
    cases h
  | cons x xs ih =>
    have hrest : ∀ y, (xs.mapM f >>= fun ys => pure (y :: ys)) = .error e ↔ xs.mapM f = .error e := by
      intro y
      rw [bind_error_iff, or_iff_left]
      rintro ⟨ys, -, h⟩
      cases h
    rw [List.mapM_cons, bind_error_iff, Reaches, ← ih]
    simp only [hrest, exists_and_right]

end

/-- The state in which the loop comes to an item it raises at. -/
theorem foldlM_error_iff {f : σ → β → Except ε σ} {xs : List β} {s : σ} {e : ε} : xs.foldlM f s = .error e ↔
    ∃ before x after t, xs = before ++ x :: after ∧ before.foldlM f s = .ok t ∧ f t x = .error e := by
  induction xs generalizing s with
  | nil =>
    rw [List.foldlM_nil]
    constructor
    · intro h
      cases h
    · rintro ⟨before, x, after, -, h, -⟩
      cases before <;> cases h
  | cons x xs ih =>
    rw [List.foldlM_cons, bind_error_iff]
    constructor
    · rintro (h | ⟨t, ht, h⟩)
      · exact ⟨[], x, xs, s, rfl, rfl, h⟩
      · obtain ⟨before, y, after, u, rfl, hu, hy⟩ := ih.mp h
        exact ⟨x :: before, y, after, u, rfl, foldlM_cons_ok_iff.mpr ⟨t, ht, hu⟩, hy⟩
    · rintro ⟨before, y, after, u, hsplit, hu, hy⟩
      cases before with
      | nil =>
        obtain ⟨rfl, rfl⟩ := List.cons.inj hsplit
        obtain rfl := Except.ok.inj hu
        exact .inl hy
      | cons z before =>
        obtain ⟨rfl, rfl⟩ := List.cons.inj hsplit
        obtain ⟨t, ht, hu⟩ := foldlM_cons_ok_iff.mp hu
        exact .inr ⟨t, ht, ih.mpr ⟨before, y, after, u, rfl, hu, hy⟩⟩

end Except
