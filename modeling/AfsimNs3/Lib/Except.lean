import Mathlib.Data.List.Forall2

/-!
# Loops that may raise

What a loop in the `Except` monad has done when it ends normally: `mapM` related its items one by one
(`mapM_ok_iff`, in `Option` `mapM_eq_some_iff`), `forM` found every item good (`forM_ok_iff`), `foldlM` kept an
invariant (`foldlM_ok`).
-/

namespace Except

universe u

variable {ε : Type*} {α β σ : Type u}

theorem bind_ok_iff {x : Except ε α} {f : α → Except ε β} {b : β} :
    (x >>= f) = .ok b ↔ ∃ a, x = .ok a ∧ f a = .ok b := by
  cases x with
  | error e =>
    constructor
    · intro h
      cases h
    · rintro ⟨a, h, -⟩
      cases h
  | ok a => exact ⟨fun h => ⟨a, rfl, h⟩, fun ⟨_, h, h'⟩ => Except.ok.inj h ▸ h'⟩

/-- The result of a statement without a value. -/
theorem exists_punit {p : PUnit → Prop} : (∃ a, p a) ↔ p ⟨⟩ := ⟨fun ⟨⟨⟩, h⟩ => h, fun h => ⟨⟨⟩, h⟩⟩

theorem pure_ok_iff {a b : α} : (pure a : Except ε α) = .ok b ↔ a = b :=
  ⟨fun h => Except.ok.inj h, fun h => congrArg Except.ok h⟩

theorem error_ne_ok {e : ε} {a : α} : (Except.error e : Except ε α) ≠ .ok a := fun h => nomatch h

theorem toOption_eq_some_iff {x : Except ε α} {a : α} : x.toOption = some a ↔ x = .ok a := by
  cases x with
  | error e => exact iff_of_false (fun h => nomatch h) error_ne_ok
  | ok b => exact ⟨fun h => congrArg Except.ok (Option.some.inj h), fun h => congrArg some (Except.ok.inj h)⟩

theorem map_ok_iff {x : Except ε α} {f : α → β} {b : β} : f <$> x = .ok b ↔ ∃ a, x = .ok a ∧ f a = b := by
  cases x with
  | error e => exact iff_of_false (fun h => nomatch h) fun ⟨_, h, _⟩ => nomatch h
  | ok a => exact ⟨fun h => ⟨a, rfl, Except.ok.inj h⟩, fun ⟨_, h, h'⟩ => Except.ok.inj h ▸ congrArg Except.ok h'⟩

@[simp] theorem ok_bind (a : α) (f : α → Except ε β) : (Except.ok a >>= f) = f a := rfl

@[simp] theorem error_bind (e : ε) (f : α → Except ε β) : (Except.error e >>= f) = .error e := rfl

theorem mapM_ok_iff {f : α → Except ε β} {xs : List α} {ys : List β} :
    xs.mapM f = .ok ys ↔ List.Forall₂ (fun x y => f x = .ok y) xs ys := by
  induction xs generalizing ys with
  | nil =>
    rw [List.mapM_nil, pure_ok_iff, List.forall₂_nil_left_iff, eq_comm]
  | cons x xs ih =>
    rw [List.mapM_cons, bind_ok_iff, List.forall₂_cons_left_iff]
    simp only [bind_ok_iff, pure_ok_iff, ih]
    constructor
    · rintro ⟨y, hy, ys', hys, rfl⟩
      exact ⟨y, ys', hy, hys, rfl⟩
    · rintro ⟨y, ys', hy, hys, rfl⟩
      exact ⟨y, hy, ys', hys, rfl⟩

/-- Lists in step, seen item by item. -/
theorem exists_forall₂_iff {R : α → β → Prop} {P : β → Prop} {xs : List α} :
    (∃ ys, List.Forall₂ R xs ys ∧ ∀ y ∈ ys, P y) ↔ ∀ x ∈ xs, ∃ y, R x y ∧ P y := by
  induction xs with
  | nil => simp
  | cons x xs ih =>
    rw [List.forall_mem_cons, ← ih]
    constructor
    · rintro ⟨ys, hys, hP⟩
      obtain ⟨y, ys', hy, hrest, rfl⟩ := List.forall₂_cons_left_iff.mp hys
      rw [List.forall_mem_cons] at hP
      exact ⟨⟨y, hy, hP.1⟩, ys', hrest, hP.2⟩
    · rintro ⟨⟨y, hy, hPy⟩, ys, hys, hP⟩
      exact ⟨y :: ys, List.Forall₂.cons hy hys, List.forall_mem_cons.mpr ⟨hPy, hP⟩⟩

theorem forM_ok_iff {f : α → Except ε PUnit} {xs : List α} :
    forM xs f = .ok ⟨⟩ ↔ ∀ x ∈ xs, f x = .ok ⟨⟩ := by
  induction xs with
  | nil => simp [pure_ok_iff]
  | cons x xs ih =>
    rw [List.forM_cons, bind_ok_iff, exists_punit, List.forall_mem_cons, ← ih]

theorem foldlM_cons_ok_iff {f : σ → α → Except ε σ} {s s' : σ} {x : α} {xs : List α} :
    (x :: xs).foldlM f s = .ok s' ↔ ∃ t, f s x = .ok t ∧ xs.foldlM f t = .ok s' := by
  rw [List.foldlM_cons, bind_ok_iff]

/-- A loop none of whose turns raises. -/
theorem foldlM_eq_ok {f : σ → β → Except ε σ} {g : α → β} {step : σ → α → σ} {xs : List α}
    (h : ∀ x ∈ xs, ∀ s, f s (g x) = .ok (step s x)) (s : σ) : (xs.map g).foldlM f s = .ok (xs.foldl step s) := by
  induction xs generalizing s with
  | nil => rfl
  | cons x xs ih =>
    rw [List.forall_mem_cons] at h
    rw [List.map_cons, List.foldlM_cons, h.1 s]
    exact ih h.2 (step s x)

/-- A loop whose turns read an item and then take it in. -/
theorem foldlM_map_ok_iff {f : β → Except ε α} {g : σ → α → σ} {xs : List β} {s s' : σ} :
    xs.foldlM (fun s x => g s <$> f x) s = .ok s' ↔ ∃ ys, xs.mapM f = .ok ys ∧ ys.foldl g s = s' := by
  induction xs generalizing s with
  | nil => simp [pure_ok_iff]
  | cons x xs ih =>
    simp only [List.foldlM_cons, List.mapM_cons, bind_ok_iff, map_ok_iff, pure_ok_iff, ih]
    constructor
    · rintro ⟨_, ⟨y, hy, rfl⟩, ys, hys, hfold⟩
      exact ⟨y :: ys, ⟨y, hy, ys, hys, rfl⟩, hfold⟩
    · rintro ⟨_, ⟨y, hy, ys, hys, rfl⟩, hfold⟩
      exact ⟨_, ⟨y, hy, rfl⟩, ys, hys, hfold⟩

theorem mapM_eq_ok {f : β → Except ε σ} {g : α → β} {read : α → σ} {xs : List α}
    (h : ∀ x ∈ xs, f (g x) = .ok (read x)) : (xs.map g).mapM f = .ok (xs.map read) := by
  rw [mapM_ok_iff, List.forall₂_map_left_iff, List.forall₂_map_right_iff, List.forall₂_same]
  exact h

theorem foldlM_append_ok {f : σ → α → Except ε σ} (inv : List α → σ → Prop)
    (hstep : ∀ done s x t, inv done s → f s x = .ok t → inv (done ++ [x]) t) {done xs : List α} {s s' : σ}
    (hs : inv done s) (h : xs.foldlM f s = .ok s') : inv (done ++ xs) s' := by
  induction xs generalizing done s with
  | nil =>
    rw [List.foldlM_nil, pure_ok_iff] at h
    rw [List.append_nil, ← h]
    exact hs
  | cons x xs ih =>
    obtain ⟨t, ht, hrest⟩ := foldlM_cons_ok_iff.mp h
    have hnext := ih (hstep done s x t hs ht) hrest
    rwa [List.append_assoc, List.singleton_append] at hnext

/-- **The loop invariant**, over the items already passed. -/
theorem foldlM_ok {f : σ → α → Except ε σ} (inv : List α → σ → Prop)
    (hstep : ∀ done s x t, inv done s → f s x = .ok t → inv (done ++ [x]) t) {xs : List α} {s s' : σ}
    (hs : inv [] s) (h : xs.foldlM f s = .ok s') : inv xs s' :=
  foldlM_append_ok inv hstep hs h

end Except

theorem Option.mapM_eq_some_iff {α β : Type*} {f : α → Option β} {xs : List α} {ys : List β} :
    xs.mapM f = some ys ↔ List.Forall₂ (fun x y => f x = some y) xs ys := by
  induction xs generalizing ys with
  | nil =>
    rw [List.mapM_nil, List.forall₂_nil_left_iff, Option.pure_def, Option.some.injEq, eq_comm]
  | cons x xs ih =>
    rw [List.mapM_cons, List.forall₂_cons_left_iff]
    simp only [Option.bind_eq_bind, Option.bind_eq_some_iff, Option.pure_def, Option.some.injEq, ih]
    constructor
    · rintro ⟨y, hy, ys', hys, rfl⟩
      exact ⟨y, ys', hy, hys, rfl⟩
    · rintro ⟨y, ys', hy, hys, rfl⟩
      exact ⟨y, hy, ys', hys, rfl⟩

theorem Option.exists_mapM {α β : Type} {f : α → Option β} {xs : List α} (h : ∀ x ∈ xs, ∃ y, f x = some y) :
    ∃ ys, xs.mapM f = some ys := by
  obtain ⟨ys, hys, -⟩ := Except.exists_forall₂_iff.mpr
    (fun x hx => (h x hx).imp fun y hy => (⟨hy, trivial⟩ : f x = some y ∧ True))
  exact ⟨ys, Option.mapM_eq_some_iff.mpr hys⟩

theorem Option.forall₂_some_iff {α β : Type*} {f : α → Option β} {xs : List α} {ys : List β} :
    List.Forall₂ (fun x y => f x = some y) xs ys ↔ xs.map f = ys.map some := by
  rw [← List.forall₂_eq_eq_eq, List.forall₂_map_left_iff, List.forall₂_map_right_iff]

/-! ## Lists in step -/

theorem List.Forall₂.exists_left {α β : Type*} {R : α → β → Prop} {xs : List α} {ys : List β}
    (h : List.Forall₂ R xs ys) {y : β} (hy : y ∈ ys) : ∃ x ∈ xs, R x y := by
  induction h with
  | nil => cases hy
  | cons hxy _ ih =>
    rcases List.mem_cons.mp hy with rfl | hy
    · exact ⟨_, List.mem_cons_self, hxy⟩
    · obtain ⟨x, hx, hR⟩ := ih hy
      exact ⟨x, List.mem_cons_of_mem _ hx, hR⟩

theorem List.Forall₂.exists_right {α β : Type*} {R : α → β → Prop} {xs : List α} {ys : List β}
    (h : List.Forall₂ R xs ys) {x : α} (hx : x ∈ xs) : ∃ y ∈ ys, R x y := by
  obtain ⟨y, hy, hR⟩ := h.flip.exists_left hx
  exact ⟨y, hy, hR⟩

theorem List.Forall₂.getLast? {α β : Type*} {R : α → β → Prop} {xs : List α} {ys : List β}
    (h : List.Forall₂ R xs ys) : Option.Rel R xs.getLast? ys.getLast? := by
  have hhead : ∀ (xs : List α) (ys : List β), List.Forall₂ R xs ys → Option.Rel R xs.head? ys.head? := by
    intro xs ys h
    cases h with
    | nil => exact .none
    | cons hfirst _ => exact .some hfirst
  rw [List.getLast?_eq_head?_reverse, List.getLast?_eq_head?_reverse]
  exact hhead _ _ (List.forall₂_reverse_iff.mpr h)

/-- Lists with the same items both end, or both are empty. -/
theorem List.Perm.getLast?_cases {α : Type*} {xs ys : List α} (h : xs.Perm ys) :
    (xs.getLast? = none ∧ ys.getLast? = none) ∨ ∃ a b, xs.getLast? = some a ∧ ys.getLast? = some b := by
  rcases List.eq_nil_or_concat' xs with rfl | ⟨init, a, rfl⟩
  · exact .inl ⟨rfl, by rw [h.symm.eq_nil]; rfl⟩
  · rcases List.eq_nil_or_concat' ys with rfl | ⟨init', b, rfl⟩
    · exact absurd h.eq_nil (List.append_ne_nil_of_right_ne_nil _ (List.cons_ne_nil _ _))
    · exact .inr ⟨a, b, List.getLast?_concat, List.getLast?_concat⟩
