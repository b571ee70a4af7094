import Mathlib.Data.List.Nodup
import Mathlib.Logic.Relation
import Mathlib.Data.Finset.Card

/-!
# Search with a worklist

A node is marked when it is first seen and put on the worklist; a turn takes one node off it, stops at the target and
marks the neighbours that are new (`turn`). `Searching` is the invariant of the loop: what is marked can be reached, and
what is marked and done has its neighbours marked. A turn gives up one unit of `work`, so the loop ends, and it ends
with whether the target can be reached (`search_ends`).
-/

namespace Worklist

variable {α : Type} [DecidableEq α]

/-- The marked nodes, and those of them that wait, the next one first. -/
structure State (α : Type) where
  visited : List α
  pending : List α

def start (source : α) : State α := ⟨[source], [source]⟩

/-- A neighbour is marked and put on the worklist unless it is marked already. -/
def visit (s : State α) (next : α) : State α :=
  if next ∈ s.visited then s else ⟨next :: s.visited, next :: s.pending⟩

/-- One turn: the result, or the state it leaves. -/
def turn (neighbours : α → List α) (target : α) (s : State α) : State α ⊕ Bool :=
  match s.pending with
  | [] => .inr false
  | current :: pending =>
    if current = target then .inr true else .inl ((neighbours current).foldl visit { s with pending := pending })

/-- The loop, cut off after some turns. -/
def search (neighbours : α → List α) (target : α) : ℕ → State α → Option Bool
  | 0, _ => none
  | turns + 1, s =>
    match turn neighbours target s with
    | .inl s => search neighbours target turns s
    | .inr found => some found

/-- The nodes that can be reached. -/
def Reaches (neighbours : α → List α) : α → α → Prop := Relation.ReflTransGen (fun v w => w ∈ neighbours v)

/-- **The invariant of the loop.** -/
structure Searching (neighbours : α → List α) (source target : α) (s : State α) : Prop where
  nodup : s.visited.Nodup
  pending : s.pending ⊆ s.visited
  seeded : source ∈ s.visited
  reached : ∀ v ∈ s.visited, Reaches neighbours source v
  done : ∀ v ∈ s.visited, v ∉ s.pending → v ≠ target ∧ ∀ w ∈ neighbours v, w ∈ s.visited

section
variable {neighbours : α → List α} {source target : α}

omit [DecidableEq α] in
theorem start_searching : Searching neighbours source target (start source) where
  nodup := List.nodup_singleton _
  pending := List.Subset.refl _
  seeded := List.mem_singleton_self _
  reached := fun _ hv => List.mem_singleton.mp hv ▸ .refl
  done := fun _ hv hpending => absurd hv hpending

/-- What the loop over neighbours does: it marks them, and what it marks it puts on the worklist. -/
structure Marked (next : List α) (s s' : State α) : Prop where
  visited : ∀ v, v ∈ s'.visited ↔ v ∈ s.visited ∨ v ∈ next
  pending : ∀ v, v ∈ s'.pending ↔ v ∈ s.pending ∨ v ∈ next ∧ v ∉ s.visited
  nodup : s.visited.Nodup → s'.visited.Nodup
  grows : s.visited.length ≤ s'.visited.length
  balance : s'.visited.length + s.pending.length = s.visited.length + s'.pending.length

theorem marked_foldl (next : List α) (s : State α) : Marked next s (next.foldl visit s) := by
  induction next generalizing s with
  | nil => exact ⟨by simp, by simp, id, Nat.le_refl _, rfl⟩
  | cons w next ih =>
    have hrest := ih (visit s w)
    rw [List.foldl_cons]
    by_cases hw : w ∈ s.visited
    · have hsame : visit s w = s := if_pos hw
      rw [hsame] at hrest ⊢
      refine ⟨fun v => ?_, fun v => ?_, hrest.nodup, hrest.grows, hrest.balance⟩
      · rw [hrest.visited, List.mem_cons]
        constructor
        · rintro (hv | hv)
          · exact .inl hv
          · exact .inr (.inr hv)
        · rintro (hv | rfl | hv)
          · exact .inl hv
          · exact .inl hw
          · exact .inr hv
      · rw [hrest.pending, List.mem_cons]
        constructor
        · rintro (hv | ⟨hv, hnew⟩)
          · exact .inl hv
          · exact .inr ⟨.inr hv, hnew⟩
        · rintro (hv | ⟨rfl | hv, hnew⟩)
          · exact .inl hv
          · exact absurd hw hnew
          · exact .inr ⟨hv, hnew⟩
    · have hnew : visit s w = ⟨w :: s.visited, w :: s.pending⟩ := if_neg hw
      rw [hnew] at hrest ⊢
      refine ⟨fun v => ?_, fun v => ?_, fun h => hrest.nodup (List.nodup_cons.mpr ⟨hw, h⟩),
        (Nat.le_succ _).trans hrest.grows, ?_⟩
      · rw [hrest.visited, List.mem_cons, List.mem_cons]
        tauto
      · rw [hrest.pending, List.mem_cons, List.mem_cons, List.mem_cons]
        by_cases hv : v = w
        · subst hv
          tauto
        · tauto
      · have hbalance := hrest.balance
        simp only [List.length_cons] at hbalance
        omega

/-- **A turn keeps the invariant.** -/
theorem turn_searching {s s' : State α} (h : Searching neighbours source target s)
    (hturn : turn neighbours target s = .inl s') : Searching neighbours source target s' := by
  unfold turn at hturn
  split at hturn
  · cases hturn
  · rename_i current pending hpending
    split_ifs at hturn with hcurrent
    obtain rfl := Sum.inl.inj hturn
    have hmem : current ∈ s.visited := h.pending (hpending ▸ List.mem_cons_self)
    have hmarked := marked_foldl (neighbours current) { s with pending := pending }
    refine ⟨hmarked.nodup h.nodup, fun v hv => ?_, (hmarked.visited _).mpr (.inl h.seeded), fun v hv => ?_,
      fun v hv hout => ?_⟩
    · rcases (hmarked.pending v).mp hv with hv | ⟨hv, -⟩
      · exact (hmarked.visited v).mpr (.inl (h.pending (hpending ▸ List.mem_cons_of_mem _ hv)))
      · exact (hmarked.visited v).mpr (.inr hv)
    · rcases (hmarked.visited v).mp hv with hv | hv
      · exact h.reached v hv
      · exact (h.reached current hmem).tail hv
    · have hold : v ∈ s.visited := by
        rcases (hmarked.visited v).mp hv with hold | hnext
        · exact hold
        · by_contra hold
          exact hout ((hmarked.pending v).mpr (.inr ⟨hnext, hold⟩))
      by_cases hv' : v = current
      · subst hv'
        exact ⟨hcurrent, fun w hw => (hmarked.visited w).mpr (.inr hw)⟩
      · have hdone : v ∉ s.pending := by
          rw [hpending, List.mem_cons, not_or]
          exact ⟨hv', fun hrest => hout ((hmarked.pending v).mpr (.inl hrest))⟩
        obtain ⟨hne, hclosed⟩ := h.done v hold hdone
        exact ⟨hne, fun w hw => (hmarked.visited w).mpr (.inl (hclosed w hw))⟩

/-- **Where the loop stops, it knows.** -/
theorem turn_found {s : State α} (h : Searching neighbours source target s) {found : Bool}
    (hturn : turn neighbours target s = .inr found) : found = true ↔ Reaches neighbours source target := by
  unfold turn at hturn
  split at hturn
  · rename_i hpending
    obtain rfl := Sum.inr.inj hturn
    have hdone : ∀ v ∈ s.visited, v ≠ target ∧ ∀ w ∈ neighbours v, w ∈ s.visited := fun v hv =>
      h.done v hv (hpending ▸ List.not_mem_nil)
    refine iff_of_false Bool.false_ne_true fun hreach => ?_
    have hmarked : ∀ v, Reaches neighbours source v → v ∈ s.visited := by
      intro v hv
      induction hv with
      | refl => exact h.seeded
      | tail _ hstep ih => exact (hdone _ ih).2 _ hstep
    exact (hdone target (hmarked target hreach)).1 rfl
  · rename_i current pending hpending
    split_ifs at hturn with hcurrent
    obtain rfl := Sum.inr.inj hturn
    subst hcurrent
    exact iff_of_true rfl (h.reached current (h.pending (hpending ▸ List.mem_cons_self)))

/-- The nodes not marked yet and those that wait. -/
def work (nodes : ℕ) (s : State α) : ℕ := nodes - s.visited.length + s.pending.length

/-- Every turn that goes on does one unit of work. -/
theorem work_turn {nodes : ℕ} {s s' : State α} (hs : s'.visited.length ≤ nodes)
    (hturn : turn neighbours target s = .inl s') : work nodes s' + 1 = work nodes s := by
  unfold turn at hturn
  split at hturn
  · cases hturn
  · rename_i current pending hpending
    split_ifs at hturn
    obtain rfl := Sum.inl.inj hturn
    have hmarked := marked_foldl (neighbours current) { s with pending := pending }
    have hbalance := hmarked.balance
    have hlength : s.pending.length = pending.length + 1 := by rw [hpending, List.length_cons]
    have hgrow := hmarked.grows
    simp only [work] at *
    omega

theorem search_succ (turns : ℕ) (s : State α) : search neighbours target (turns + 1) s =
    match turn neighbours target s with
    | .inl s => search neighbours target turns s
    | .inr found => some found := rfl

/-- The loop ends from every state it can be in. -/
theorem search_of_searching {nodes : List α} (hnodes : ∀ v, Reaches neighbours source v → v ∈ nodes) (n : ℕ)
    (s : State α) (h : Searching neighbours source target s) (hwork : work nodes.length s = n) :
    ∃ found : Bool, (found = true ↔ Reaches neighbours source target) ∧
      ∀ turns, n < turns → search neighbours target turns s = some found := by
  induction n generalizing s with
  | zero =>
    have hpending : s.pending = [] := List.length_eq_zero_iff.mp (by unfold work at hwork; omega)
    have hturn : turn neighbours target s = .inr false := by rw [turn, hpending]
    refine ⟨false, turn_found h hturn, fun turns hturns => ?_⟩
    obtain ⟨k, rfl⟩ := Nat.exists_eq_add_of_lt hturns
    rw [search_succ, hturn]
  | succ n ih =>
    cases hturn : turn neighbours target s with
    | inr found =>
      refine ⟨found, turn_found h hturn, fun turns hturns => ?_⟩
      obtain ⟨k, rfl⟩ := Nat.exists_eq_add_of_lt hturns
      rw [search_succ, hturn]
    | inl s' =>
      have hnext := turn_searching h hturn
      have hbound : s'.visited.length ≤ nodes.length :=
        (hnext.nodup.subperm fun v hv => hnodes v (hnext.reached v hv)).length_le
      have hunit := work_turn hbound hturn
      obtain ⟨found, hfound, hsearch⟩ := ih s' hnext (by omega)
      refine ⟨found, hfound, fun turns hturns => ?_⟩
      obtain ⟨k, rfl⟩ := Nat.exists_eq_add_of_lt hturns
      rw [search_succ, hturn]
      exact hsearch _ (by omega)

/-- **The search ends**, after at most one turn for each node and one more, and says whether the target can be
reached. -/
theorem search_ends (target : α) {nodes : List α} (hnodes : ∀ v, Reaches neighbours source v → v ∈ nodes) :
    ∃ found : Bool, (found = true ↔ Reaches neighbours source target) ∧
      ∀ turns, nodes.length < turns → search neighbours target turns (start source) = some found := by
  have hpos : 0 < nodes.length := List.length_pos_of_mem (hnodes source .refl)
  have hwork : work nodes.length (start source) = nodes.length := by
    show nodes.length - 1 + 1 = nodes.length
    omega
  exact search_of_searching hnodes _ _ start_searching hwork

end

end Worklist
