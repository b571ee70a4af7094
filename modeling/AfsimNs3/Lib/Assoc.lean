import Mathlib.Data.List.Nodup

/-!
# Association lists

The bindings of a dictionary in insertion order. The first binding of a key counts (`find?`); `put` is
`d[k] = v`, which keeps the place of a present key, and `merge a b` is `{**a, **b}` (`mergeWith` the loop that
combines old and new value). The laws `find?_put`, `find?_mergeWith` and `find?_merge` hold whether or not a key
is bound twice.
-/

namespace Assoc

variable {κ ν : Type*} [DecidableEq κ]

/-- The value bound to the key. -/
def find? (es : List (κ × ν)) (k : κ) : Option ν :=
  match es with
  | [] => none
  | e :: rest => if e.1 = k then some e.2 else find? rest k

/-- `d[k] = v`. -/
def put (es : List (κ × ν)) (k : κ) (v : ν) : List (κ × ν) :=
  if k ∈ es.map Prod.fst then es.map (fun e => if e.1 = k then (k, v) else e) else es ++ [(k, v)]

/-- `for key, value in b.items(): a[key] = f(key, a.get(key), value)`. -/
def mergeWith (f : κ → Option ν → ν → ν) (a b : List (κ × ν)) : List (κ × ν) :=
  a.map (fun e => (e.1, match find? b e.1 with | some w => f e.1 (some e.2) w | none => e.2)) ++
    (b.filter (fun e => (find? a e.1).isNone)).map (fun e => (e.1, f e.1 none e.2))

/-- `{**a, **b}`. -/
def merge (a b : List (κ × ν)) : List (κ × ν) := mergeWith (fun _ _ value => value) a b

@[simp] theorem find?_nil (k : κ) : find? ([] : List (κ × ν)) k = none := rfl

theorem find?_cons (e : κ × ν) (es : List (κ × ν)) (k : κ) :
    find? (e :: es) k = if e.1 = k then some e.2 else find? es k := rfl

theorem find?_cons_self (k : κ) (v : ν) (es : List (κ × ν)) : find? ((k, v) :: es) k = some v := if_pos rfl

theorem find?_cons_of_ne {k k' : κ} (h : k' ≠ k) (v : ν) (es : List (κ × ν)) :
    find? ((k', v) :: es) k = find? es k := if_neg h

theorem find?_append (es fs : List (κ × ν)) (k : κ) : find? (es ++ fs) k = (find? es k).or (find? fs k) := by
  induction es with
  | nil => rfl
  | cons e es ih =>
    rw [List.cons_append, find?_cons, find?_cons, ih]
    split_ifs <;> rfl

theorem find?_eq_none_iff {es : List (κ × ν)} {k : κ} : find? es k = none ↔ k ∉ es.map Prod.fst := by
  induction es with
  | nil => simp
  | cons e es ih =>
    rw [find?_cons, List.map_cons, List.mem_cons]
    split_ifs with h
    · simp [h]
    · rw [ih]
      simp [Ne.symm h]

theorem mem_of_find? {es : List (κ × ν)} {k : κ} {v : ν} (h : find? es k = some v) : (k, v) ∈ es := by
  induction es with
  | nil => cases h
  | cons e es ih =>
    rw [find?_cons] at h
    split_ifs at h with hk
    · rw [Option.some.injEq] at h
      exact List.mem_cons.mpr (Or.inl (Prod.ext hk.symm h.symm))
    · exact List.mem_cons_of_mem _ (ih h)

theorem find?_of_mem {es : List (κ × ν)} (hn : (es.map Prod.fst).Nodup) {k : κ} {v : ν} (h : (k, v) ∈ es) :
    find? es k = some v := by
  induction es with
  | nil => cases h
  | cons e es ih =>
    rw [List.map_cons, List.nodup_cons] at hn
    rcases List.mem_cons.mp h with rfl | h
    · exact find?_cons_self k v es
    · have hne : e.1 ≠ k := fun heq => hn.1 (heq ▸ List.mem_map.mpr ⟨(k, v), h, rfl⟩)
      rw [find?_cons, if_neg hne]
      exact ih hn.2 h

/-- Changing the values key by key. -/
theorem find?_map_keep (es : List (κ × ν)) (g : κ → ν → ν) (k : κ) :
    find? (es.map (fun e => (e.1, g e.1 e.2))) k = (find? es k).map (g k) := by
  induction es with
  | nil => rfl
  | cons e es ih =>
    rw [List.map_cons, find?_cons, find?_cons, ih]
    split_ifs with h
    · rw [h, Option.map_some]
    · rfl

theorem find?_filter_key (es : List (κ × ν)) (p : κ → Bool) (k : κ) :
    find? (es.filter (fun e => p e.1)) k = if p k then find? es k else none := by
  induction es with
  | nil => simp
  | cons e es ih =>
    rw [List.filter_cons]
    by_cases h : e.1 = k
    · subst h
      by_cases hp : p e.1
      · rw [if_pos hp, if_pos hp, find?_cons, find?_cons]
        simp
      · rw [if_neg hp, ih]
        simp [hp]
    · rw [find?_cons e es, if_neg h, ← ih]
      split_ifs
      · rw [find?_cons, if_neg h]
      · rfl

/-! ## `put` -/

theorem keys_put (es : List (κ × ν)) (k : κ) (v : ν) :
    (put es k v).map Prod.fst =
      if k ∈ es.map Prod.fst then es.map Prod.fst else es.map Prod.fst ++ [k] := by
  unfold put
  split_ifs with h
  · rw [List.map_map]
    refine List.map_congr_left fun e _ => ?_
    by_cases he : e.1 = k <;> simp [he]
  · simp

theorem find?_put (es : List (κ × ν)) (k k' : κ) (v : ν) :
    find? (put es k v) k' = if k' = k then some v else find? es k' := by
  unfold put
  by_cases hmem : k ∈ es.map Prod.fst
  · have hmap : es.map (fun e => if e.1 = k then (k, v) else e) =
        es.map (fun e => (e.1, if e.1 = k then v else e.2)) := by
      refine List.map_congr_left fun e _ => ?_
      by_cases he : e.1 = k <;> simp [he]
    rw [if_pos hmem, hmap, find?_map_keep es (fun k₁ v₁ => if k₁ = k then v else v₁)]
    by_cases hk : k' = k
    · subst hk
      obtain ⟨w, hw⟩ := Option.ne_none_iff_exists'.mp (fun h => find?_eq_none_iff.mp h hmem)
      simp [hw]
    · simp [hk]
  · rw [if_neg hmem, find?_append, find?_cons, find?_nil]
    by_cases hk : k' = k
    · subst hk
      simp [find?_eq_none_iff.mpr hmem]
    · simp [hk, Ne.symm hk]

/-! ## `merge` -/

theorem find?_mergeWith (f : κ → Option ν → ν → ν) (a b : List (κ × ν)) (k : κ) :
    find? (mergeWith f a b) k = match find? b k with
      | some w => some (f k (find? a k) w)
      | none => find? a k := by
  unfold mergeWith
  rw [find?_append, find?_map_keep a (fun k v => match find? b k with | some w => f k (some v) w | none => v),
    find?_map_keep _ (fun k v => f k none v), find?_filter_key b (fun k => (find? a k).isNone)]
  cases ha : find? a k <;> cases hb : find? b k <;> simp

theorem find?_merge (a b : List (κ × ν)) (k : κ) : find? (merge a b) k = (find? b k).or (find? a k) := by
  rw [merge, find?_mergeWith]
  cases find? b k <;> rfl

theorem merge_nil_left (b : List (κ × ν)) : merge [] b = b := by
  simp [merge, mergeWith]

/-- Merging bindings of exactly the present keys, in the same order, replaces all. -/
theorem mergeWith_of_keys_eq {f : κ → Option ν → ν → ν} {a b : List (κ × ν)} (hn : (b.map Prod.fst).Nodup)
    (h : a.map Prod.fst = b.map Prod.fst)
    (hf : ∀ k v w, (k, v) ∈ a → (k, w) ∈ b → f k (some v) w = w) : mergeWith f a b = b := by
  have hmap : ∀ {a b : List (κ × ν)}, (b.map Prod.fst).Nodup → a.map Prod.fst = b.map Prod.fst →
      (∀ k v w, (k, v) ∈ a → (k, w) ∈ b → f k (some v) w = w) →
      a.map (fun e => (e.1, match find? b e.1 with | some w => f e.1 (some e.2) w | none => e.2)) = b := by
    intro a
    induction a with
    | nil => exact fun _ h _ => (List.map_eq_nil_iff.mp h.symm).symm
    | cons e a ih =>
      intro b hn h hf
      cases b with
      | nil => cases h
      | cons e' b =>
        simp only [List.map_cons, List.cons.injEq] at h hn ⊢
        rw [List.nodup_cons] at hn
        refine ⟨?_, ?_⟩
        · rw [find?_cons, if_pos h.1.symm]
          exact Prod.ext h.1 (hf e.1 e.2 e'.2 (List.mem_cons_self ..) (h.1 ▸ List.mem_cons_self ..))
        · refine Eq.trans (List.map_congr_left fun d hd => ?_)
            (ih hn.2 h.2 fun k v w hv hw => hf k v w (List.mem_cons_of_mem _ hv) (List.mem_cons_of_mem _ hw))
          have hne : e'.1 ≠ d.1 := fun heq => hn.1 (h.2 ▸ heq ▸ List.mem_map.mpr ⟨d, hd, rfl⟩)
          rw [find?_cons, if_neg hne]
  have hfilter : b.filter (fun e => (find? a e.1).isNone) = [] := by
    rw [List.filter_eq_nil_iff]
    intro e he hnone
    rw [Option.isNone_iff_eq_none, find?_eq_none_iff, h] at hnone
    exact hnone (List.mem_map.mpr ⟨e, he, rfl⟩)
  rw [mergeWith, hmap hn h hf, hfilter, List.map_nil, List.append_nil]

theorem merge_of_keys_eq {a b : List (κ × ν)} (hn : (b.map Prod.fst).Nodup)
    (h : a.map Prod.fst = b.map Prod.fst) : merge a b = b :=
  mergeWith_of_keys_eq hn h fun _ _ _ _ _ => rfl

end Assoc
