import AfsimNs3.Lib.Assoc
import Mathlib.Data.List.Induction
import Mathlib.Data.List.Sort

/-!
# Insertion-ordered dictionaries

`Dict κ ν` is a dictionary that remembers insertion order: `put` on a present key keeps its place, on a new key
appends. The same type serves for ordered maps, whose traversal is `sorted`.

Two dictionaries are `Same` when they answer every lookup alike; `sorted` depends on nothing else
(`sorted_congr`), whatever the order of insertion was.
-/

/-- A list of bindings in which no key occurs twice. -/
structure Dict (κ : Type*) (ν : Type*) where
  entries : List (κ × ν)
  nodup : (entries.map Prod.fst).Nodup

namespace Dict

variable {κ ν : Type*}

def keys (d : Dict κ ν) : List κ := d.entries.map Prod.fst

def values (d : Dict κ ν) : List ν := d.entries.map Prod.snd

def empty : Dict κ ν := ⟨[], List.nodup_nil⟩

instance : Inhabited (Dict κ ν) := ⟨empty⟩

@[simp] theorem keys_empty : (empty : Dict κ ν).keys = [] := rfl

theorem entries_nodup (d : Dict κ ν) : d.entries.Nodup := List.Nodup.of_map _ d.nodup

variable [DecidableEq κ]

def get? (d : Dict κ ν) (k : κ) : Option ν := Assoc.find? d.entries k

def contains (d : Dict κ ν) (k : κ) : Bool := (d.get? k).isSome

theorem nodup_put {es : List (κ × ν)} (h : (es.map Prod.fst).Nodup) (k : κ) (v : ν) :
    ((Assoc.put es k v).map Prod.fst).Nodup := by
  rw [Assoc.keys_put]
  split_ifs with hk
  · exact h
  · exact List.nodup_append.mpr ⟨h, List.nodup_singleton k, fun a ha b hb hab => by
      rw [List.mem_singleton] at hb
      exact hk (hb ▸ hab ▸ ha)⟩

/-- `d[k] = v`. -/
def put (d : Dict κ ν) (k : κ) (v : ν) : Dict κ ν := ⟨Assoc.put d.entries k v, nodup_put d.nodup k v⟩

/-- `d.pop(k, None)`. -/
def erase (d : Dict κ ν) (k : κ) : Dict κ ν :=
  ⟨d.entries.filter (fun e => e.1 ≠ k), d.nodup.sublist (List.filter_sublist.map Prod.fst)⟩

/-- `{k: v for k, v in bindings}`: a later binding of a key replaces the earlier one. -/
def ofList (bindings : List (κ × ν)) : Dict κ ν := bindings.foldl (fun d e => d.put e.1 e.2) empty

/-! ## Lookups -/

theorem get?_eq_some_iff {d : Dict κ ν} {k : κ} {v : ν} : d.get? k = some v ↔ (k, v) ∈ d.entries :=
  ⟨Assoc.mem_of_find?, Assoc.find?_of_mem d.nodup⟩

theorem get?_eq_none_iff {d : Dict κ ν} {k : κ} : d.get? k = none ↔ k ∉ d.keys := Assoc.find?_eq_none_iff

theorem mem_keys_iff {d : Dict κ ν} {k : κ} : k ∈ d.keys ↔ ∃ v, d.get? k = some v := by
  rw [← not_iff_not, ← get?_eq_none_iff, Option.eq_none_iff_forall_ne_some]
  simp

theorem contains_iff {d : Dict κ ν} {k : κ} : d.contains k = true ↔ k ∈ d.keys := by
  rw [contains, Option.isSome_iff_exists, mem_keys_iff]

theorem mem_values_iff {d : Dict κ ν} {v : ν} : v ∈ d.values ↔ ∃ k, d.get? k = some v := by
  simp [values, get?_eq_some_iff]

@[simp] theorem get?_empty (k : κ) : (empty : Dict κ ν).get? k = none := rfl

theorem get?_put (d : Dict κ ν) (k k' : κ) (v : ν) :
    (d.put k v).get? k' = if k' = k then some v else d.get? k' :=
  Assoc.find?_put d.entries k k' v

@[simp] theorem get?_put_self (d : Dict κ ν) (k : κ) (v : ν) : (d.put k v).get? k = some v := by
  rw [get?_put, if_pos rfl]

theorem get?_put_of_ne (d : Dict κ ν) {k k' : κ} (v : ν) (h : k' ≠ k) : (d.put k v).get? k' = d.get? k' := by
  rw [get?_put, if_neg h]

theorem get?_erase (d : Dict κ ν) (k k' : κ) :
    (d.erase k).get? k' = if k' = k then none else d.get? k' := by
  refine (Assoc.find?_filter_key d.entries (fun k₁ => decide (k₁ ≠ k)) k').trans ?_
  by_cases hk : k' = k
  · simp [hk]
  · simp [hk, get?]

theorem mem_keys_put {d : Dict κ ν} {k k' : κ} {v : ν} : k' ∈ (d.put k v).keys ↔ k' = k ∨ k' ∈ d.keys := by
  rw [mem_keys_iff, mem_keys_iff, get?_put]
  split_ifs with h <;> simp [h]

/-! ## Dictionaries built from a list of bindings -/

theorem get?_foldl_put_of_notMem (bindings : List (κ × ν)) (d : Dict κ ν) {k : κ}
    (hk : k ∉ bindings.map Prod.fst) :
    (bindings.foldl (fun d e => d.put e.1 e.2) d).get? k = d.get? k := by
  induction bindings generalizing d with
  | nil => rfl
  | cons e es ih =>
    simp only [List.map_cons, List.mem_cons, not_or] at hk
    rw [List.foldl_cons, ih _ hk.2, get?_put_of_ne _ _ hk.1]

theorem get?_foldl_put {bindings : List (κ × ν)} (hn : (bindings.map Prod.fst).Nodup) (d : Dict κ ν)
    {k : κ} {v : ν} (h : (k, v) ∈ bindings) :
    (bindings.foldl (fun d e => d.put e.1 e.2) d).get? k = some v := by
  induction bindings generalizing d with
  | nil => cases h
  | cons e es ih =>
    simp only [List.map_cons, List.nodup_cons] at hn
    rw [List.foldl_cons]
    rcases List.mem_cons.mp h with rfl | h
    · rw [get?_foldl_put_of_notMem _ _ hn.1, get?_put_self]
    · exact ih hn.2 _ h

/-- A key of the list is bound to one of its values. -/
theorem get?_foldl_put_of_mem {bindings : List (κ × ν)} (d : Dict κ ν) {k : κ} (hk : k ∈ bindings.map Prod.fst) :
    ∃ v, (bindings.foldl (fun d e => d.put e.1 e.2) d).get? k = some v ∧ (k, v) ∈ bindings := by
  induction bindings generalizing d with
  | nil => cases hk
  | cons e es ih =>
    rw [List.foldl_cons]
    by_cases hes : k ∈ es.map Prod.fst
    · obtain ⟨v, hv, hmem⟩ := ih (d.put e.1 e.2) hes
      exact ⟨v, hv, List.mem_cons_of_mem _ hmem⟩
    · obtain rfl : k = e.1 := (List.mem_cons.mp hk).resolve_right hes
      refine ⟨e.2, ?_, List.mem_cons_self⟩
      rw [get?_foldl_put_of_notMem _ _ hes, get?_put_self]

theorem get?_ofList {bindings : List (κ × ν)} (hn : (bindings.map Prod.fst).Nodup) {k : κ} {v : ν} :
    (ofList bindings).get? k = some v ↔ (k, v) ∈ bindings := by
  constructor
  · intro h
    by_cases hk : k ∈ bindings.map Prod.fst
    · obtain ⟨⟨k', w⟩, hw, rfl⟩ := List.mem_map.mp hk
      rw [ofList, get?_foldl_put hn _ hw] at h
      exact Option.some.inj h ▸ hw
    · rw [ofList, get?_foldl_put_of_notMem _ _ hk] at h
      cases h
  · exact get?_foldl_put hn _

/-- **The last binding of a key counts.** -/
theorem get?_ofList_eq (bindings : List (κ × ν)) (k : κ) :
    (ofList bindings).get? k = ((bindings.filter (fun e => e.1 = k)).map Prod.snd).getLast? := by
  induction bindings using List.reverseRecOn with
  | nil => rfl
  | append_singleton es e ih =>
    have hput : ofList (es ++ [e]) = (ofList es).put e.1 e.2 := List.foldl_append
    rw [hput, get?_put, List.filter_append, List.map_append, ih]
    by_cases h : k = e.1
    · have hlast : [e].filter (fun e => e.1 = k) = [e] := List.filter_cons_of_pos (decide_eq_true h.symm)
      rw [if_pos h, hlast]
      exact List.getLast?_concat.symm
    · have hlast : [e].filter (fun e => e.1 = k) = [] := List.filter_cons_of_neg (by simpa using Ne.symm h)
      rw [if_neg h, hlast, List.map_nil, List.append_nil]

/-- A loop that updates the binding of each item's key: a key is updated by its own items, in their order. -/
theorem get?_foldl_update {ε : Type*} (key : ε → κ) (update : Option ν → ε → ν) (xs : List ε) (d : Dict κ ν) (k : κ) :
    (xs.foldl (fun d x => d.put (key x) (update (d.get? (key x)) x)) d).get? k =
      (xs.filter (fun x => key x = k)).foldl (fun v x => some (update v x)) (d.get? k) := by
  induction xs generalizing d with
  | nil => rfl
  | cons x xs ih =>
    rw [List.foldl_cons, ih, get?_put]
    by_cases h : k = key x
    · subst h
      simp
    · rw [if_neg h, List.filter_cons, if_neg (by simpa using Ne.symm h)]

/-! ## Sameness and sorted traversal -/

/-- Both dictionaries answer every lookup alike. -/
def Same (d d' : Dict κ ν) : Prop := ∀ k, d.get? k = d'.get? k

theorem Same.perm {d d' : Dict κ ν} (h : Same d d') : d.entries.Perm d'.entries := by
  rw [List.perm_ext_iff_of_nodup d.entries_nodup d'.entries_nodup]
  rintro ⟨k, v⟩
  rw [← get?_eq_some_iff, ← get?_eq_some_iff, h k]

theorem Same.mem_keys {d d' : Dict κ ν} (h : Same d d') {k : κ} : k ∈ d.keys ↔ k ∈ d'.keys := by
  rw [mem_keys_iff, mem_keys_iff, h k]

section Sorted
variable [LE κ] [DecidableLE κ]

/-- The bindings in the order of their keys. -/
def sorted (d : Dict κ ν) : List (κ × ν) := d.entries.insertionSort (fun a b => a.1 ≤ b.1)

omit [DecidableEq κ] in
theorem sorted_perm (d : Dict κ ν) : d.sorted.Perm d.entries := List.perm_insertionSort _ _

@[simp] theorem mem_sorted {d : Dict κ ν} {k : κ} {v : ν} : (k, v) ∈ d.sorted ↔ d.get? k = some v := by
  rw [get?_eq_some_iff, d.sorted_perm.mem_iff]

omit [DecidableEq κ] in
theorem sorted_keys_nodup (d : Dict κ ν) : (d.sorted.map Prod.fst).Nodup :=
  ((d.sorted_perm.map Prod.fst).nodup_iff).mpr d.nodup

theorem sorted_congr [Std.IsLinearOrder κ] {d d' : Dict κ ν} (h : Same d d') : d.sorted = d'.sorted := by
  have : Std.Total (fun a b : κ × ν => a.1 ≤ b.1) := ⟨fun a b => Std.Total.total a.1 b.1⟩
  have : IsTrans (κ × ν) (fun a b => a.1 ≤ b.1) := ⟨fun a b c hab hbc => Std.le_trans hab hbc⟩
  have hperm : d.sorted.Perm d'.sorted := (d.sorted_perm.trans h.perm).trans d'.sorted_perm.symm
  have hsorted : ∀ es : List (κ × ν), (es.insertionSort (fun a b => a.1 ≤ b.1)).Pairwise (fun a b => a.1 ≤ b.1) :=
    fun es => List.pairwise_insertionSort _ es
  refine List.Perm.eq_of_pairwise ?_ (hsorted d.entries) (hsorted d'.entries) hperm
  rintro ⟨k, v⟩ ⟨k', v'⟩ hm hm' hle hge
  have hk : k = k' := Std.le_antisymm hle hge
  subst hk
  rw [mem_sorted] at hm hm'
  rw [h k, hm'] at hm
  rw [Option.some.inj hm]

end Sorted

/-! ## Dictionaries with other values, and with fewer -/

section Values
variable {μ : Type*}

def mapValues (f : ν → μ) (d : Dict κ ν) : Dict κ μ :=
  ⟨d.entries.map (fun e => (e.1, f e.2)), by rw [List.map_map]; exact d.nodup⟩

theorem get?_mapValues (f : ν → μ) (d : Dict κ ν) (k : κ) : (d.mapValues f).get? k = (d.get? k).map f := by
  show Assoc.find? (d.entries.map _) k = (Assoc.find? d.entries k).map f
  induction d.entries with
  | nil => rfl
  | cons e es ih =>
    rw [List.map_cons, Assoc.find?_cons, Assoc.find?_cons, ih]
    split_ifs <;> rfl

theorem mapValues_put (f : ν → μ) (d : Dict κ ν) (k : κ) (v : ν) :
    (d.put k v).mapValues f = (d.mapValues f).put k (f v) := by
  have hentries : (Assoc.put d.entries k v).map (fun e => (e.1, f e.2)) =
      Assoc.put (d.entries.map (fun e => (e.1, f e.2))) k (f v) := by
    unfold Assoc.put
    rw [List.map_map]
    show _ = if k ∈ d.entries.map Prod.fst then _ else _
    split_ifs
    · rw [List.map_map, List.map_map]
      refine List.map_congr_left fun e _ => ?_
      dsimp only [Function.comp]
      split_ifs <;> rfl
    · exact List.map_append
  unfold mapValues put
  congr 1

omit [DecidableEq κ] in
theorem sorted_mapValues [LE κ] [DecidableLE κ] (f : ν → μ) (d : Dict κ ν) :
    (d.mapValues f).sorted = d.sorted.map (fun e => (e.1, f e.2)) :=
  (List.map_insertionSort (fun a b : κ × ν => a.1 ≤ b.1) (fun a b : κ × μ => a.1 ≤ b.1) _ _ fun _ _ _ _ => Iff.rfl).symm

end Values

/-- The bindings a test keeps. -/
def keep (p : κ → ν → Bool) (d : Dict κ ν) : Dict κ ν :=
  ⟨d.entries.filter (fun e => p e.1 e.2), d.nodup.sublist (List.filter_sublist.map Prod.fst)⟩

theorem get?_keep {p : κ → ν → Bool} {d : Dict κ ν} {k : κ} {v : ν} :
    (d.keep p).get? k = some v ↔ d.get? k = some v ∧ p k v = true := by
  rw [get?_eq_some_iff, get?_eq_some_iff]
  exact List.mem_filter

end Dict
