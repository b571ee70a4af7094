import AfsimNs3.Lib.Dict

/-!
# A mailbox that keeps the newest item of each key

`post` puts an item under its key; an item that waited there is overwritten and noted beside the one that replaced it.
No item is lost from the accounts: what was overwritten and what waits are what was posted, each item once
(`postAll_account`).
-/

namespace Dict

variable {κ ν : Type*} [DecidableEq κ]

/-- A dictionary is one binding and the rest. -/
theorem entries_perm_erase {d : Dict κ ν} {k : κ} {v : ν} (h : d.get? k = some v) :
    d.entries.Perm ((k, v) :: (d.erase k).entries) := by
  have hnew : (k, v) ∉ (d.erase k).entries := by
    rw [← get?_eq_some_iff, get?_erase, if_pos rfl]
    exact Option.some_ne_none v ∘ Eq.symm
  rw [List.perm_ext_iff_of_nodup d.entries_nodup (List.nodup_cons.mpr ⟨hnew, (d.erase k).entries_nodup⟩)]
  rintro ⟨k', v'⟩
  rw [List.mem_cons, ← get?_eq_some_iff, ← get?_eq_some_iff, get?_erase, Prod.mk.injEq]
  by_cases hk : k' = k
  · subst hk
    rw [if_pos rfl, h, Option.some.injEq]
    simp [eq_comm]
  · simp [hk]

theorem erase_put_same (d : Dict κ ν) (k : κ) (v : ν) : Same ((d.put k v).erase k) (d.erase k) := by
  intro k'
  rw [get?_erase, get?_erase, get?_put]
  split_ifs <;> rfl

theorem erase_same {d : Dict κ ν} {k : κ} (h : d.get? k = none) : Same (d.erase k) d := by
  intro k'
  rw [get?_erase]
  split_ifs with hk
  · rw [hk, h]
  · rfl

/-- The value `put` replaces, and the values it leaves. -/
theorem values_put (d : Dict κ ν) (k : κ) (v : ν) :
    ((d.get? k).toList ++ (d.put k v).values).Perm (d.values ++ [v]) := by
  have hput : (d.put k v).values.Perm (v :: (d.erase k).values) :=
    ((entries_perm_erase (get?_put_self d k v)).trans ((erase_put_same d k v).perm.cons _)).map Prod.snd
  have hlast : (v :: (d.erase k).values).Perm ((d.erase k).values ++ [v]) := (List.perm_append_singleton _ _).symm
  cases h : d.get? k with
  | none => exact (hput.trans hlast).trans (((erase_same h).perm.map Prod.snd).append_right [v])
  | some old =>
    have hd : d.values.Perm (old :: (d.erase k).values) := (entries_perm_erase h).map Prod.snd
    exact ((hput.trans hlast).cons old).trans (hd.append_right [v]).symm

end Dict

namespace Mailbox

variable {κ δ : Type} [DecidableEq κ]

/-- What waits, by key, and what was overwritten, each item with the one that replaced it. -/
structure Box (κ δ : Type) where
  pending : Dict κ δ
  overwritten : List (δ × δ)

def Box.empty : Box κ δ := ⟨Dict.empty, []⟩

variable (key : δ → κ)

def post (box : Box κ δ) (item : δ) : Box κ δ where
  pending := box.pending.put (key item) item
  overwritten := box.overwritten ++ (box.pending.get? (key item)).toList.map (fun old => (old, item))

def postAll (box : Box κ δ) (items : List δ) : Box κ δ := items.foldl (post key) box

/-- All that came into the box. -/
def Box.account (box : Box κ δ) : List δ := box.overwritten.map Prod.fst ++ box.pending.values

/-- What waits under a key has that key. -/
def Keyed (box : Box κ δ) : Prop := ∀ k item, box.pending.get? k = some item → key item = k

theorem post_account (box : Box κ δ) (item : δ) : (post key box item).account.Perm (box.account ++ [item]) := by
  have hold : ((box.pending.get? (key item)).toList.map (fun old => (old, item))).map Prod.fst =
      (box.pending.get? (key item)).toList := by
    rw [List.map_map]
    exact List.map_id _
  unfold Box.account post
  rw [List.map_append, hold, List.append_assoc, List.append_assoc]
  exact (Dict.values_put box.pending (key item) item).append_left _

/-- **The accounts of the box balance.** -/
theorem postAll_account (box : Box κ δ) (items : List δ) :
    (postAll key box items).account.Perm (box.account ++ items) := by
  induction items generalizing box with
  | nil =>
    rw [List.append_nil]
    rfl
  | cons item items ih =>
    have hfirst := (post_account key box item).append_right items
    rw [List.append_assoc, List.singleton_append] at hfirst
    exact (ih (post key box item)).trans hfirst

variable {key}

theorem post_keyed {box : Box κ δ} (h : Keyed key box) (item : δ) : Keyed key (post key box item) := by
  intro k waiting hwaiting
  unfold post at hwaiting
  rw [Dict.get?_put] at hwaiting
  split_ifs at hwaiting with hk
  · rw [hk, Option.some.inj hwaiting]
  · exact h k waiting hwaiting

theorem postAll_keyed {box : Box κ δ} (h : Keyed key box) (items : List δ) : Keyed key (postAll key box items) := by
  induction items generalizing box with
  | nil => exact h
  | cons item items ih => exact ih (post_keyed h item)

theorem mem_pending_post {box : Box κ δ} {item waiting : δ} (h : waiting ∈ (post key box item).pending.values) :
    waiting ∈ box.pending.values ∨ waiting = item := by
  obtain ⟨k, hk⟩ := Dict.mem_values_iff.mp h
  unfold post at hk
  rw [Dict.get?_put] at hk
  split_ifs at hk
  · exact .inr (Option.some.inj hk).symm
  · exact .inl (Dict.mem_values_iff.mpr ⟨k, hk⟩)

theorem mem_pending_postAll {box : Box κ δ} {items : List δ} {waiting : δ}
    (h : waiting ∈ (postAll key box items).pending.values) : waiting ∈ box.pending.values ∨ waiting ∈ items := by
  induction items generalizing box with
  | nil => exact .inl h
  | cons item items ih =>
    rcases ih h with h | h
    · rcases mem_pending_post h with h | rfl
      · exact .inl h
      · exact .inr List.mem_cons_self
    · exact .inr (List.mem_cons_of_mem _ h)

/-- An item is overwritten by a later one of its key, when what waits and what is posted comes in order. -/
theorem postAll_overwritten {before : δ → δ → Prop} {box : Box κ δ} (hkeyed : Keyed key box) {items : List δ}
    (hwaiting : ∀ waiting ∈ box.pending.values, ∀ item ∈ items, before waiting item) (hitems : items.Pairwise before)
    (hold : ∀ pair ∈ box.overwritten, key pair.1 = key pair.2 ∧ before pair.1 pair.2) :
    ∀ pair ∈ (postAll key box items).overwritten, key pair.1 = key pair.2 ∧ before pair.1 pair.2 := by
  induction items generalizing box with
  | nil => exact hold
  | cons item items ih =>
    rw [List.pairwise_cons] at hitems
    apply ih (post_keyed hkeyed item)
    · intro waiting hmem next hnext
      rcases mem_pending_post hmem with hmem | rfl
      · exact hwaiting waiting hmem next (List.mem_cons_of_mem _ hnext)
      · exact hitems.1 next hnext
    · exact hitems.2
    · intro pair hpair
      unfold post at hpair
      rcases List.mem_append.mp hpair with hpair | hpair
      · exact hold pair hpair
      · obtain ⟨old, hmem, rfl⟩ := List.mem_map.mp hpair
        have hget : box.pending.get? (key item) = some old := Option.mem_toList.mp hmem
        exact ⟨hkeyed _ _ hget, hwaiting old (Dict.mem_values_iff.mpr ⟨_, hget⟩) item List.mem_cons_self⟩

end Mailbox
