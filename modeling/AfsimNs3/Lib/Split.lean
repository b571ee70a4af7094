import Mathlib.Data.List.Basic

/-!
# Texts and their separators

Two uses of a separator. Fields joined by it (`List.intercalate`) give the same text exactly when they have the same
pieces between separators (`intercalate_eq_iff`). A stream cut by it has complete segments, each ended by a
separator, and a leftover after the last one; `segments_append` and `leftover_append` say what arrives with more of
the stream.
-/

namespace Split

variable {α : Type*} [BEq α] [LawfulBEq α] (sep : α)

/-! ## Joined fields -/

/-- The pieces between the separators of a joined text are those of its fields. -/
theorem splitOn_intercalate {fields : List (List α)} (h : fields ≠ []) :
    ([sep].intercalate fields).splitOn sep = fields.flatMap (fun field => field.splitOn sep) := by
  induction fields with
  | nil => exact absurd rfl h
  | cons field rest ih =>
    cases rest with
    | nil => simp
    | cons next rest =>
      have hjoin : [sep].intercalate (field :: next :: rest) = field ++ sep :: [sep].intercalate (next :: rest) := by
        simp [List.intercalate_cons_cons]
      rw [hjoin, List.splitOn_append_cons_self, ih (List.cons_ne_nil next rest)]
      rfl

/-- **Joined texts are equal exactly when their fields have the same pieces.** -/
theorem intercalate_eq_iff {fields fields' : List (List α)} (h : fields ≠ []) (h' : fields' ≠ []) :
    [sep].intercalate fields = [sep].intercalate fields' ↔
      fields.flatMap (fun field => field.splitOn sep) = fields'.flatMap (fun field => field.splitOn sep) := by
  constructor
  · intro heq
    rw [← splitOn_intercalate sep h, ← splitOn_intercalate sep h', heq]
  · intro heq
    rw [← splitOn_intercalate sep h, ← splitOn_intercalate sep h'] at heq
    have hjoin := congrArg (fun pieces => [sep].intercalate pieces) heq
    simpa only [List.intercalate_splitOn] using hjoin

/-- Fields without the separator are their own pieces. -/
theorem flatMap_splitOn_of_notMem {fields : List (List α)} (h : ∀ field ∈ fields, sep ∉ field) :
    fields.flatMap (fun field => field.splitOn sep) = fields := by
  have hpieces : ∀ field ∈ fields, field.splitOn sep = [field] := fun field hf => List.splitOn_eq_singleton (h field hf)
  rw [List.flatMap_congr hpieces]
  simp

/-- Joined fields without the separator give the text apart. -/
theorem intercalate_inj_of_notMem {fields fields' : List (List α)} (h : ∀ field ∈ fields, sep ∉ field)
    (h' : ∀ field ∈ fields', sep ∉ field) (hne : fields ≠ []) (hne' : fields' ≠ [])
    (heq : [sep].intercalate fields = [sep].intercalate fields') : fields = fields' := by
  rw [intercalate_eq_iff sep hne hne', flatMap_splitOn_of_notMem sep h, flatMap_splitOn_of_notMem sep h'] at heq
  exact heq

/-! ## Segments of a stream -/

/-- The segments of a stream that a separator ends. -/
def segments (stream : List α) : List (List α) := (stream.splitOn sep).dropLast

/-- What follows the last separator. -/
def leftover (stream : List α) : List α := (stream.splitOn sep).getLast (List.splitOn_ne_nil sep stream)

variable {sep} {front rest stream more : List α}

theorem segments_of_notMem (h : sep ∉ stream) : segments sep stream = [] := by
  simp [segments, List.splitOn_eq_singleton h]

theorem leftover_of_notMem (h : sep ∉ stream) : leftover sep stream = stream := by
  simp [leftover, List.splitOn_eq_singleton h]

theorem segments_append_cons (h : sep ∉ front) :
    segments sep (front ++ sep :: rest) = front :: segments sep rest := by
  unfold segments
  rw [List.splitOn_append_cons_self_of_not_mem h, List.dropLast_cons_of_ne_nil (List.splitOn_ne_nil sep rest)]

theorem leftover_append_cons (h : sep ∉ front) : leftover sep (front ++ sep :: rest) = leftover sep rest := by
  have hsplit : (front ++ sep :: rest).splitOn sep = front :: rest.splitOn sep :=
    List.splitOn_append_cons_self_of_not_mem h rest
  unfold leftover
  simp only [hsplit]
  exact List.getLast_cons (List.splitOn_ne_nil sep rest)

/-- The segments of lines written one after the other. -/
theorem segments_lines {lines : List (List α)} (h : ∀ line ∈ lines, sep ∉ line) :
    segments sep (lines.flatMap fun line => line ++ [sep]) = lines := by
  induction lines with
  | nil => exact segments_of_notMem List.not_mem_nil
  | cons line lines ih =>
    rw [List.forall_mem_cons] at h
    rw [List.flatMap_cons, List.append_assoc, List.singleton_append, segments_append_cons h.1, ih h.2]

omit [BEq α] [LawfulBEq α] in
/-- The stream has no separator, or a first one. -/
theorem first_cut (sep : α) (stream : List α) :
    sep ∉ stream ∨ ∃ front rest, stream = front ++ sep :: rest ∧ sep ∉ front := by
  rw [or_iff_not_imp_left, not_not]
  intro h
  obtain ⟨front, rest, heq, hfront⟩ := List.eq_append_cons_of_mem h
  exact ⟨front, rest, heq, hfront⟩

omit [BEq α] [LawfulBEq α] in
/-- **Induction over the segments** of a stream. -/
theorem segment_induction (sep : α) {P : List α → Prop} (hlast : ∀ last, sep ∉ last → P last)
    (hcut : ∀ front rest, sep ∉ front → P rest → P (front ++ sep :: rest)) (stream : List α) : P stream := by
  induction hn : stream.length using Nat.strongRecOn generalizing stream with
  | ind n ih =>
    rcases first_cut sep stream with hnone | ⟨front, rest, rfl, hfront⟩
    · exact hlast stream hnone
    · have hlt : rest.length < n := by
        simp only [List.length_append, List.length_cons] at hn
        omega
      exact hcut front rest hfront (ih rest.length hlt rest rfl)

/-- The pieces have no separator, and nothing that is not in the stream. -/
theorem mem_splitOn {piece : List α} (h : piece ∈ stream.splitOn sep) : sep ∉ piece ∧ ∀ c ∈ piece, c ∈ stream := by
  induction stream using segment_induction sep with
  | hlast last hlast =>
    rw [List.splitOn_eq_singleton hlast, List.mem_singleton] at h
    subst h
    exact ⟨hlast, fun c hc => hc⟩
  | hcut front rest hfront ih =>
    rw [List.splitOn_append_cons_self_of_not_mem hfront, List.mem_cons] at h
    rcases h with rfl | h
    · exact ⟨hfront, fun c hc => List.mem_append_left _ hc⟩
    · obtain ⟨hfree, hsub⟩ := ih h
      exact ⟨hfree, fun c hc => List.mem_append_right _ (List.mem_cons_of_mem _ (hsub c hc))⟩

/-- **What arrives with more of the stream** continues the leftover. -/
theorem segments_append (stream more : List α) :
    segments sep (stream ++ more) = segments sep stream ++ segments sep (leftover sep stream ++ more) := by
  induction stream using segment_induction sep with
  | hlast last h => rw [segments_of_notMem h, leftover_of_notMem h, List.nil_append]
  | hcut front rest h ih =>
    rw [List.append_assoc, List.cons_append, segments_append_cons h, segments_append_cons h, leftover_append_cons h, ih,
      List.cons_append]

theorem leftover_append (stream more : List α) :
    leftover sep (stream ++ more) = leftover sep (leftover sep stream ++ more) := by
  induction stream using segment_induction sep with
  | hlast last h => rw [leftover_of_notMem h]
  | hcut front rest h ih =>
    rw [List.append_assoc, List.cons_append, leftover_append_cons h, leftover_append_cons h, ih]

end Split
