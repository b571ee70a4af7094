import AfsimNs3.Adapter.Containers

/-!
# The loops of the array scan

`ValueStart`, `MatchingEnd` and `ObjectArray` loop by loop: every octet is fetched by its position, and a loop is cut
off after a number of turns. With more turns than octets no loop is cut off, and no octet is fetched past the end
(`objectArray_eq_loop`): an object may end after the array does, but not after the text, and every turn moves on.
-/

namespace AfsimNs3.Adapter
open Grammar

/-- How the loops end without a result. -/
inductive Fault where
  | thrown (what : Bytes)
  /-- An octet past the end was fetched. -/
  | pastEnd
  /-- A loop was cut off. -/
  | running
  deriving DecidableEq

/-- `json[position]`. -/
def octetAt (json : Bytes) (position : ℕ) : Except Fault UInt8 :=
  match json[position]? with
  | some c => .ok c
  | none => .error .pastEnd

/-- `json.substr(position, count)`. -/
def substr (json : Bytes) (position count : ℕ) : Except Fault Bytes :=
  if json.length < position then .error .pastEnd else .ok ((json.drop position).take count)

namespace Loops

section
variable (json : Bytes)

/-- The loops over white space, and over what stands between objects. -/
def skip (skipped : UInt8 → Bool) (bound : ℕ) : ℕ → ℕ → Except Fault ℕ
  | 0, _ => .error .running
  | turns + 1, position =>
    if bound ≤ position then .ok position
    else do
      let character ← octetAt json position
      if skipped character then skip skipped bound turns (position + 1) else .ok position

/-- The loop of `MatchingEnd`. -/
def scan (opening closing : UInt8) : ℕ → ℕ → ℤ → Bool → Bool → Except Fault ℕ
  | 0, _, _, _, _ => .error .running
  | turns + 1, position, depth, inString, escaped =>
    if json.length ≤ position then .error (.thrown (ascii "unterminated JSON container"))
    else do
      let character ← octetAt json position
      if inString then
        if escaped then scan opening closing turns (position + 1) depth true false
        else if character = 92 then scan opening closing turns (position + 1) depth true true
        else if character = 34 then scan opening closing turns (position + 1) depth false false
        else scan opening closing turns (position + 1) depth true false
      else if character = 34 then scan opening closing turns (position + 1) depth true escaped
      else if character = opening then scan opening closing turns (position + 1) (depth + 1) false escaped
      else if character = closing then
        if depth - 1 = 0 then .ok position
        else scan opening closing turns (position + 1) (depth - 1) false escaped
      else scan opening closing turns (position + 1) depth false escaped

def matchingEnd (turns begin : ℕ) (opening closing : UInt8) : Except Fault ℕ :=
  scan json opening closing turns begin 0 false false

/-- The loop of `ObjectArray`; those inside it may make `inner` turns each. -/
def objects (key : Bytes) (arrayEnd inner : ℕ) : ℕ → ℕ → Except Fault (List Bytes)
  | 0, _ => .error .running
  | turns + 1, position =>
    if arrayEnd ≤ position then .ok []
    else do
      let position ← skip json isGap arrayEnd inner position
      if position = arrayEnd then .ok []
      else do
        let character ← octetAt json position
        if character ≠ 123 then .error (.thrown (key ++ ascii " entries must be objects"))
        else do
          let objectEnd ← matchingEnd json inner position 123 125
          let object ← substr json position (objectEnd - position + 1)
          let objects ← objects key arrayEnd inner turns (objectEnd + 1)
          pure (object :: objects)

def valueStart (turns : ℕ) (key : Bytes) : Except Fault ℕ :=
  match find json (needleOf key) 0 with
  | none => .error (.thrown (ascii "missing JSON field: " ++ key))
  | some keyPosition =>
    match find json [58] (keyPosition + (needleOf key).length) with
    | none => .error (.thrown (ascii "invalid JSON field: " ++ key))
    | some colon => skip json isSpace json.length turns (colon + 1)

def objectArray (turns : ℕ) (key : Bytes) : Except Fault (List Bytes) := do
  let position ← valueStart json turns key
  if json.length ≤ position then .error (.thrown (key ++ ascii " must be a JSON array"))
  else do
    let character ← octetAt json position
    if character ≠ 91 then .error (.thrown (key ++ ascii " must be a JSON array"))
    else do
      let arrayEnd ← matchingEnd json turns position 91 93
      objects json key arrayEnd turns turns (position + 1)

def effectObjects (turns : ℕ) : Except Fault (List Bytes) := objectArray json turns (ascii "effects")

end

end Loops

/-! ## Positions -/

/-- The octet at a position within the text, and the rest. -/
theorem octetAt_of_lt {json : Bytes} {position : ℕ} (h : position < json.length) :
    ∃ c, octetAt json position = .ok c ∧ json[position]? = some c ∧ json.drop position = c :: json.drop (position + 1) := by
  refine ⟨json[position], ?_, List.getElem?_eq_getElem h, List.drop_eq_getElem_cons h⟩
  rw [octetAt, List.getElem?_eq_getElem h]

/-- The end found is one of the octets scanned. -/
theorem scanEnd_bounds {opening closing : UInt8} {text : Bytes} {position found : ℕ} {depth : ℤ}
    {inString escaped : Bool} (h : scanEnd opening closing position depth inString escaped text = .ok found) :
    position ≤ found ∧ found < position + text.length := by
  induction text generalizing position depth inString escaped with
  | nil => cases h
  | cons c text ih =>
    have hnext : ∀ {depth : ℤ} {inString escaped : Bool},
        scanEnd opening closing (position + 1) depth inString escaped text = .ok found →
          position ≤ found ∧ found < position + (c :: text).length := by
      intro depth inString escaped h
      have hbounds := ih h
      rw [List.length_cons]
      omega
    rw [scanEnd] at h
    split_ifs at h
    all_goals first
      | exact hnext h
      | (obtain rfl := Except.ok.inj h
         exact ⟨Nat.le_refl _, Nat.lt_add_of_pos_right (Nat.succ_pos _)⟩)

theorem matchingEnd_bounds {json : Bytes} {begin found : ℕ} {opening closing : UInt8}
    (h : matchingEnd json begin opening closing = .ok found) : begin ≤ found ∧ found < json.length := by
  have hbounds := scanEnd_bounds h
  rw [List.length_drop] at hbounds
  omega

namespace Loops

/-! ## Each loop -/

theorem skip_eq {json : Bytes} {skipped : UInt8 → Bool} {bound : ℕ} (hbound : bound ≤ json.length) {turns position : ℕ}
    (hturns : bound - position < turns) : skip json skipped bound turns position =
      .ok (position + (((json.drop position).take (bound - position)).takeWhile skipped).length) := by
  induction turns generalizing position with
  | zero => exact absurd hturns (Nat.not_lt_zero _)
  | succ turns ih =>
    rw [skip]
    split_ifs with hend
    · rw [Nat.sub_eq_zero_of_le hend, List.take_zero, List.takeWhile_nil, List.length_nil, Nat.add_zero]
    · obtain ⟨c, hfetch, -, hdrop⟩ := octetAt_of_lt (lt_of_lt_of_le (not_le.mp hend) hbound)
      have htake : (json.drop position).take (bound - position) =
          c :: (json.drop (position + 1)).take (bound - (position + 1)) := by
        rw [hdrop, show bound - position = bound - (position + 1) + 1 by omega, List.take_succ_cons]
      rw [hfetch, Except.ok_bind, htake]
      split_ifs with hc
      · rw [ih (by omega), List.takeWhile_cons_of_pos hc, List.length_cons]
        congr 1
        omega
      · rw [List.takeWhile_cons_of_neg hc, List.length_nil, Nat.add_zero]

theorem scan_eq {json : Bytes} {opening closing : UInt8} {turns position : ℕ} {depth : ℤ} {inString escaped : Bool}
    (hturns : json.length - position < turns) : scan json opening closing turns position depth inString escaped =
      (scanEnd opening closing position depth inString escaped (json.drop position)).mapError .thrown := by
  induction turns generalizing position depth inString escaped with
  | zero => exact absurd hturns (Nat.not_lt_zero _)
  | succ turns ih =>
    rw [scan]
    by_cases hend : json.length ≤ position
    · rw [if_pos hend, List.drop_eq_nil_of_le hend]
      rfl
    · obtain ⟨c, hfetch, -, hdrop⟩ := octetAt_of_lt (not_le.mp hend)
      have hnext : json.length - (position + 1) < turns := by omega
      rw [if_neg hend, hfetch, Except.ok_bind, hdrop, scanEnd]
      split_ifs
      all_goals first
        | exact ih hnext
        | rfl

theorem matchingEnd_eq_loop {json : Bytes} {turns begin : ℕ} {opening closing : UInt8} (hturns : json.length < turns) :
    matchingEnd json turns begin opening closing = (Adapter.matchingEnd json begin opening closing).mapError .thrown :=
  scan_eq (by omega)

/-- A turn ends past the octet it began at, so the octets up to the end of the array bound the turns on both sides. -/
theorem objects_eq {json key : Bytes} {arrayEnd inner : ℕ} (hend : arrayEnd < json.length) (hinner : json.length < inner)
    {turns fuel position : ℕ} (hturns : arrayEnd - position < turns) (hfuel : arrayEnd - position < fuel) :
    objects json key arrayEnd inner turns position = (objectsFrom json key arrayEnd fuel position).mapError .thrown := by
  induction turns generalizing fuel position with
  | zero => exact absurd hturns (Nat.not_lt_zero _)
  | succ turns ih =>
    obtain ⟨fuel, rfl⟩ : ∃ n, fuel = n + 1 := ⟨fuel - 1, by omega⟩
    rw [objects, objectsFrom]
    by_cases hdone : arrayEnd ≤ position
    · rw [if_pos hdone, if_pos hdone]
      rfl
    rw [if_neg hdone, if_neg hdone, skip_eq (Nat.le_of_lt hend) (by omega), Except.ok_bind]
    dsimp only
    have hgap : (((json.drop position).take (arrayEnd - position)).takeWhile isGap).length ≤ arrayEnd - position :=
      (List.takeWhile_prefix _).length_le.trans (List.length_take_le _ _)
    generalize (((json.drop position).take (arrayEnd - position)).takeWhile isGap).length = gap at hgap ⊢
    by_cases hlast : position + gap = arrayEnd
    · rw [if_pos hlast, if_pos hlast]
      rfl
    obtain ⟨c, hfetch, hget, -⟩ := octetAt_of_lt (show position + gap < json.length by omega)
    rw [if_neg hlast, if_neg hlast, hfetch, Except.ok_bind, hget]
    by_cases hobject : c = 123
    · rw [if_neg (not_not_intro hobject), if_neg (not_not_intro (congrArg some hobject)), matchingEnd_eq_loop hinner]
      cases hmatch : Adapter.matchingEnd json (position + gap) 123 125 with
      | error what => rfl
      | ok objectEnd =>
        have hbounds := matchingEnd_bounds hmatch
        have hsubstr : substr json (position + gap) (objectEnd - (position + gap) + 1) =
            .ok ((json.drop (position + gap)).take (objectEnd - (position + gap) + 1)) := if_neg (by omega)
        have hrest := ih (show arrayEnd - (objectEnd + 1) < turns by omega)
          (show arrayEnd - (objectEnd + 1) < fuel by omega)
        rw [Except.mapError, Except.ok_bind, hsubstr, Except.ok_bind, hrest, Except.ok_bind]
        cases objectsFrom json key arrayEnd fuel (objectEnd + 1) <;> rfl
    · have hne : some c ≠ some 123 := fun h => hobject (Option.some.inj h)
      rw [if_pos hobject, if_pos hne]
      rfl

theorem valueStart_eq {json key : Bytes} {turns : ℕ} (hturns : json.length < turns) :
    valueStart json turns key = (Adapter.valueStart json key).mapError .thrown := by
  rw [valueStart, Adapter.valueStart]
  cases find json (needleOf key) 0 with
  | none => rfl
  | some keyPosition =>
    dsimp only
    cases find json [58] (keyPosition + (needleOf key).length) with
    | none => rfl
    | some colon =>
      have hwhole : (json.drop (colon + 1)).take (json.length - (colon + 1)) = json.drop (colon + 1) :=
        List.take_of_length_le (by rw [List.length_drop])
      dsimp only
      rw [skip_eq (Nat.le_refl _) (by omega), hwhole]
      rfl

/-- With more turns than octets the loops end by themselves, within the text, and as the scan does. -/
theorem objectArray_eq_loop {json : Bytes} {turns : ℕ} (hturns : json.length < turns) (key : Bytes) :
    objectArray json turns key = (Adapter.objectArray json key).mapError .thrown := by
  rw [objectArray, Adapter.objectArray, valueStart_eq hturns]
  cases Adapter.valueStart json key with
  | error what => rfl
  | ok position =>
    rw [Except.mapError, Except.ok_bind, Except.ok_bind]
    by_cases hend : json.length ≤ position
    · have hnone : json[position]? ≠ some 91 := by
        rw [List.getElem?_eq_none hend]
        exact (Option.some_ne_none _).symm
      rw [if_pos hend, if_pos hnone]
      rfl
    obtain ⟨c, hfetch, hget, -⟩ := octetAt_of_lt (not_le.mp hend)
    rw [if_neg hend, hfetch, Except.ok_bind, hget]
    by_cases harray : c = 91
    · rw [if_neg (not_not_intro harray), if_neg (not_not_intro (congrArg some harray)), matchingEnd_eq_loop hturns]
      cases hmatch : Adapter.matchingEnd json position 91 93 with
      | error what => rfl
      | ok arrayEnd =>
        have hbounds := matchingEnd_bounds hmatch
        rw [Except.mapError, Except.ok_bind, Except.ok_bind]
        exact objects_eq hbounds.2 hturns (by omega) (by omega)
    · have hne : some c ≠ some 91 := fun h => harray (Option.some.inj h)
      rw [if_pos harray, if_pos hne]
      rfl

end Loops

/-! ## The scan as a whole -/

/-- On the grammar the scan is exact: the end of a container is its last octet, and the objects of an array come out as
they stand. On any text the loops end, within it, with a list or an exception. -/
theorem arrays_scanned :
    (∀ (json a text rest : Bytes) (opening closing : UInt8), ValueText text → Brackets opening closing →
      text.head? = some opening → json = a ++ (text ++ rest) →
        matchingEnd json a.length opening closing = .ok (a.length + (text.length - 1))) ∧
    (∀ (json key a text rest : Bytes) (texts : List Bytes), ObjectsText text texts → json = a ++ (text ++ rest) →
      valueStart json key = .ok a.length →
        matchingEnd json a.length 91 93 = .ok (a.length + (text.length - 1)) ∧
        objectArray json key = .ok texts ∧ (key = ascii "effects" → effectObjects json = .ok texts)) ∧
    ∀ (json : Bytes) (turns : ℕ), json.length < turns →
      (∀ begin opening closing, Loops.matchingEnd json turns begin opening closing =
        (matchingEnd json begin opening closing).mapError .thrown) ∧
      (∀ key, Loops.objectArray json turns key = (objectArray json key).mapError .thrown) ∧
      Loops.effectObjects json turns = (effectObjects json).mapError .thrown := by
  refine ⟨?_, ?_, ?_⟩
  · intro json a text rest opening closing hvalue hbrackets hopen hjson
    exact matchingEnd_value hvalue hbrackets hopen hjson
  · intro json key a text rest texts hobjects hjson hfound
    have harray := objectArray_text hobjects hjson hfound
    have hopen : text.head? = some 91 := by cases hobjects <;> rfl
    refine ⟨matchingEnd_value hobjects.valueText (.inl ⟨rfl, rfl⟩) hopen hjson, harray, ?_⟩
    rintro rfl
    exact harray
  · intro json turns hturns
    refine ⟨?_, Loops.objectArray_eq_loop hturns, Loops.objectArray_eq_loop hturns _⟩
    intro begin opening closing
    exact Loops.matchingEnd_eq_loop hturns

/-- White space about the tokens, and in a string brackets, a brace and a quote. -/
theorem spaced_objects : ObjectsText (ascii "[ \x7b \"a\" : \"]\x7d\\\"\" \x7d , \x7b \x7d ]")
    [ascii "\x7b \"a\" : \"]\x7d\\\"\" \x7d", ascii "\x7b \x7d"] := by
  let member : Member := ⟨⟨[32], ascii "\"a\"", [32]⟩, ⟨[32], ascii "\"]\x7d\\\"\"", [32]⟩⟩
  have hblank : Blank [32] := forall_of_all (by decide)
  have hname : StringText (ascii "\"a\"") := by
    have hchars : ∀ char ∈ [ascii "a"], CharText char :=
      List.forall_mem_singleton.mpr (.plain (by decide) (by decide) (by decide))
    exact .mk hchars
  have hvalue : StringText (ascii "\"]\x7d\\\"\"") := by
    have hchars : ∀ char ∈ [ascii "]", ascii "\x7d", ascii "\\\""], CharText char := by
      simp only [List.forall_mem_cons, List.not_mem_nil, false_implies, implies_true, and_true]
      exact ⟨.plain (by decide) (by decide) (by decide), .plain (by decide) (by decide) (by decide), .short (by decide)⟩
    exact .mk hchars
  have hnamed : ∀ m ∈ [member], m.Named :=
    List.forall_mem_singleton.mpr ⟨hname, ⟨hblank, hblank⟩, ⟨hblank, hblank⟩⟩
  have hmember : ∀ m ∈ [member], ValueText m.value.text := List.forall_mem_singleton.mpr (.string hvalue)
  have hfirst : IsObject (ascii "\x7b \"a\" : \"]\x7d\\\"\" \x7d") := ⟨.object hnamed hmember, rfl⟩
  have hsecond : IsObject (ascii "\x7b \x7d") := ⟨.emptyObject hblank, rfl⟩
  let slots : List Slot :=
    [⟨[32], ascii "\x7b \"a\" : \"]\x7d\\\"\" \x7d", [32]⟩, ⟨[32], ascii "\x7b \x7d", [32]⟩]
  have hspaced : ∀ slot ∈ slots, slot.Spaced :=
    List.forall_mem_cons.mpr ⟨⟨hblank, hblank⟩, List.forall_mem_singleton.mpr ⟨hblank, hblank⟩⟩
  have hobjects : ∀ slot ∈ slots, IsObject slot.text :=
    List.forall_mem_cons.mpr ⟨hfirst, List.forall_mem_singleton.mpr hsecond⟩
  exact .slots hspaced hobjects

def spacedLine : Bytes :=
  ascii "\x7b\"effects\": [ \x7b \"a\" : \"]\x7d\\\"\" \x7d , \x7b \x7d ],\"n\":1\x7d"

theorem spaced_array_scanned :
    matchingEnd spacedLine 12 91 93 = .ok 37 ∧
    effectObjects spacedLine = .ok [ascii "\x7b \"a\" : \"]\x7d\\\"\" \x7d", ascii "\x7b \x7d"] ∧
    Loops.effectObjects spacedLine 46 = (effectObjects spacedLine).mapError .thrown := by
  have hfound : valueStart spacedLine (ascii "effects") = .ok (ascii "\x7b\"effects\": ").length := by decide
  have hjson : spacedLine = ascii "\x7b\"effects\": " ++
      (ascii "[ \x7b \"a\" : \"]\x7d\\\"\" \x7d , \x7b \x7d ]" ++ ascii ",\"n\":1\x7d") := by decide
  obtain ⟨hend, -, hread⟩ := arrays_scanned.2.1 _ _ _ _ _ _ spaced_objects hjson hfound
  exact ⟨hend, hread rfl, (arrays_scanned.2.2 _ 46 (by decide)).2.2⟩

end AfsimNs3.Adapter
