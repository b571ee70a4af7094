import AfsimNs3.Adapter.Encoder
import AfsimNs3.Adapter.Values
import AfsimNs3.Bridge.Models

/-!
# The string decoder against the encoders

`Quote` and `json.dumps` escape alike (`quote_eq_quoted`): the quote, the backslash and five control characters by a
letter, the other characters below `0x20` by their number. `JsonString` knows the letters and throws on a number, so it
gives back exactly the strings without such characters (`jsonStringAt_iff`), and then stops at the closing quote.
-/

namespace AfsimNs3.Adapter

/-- The loop of `JsonString` after the opening quote, with the value of `position` at the return. -/
def unquoteAt (position : ℕ) : Bytes → Except Bytes (Bytes × ℕ)
  | [] => .error (ascii "unterminated JSON string")
  | [c] => if c = 34 then .ok ([], position + 1) else .error (ascii "unterminated JSON string")
  | c :: escaped :: rest =>
    if c = 34 then .ok ([], position + 1)
    else if c ≠ 92 then (unquoteAt (position + 1) (escaped :: rest)).map (fun r => (c :: r.1, r.2))
    else
      match unescapeChar escaped with
      | some d => (unquoteAt (position + 2) rest).map (fun r => (d :: r.1, r.2))
      | none => .error (ascii "unsupported JSON string escape")

/-- `JsonString`, with the position after the closing quote. -/
def jsonStringAt (json key : Bytes) : Except Bytes (Bytes × ℕ) := do
  let position ← valueStart json key
  match json.drop position with
  | 34 :: rest => unquoteAt (position + 1) rest
  | _ => .error (ascii "JSON field is not a string: " ++ key)

theorem unquote_eq_map (position : ℕ) (text : Bytes) : unquote text = (unquoteAt position text).map Prod.fst := by
  fun_induction unquoteAt position text with
  | case1 => rfl
  | case2 position => rfl
  | case3 position c h => rw [unquote, if_neg h]; rfl
  | case4 position escaped rest => rfl
  | case5 position c escaped rest hquote hback ih =>
    rw [unquote, if_neg hquote, if_pos hback, ih]
    cases unquoteAt (position + 1) (escaped :: rest) <;> rfl
  | case6 position c escaped rest hquote hback d hd ih =>
    rw [unquote, if_neg hquote, if_neg hback, hd, ih]
    cases unquoteAt (position + 2) rest <;> rfl
  | case7 position c escaped rest hquote hback hd => rw [unquote, if_neg hquote, if_neg hback, hd]; rfl

theorem jsonString_eq_map (json key : Bytes) : jsonString json key = (jsonStringAt json key).map Prod.fst := by
  unfold jsonString jsonStringAt
  cases valueStart json key with
  | error e => rfl
  | ok position =>
    rw [Except.ok_bind, Except.ok_bind]
    rcases json.drop position with _ | ⟨c, rest⟩
    · rfl
    · by_cases hquote : c = 34
      · subst hquote
        exact unquote_eq_map _ _
      · simp [hquote, Except.map]

/-! ## Where the decoder stops -/

/-- The decoder passes over a text, which stands for some octets. -/
def Unquotes (text value : Bytes) : Prop :=
  ∀ position b, b ≠ [] → unquoteAt position (text ++ b) =
    (unquoteAt (position + text.length) b).map (fun r => (value ++ r.1, r.2))

theorem Unquotes.append {text text' value value' : Bytes} (h : Unquotes text value) (h' : Unquotes text' value') :
    Unquotes (text ++ text') (value ++ value') := by
  intro position b hb
  rw [List.append_assoc, h _ _ (List.append_ne_nil_of_right_ne_nil _ hb), h' _ _ hb, List.length_append, Nat.add_assoc]
  cases unquoteAt (position + (text.length + text'.length)) b with
  | error e => rfl
  | ok r => simp [Except.map]

theorem unquotes_nil : Unquotes [] [] := by
  intro position b _
  rw [List.nil_append, List.length_nil, Nat.add_zero]
  cases unquoteAt position b <;> rfl

theorem unquotes_plain {text : Bytes} (h : ∀ c ∈ text, c ≠ 34 ∧ c ≠ 92) : Unquotes text text := by
  induction text with
  | nil => exact unquotes_nil
  | cons c text ih =>
    rw [List.forall_mem_cons] at h
    have hone : Unquotes [c] [c] := by
      intro position b hb
      cases b with
      | nil => exact absurd rfl hb
      | cons d b =>
        rw [List.singleton_append, unquoteAt, if_neg h.1.1, if_pos h.1.2]
        rfl
    exact hone.append (ih h.2)

theorem unquotes_short {c : CodePoint} {d : UInt8} (h : (d, c.val) ∈ shortEscapes) : Unquotes [92, d] (utf8Char c) := by
  have htable : ∀ e ∈ shortEscapes, unescapeChar e.1 = some (UInt8.ofNat e.2) ∧ e.2 < 128 := by decide
  obtain ⟨hd, hc⟩ := htable _ h
  intro position b _
  rw [List.cons_append, List.singleton_append, unquoteAt, if_neg (by decide), if_neg (by decide), hd, utf8Char_of_lt hc]
  rfl

theorem unquotes_escapeChar {c : CodePoint} (h : PlainChar c) : Unquotes (escapeChar c) (utf8Char c) := by
  have hform := escaped c
  generalize escapeChar c = text at hform ⊢
  cases hform with
  | short d hd => exact unquotes_short hd
  | control hlow hshort =>
    exfalso
    simp only [shortEscapes, List.map_cons, List.map_nil, List.mem_cons, List.not_mem_nil, or_false] at hshort
    simp only [PlainChar, List.mem_cons, List.not_mem_nil, or_false] at h
    omega
  | plain hhigh hquote hback => exact unquotes_plain (plain_utf8Char hquote hback)

theorem unquotes_escape {s : Str} (h : Plain s) : Unquotes (escape s) (utf8 s) := by
  induction s with
  | nil => exact unquotes_nil
  | cons c s ih =>
    rw [plain_cons] at h
    rw [escape, List.flatMap_cons, utf8_cons]
    exact (unquotes_escapeChar h.1).append (ih h.2)

/-- **A quoted string is read back up to its closing quote** when it needs no numeric escape, and only then. -/
theorem unquoteAt_escape_iff (position : ℕ) (s : Str) (rest : Bytes) :
    unquoteAt position (escape s ++ 34 :: rest) = .ok (utf8 s, position + (escape s).length + 1) ↔ Plain s := by
  constructor
  · intro h
    by_contra hs
    have herror := unquote_escape s rest
    rw [if_neg hs, unquote_eq_map position, h] at herror
    cases herror
  · intro hs
    have hquote : unquoteAt (position + (escape s).length) (34 :: rest) =
        .ok ([], position + (escape s).length + 1) := by
      cases rest with
      | nil => rfl
      | cons d rest => rfl
    rw [unquotes_escape hs position (34 :: rest) (List.cons_ne_nil _ _), hquote, Except.map, List.append_nil]

/-! ## The two encoders -/

theorem utf8_escapeText (c : CodePoint) : utf8 (Loads.escapeText c) = escapeChar c := by
  have hcontrol : ∀ n < 32, utf8 (Loads.controlText n) = controlEscape n := by decide
  have hone : utf8 [c] = utf8Char c := by rw [utf8_cons]; exact List.append_nil _
  unfold Loads.escapeText escapeChar
  split_ifs with h1 h2 h3 h4 h5 h6 h7 h8
  · rfl
  · rfl
  · rfl
  · rfl
  · rfl
  · rfl
  · rfl
  · exact hcontrol _ h8
  · exact hone

/-- **The writer of the client and the one of the service escape alike.** -/
theorem quote_eq_quoted (s : Str) : quote (utf8 s) = quoted s := by
  have hbody : utf8 (s.flatMap Loads.escapeText) = escape s := by
    rw [utf8_flatMap]
    exact List.flatMap_congr fun c _ => utf8_escapeText c
  have hquote : utf8Char 34 = [34] := by decide
  have hend : utf8 [34] = [34] := by decide
  rw [quote_utf8, Loads.quotedText, utf8_cons, utf8_append, hquote, hbody, hend, List.singleton_append]
  rfl

theorem dumps_str (floatText : ℚ → Bytes) (s : Str) : dumps floatText (.str s) = quoted s := by rw [dumps]

/-- The text of a string in a message, as `Quote` or as `json.dumps` writes it. -/
inductive Encodes (floatText : ℚ → Bytes) (s : Str) : Bytes → Prop
  | quote : Encodes floatText s (quote (utf8 s))
  | dumps : Encodes floatText s (dumps floatText (.str s))

theorem Encodes.eq_quoted {floatText : ℚ → Bytes} {s : Str} {encoding : Bytes} (h : Encodes floatText s encoding) :
    encoding = quoted s := by
  cases h with
  | quote => exact quote_eq_quoted s
  | dumps => exact dumps_str floatText s

/-- **`JsonString` gives back a string and stops at its closing quote exactly when it has no character below `0x20` but
the five with a letter**, whichever encoder wrote it. -/
theorem jsonStringAt_iff {floatText : ℚ → Bytes} {s : Str} {encoding : Bytes} (hencodes : Encodes floatText s encoding)
    {json key a rest : Bytes} (hfound : valueStart json key = .ok a.length) (hjson : json = a ++ (encoding ++ rest)) :
    jsonStringAt json key = .ok (utf8 s, a.length + encoding.length) ↔ Plain s := by
  have hdrop : json.drop a.length = 34 :: (escape s ++ 34 :: rest) := by
    rw [hjson, List.drop_left, hencodes.eq_quoted, quoted]
    simp only [List.cons_append, List.append_assoc, List.nil_append]
  have hend : a.length + encoding.length = a.length + 1 + (escape s).length + 1 := by
    rw [hencodes.eq_quoted, quoted]
    simp only [List.length_cons, List.length_append, List.length_nil]
    omega
  rw [jsonStringAt, hfound, Except.ok_bind, hdrop, hend]
  exact unquoteAt_escape_iff _ s rest

/-! ## Two entity IDs -/

/-- A message whose only field is an entity ID. -/
def idMessage (encoding : Bytes) : Bytes := ascii "\x7b\"entity_id\":" ++ (encoding ++ ascii "\x7d")

/-- An ID with characters that are escaped by a letter. -/
def letterEscapedId : Str := str "a\"b\\c\nd"

theorem letterEscapedId_read :
    jsonStringAt (idMessage (quote (utf8 letterEscapedId))) (ascii "entity_id") =
      .ok (utf8 letterEscapedId, (ascii "\x7b\"entity_id\":").length + (quote (utf8 letterEscapedId)).length) :=
  have hencodes : Encodes (fun _ => []) letterEscapedId (quote (utf8 letterEscapedId)) := .quote
  (jsonStringAt_iff hencodes rfl rfl).mpr (by decide)

/-- An ID with a character that is escaped by its number. -/
def numberEscapedId : Str := [97, 1, 98]

/-- The service accepts the ID and writes it as `a\u0001b`, on which `JsonString` throws. -/
theorem numberEscapedId_not_read : ¬ ∀ (floatText : ℚ → Bytes) (data : Fields) (field s : Str)
    (encoding json key a rest : Bytes), Bridge.requiredText data field = .ok s → Encodes floatText s encoding →
      valueStart json key = .ok a.length → json = a ++ (encoding ++ rest) →
        jsonStringAt json key = .ok (utf8 s, a.length + encoding.length) := by
  intro hall
  have hread := hall (fun _ => []) [(str "entity_id", .str numberEscapedId)] (str "entity_id") numberEscapedId
    (quoted numberEscapedId) (idMessage (quoted numberEscapedId)) (ascii "entity_id") (ascii "\x7b\"entity_id\":")
    (ascii "\x7d") (by decide) (dumps_str (fun _ => []) numberEscapedId ▸ .dumps) rfl rfl
  revert hread
  decide +kernel

end AfsimNs3.Adapter
