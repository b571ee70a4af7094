import AfsimNs3.Lib.Doc

/-!
# Texts that end too early

A JSON object is read at its closing brace: what is scanned out of a text is scanned out of every longer one
(`value_extends`, for values that are not numbers or do not end the text). So no proper part of the text of an object,
from its beginning, is a JSON text of its own (`Reads.loads_cut`), and strict UTF-8 adds no second chance
(`decode_append`).
-/

/-! ## UTF-8 -/

/-- One character in front. -/
theorem bind_cons_append {rest more : Bytes} {c : CodePoint} {s : Str}
    (h : (decode rest >>= fun u => some (c :: u)) = some s)
    (ih : ∀ {u}, decode rest = some u → decode (rest ++ more) = (decode more).map (fun t => u ++ t)) :
    (decode (rest ++ more) >>= fun u => some (c :: u)) = (decode more).map (fun t => s ++ t) := by
  obtain ⟨u, hu, hs⟩ := Option.bind_eq_some_iff.mp h
  obtain rfl := Option.some.inj hs
  rw [ih hu]
  cases decode more <;> rfl

/-- **Octets that are decoded are decoded in front of any others.** -/
theorem decode_append {octets more : Bytes} {s : Str} (h : decode octets = some s) :
    decode (octets ++ more) = (decode more).map (fun t => s ++ t) := by
  have hpeel : ∀ {α β : Type} {x : Option α} {f : α → Option β} {b : β}, (x >>= f) = some b →
      ∃ a, x = some a ∧ f a = some b := Option.bind_eq_some_iff.mp
  fun_induction decode octets generalizing s with
  | case1 =>
    obtain rfl := Option.some.inj h
    exact Option.map_id'.symm
  | case2 a rest h1 ih =>
    obtain ⟨c, hc, h⟩ := hpeel h
    rw [List.cons_append, decode.eq_def]
    dsimp only
    rw [if_pos h1, bind_of_some hc]
    exact bind_cons_append h ih
  | case3 a h1 h2 b rest ih =>
    obtain ⟨y, hy, h⟩ := hpeel h
    obtain ⟨c, hc, h⟩ := hpeel h
    rw [List.cons_append, List.cons_append, decode.eq_def]
    dsimp only
    rw [if_neg h1, if_pos h2, bind_of_some hy, bind_of_some hc]
    exact bind_cons_append h ih
  | case4 => cases h
  | case5 a h1 h2 h3 b d rest ih =>
    obtain ⟨y, hy, h⟩ := hpeel h
    obtain ⟨z, hz, h⟩ := hpeel h
    obtain ⟨c, hc, h⟩ := hpeel h
    rw [List.cons_append, List.cons_append, List.cons_append, decode.eq_def]
    dsimp only
    rw [if_neg h1, if_neg h2, if_pos h3, bind_of_some hy, bind_of_some hz, bind_of_some hc]
    exact bind_cons_append h ih
  | case6 => cases h
  | case7 a h1 h2 h3 b d e rest ih =>
    obtain ⟨y, hy, h⟩ := hpeel h
    obtain ⟨z, hz, h⟩ := hpeel h
    obtain ⟨w, hw, h⟩ := hpeel h
    obtain ⟨c, hc, h⟩ := hpeel h
    rw [List.cons_append, List.cons_append, List.cons_append, List.cons_append, decode.eq_def]
    dsimp only
    rw [if_neg h1, if_neg h2, if_neg h3, bind_of_some hy, bind_of_some hz, bind_of_some hw, bind_of_some hc]
    exact bind_cons_append h ih
  | case8 => cases h

/-- No octets are no characters. -/
theorem decode_eq_nil {octets : Bytes} (h : decode octets = some []) : octets = [] := by
  have hcons : ∀ {x : Option Str} {c : CodePoint}, (x >>= fun u => some (c :: u)) ≠ some [] := by
    intro x c
    cases x <;> simp
  have hpeel : ∀ {α β : Type} {x : Option α} {f : α → Option β} {b : β}, (x >>= f) = some b →
      ∃ a, x = some a ∧ f a = some b := Option.bind_eq_some_iff.mp
  fun_induction decode octets with
  | case1 => rfl
  | case2 a rest h1 _ =>
    obtain ⟨c, -, h⟩ := hpeel h
    exact absurd h hcons
  | case3 a h1 h2 b rest _ =>
    obtain ⟨y, -, h⟩ := hpeel h
    obtain ⟨c, -, h⟩ := hpeel h
    exact absurd h hcons
  | case4 => cases h
  | case5 a h1 h2 h3 b d rest _ =>
    obtain ⟨y, -, h⟩ := hpeel h
    obtain ⟨z, -, h⟩ := hpeel h
    obtain ⟨c, -, h⟩ := hpeel h
    exact absurd h hcons
  | case6 => cases h
  | case7 a h1 h2 h3 b d e rest _ =>
    obtain ⟨y, -, h⟩ := hpeel h
    obtain ⟨z, -, h⟩ := hpeel h
    obtain ⟨w, -, h⟩ := hpeel h
    obtain ⟨c, -, h⟩ := hpeel h
    exact absurd h hcons
  | case8 => cases h

namespace Loads

/-! ## Literals -/

theorem scanPieces_append {s rest : Str} {pieces : List Piece} (h : scanPieces s = some (pieces, rest)) (more : Str) :
    scanPieces (s ++ more) = some (pieces, rest ++ more) := by
  fun_induction scanPieces s generalizing pieces rest with
  | case1 => cases h
  | case2 c s hquote =>
    obtain ⟨rfl, rfl⟩ := Prod.mk.inj (Option.some.inj h)
    rw [List.cons_append, scanPieces.eq_def]
    exact if_pos hquote
  | case3 => cases h
  | case4 c hquote hback e hu h1 h2 h3 h4 s ih =>
    simp only [Option.bind_eq_bind, Option.bind_eq_some_iff, Option.some.injEq, Prod.mk.injEq] at h
    obtain ⟨n1, hn1, n2, hn2, n3, hn3, n4, hn4, ⟨tail, rest'⟩, htail, rfl, rfl⟩ := h
    rw [List.cons_append, scanPieces.eq_def]
    dsimp only [List.cons_append]
    rw [if_neg hquote, if_pos hback, if_pos hu]
    simp only [hn1, hn2, hn3, hn4, ih htail, Option.bind_eq_bind, Option.bind_some]
  | case5 => cases h
  | case6 c hquote hback e s hu ih =>
    simp only [Option.bind_eq_bind, Option.bind_eq_some_iff, Option.some.injEq, Prod.mk.injEq] at h
    obtain ⟨d, hd, ⟨tail, rest'⟩, htail, rfl, rfl⟩ := h
    rw [List.cons_append, scanPieces.eq_def]
    dsimp only [List.cons_append]
    rw [if_neg hquote, if_pos hback, if_neg hu]
    simp only [hd, ih htail, Option.bind_eq_bind, Option.bind_some]
  | case7 => cases h
  | case8 c s hquote hback hcontrol ih =>
    simp only [Option.bind_eq_bind, Option.bind_eq_some_iff, Option.some.injEq, Prod.mk.injEq] at h
    obtain ⟨⟨tail, rest'⟩, htail, rfl, rfl⟩ := h
    rw [List.cons_append, scanPieces.eq_def]
    dsimp only
    rw [if_neg hquote, if_neg hback, if_neg hcontrol, ih htail]
    rfl

theorem scanString_append {s text rest : Str} (h : scanString s = some (text, rest)) (more : Str) :
    scanString (s ++ more) = some (text, rest ++ more) := by
  obtain ⟨⟨pieces, rest'⟩, hpieces, heq⟩ := Option.map_eq_some_iff.mp h
  obtain ⟨rfl, rfl⟩ := Prod.mk.inj heq
  rw [scanString, scanPieces_append hpieces]
  rfl

/-! ### Numbers -/

theorem isDigit_of_mem_takeWhile {s : Str} {c : CodePoint} (h : c ∈ s.takeWhile isDigit) : isDigit c = true :=
  List.mem_takeWhile_imp h

theorem scanSign_sound (s : Str) : s = (if (scanSign s).1 then [45] else []) ++ (scanSign s).2 := by
  cases s with
  | nil => rfl
  | cons c s =>
    rw [scanSign]
    by_cases hc : c.val = 45
    · rw [if_pos hc, show c = (45 : CodePoint) from Fin.ext hc]
      rfl
    · rw [if_neg hc]
      rfl

theorem scanWhole_sound {s whole rest : Str} (h : scanWhole s = some (whole, rest)) :
    s = whole ++ rest ∧ whole ≠ [] ∧ (∀ c ∈ whole, isDigit c = true) ∧
      ∀ c ∈ whole.head?, c.val = 48 → whole.length = 1 := by
  unfold scanWhole at h
  split at h
  · cases h
  · rename_i c s
    split_ifs at h with hzero hdigit
    · obtain ⟨rfl, rfl⟩ := Prod.mk.inj (Option.some.inj h)
      refine ⟨rfl, List.cons_ne_nil _ _, fun d hd => ?_, fun _ _ _ => rfl⟩
      rw [List.mem_singleton.mp hd, isDigit_iff]
      omega
    · obtain ⟨rfl, rfl⟩ := Prod.mk.inj (Option.some.inj h)
      refine ⟨?_, List.cons_ne_nil _ _, fun d hd => ?_, fun d hd heq => ?_⟩
      · rw [List.cons_append, List.takeWhile_append_dropWhile]
      · rcases List.mem_cons.mp hd with rfl | hd
        · exact hdigit
        · exact isDigit_of_mem_takeWhile hd
      · obtain rfl := Option.some.inj hd
        exact absurd heq hzero

theorem scanFraction_sound (s : Str) :
    s = (scanFraction s).1.elim [] (fun digits => 46 :: digits) ++ (scanFraction s).2 ∧
      ∀ digits ∈ (scanFraction s).1, digits ≠ [] ∧ ∀ c ∈ digits, isDigit c = true := by
  unfold scanFraction
  split
  · exact ⟨rfl, fun _ h => absurd h (Option.not_mem_none _)⟩
  · rename_i c s
    split_ifs with hc
    · refine ⟨?_, fun digits h => ?_⟩
      · rw [show c = (46 : CodePoint) from Fin.ext hc.1, Option.elim_some, List.cons_append,
          List.takeWhile_append_dropWhile]
      · obtain rfl := Option.some.inj h
        exact ⟨hc.2, fun c hc => isDigit_of_mem_takeWhile hc⟩
    · exact ⟨rfl, fun _ h => absurd h (Option.not_mem_none _)⟩

theorem exponentSign_sound (s : Str) :
    s = (exponentSign s).1.toList ++ (exponentSign s).2 ∧ ∀ c ∈ (exponentSign s).1, c.val = 43 ∨ c.val = 45 := by
  unfold exponentSign
  split
  · exact ⟨rfl, fun _ h => absurd h (Option.not_mem_none _)⟩
  · split_ifs with hc
    · exact ⟨rfl, fun d hd => Option.some.inj hd ▸ hc⟩
    · exact ⟨rfl, fun _ h => absurd h (Option.not_mem_none _)⟩

theorem scanExponent_sound (s : Str) :
    s = (scanExponent s).1.elim [] Exponent.text ++ (scanExponent s).2 ∧ ∀ e ∈ (scanExponent s).1, e.Valid := by
  unfold scanExponent
  split
  · exact ⟨rfl, fun _ h => absurd h (Option.not_mem_none _)⟩
  · rename_i c s
    have hsign := exponentSign_sound s
    dsimp only
    split_ifs with hc
    · refine ⟨?_, fun e he => ?_⟩
      · rw [Option.elim_some, Exponent.text, List.cons_append, List.append_assoc, List.takeWhile_append_dropWhile,
          ← hsign.1]
      · obtain rfl := Option.some.inj he
        exact ⟨hc.1, hsign.2, fun c hc => isDigit_of_mem_takeWhile hc, hc.2⟩
    · exact ⟨rfl, fun _ h => absurd h (Option.not_mem_none _)⟩

/-- **What is scanned is a valid literal** and the text it was scanned from. -/
theorem scanNumber_sound {s rest : Str} {n : Numeral} (h : scanNumber s = some (n, rest)) :
    n.Valid ∧ s = n.text ++ rest := by
  unfold scanNumber at h
  dsimp only at h
  split at h
  · cases h
  · rename_i whole u hu
    obtain ⟨rfl, rfl⟩ := Prod.mk.inj (Option.some.inj h)
    obtain ⟨hwhole, hne, hdigits, hleading⟩ := scanWhole_sound hu
    obtain ⟨hfraction, hfractionDigits⟩ := scanFraction_sound u
    obtain ⟨hexponent, hvalid⟩ := scanExponent_sound (scanFraction u).2
    refine ⟨⟨hdigits, hne, hleading, hfractionDigits, hvalid⟩, ?_⟩
    calc s = (if (scanSign s).1 then [45] else []) ++ (scanSign s).2 := scanSign_sound s
      _ = _ := by
        rw [hwhole, Numeral.text, List.append_assoc, List.append_assoc, List.append_assoc, ← hexponent, ← hfraction]

/-- What may stand behind a value in a longer text: something, and nothing that goes on with a number. -/
structure Delimited (rest : Str) : Prop where
  nonempty : rest ≠ []
  stops : Stops rest

theorem Delimited.append {rest : Str} (h : Delimited rest) (more : Str) : Delimited (rest ++ more) := by
  refine ⟨List.append_ne_nil_of_left_ne_nil h.nonempty more, fun c hc => h.stops c ?_⟩
  rwa [List.head?_append_of_ne_nil _ h.nonempty] at hc

theorem scanNumber_append {s rest : Str} {n : Numeral} (h : scanNumber s = some (n, rest)) (hrest : Delimited rest)
    (more : Str) : scanNumber (s ++ more) = some (n, rest ++ more) := by
  obtain ⟨hn, rfl⟩ := scanNumber_sound h
  rw [List.append_assoc]
  exact scanNumber_text hn (hrest.append more).stops

/-! ## Values -/

section
variable {α : Type} {item item' : Str → Option (α × Str)} {close : CodePoint}

/-- What the first scanner reads in front of a delimiter, the second reads of every longer text. -/
def Extends (item item' : Str → Option (α × Str)) : Prop :=
  ∀ s a rest, item s = some (a, rest) → Delimited rest → ∀ more, item' (s ++ more) = some (a, rest ++ more)

theorem skip_append {s t : Str} {c : CodePoint} (h : skip s = c :: t) (more : Str) :
    skip (s ++ more) = c :: (t ++ more) := by
  have hsplit := List.takeWhile_append_dropWhile (p := isSpace) (l := s)
  have hspaces : ∀ d ∈ s.takeWhile isSpace, isSpace d = true := fun d hd => List.mem_takeWhile_imp hd
  have hhead : isSpace c = false := by
    have hne : s.dropWhile isSpace ≠ [] := by
      rw [show s.dropWhile isSpace = c :: t from h]
      exact List.cons_ne_nil c t
    have hnot := List.head_dropWhile_not isSpace hne
    simpa only [show s.dropWhile isSpace = c :: t from h, List.head_cons] using hnot
  rw [← hsplit, show s.dropWhile isSpace = c :: t from h, List.append_assoc, skip,
    List.dropWhile_append_of_pos hspaces]
  exact skip_of_head hhead

/-- White space and a delimiter behind it delimit. -/
theorem delimited_of_skip {s t : Str} {c : CodePoint} (h : skip s = c :: t) (hc : Stops (c :: t)) : Delimited s := by
  cases s with
  | nil => cases h
  | cons d s =>
    refine ⟨List.cons_ne_nil d s, fun d' hd' => ?_⟩
    obtain rfl : d = d' := Option.some.inj hd'
    by_cases hspace : isSpace d = true
    · simp only [isSpace, Bool.or_eq_true, decide_eq_true_eq] at hspace
      rw [← Bool.not_eq_true, isDigit_iff]
      omega
    · rw [Bool.not_eq_true] at hspace
      rw [skip_of_head hspace] at h
      exact hc d (congrArg List.head? h.symm)

theorem skip_append_of_ne_nil {s : Str} (h : skip s ≠ []) (more : Str) : skip (s ++ more) = skip s ++ more := by
  cases hs : skip s with
  | nil => exact absurd hs h
  | cons c t => exact skip_append hs more

/-- What follows an item: the closing bracket or a comma. -/
theorem stops_behind (hclose : Closing close) {c : CodePoint} (h : c = close ∨ c.val = 44) (u : Str) :
    Stops (c :: u) := by
  rcases h with rfl | hc
  · exact hclose.stops u
  · rw [show c = (44 : CodePoint) from Fin.ext hc]
    exact stops_comma u

theorem items_extends (hclose : Closing close) (hitem : Consumes item) (h : Extends item item') {n n' : ℕ}
    (hn : n ≤ n') {s rest : Str} {as : List α} (hs : items item close n s = some (as, rest)) (more : Str) :
    items item' close n' (s ++ more) = some (as, rest ++ more) := by
  induction n generalizing n' s as rest with
  | zero => cases hs
  | succ n ih =>
    obtain ⟨n', rfl⟩ : ∃ m, n' = m + 1 := ⟨n' - 1, by omega⟩
    rw [items, Option.bind_eq_bind, Option.bind_eq_some_iff] at hs
    obtain ⟨⟨a, t⟩, ha, hs⟩ := hs
    dsimp only at hs
    split at hs
    · cases hs
    · rename_i c u hu
      have hfirst : c = close ∨ c.val = 44 → item' (s ++ more) = some (a, t ++ more) := fun hc =>
        h s a t ha (delimited_of_skip hu (stops_behind hclose hc u)) more
      split_ifs at hs with hc hcomma
      · obtain ⟨rfl, rfl⟩ := Prod.mk.inj (Option.some.inj hs)
        rw [items, hfirst (.inl hc)]
        simp only [Option.bind_eq_bind, Option.bind_some, skip_append hu, if_pos hc]
      · rw [Option.bind_eq_bind, Option.bind_eq_some_iff] at hs
        obtain ⟨⟨tail, rest'⟩, htail, hs⟩ := hs
        obtain ⟨rfl, rfl⟩ := Prod.mk.inj (Option.some.inj hs)
        have hne : skip u ≠ [] := by
          intro hnil
          rw [hnil, items_nil hitem] at htail
          cases htail
        have hnext := ih (Nat.le_of_succ_le_succ hn) htail
        rw [items, hfirst (.inr hcomma)]
        simp only [Option.bind_eq_bind, Option.bind_some, skip_append hu, if_neg hc, if_pos hcomma,
          skip_append_of_ne_nil hne, hnext]

theorem enclosed_extends (hclose : Closing close) (hitem : Consumes item) (h : Extends item item') {s rest : Str}
    {as : List α} (hs : enclosed item close s = some (as, rest)) (more : Str) :
    enclosed item' close (s ++ more) = some (as, rest ++ more) := by
  unfold enclosed at hs ⊢
  cases ht : skip s with
  | nil =>
    rw [ht] at hs
    cases hs
  | cons c t =>
    rw [ht] at hs
    rw [skip_append ht]
    dsimp only at hs ⊢
    split_ifs at hs ⊢ with hc
    · obtain ⟨rfl, rfl⟩ := Prod.mk.inj (Option.some.inj hs)
      rfl
    · have hlength : (c :: t).length ≤ (c :: (t ++ more)).length := by
        simp only [List.length_cons, List.length_append]
        omega
      exact items_extends hclose hitem h hlength hs more

theorem member_extends (hitem : Consumes item) (h : Extends item item') : Extends (member item) (member item') := by
  intro s field rest hs hrest more
  cases s with
  | nil => cases hs
  | cons c s =>
    rw [List.cons_append]
    unfold member at hs ⊢
    dsimp only at hs ⊢
    split_ifs at hs ⊢ with hc
    rw [Option.bind_eq_bind, Option.bind_eq_some_iff] at hs
    obtain ⟨⟨key, t⟩, hkey, hs⟩ := hs
    dsimp only at hs
    split at hs
    · cases hs
    · rename_i d u hu
      split_ifs at hs with hd
      rw [Option.bind_eq_bind, Option.bind_eq_some_iff] at hs
      obtain ⟨⟨v, rest'⟩, hv, hs⟩ := hs
      obtain ⟨rfl, rfl⟩ := Prod.mk.inj (Option.some.inj hs)
      have hne : skip u ≠ [] := by
        intro hnil
        rw [hnil] at hv
        exact absurd (hitem [] v rest' hv) (Nat.not_lt_zero _)
      have hvalue := h (skip u) v rest' hv hrest more
      simp only [scanString_append hkey, Option.bind_eq_bind, Option.bind_some, skip_append hu, if_pos hd,
        skip_append_of_ne_nil hne, hvalue]

end

section
variable {number number' : Numeral → Option Json}

theorem keyword_append {s rest : Str} {v : Json} (h : keyword s = some (v, rest)) (more : Str) :
    keyword (s ++ more) = some (v, rest ++ more) := by
  unfold keyword at h
  split_ifs at h with hnull htrue hfalse
  · obtain ⟨u, rfl⟩ := List.isPrefixOf_iff_prefix.mp hnull
    obtain ⟨rfl, rfl⟩ := Prod.mk.inj (Option.some.inj h)
    rfl
  · obtain ⟨u, rfl⟩ := List.isPrefixOf_iff_prefix.mp htrue
    obtain ⟨rfl, rfl⟩ := Prod.mk.inj (Option.some.inj h)
    rfl
  · obtain ⟨u, rfl⟩ := List.isPrefixOf_iff_prefix.mp hfalse
    obtain ⟨rfl, rfl⟩ := Prod.mk.inj (Option.some.inj h)
    rfl

/-- No keyword begins with a sign or a digit. -/
theorem keyword_of_scanNumber {s rest : Str} {n : Numeral} (h : scanNumber s = some (n, rest)) (more : Str) :
    keyword (s ++ more) = none := by
  obtain ⟨hn, rfl⟩ := scanNumber_sound h
  have hhead : ∃ c t, n.text = c :: t ∧ c.val ≤ 57 := by
    obtain ⟨c, digits, hw⟩ := List.exists_cons_of_ne_nil hn.nonempty
    have hc := isDigit_iff.mp (hn.whole c (hw ▸ List.mem_cons_self))
    rw [Numeral.text, hw]
    cases n.negative with
    | true => exact ⟨45, _, rfl, by decide⟩
    | false => exact ⟨c, _, rfl, hc.2⟩
  obtain ⟨c, t, htext, hc⟩ := hhead
  have hne : ∀ (d : CodePoint) (word : Str), 57 < d.val → (d :: word).isPrefixOf (c :: (t ++ rest ++ more)) = false := by
    intro d word hd
    rw [List.isPrefixOf_cons_cons, Bool.and_eq_false_iff, beq_eq_false_iff_ne]
    left
    rintro rfl
    omega
  have hnull := hne 110 (str "ull") (by decide)
  have htrue := hne 116 (str "rue") (by decide)
  have hfalse := hne 102 (str "alse") (by decide)
  rw [htext, List.cons_append, List.cons_append]
  show (if (str "null").isPrefixOf _ then _ else _) = none
  rw [if_neg (by rw [show str "null" = 110 :: str "ull" from rfl, hnull]; decide),
    if_neg (by rw [show str "true" = 116 :: str "rue" from rfl, htrue]; decide),
    if_neg (by rw [show str "false" = 102 :: str "alse" from rfl, hfalse]; decide)]

/-- **A value in front of a delimiter is read of every longer text**, also with more fuel and where more number literals
are taken. -/
theorem value_extends (hnumber : ∀ n v, number n = some v → number' n = some v) {fuel fuel' : ℕ}
    (hfuel : fuel ≤ fuel') : Extends (value number fuel) (value number' fuel') := by
  induction fuel generalizing fuel' with
  | zero =>
    intro _ _ _ h
    cases h
  | succ fuel ih =>
    intro s v rest h hrest more
    obtain ⟨fuel', rfl⟩ : ∃ m, fuel' = m + 1 := ⟨fuel' - 1, by omega⟩
    have hvalue : Extends (value number fuel) (value number' fuel') := ih (Nat.le_of_succ_le_succ hfuel)
    have hconsumes : Consumes (value number fuel) := value_consumes fuel
    cases s with
    | nil => cases h
    | cons c s =>
      rw [List.cons_append]
      rw [value] at h ⊢
      split_ifs at h ⊢ with hquote hbracket hbrace
      · obtain ⟨⟨text, rest'⟩, hp, heq⟩ := Option.map_eq_some_iff.mp h
        obtain ⟨rfl, rfl⟩ := Prod.mk.inj heq
        rw [scanString_append hp]
        rfl
      · obtain ⟨⟨vs, rest'⟩, hp, heq⟩ := Option.map_eq_some_iff.mp h
        obtain ⟨rfl, rfl⟩ := Prod.mk.inj heq
        rw [enclosed_extends closing_bracket hconsumes hvalue hp]
        rfl
      · obtain ⟨⟨members, rest'⟩, hp, heq⟩ := Option.map_eq_some_iff.mp h
        obtain ⟨rfl, rfl⟩ := Prod.mk.inj heq
        rw [enclosed_extends closing_brace (member_consumes hconsumes) (member_extends hconsumes hvalue) hp]
        rfl
      · rw [← List.cons_append]
        split at h
        · rename_i p hp
          obtain rfl := Option.some.inj h
          rw [keyword_append hp]
        · simp only [Option.bind_eq_bind, Option.bind_eq_some_iff, Option.some.injEq, Prod.mk.injEq] at h
          obtain ⟨⟨n, rest'⟩, hn, w, hw, rfl, rfl⟩ := h
          rw [keyword_of_scanNumber hn]
          simp only [scanNumber_append hn hrest, Option.bind_eq_bind, Option.bind_some, hnumber n w hw]

/-- An object ends with its brace, whatever follows. -/
theorem value_brace_append (hnumber : ∀ n v, number n = some v → number' n = some v) {fuel fuel' : ℕ}
    (hfuel : fuel ≤ fuel') {s rest : Str} {v : Json} (h : value number fuel (123 :: s) = some (v, rest)) (more : Str) :
    value number' fuel' (123 :: (s ++ more)) = some (v, rest ++ more) := by
  cases fuel with
  | zero => cases h
  | succ fuel =>
    obtain ⟨fuel', rfl⟩ : ∃ m, fuel' = m + 1 := ⟨fuel' - 1, by omega⟩
    have hvalue : Extends (value number fuel) (value number' fuel') :=
      value_extends hnumber (Nat.le_of_succ_le_succ hfuel)
    have hconsumes : Consumes (value number fuel) := value_consumes fuel
    rw [value_brace] at h ⊢
    obtain ⟨⟨members, rest'⟩, hp, heq⟩ := Option.map_eq_some_iff.mp h
    obtain ⟨rfl, rfl⟩ := Prod.mk.inj heq
    rw [enclosed_extends closing_brace (member_consumes hconsumes) (member_extends hconsumes hvalue) hp]
    rfl

/-- White space behind an object changes nothing. -/
theorem loads_append_space {s more : Str} {v : Json} (h : loads number (123 :: s) = some v) (hmore : skip more = []) :
    loads number (123 :: (s ++ more)) = some v := by
  have hhead : ∀ t : Str, skip (123 :: t) = 123 :: t := fun t => skip_of_head rfl
  rw [loads, hhead, Option.bind_eq_bind, Option.bind_eq_some_iff] at h
  obtain ⟨⟨w, rest⟩, hw, h⟩ := h
  dsimp only at h
  split_ifs at h with hrest
  obtain rfl := Option.some.inj h
  have hfuel : (123 :: s).length ≤ (123 :: (s ++ more)).length := by
    simp only [List.length_cons, List.length_append]
    omega
  have hspaces : skip (rest ++ more) = [] := by
    unfold skip at hrest hmore ⊢
    rw [List.dropWhile_append, hrest]
    exact hmore
  rw [loads, hhead, value_brace_append (fun _ _ h => h) hfuel hw]
  exact if_pos hspaces

/-- **An object that is cut off is not read**: no beginning of its text but the whole is a text of its own. -/
theorem Reads.loads_cut (hnumber : ∀ n v, number n = some v → number' n = some v) {s q : Str} {v : Json}
    (h : Reads number' (123 :: (s ++ q)) v) (hq : q ≠ []) : Loads.loads number (123 :: s) = none := by
  have hwhole := h (123 :: (s ++ q)).length (Nat.le_refl _) [] fun _ hc => absurd hc (Option.not_mem_none _)
  rw [List.append_nil] at hwhole
  have hskip : skip (123 :: s) = 123 :: s := skip_of_head rfl
  cases hloads : value number (123 :: s).length (123 :: s) with
  | none => rw [Loads.loads, hskip, hloads]; rfl
  | some p =>
    obtain ⟨w, rest⟩ := p
    have hfuel : (123 :: s).length ≤ (123 :: (s ++ q)).length := by
      simp only [List.length_cons, List.length_append]
      omega
    have hlonger := value_brace_append hnumber hfuel hloads q
    rw [hwhole, Option.some.injEq, Prod.mk.injEq] at hlonger
    exact absurd (List.append_eq_nil_iff.mp hlonger.2.symm).2 hq

end

/-- The text of an object begins with its brace. -/
theorem head_of_obj {text : Str} {fields : Fields} (h : Reads (fun n => some n.value) text (.obj fields)) :
    ∃ t, text = 123 :: t := by
  have hread := h text.length (Nat.le_refl _) [] fun _ hc => absurd hc (Option.not_mem_none _)
  rw [List.append_nil] at hread
  cases text with
  | nil => cases hread
  | cons c t =>
    rw [List.length_cons, value] at hread
    split_ifs at hread with hquote hbracket hbrace
    · obtain ⟨p, -, heq⟩ := Option.map_eq_some_iff.mp hread
      cases heq
    · obtain ⟨p, -, heq⟩ := Option.map_eq_some_iff.mp hread
      cases heq
    · exact ⟨t, by rw [show c = (123 : CodePoint) from Fin.ext hbrace]⟩
    · split at hread
      · rename_i p hp
        obtain rfl := Option.some.inj hread
        unfold keyword at hp
        split_ifs at hp <;> cases hp
      · simp only [Option.bind_eq_bind, Option.bind_eq_some_iff, Option.some.injEq, Prod.mk.injEq] at hread
        obtain ⟨p, -, v, rfl, hv, -⟩ := hread
        unfold Numeral.value at hv
        split_ifs at hv

/-- **Cut off octets of an object**: they are no text, or no JSON text. -/
theorem cut_octets {number number' : Numeral → Option Json} (hnumber : ∀ n v, number n = some v → number' n = some v)
    {text : Str} {v : Json} (h : Reads number' (123 :: text) v) (hencodable : encodable (123 :: text) = true)
    {front more : Bytes} (hcut : utf8 (123 :: text) = front ++ more) (hmore : more ≠ []) :
    (decode front).bind (loads number) = none := by
  cases hdecode : decode front with
  | none => rfl
  | some s =>
    rw [Option.bind_some]
    have hread := decode_utf8 hencodable
    rw [hcut, decode_append hdecode, Option.map_eq_some_iff] at hread
    obtain ⟨q, hq, heq⟩ := hread
    have hne : q ≠ [] := by
      rintro rfl
      exact hmore (decode_eq_nil hq)
    cases s with
    | nil => rfl
    | cons c s =>
      rw [List.cons_append, List.cons.injEq] at heq
      obtain ⟨rfl, rfl⟩ := heq
      exact h.loads_cut hnumber hne

end Loads
