import AfsimNs3.Lib.Literals

/-!
# Reading JSON text

`loads` reads the one value of a text, as `json.loads` does once the constants `NaN` and `Infinity` are refused. What a
number literal becomes is a parameter (`parse_int` and `parse_float`). Of two bindings of a key the later counts, in
the place of the first.

The scanner of a value goes down by fuel, which the length of the text covers (`value_stable`).
-/

namespace Loads

section
variable {α : Type}

/-- Items with commas between them, up to the closing bracket. -/
def items (item : Str → Option (α × Str)) (close : CodePoint) : ℕ → Str → Option (List α × Str)
  | 0, _ => none
  | n + 1, s => do
    let (a, s) ← item s
    match skip s with
    | [] => none
    | c :: s =>
      if c = close then some ([a], s)
      else if c.val = 44 then do
        let (as, s) ← items item close n (skip s)
        some (a :: as, s)
      else none

/-- What follows an opening bracket. -/
def enclosed (item : Str → Option (α × Str)) (close : CodePoint) (s : Str) : Option (List α × Str) :=
  match skip s with
  | [] => none
  | c :: s => if c = close then some ([], s) else items item close (c :: s).length (c :: s)

/-- A name, a colon and a value. -/
def member (item : Str → Option (α × Str)) : Str → Option ((Str × α) × Str)
  | [] => none
  | c :: s =>
    if c.val = 34 then do
      let (key, s) ← scanString s
      match skip s with
      | [] => none
      | c :: s =>
        if c.val = 58 then do
          let (v, s) ← item (skip s)
          some ((key, v), s)
        else none
    else none

end

/-- The bindings of an object. -/
def bindings (members : List (Str × Json)) : Fields := members.foldl (fun o field => Assoc.put o field.1 field.2) []

def keyword (s : Str) : Option (Json × Str) :=
  if (str "null").isPrefixOf s then some (.null, s.drop 4)
  else if (str "true").isPrefixOf s then some (.bool true, s.drop 4)
  else if (str "false").isPrefixOf s then some (.bool false, s.drop 5)
  else none

variable (number : Numeral → Option Json)

def value : ℕ → Str → Option (Json × Str)
  | 0, _ => none
  | _ + 1, [] => none
  | fuel + 1, c :: s =>
    if c.val = 34 then (scanString s).map (fun p => (.str p.1, p.2))
    else if c.val = 91 then (enclosed (value fuel) 93 s).map (fun p => (.arr p.1, p.2))
    else if c.val = 123 then (enclosed (member (value fuel)) 125 s).map (fun p => (.obj (bindings p.1), p.2))
    else
      match keyword (c :: s) with
      | some p => some p
      | none => do
        let (n, rest) ← scanNumber (c :: s)
        let v ← number n
        some (v, rest)

def loads (s : Str) : Option Json := do
  let (v, rest) ← value number s.length (skip s)
  if skip rest = [] then some v else none

/-! ## Enough fuel -/

/-- A scanner that leaves less than it was given. -/
def Consumes {α : Type} (item : Str → Option (α × Str)) : Prop :=
  ∀ s a rest, item s = some (a, rest) → rest.length < s.length

theorem length_skip (s : Str) : (skip s).length ≤ s.length := (List.dropWhile_suffix isSpace).length_le

theorem scanPieces_consumes : Consumes scanPieces := by
  intro s
  fun_induction scanPieces s with
  | case1 => exact fun _ _ h => nomatch h
  | case2 c s hquote =>
    intro pieces rest h
    obtain ⟨-, rfl⟩ := Prod.mk.inj (Option.some.inj h)
    exact Nat.lt_succ_self _
  | case3 => exact fun _ _ h => nomatch h
  | case4 c hquote hback e hu h1 h2 h3 h4 s ih =>
    intro pieces rest h
    simp only [Option.bind_eq_bind, Option.bind_eq_some_iff, Option.some.injEq, Prod.mk.injEq] at h
    obtain ⟨_, -, _, -, _, -, _, -, ⟨tail, rest'⟩, htail, -, rfl⟩ := h
    have hlt : rest'.length < s.length := ih tail rest' htail
    show rest'.length < _
    simp only [List.length_cons]
    omega
  | case5 => exact fun _ _ h => nomatch h
  | case6 c hquote hback e s hu ih =>
    intro pieces rest h
    simp only [Option.bind_eq_bind, Option.bind_eq_some_iff, Option.some.injEq, Prod.mk.injEq] at h
    obtain ⟨_, -, ⟨tail, rest'⟩, htail, -, rfl⟩ := h
    have hlt : rest'.length < s.length := ih tail rest' htail
    show rest'.length < _
    simp only [List.length_cons]
    omega
  | case7 => exact fun _ _ h => nomatch h
  | case8 c s hquote hback hcontrol ih =>
    intro pieces rest h
    simp only [Option.bind_eq_bind, Option.bind_eq_some_iff, Option.some.injEq, Prod.mk.injEq] at h
    obtain ⟨⟨tail, rest'⟩, htail, -, rfl⟩ := h
    have hlt : rest'.length < s.length := ih tail rest' htail
    show rest'.length < _
    rw [List.length_cons]
    omega

theorem scanString_consumes : Consumes scanString := by
  intro s text rest h
  obtain ⟨⟨pieces, rest'⟩, hpieces, heq⟩ := Option.map_eq_some_iff.mp h
  obtain ⟨-, rfl⟩ := Prod.mk.inj heq
  exact scanPieces_consumes s pieces rest' hpieces

theorem scanNumber_consumes : Consumes scanNumber := by
  intro s n rest h
  have hdrop : ∀ t : Str, (t.dropWhile isDigit).length ≤ t.length := fun t =>
    (List.dropWhile_suffix isDigit).length_le
  have hsign : (scanSign s).2.length ≤ s.length := by
    unfold scanSign
    split
    · exact Nat.le_refl _
    · split_ifs
      · exact Nat.le_succ _
      · exact Nat.le_refl _
  have hwhole : ∀ t whole u, scanWhole t = some (whole, u) → u.length < t.length := by
    intro t whole u hu
    unfold scanWhole at hu
    split at hu
    · cases hu
    · split_ifs at hu
      · obtain ⟨-, rfl⟩ := Prod.mk.inj (Option.some.inj hu)
        exact Nat.lt_succ_self _
      · obtain ⟨-, rfl⟩ := Prod.mk.inj (Option.some.inj hu)
        exact Nat.lt_succ_of_le (hdrop _)
  have hfraction : ∀ t, (scanFraction t).2.length ≤ t.length := by
    intro t
    unfold scanFraction
    split
    · exact Nat.le_refl _
    · split_ifs
      · exact Nat.le_succ_of_le (hdrop _)
      · exact Nat.le_refl _
  have hexponent : ∀ t, (scanExponent t).2.length ≤ t.length := by
    intro t
    have hmark : ∀ u, (exponentSign u).2.length ≤ u.length := by
      intro u
      unfold exponentSign
      split
      · exact Nat.le_refl _
      · split_ifs
        · exact Nat.le_succ _
        · exact Nat.le_refl _
    unfold scanExponent
    split
    · exact Nat.le_refl _
    · rename_i c u
      dsimp only
      split_ifs
      · exact Nat.le_succ_of_le ((hdrop _).trans (hmark u))
      · exact Nat.le_refl _
  unfold scanNumber at h
  dsimp only at h
  split at h
  · cases h
  · rename_i whole u hu
    obtain ⟨-, rfl⟩ := Prod.mk.inj (Option.some.inj h)
    have hlt := hwhole _ whole u hu
    have hle := (hexponent (scanFraction u).2).trans (hfraction u)
    omega

section
variable {α : Type} {item item' : Str → Option (α × Str)} {close : CodePoint}

theorem items_consumes (hitem : Consumes item) (n : ℕ) : Consumes (items item close n) := by
  induction n with
  | zero => exact fun _ _ _ h => nomatch h
  | succ n ih =>
    intro s as rest h
    rw [items, Option.bind_eq_bind, Option.bind_eq_some_iff] at h
    obtain ⟨⟨a, t⟩, ha, h⟩ := h
    have hlt := hitem s a t ha
    have hskip := length_skip t
    dsimp only at h
    split at h
    · cases h
    · rename_i c u hu
      rw [hu, List.length_cons] at hskip
      split_ifs at h
      · obtain ⟨-, rfl⟩ := Prod.mk.inj (Option.some.inj h)
        omega
      · rw [Option.bind_eq_bind, Option.bind_eq_some_iff] at h
        obtain ⟨⟨tail, rest'⟩, htail, h⟩ := h
        obtain ⟨-, rfl⟩ := Prod.mk.inj (Option.some.inj h)
        have hrest : rest'.length < (skip u).length := ih _ _ _ htail
        have hskip' := length_skip u
        show rest'.length < _
        omega

theorem enclosed_consumes (hitem : Consumes item) : Consumes (enclosed item close) := by
  intro s as rest h
  have hskip := length_skip s
  unfold enclosed at h
  split at h
  · cases h
  · rename_i c t ht
    rw [ht, List.length_cons] at hskip
    split_ifs at h
    · obtain ⟨-, rfl⟩ := Prod.mk.inj (Option.some.inj h)
      omega
    · have hlt := items_consumes hitem _ _ _ _ h
      rw [List.length_cons] at hlt
      omega

theorem member_consumes (hitem : Consumes item) : Consumes (member item) := by
  intro s field rest h
  unfold member at h
  split at h
  · cases h
  · rename_i c s
    split_ifs at h
    rw [Option.bind_eq_bind, Option.bind_eq_some_iff] at h
    obtain ⟨⟨key, t⟩, hkey, h⟩ := h
    have hlt := scanString_consumes s key t hkey
    have hskip := length_skip t
    dsimp only at h
    split at h
    · cases h
    · rename_i d u hu
      rw [hu, List.length_cons] at hskip
      split_ifs at h
      rw [Option.bind_eq_bind, Option.bind_eq_some_iff] at h
      obtain ⟨⟨v, rest'⟩, hv, h⟩ := h
      obtain ⟨-, rfl⟩ := Prod.mk.inj (Option.some.inj h)
      have hrest : rest'.length < (skip u).length := hitem _ _ _ hv
      have hskip' := length_skip u
      show rest'.length < _
      rw [List.length_cons]
      omega

theorem items_nil (hitem : Consumes item) (n : ℕ) : items item close n [] = none := by
  cases n with
  | zero => rfl
  | succ n =>
    rw [items]
    cases h : item [] with
    | none => rfl
    | some p => exact absurd (hitem [] p.1 p.2 h) (Nat.not_lt_zero _)

/-- Scanners that agree on texts up to a length make one list of them, however many items are looked for. -/
theorem items_stable (hitem : Consumes item) (hitem' : Consumes item') {bound : ℕ}
    (hagree : ∀ t, t.length ≤ bound → item t = item' t) (n n' : ℕ) (s : Str) (hs : s.length ≤ bound)
    (hn : s.length ≤ n) (hn' : s.length ≤ n') : items item close n s = items item' close n' s := by
  induction n generalizing n' s with
  | zero =>
    obtain rfl : s = [] := List.length_eq_zero_iff.mp (Nat.le_zero.mp hn)
    rw [items_nil hitem, items_nil hitem']
  | succ n ih =>
    cases n' with
    | zero =>
      obtain rfl : s = [] := List.length_eq_zero_iff.mp (Nat.le_zero.mp hn')
      rw [items_nil hitem, items_nil hitem']
    | succ n' =>
      rw [items, items, ← hagree s hs]
      cases hfirst : item s with
      | none => rfl
      | some p =>
        obtain ⟨a, t⟩ := p
        have hlt := hitem s a t hfirst
        have hskip := length_skip t
        simp only [Option.bind_eq_bind, Option.bind_some]
        cases ht : skip t with
        | nil => rfl
        | cons c u =>
          rw [ht, List.length_cons] at hskip
          have hskip' := length_skip u
          dsimp only
          rw [ih n' (skip u) (by omega) (by omega) (by omega)]

theorem enclosed_stable (hitem : Consumes item) (hitem' : Consumes item') {s : Str}
    (hagree : ∀ t, t.length ≤ s.length → item t = item' t) : enclosed item close s = enclosed item' close s := by
  have hskip := length_skip s
  unfold enclosed
  cases ht : skip s with
  | nil => rfl
  | cons c t =>
    rw [ht] at hskip
    dsimp only
    rw [items_stable hitem hitem' hagree _ _ _ hskip (Nat.le_refl _) (Nat.le_refl _)]

theorem member_stable {bound : ℕ} (hagree : ∀ t, t.length ≤ bound → item t = item' t) {s : Str}
    (hs : s.length ≤ bound) : member item s = member item' s := by
  unfold member
  cases s with
  | nil => rfl
  | cons c s =>
    dsimp only
    cases hkey : scanString s with
    | none => rfl
    | some p =>
      obtain ⟨key, t⟩ := p
      have hlt := scanString_consumes s key t hkey
      have hskip := length_skip t
      simp only [Option.bind_eq_bind, Option.bind_some]
      cases ht : skip t with
      | nil => rfl
      | cons d u =>
        rw [ht, List.length_cons] at hskip
        have hskip' := length_skip u
        rw [List.length_cons] at hs
        dsimp only
        rw [hagree (skip u) (by omega)]

end

section
variable {number : Numeral → Option Json}

theorem keyword_length {s rest : Str} {v : Json} (h : keyword s = some (v, rest)) : rest.length < s.length := by
  have hdrop : ∀ n, 0 < n → s ≠ [] → (s.drop n).length < s.length := by
    intro n hn hs
    have hpos := List.length_pos_iff.mpr hs
    rw [List.length_drop]
    omega
  have hne : ∀ text : Str, text ≠ [] → text.isPrefixOf s = true → s ≠ [] := by
    rintro text htext hpre rfl
    exact htext (List.prefix_nil.mp (List.isPrefixOf_iff_prefix.mp hpre))
  unfold keyword at h
  split_ifs at h with h1 h2 h3
  · obtain ⟨-, rfl⟩ := Prod.mk.inj (Option.some.inj h)
    exact hdrop 4 (by decide) (hne _ (by decide) h1)
  · obtain ⟨-, rfl⟩ := Prod.mk.inj (Option.some.inj h)
    exact hdrop 4 (by decide) (hne _ (by decide) h2)
  · obtain ⟨-, rfl⟩ := Prod.mk.inj (Option.some.inj h)
    exact hdrop 5 (by decide) (hne _ (by decide) h3)

theorem value_consumes (fuel : ℕ) : Consumes (value number fuel) := by
  induction fuel with
  | zero => exact fun _ _ _ h => nomatch h
  | succ fuel ih =>
    intro s v rest h
    cases s with
    | nil => cases h
    | cons c s =>
      rw [value] at h
      split_ifs at h
      · obtain ⟨p, hp, heq⟩ := Option.map_eq_some_iff.mp h
        obtain ⟨-, rfl⟩ := Prod.mk.inj heq
        exact Nat.lt_succ_of_lt (scanString_consumes s p.1 p.2 hp)
      · obtain ⟨p, hp, heq⟩ := Option.map_eq_some_iff.mp h
        obtain ⟨-, rfl⟩ := Prod.mk.inj heq
        exact Nat.lt_succ_of_lt (enclosed_consumes ih s p.1 p.2 hp)
      · obtain ⟨p, hp, heq⟩ := Option.map_eq_some_iff.mp h
        obtain ⟨-, rfl⟩ := Prod.mk.inj heq
        exact Nat.lt_succ_of_lt (enclosed_consumes (member_consumes ih) s p.1 p.2 hp)
      · split at h
        · rename_i p hp
          obtain rfl := Option.some.inj h
          exact keyword_length hp
        · simp only [Option.bind_eq_bind, Option.bind_eq_some_iff, Option.some.injEq, Prod.mk.injEq] at h
          obtain ⟨⟨n, rest'⟩, hn, _, -, -, rfl⟩ := h
          exact scanNumber_consumes _ n rest' hn

/-- **Fuel for the length of the text is enough**: more of it changes nothing. -/
theorem value_stable (fuel fuel' : ℕ) (s : Str) (h : s.length ≤ fuel) (h' : s.length ≤ fuel') :
    value number fuel s = value number fuel' s := by
  induction fuel generalizing fuel' s with
  | zero =>
    obtain rfl : s = [] := List.length_eq_zero_iff.mp (Nat.le_zero.mp h)
    cases fuel' <;> rfl
  | succ fuel ih =>
    cases s with
    | nil => cases fuel' <;> rfl
    | cons c s =>
      cases fuel' with
      | zero => exact absurd h' (Nat.not_succ_le_zero _)
      | succ fuel' =>
        rw [List.length_cons] at h h'
        have hagree : ∀ t : Str, t.length ≤ s.length → value number fuel t = value number fuel' t :=
          fun t ht => ih fuel' t (by omega) (by omega)
        have hmember : ∀ t : Str, t.length ≤ s.length → member (value number fuel) t = member (value number fuel') t :=
          fun t ht => member_stable hagree ht
        have hfuel : Consumes (value number fuel) := value_consumes fuel
        have hfuel' : Consumes (value number fuel') := value_consumes fuel'
        rw [value, value, enclosed_stable hfuel hfuel' hagree,
          enclosed_stable (member_consumes hfuel) (member_consumes hfuel') hmember]

end

end Loads
