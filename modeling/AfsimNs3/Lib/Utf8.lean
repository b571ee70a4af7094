import AfsimNs3.Lib.Dumps

/-!
# Strict UTF-8

`decode` is `octets.decode("utf-8")`: no overlong form, no surrogate, nothing above `U+10FFFF`. It reads back what
`utf8` wrote of an encodable text (`decode_utf8`).
-/

/-- The code points UTF-8 does not encode. -/
def surrogate (c : CodePoint) : Bool := 0xd800 ≤ c.val && c.val ≤ 0xdfff

def encodable (s : Str) : Bool := s.all (fun c => !surrogate c)

theorem encodable_iff {s : Str} : encodable s = true ↔ ∀ c ∈ s, surrogate c = false := by
  rw [encodable, List.all_eq_true]
  simp only [Bool.not_eq_true']

@[simp] theorem encodable_cons (c : CodePoint) (s : Str) : encodable (c :: s) = (!surrogate c && encodable s) := rfl

/-- The characters of an ASCII text. -/
def Str.ofOctets (octets : Bytes) : Str := octets.map fun octet => Fin.ofNat 0x110000 octet.toNat

@[simp] theorem Str.encodable_ofOctets (octets : Bytes) : encodable (Str.ofOctets octets) = true := by
  rw [encodable_iff]
  intro c hc
  obtain ⟨octet, -, rfl⟩ := List.mem_map.mp hc
  have hlt := octet.toNat_lt
  have hval : (Fin.ofNat 0x110000 octet.toNat : CodePoint).val = octet.toNat := Nat.mod_eq_of_lt (by omega)
  have hlow : decide (0xd800 ≤ (Fin.ofNat 0x110000 octet.toNat : CodePoint).val) = false := decide_eq_false (by omega)
  rw [surrogate, hlow, Bool.false_and]

theorem utf8_append (s t : Str) : utf8 (s ++ t) = utf8 s ++ utf8 t := List.flatMap_append

theorem utf8_cons (c : CodePoint) (s : Str) : utf8 (c :: s) = utf8Char c ++ utf8 s := List.flatMap_cons

/-- Characters from a code point on are octets from it on, as long as it is one of ASCII. -/
theorem le_utf8 {least : ℕ} (hleast : least ≤ 128) {s : Str} (hs : ∀ c ∈ s, least ≤ c.val) :
    ∀ b ∈ utf8 s, least ≤ b.toNat := by
  intro b hb
  obtain ⟨c, hc, hbc⟩ := List.mem_flatMap.mp hb
  rcases toNat_utf8Char c with ⟨hlow, heq⟩ | hhigh
  · rw [heq, List.mem_singleton] at hbc
    have hval := hs c hc
    rw [hbc, UInt8.toNat_ofNat', Nat.mod_eq_of_lt (by omega)]
    exact hval
  · exact hleast.trans (hhigh b hbc)

/-! ## Decoding -/

/-- The six bits of a continuation octet. -/
def tailBits (b : UInt8) : Option ℕ := if 0x80 ≤ b.toNat ∧ b.toNat ≤ 0xbf then some (b.toNat - 0x80) else none

/-- A code point no shorter form stands for. -/
def codePoint? (least n : ℕ) : Option CodePoint :=
  if h : n < 0x110000 then
    if least ≤ n ∧ surrogate ⟨n, h⟩ = false then some ⟨n, h⟩ else none
  else none

def decode : Bytes → Option Str
  | [] => some []
  | a :: rest =>
    if a.toNat < 0x80 then do
      let c ← codePoint? 0 a.toNat
      let s ← decode rest
      some (c :: s)
    else if a.toNat < 0xe0 then
      match rest with
      | b :: rest => do
        let y ← tailBits b
        let c ← codePoint? 0x80 ((a.toNat - 0xc0) * 64 + y)
        let s ← decode rest
        some (c :: s)
      | _ => none
    else if a.toNat < 0xf0 then
      match rest with
      | b :: d :: rest => do
        let y ← tailBits b
        let z ← tailBits d
        let c ← codePoint? 0x800 ((a.toNat - 0xe0) * 4096 + y * 64 + z)
        let s ← decode rest
        some (c :: s)
      | _ => none
    else
      match rest with
      | b :: d :: e :: rest => do
        let y ← tailBits b
        let z ← tailBits d
        let w ← tailBits e
        let c ← codePoint? 0x10000 ((a.toNat - 0xf0) * 262144 + y * 4096 + z * 64 + w)
        let s ← decode rest
        some (c :: s)
      | _ => none

theorem tailBits_eq_some_iff {b : UInt8} {y : ℕ} : tailBits b = some y ↔ b.toNat = 0x80 + y ∧ y < 64 := by
  unfold tailBits
  split_ifs with h
  · rw [Option.some.injEq]
    omega
  · refine iff_of_false (fun h => nomatch h) ?_
    omega

theorem codePoint?_eq_some_iff {least n : ℕ} {c : CodePoint} :
    codePoint? least n = some c ↔ c.val = n ∧ least ≤ n ∧ surrogate c = false := by
  unfold codePoint?
  split_ifs with h hn
  · rw [Option.some.injEq]
    constructor
    · rintro rfl
      exact ⟨rfl, hn⟩
    · rintro ⟨hval, -⟩
      exact Fin.ext hval.symm
  · refine iff_of_false (fun h => nomatch h) ?_
    rintro ⟨rfl, hc⟩
    exact hn hc
  · refine iff_of_false (fun h => nomatch h) ?_
    have hc := c.isLt
    omega

theorem tailBits_ofNat {y : ℕ} (h : y < 64) : tailBits (UInt8.ofNat (0x80 + y)) = some y := by
  rw [tailBits_eq_some_iff, UInt8.toNat_ofNat', Nat.mod_eq_of_lt (by omega)]
  exact ⟨rfl, h⟩

/-- Substituting first keeps the kernel from comparing the two sides by computing a code point. -/
theorem bind_of_some {α β : Type} {x : Option α} {a : α} (h : x = some a) (f : α → Option β) : (x >>= f) = f a := by
  rw [h]
  rfl

theorem decode_utf8Char (c : CodePoint) (hc : surrogate c = false) (rest : Bytes) :
    decode (utf8Char c ++ rest) = (decode rest).map (fun s => c :: s) := by
  have hlt := c.isLt
  have hhead : ∀ n, n < 256 → (UInt8.ofNat n).toNat = n := fun n hn => by
    rw [UInt8.toNat_ofNat', Nat.mod_eq_of_lt (by omega)]
  have htail : ∀ n, tailBits (UInt8.ofNat (0x80 + n % 64)) = some (n % 64) := fun n =>
    tailBits_ofNat (Nat.mod_lt n (by decide))
  unfold utf8Char
  split_ifs with h1 h2 h3
  · have hpoint : codePoint? 0 c.val = some c := codePoint?_eq_some_iff.mpr ⟨rfl, Nat.zero_le _, hc⟩
    rw [List.singleton_append, decode.eq_def]
    dsimp only
    rw [hhead c.val (by omega), if_pos h1, bind_of_some hpoint]
    cases decode rest <;> rfl
  · have hpoint : codePoint? 0x80 ((0xc0 + c.val / 64 - 0xc0) * 64 + c.val % 64) = some c :=
      codePoint?_eq_some_iff.mpr ⟨by omega, by omega, hc⟩
    simp only [List.cons_append, List.nil_append]
    rw [decode.eq_def]
    dsimp only
    rw [hhead (0xc0 + c.val / 64) (by omega), if_neg (by omega), if_pos (by omega), bind_of_some (htail _),
      bind_of_some hpoint]
    cases decode rest <;> rfl
  · have hpoint : codePoint? 0x800 ((0xe0 + c.val / 4096 - 0xe0) * 4096 + c.val / 64 % 64 * 64 + c.val % 64) = some c :=
      codePoint?_eq_some_iff.mpr ⟨by omega, by omega, hc⟩
    simp only [List.cons_append, List.nil_append]
    rw [decode.eq_def]
    dsimp only
    rw [hhead (0xe0 + c.val / 4096) (by omega), if_neg (by omega), if_neg (by omega), if_pos (by omega),
      bind_of_some (htail _), bind_of_some (htail _), bind_of_some hpoint]
    cases decode rest <;> rfl
  · have hpoint : codePoint? 0x10000 ((0xf0 + c.val / 262144 - 0xf0) * 262144 + c.val / 4096 % 64 * 4096 +
        c.val / 64 % 64 * 64 + c.val % 64) = some c :=
      codePoint?_eq_some_iff.mpr ⟨by omega, by omega, hc⟩
    simp only [List.cons_append, List.nil_append]
    rw [decode.eq_def]
    dsimp only
    rw [hhead (0xf0 + c.val / 262144) (by omega), if_neg (by omega), if_neg (by omega), if_neg (by omega),
      bind_of_some (htail _), bind_of_some (htail _), bind_of_some (htail _), bind_of_some hpoint]
    cases decode rest <;> rfl

/-- **What was encoded is read back.** -/
theorem decode_utf8 {s : Str} (h : encodable s = true) : decode (utf8 s) = some s := by
  induction s with
  | nil => rfl
  | cons c s ih =>
    rw [encodable_cons, Bool.and_eq_true, Bool.not_eq_true'] at h
    rw [utf8_cons, decode_utf8Char c h.1, ih h.2]
    rfl
