import AfsimNs3.Lib.Ctype

/-!
# Messages with a length

A message of HTTP/1.1: a line, fields of a name and a value, an empty line, and a body whose length is the value of
`Content-Length`. Lines end with carriage return and line feed.

`read_write`: a message that is written is read back, and what follows it is left, provided that its lines are lines, its
values begin with no space, and the length is that of the body (`Framed`).
-/

namespace Http

structure Message where
  start : Bytes
  fields : List (Bytes × Bytes)
  body : Bytes

def crlf : Bytes := [13, 10]

/-! ## Writing -/

def fieldLine (field : Bytes × Bytes) : Bytes := field.1 ++ 58 :: 32 :: field.2

namespace Message

def head (m : Message) : List Bytes := m.start :: m.fields.map fieldLine

def write (m : Message) : Bytes := (m.head.flatMap fun line => line ++ crlf) ++ crlf ++ m.body

end Message

/-! ## Reading -/

/-- The next line and the octets behind it. -/
def readLine : Bytes → Option (Bytes × Bytes)
  | [] => none
  | c :: rest =>
    if c = 13 ∧ rest.head? = some 10 then some ([], rest.tail)
    else (readLine rest).map fun p => (c :: p.1, p.2)

/-- The lines up to an empty one, and the octets behind that. -/
def readLines : ℕ → Bytes → Option (List Bytes × Bytes)
  | 0, _ => none
  | fuel + 1, octets =>
    match readLine octets with
    | none => none
    | some (line, rest) => if line = [] then some ([], rest) else (readLines fuel rest).map fun p => (line :: p.1, p.2)

/-- The name before the colon, and the value without the spaces before it. -/
def readField (line : Bytes) : Option (Bytes × Bytes) :=
  match line.dropWhile (fun c => c ≠ 58) with
  | [] => none
  | _ :: value => some (line.takeWhile (fun c => c ≠ 58), value.dropWhile fun c => c = 32 ∨ c = 9)

def readDecimal (text : Bytes) : Option ℕ := if text ≠ [] ∧ text.all isDigit then some (digitsValue text) else none

/-- Names of fields are compared without regard to case. -/
def lower (name : Bytes) : Bytes := name.map fun c => if 65 ≤ c ∧ c ≤ 90 then c + 32 else c

def contentLength (fields : List (Bytes × Bytes)) : Option ℕ :=
  (fields.find? fun field => lower field.1 = ascii "content-length").bind fun field => readDecimal field.2

/-- A message and the octets behind it. -/
def read (octets : Bytes) : Option (Message × Bytes) :=
  match readLines (octets.length + 1) octets with
  | some (start :: lines, rest) =>
    (lines.mapM readField).bind fun fields =>
      (contentLength fields).bind fun length =>
        if length ≤ rest.length then some (⟨start, fields, rest.take length⟩, rest.drop length) else none
  | _ => none

/-! ## The round trip -/

/-- A text that can stand in a line. -/
def Inline (text : Bytes) : Prop := (13 : UInt8) ∉ text

/-- A text that begins with no space. -/
def Unspaced (text : Bytes) : Prop := text.dropWhile (fun c => c = 32 ∨ c = 9) = text

instance (text : Bytes) : Decidable (Inline text) := inferInstanceAs (Decidable (¬ _))

instance (text : Bytes) : Decidable (Unspaced text) := inferInstanceAs (Decidable (_ = _))

structure Framed (m : Message) : Prop where
  start : Inline m.start ∧ m.start ≠ []
  names : ∀ field ∈ m.fields, Inline field.1 ∧ (58 : UInt8) ∉ field.1
  values : ∀ field ∈ m.fields, Inline field.2 ∧ Unspaced field.2
  length : contentLength m.fields = some m.body.length

theorem readLine_line {line : Bytes} (h : Inline line) (rest : Bytes) : readLine (line ++ crlf ++ rest) = some (line, rest) := by
  induction line with
  | nil => rfl
  | cons c line ih =>
    rw [Inline, List.mem_cons, not_or] at h
    rw [List.cons_append, List.cons_append, readLine, if_neg fun hc => h.1 hc.1.symm, ih h.2]
    rfl

theorem readLines_lines {lines : List Bytes} (h : ∀ line ∈ lines, Inline line ∧ line ≠ []) (rest : Bytes) {fuel : ℕ}
    (hfuel : lines.length < fuel) :
    readLines fuel ((lines.flatMap fun line => line ++ crlf) ++ crlf ++ rest) = some (lines, rest) := by
  induction lines generalizing fuel with
  | nil =>
    obtain ⟨fuel, rfl⟩ := Nat.exists_eq_succ_of_ne_zero (Nat.ne_of_gt hfuel)
    rfl
  | cons line lines ih =>
    rw [List.forall_mem_cons] at h
    obtain ⟨fuel, rfl⟩ := Nat.exists_eq_succ_of_ne_zero (Nat.ne_of_gt (Nat.zero_lt_of_lt hfuel))
    have hrest := ih h.2 (Nat.lt_of_succ_lt_succ hfuel)
    rw [List.flatMap_cons, List.append_assoc, List.append_assoc, ← List.append_assoc _ crlf rest, readLines,
      readLine_line h.1.1]
    dsimp only
    rw [if_neg h.1.2, hrest]
    rfl

theorem readField_line {field : Bytes × Bytes} (hname : (58 : UInt8) ∉ field.1) (hvalue : Unspaced field.2) :
    readField (fieldLine field) = some field := by
  have hbefore : ∀ c ∈ field.1, decide (c ≠ 58) = true := fun c hc => decide_eq_true fun heq => hname (heq ▸ hc)
  have hdrop : (fieldLine field).dropWhile (fun c => c ≠ 58) = 58 :: 32 :: field.2 := by
    rw [fieldLine, List.dropWhile_append_of_pos hbefore]
    rfl
  have htake : (fieldLine field).takeWhile (fun c => c ≠ 58) = field.1 := by
    rw [fieldLine, List.takeWhile_append_of_pos hbefore]
    exact List.append_nil _
  have hspace : (32 :: field.2).dropWhile (fun c => c = 32 ∨ c = 9) = field.2.dropWhile (fun c => c = 32 ∨ c = 9) := rfl
  rw [readField, hdrop, htake]
  dsimp only
  rw [hspace, show field.2.dropWhile (fun c => c = 32 ∨ c = 9) = field.2 from hvalue]

theorem readFields_lines {fields : List (Bytes × Bytes)} (h : ∀ field ∈ fields, (58 : UInt8) ∉ field.1 ∧ Unspaced field.2) :
    (fields.map fieldLine).mapM readField = some fields := by
  induction fields with
  | nil => rfl
  | cons field fields ih =>
    rw [List.forall_mem_cons] at h
    rw [List.map_cons, List.mapM_cons, readField_line h.1.1 h.1.2, ih h.2]
    rfl

theorem length_le_lines (lines : List Bytes) : lines.length ≤ (lines.flatMap fun line => line ++ crlf).length := by
  induction lines with
  | nil => exact Nat.le_refl 0
  | cons line lines ih =>
    rw [List.flatMap_cons, List.length_append, List.length_append, List.length_cons]
    show lines.length + 1 ≤ line.length + 2 + _
    omega

/-- **A message is read as it was written**, up to its end and not beyond. -/
theorem read_write {m : Message} (h : Framed m) (rest : Bytes) : read (m.write ++ rest) = some (m, rest) := by
  have hline : ∀ field ∈ m.fields, Inline (fieldLine field) ∧ fieldLine field ≠ [] := by
    intro field hfield
    refine ⟨?_, List.append_ne_nil_of_right_ne_nil _ (List.cons_ne_nil _ _)⟩
    rw [Inline, fieldLine, List.mem_append, List.mem_cons, List.mem_cons]
    rintro (hname | hcolon | hspace | hvalue)
    · exact (h.names field hfield).1 hname
    · exact absurd hcolon (by decide)
    · exact absurd hspace (by decide)
    · exact (h.values field hfield).1 hvalue
  have hhead : ∀ line ∈ m.head, Inline line ∧ line ≠ [] :=
    List.forall_mem_cons.mpr ⟨h.start, List.forall_mem_map.mpr hline⟩
  have hfuel : m.head.length < (m.write ++ rest).length + 1 := by
    have hlength := length_le_lines m.head
    rw [Message.write, List.append_assoc, List.append_assoc, List.length_append]
    omega
  have hlines := readLines_lines hhead (m.body ++ rest) hfuel
  have hfields := readFields_lines fun field hfield => ⟨(h.names field hfield).2, (h.values field hfield).2⟩
  have hwhole : m.write ++ rest = (m.head.flatMap fun line => line ++ crlf) ++ crlf ++ (m.body ++ rest) :=
    List.append_assoc _ _ _
  rw [← hwhole] at hlines
  unfold read
  rw [hlines, Message.head]
  dsimp only
  rw [hfields, Option.bind_some, h.length, Option.bind_some, if_pos (by simp), List.take_left, List.drop_left]

/-! ## Lengths -/

theorem readDecimal_natBytes (n : ℕ) : readDecimal (natBytes n) = some n := by
  rw [readDecimal, if_pos ⟨natBytes_ne_nil n, List.all_eq_true.mpr fun c hc => isDigit_of_mem_natBytes hc⟩,
    digitsValue_natBytes]

theorem natBytes_inline (n : ℕ) : Inline (natBytes n) := fun h =>
  absurd (isDigit_of_mem_natBytes h) (by decide)

theorem natBytes_unspaced (n : ℕ) : Unspaced (natBytes n) := by
  obtain ⟨c, rest, heq, hdigit⟩ := natBytes_cons n
  rw [Unspaced, heq, List.dropWhile_cons_of_neg]
  intro hspace
  rw [decide_eq_true_eq] at hspace
  rcases hspace with rfl | rfl <;> exact absurd hdigit (by decide)

end Http
