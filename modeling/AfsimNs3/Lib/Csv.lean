import Mathlib.Data.List.Basic
import Mathlib.Data.List.Nodup

/-!
# Records of separated values

A record is a list of fields; it is written on a line of its own, with the fields that need it in quotes. The reader goes
through a text character by character and keeps the records it has completed.

* `scan_field`: what is left of a field before a separator is the field itself, in quotes or not;
* `read_records`: records that are written one after the other are read back.
-/

namespace Csv

variable {α : Type*} [DecidableEq α]

/-- The characters a text is taken apart at. -/
structure Dialect (α : Type*) where
  delimiter : α
  quote : α
  cr : α
  lf : α
  distinct : [delimiter, quote, cr, lf].Nodup

variable (d : Dialect α)

/-! ## Writing -/

/-- A field with this character is put in quotes. -/
def Dialect.Special (c : α) : Prop := c = d.delimiter ∨ c = d.quote ∨ c = d.cr ∨ c = d.lf

instance Dialect.Special.decidable (c : α) : Decidable (d.Special c) :=
  inferInstanceAs (Decidable (c = d.delimiter ∨ c = d.quote ∨ c = d.cr ∨ c = d.lf))

/-- A quote inside quotes is doubled. -/
def Dialect.escape (text : List α) : List α := text.flatMap fun c => if c = d.quote then [d.quote, d.quote] else [c]

def Dialect.quoted (text : List α) : List α := d.quote :: d.escape text ++ [d.quote]

def Dialect.field (text : List α) : List α := if ∃ c ∈ text, d.Special c then d.quoted text else text

/-- The line of a record, with its end. A single empty field is quoted, as no field would be left to see. -/
def Dialect.record (fields : List (List α)) : List α :=
  (if fields = [[]] then d.quoted [] else [d.delimiter].intercalate (fields.map d.field)) ++ [d.cr, d.lf]

section Characters
variable {d}

theorem mem_quoted {text : List α} {c : α} (h : c ∈ d.quoted text) : c ∈ text ∨ d.Special c := by
  rw [Dialect.quoted, List.mem_append, List.mem_cons, List.mem_singleton] at h
  rcases h with (rfl | hescape) | rfl
  · exact .inr (.inr (.inl rfl))
  · obtain ⟨x, hx, hc⟩ := List.mem_flatMap.mp hescape
    split_ifs at hc with hquote
    · rw [List.mem_cons, List.mem_singleton, or_self] at hc
      exact .inr (.inr (.inl hc))
    · rw [List.mem_singleton] at hc
      exact .inl (hc ▸ hx)
  · exact .inr (.inr (.inl rfl))

theorem mem_field {text : List α} {c : α} (h : c ∈ d.field text) : c ∈ text ∨ d.Special c := by
  unfold Dialect.field at h
  split_ifs at h
  · exact mem_quoted h
  · exact .inl h

omit [DecidableEq α] in
theorem mem_intercalate {separator c : α} {pieces : List (List α)} (h : c ∈ [separator].intercalate pieces) :
    (∃ piece ∈ pieces, c ∈ piece) ∨ c = separator := by
  induction pieces with
  | nil => exact absurd h List.not_mem_nil
  | cons piece pieces ih =>
    cases pieces with
    | nil => exact .inl ⟨piece, List.mem_singleton_self piece, by rwa [List.intercalate_singleton] at h⟩
    | cons next pieces =>
      rw [List.intercalate_cons_cons, List.mem_append, List.mem_append, List.mem_singleton] at h
      rcases h with (hpiece | rfl) | hrest
      · exact .inl ⟨piece, List.mem_cons_self, hpiece⟩
      · exact .inr rfl
      · refine (ih hrest).imp_left ?_
        rintro ⟨found, hfound, hc⟩
        exact ⟨found, List.mem_cons_of_mem piece hfound, hc⟩

/-- The characters of a line are those of its fields and the special ones. -/
theorem mem_record {fields : List (List α)} {c : α} (h : c ∈ d.record fields) : (∃ text ∈ fields, c ∈ text) ∨ d.Special c := by
  rw [Dialect.record, List.mem_append, List.mem_cons, List.mem_singleton] at h
  rcases h with hline | rfl | rfl
  · split_ifs at hline
    · exact .inr ((mem_quoted hline).resolve_left List.not_mem_nil)
    · rcases mem_intercalate hline with ⟨field, hfield, hc⟩ | rfl
      · obtain ⟨text, htext, rfl⟩ := List.mem_map.mp hfield
        exact (mem_field hc).imp_left fun hmem => ⟨text, htext, hmem⟩
      · exact .inr (.inl rfl)
  · exact .inr (.inr (.inr (.inl rfl)))
  · exact .inr (.inr (.inr (.inr rfl)))

end Characters

/-! ## Reading -/

inductive Mode where
  | startRecord
  | startField
  | inField
  | inQuotes
  /-- After a quote inside quotes. -/
  | afterQuote
  /-- After the first character of a line end. -/
  | afterCr

/-- A reader in the middle of a text. -/
@[ext] structure Reader (α : Type*) where
  records : List (List (List α))
  fields : List (List α)
  field : List α
  mode : Mode

def Reader.new : Reader α := ⟨[], [], [], .startRecord⟩

/-- The field is complete. -/
def Reader.endField (r : Reader α) : Reader α := { r with fields := r.fields ++ [r.field], field := [], mode := .startField }

/-- The record is complete, up to the rest of its line end. -/
def Reader.endRecord (r : Reader α) (mode : Mode) : Reader α :=
  ⟨r.records ++ [r.fields ++ [r.field]], [], [], mode⟩

def Reader.add (r : Reader α) (c : α) (mode : Mode) : Reader α := { r with field := r.field ++ [c], mode := mode }

/-- A character outside quotes. -/
def Dialect.unquoted (r : Reader α) (c : α) : Reader α :=
  if c = d.delimiter then r.endField
  else if c = d.cr then r.endRecord .afterCr
  else if c = d.lf then r.endRecord .startRecord
  else r.add c .inField

/-- A character at the start of a field. -/
def Dialect.first (r : Reader α) (c : α) : Reader α := if c = d.quote then { r with mode := .inQuotes } else d.unquoted r c

/-- A character at the start of a line. An empty line is a record without fields. -/
def Dialect.firstOfLine (r : Reader α) (c : α) : Reader α :=
  if c = d.cr then { r with records := r.records ++ [[]], mode := .afterCr }
  else if c = d.lf then { r with records := r.records ++ [[]], mode := .startRecord }
  else d.first r c

def Dialect.next (r : Reader α) (c : α) : Reader α :=
  match r.mode with
  | .startRecord => d.firstOfLine r c
  | .startField => d.first r c
  | .inField => d.unquoted r c
  | .inQuotes => if c = d.quote then { r with mode := .afterQuote } else r.add c .inQuotes
  | .afterQuote => if c = d.quote then r.add c .inQuotes else d.unquoted r c
  | .afterCr => if c = d.lf then { r with mode := .startRecord } else d.firstOfLine r c

def Dialect.scan (r : Reader α) (text : List α) : Reader α := text.foldl d.next r

/-- The records of a text. The last line need not be ended. -/
def Dialect.read (text : List α) : List (List (List α)) :=
  let r := d.scan Reader.new text
  match r.mode with
  | .startRecord | .afterCr => r.records
  | _ => r.records ++ [r.fields ++ [r.field]]

/-! ## The round trip -/

omit [DecidableEq α] in
theorem Dialect.delimiter_ne : d.delimiter ≠ d.quote ∧ d.delimiter ≠ d.cr ∧ d.delimiter ≠ d.lf := by
  have h := d.distinct
  simp only [List.nodup_cons, List.mem_cons, not_or] at h
  exact ⟨h.1.1, h.1.2.1, h.1.2.2.1⟩

omit [DecidableEq α] in
theorem Dialect.quote_ne : d.quote ≠ d.cr ∧ d.quote ≠ d.lf := by
  have h := d.distinct
  simp only [List.nodup_cons, List.mem_cons, not_or] at h
  exact ⟨h.2.1.1, h.2.1.2.1⟩

variable {d}

theorem Dialect.unquoted_plain {r : Reader α} {c : α} (h : ¬ d.Special c) : d.unquoted r c = r.add c .inField := by
  obtain ⟨hdelimiter, -, hcr, hlf⟩ := not_or.mp h |>.imp_right not_or.mp |>.imp_right (And.imp_right not_or.mp)
  rw [Dialect.unquoted, if_neg hdelimiter, if_neg hcr, if_neg hlf]

/-- Characters of a field without quotes. -/
theorem scan_plain (text : List α) (h : ∀ c ∈ text, ¬ d.Special c) {r : Reader α} (hmode : r.mode = .inField) :
    d.scan r text = { r with field := r.field ++ text } := by
  induction text generalizing r with
  | nil => exact Reader.ext rfl rfl (List.append_nil _).symm rfl
  | cons c text ih =>
    rw [List.forall_mem_cons] at h
    have hnext : d.next r c = r.add c .inField := by
      unfold Dialect.next
      rw [hmode]
      exact Dialect.unquoted_plain h.1
    show d.scan (d.next r c) text = _
    rw [hnext, ih h.2 rfl]
    refine Reader.ext rfl rfl ?_ hmode.symm
    exact List.append_assoc r.field [c] text

/-- Characters inside quotes. -/
theorem scan_escape (text : List α) {r : Reader α} (hmode : r.mode = .inQuotes) :
    d.scan r (d.escape text) = { r with field := r.field ++ text } := by
  induction text generalizing r with
  | nil => exact Reader.ext rfl rfl (List.append_nil _).symm rfl
  | cons c text ih =>
    have hescape : d.escape (c :: text) = (if c = d.quote then [d.quote, d.quote] else [c]) ++ d.escape text :=
      List.flatMap_cons
    have hstep : d.scan r (if c = d.quote then [d.quote, d.quote] else [c]) = r.add c .inQuotes := by
      split_ifs with hquote
      · subst hquote
        have hfirst : d.next r d.quote = { r with mode := .afterQuote } := by
          unfold Dialect.next
          rw [hmode]
          exact if_pos rfl
        show d.next (d.next r d.quote) d.quote = _
        rw [hfirst]
        exact if_pos rfl
      · show d.next r c = _
        unfold Dialect.next
        rw [hmode]
        exact if_neg hquote
    unfold Dialect.scan at hstep ih ⊢
    rw [hescape, List.foldl_append, hstep, ih rfl]
    refine Reader.ext rfl rfl ?_ hmode.symm
    exact List.append_assoc r.field [c] text

/-- The reader is at the start of a field, on a line that may have just begun. -/
structure Reader.AtField (r : Reader α) : Prop where
  mode : r.mode = .startRecord ∨ r.mode = .startField
  field : r.field = []

/-- A character that does not end a line is read alike at both starts. -/
theorem next_atField {r : Reader α} (h : r.AtField) {c : α} (hcr : c ≠ d.cr) (hlf : c ≠ d.lf) :
    d.next r c = d.first r c := by
  unfold Dialect.next
  rcases h.mode with hmode | hmode
  · rw [hmode]
    exact (if_neg hcr).trans (if_neg hlf)
  · rw [hmode]

/-- A separator: what ends a field, but not an empty line. -/
def Dialect.Ends (d : Dialect α) (r : Reader α) (text : List α) (c : α) : Prop :=
  c = d.delimiter ∨ c = d.cr ∧ (r.mode = .startRecord → text ≠ [])

theorem scan_quoted {r : Reader α} (h : r.AtField) (text : List α) {c : α} (hc : c ≠ d.quote) :
    d.scan r (d.quoted text ++ [c]) = d.unquoted { r with field := text, mode := .afterQuote } c := by
  have hopen : d.next r d.quote = { r with mode := .inQuotes } := by
    rw [next_atField h d.quote_ne.1 d.quote_ne.2]
    exact if_pos rfl
  have hinside := scan_escape (d := d) text (r := { r with mode := .inQuotes }) rfl
  have hclose : d.next { r with field := text, mode := .inQuotes } d.quote = { r with field := text, mode := .afterQuote } :=
    if_pos rfl
  unfold Dialect.scan at hinside ⊢
  rw [Dialect.quoted, List.append_assoc, List.cons_append, List.foldl_cons, hopen, List.foldl_append, hinside, h.field,
    List.nil_append, List.singleton_append, List.foldl_cons, hclose]
  exact if_neg hc

/-- A separator completes the field, however it was read. -/
theorem unquoted_mode (r : Reader α) (mode : Mode) {c : α} (hc : c = d.delimiter ∨ c = d.cr) :
    d.unquoted { r with mode := mode } c = d.unquoted r c := by
  unfold Dialect.unquoted
  rcases hc with rfl | rfl
  · rw [if_pos rfl, if_pos rfl]
    rfl
  · rw [if_neg d.delimiter_ne.2.1.symm, if_pos rfl, if_neg d.delimiter_ne.2.1.symm, if_pos rfl]
    rfl

/-- **A field and its separator.** -/
theorem scan_field {r : Reader α} (h : r.AtField) (text : List α) {c : α} (hc : d.Ends r text c) :
    d.scan r (d.field text ++ [c]) = d.unquoted { r with field := text } c := by
  have hseparator : c = d.delimiter ∨ c = d.cr := hc.imp_right And.left
  have hquote : c ≠ d.quote := by
    rcases hseparator with rfl | rfl
    · exact d.delimiter_ne.1
    · exact d.quote_ne.1.symm
  unfold Dialect.field
  split_ifs with hspecial
  · rw [scan_quoted h text hquote]
    exact unquoted_mode { r with field := text } .afterQuote hseparator
  · have hplain : ∀ x ∈ text, ¬ d.Special x := fun x hx hs => hspecial ⟨x, hx, hs⟩
    cases text with
    | nil =>
      have hself : { r with field := [] } = r := Reader.ext rfl rfl h.field.symm rfl
      show d.next r c = _
      rw [hself]
      rcases hc with rfl | ⟨rfl, hline⟩
      · rw [next_atField h d.delimiter_ne.2.1 d.delimiter_ne.2.2]
        exact if_neg hquote
      · have hmode := h.mode.resolve_left fun hstart => hline hstart rfl
        unfold Dialect.next
        rw [hmode]
        exact if_neg hquote
    | cons x text =>
      rw [List.forall_mem_cons] at hplain
      obtain ⟨hx, htext⟩ := hplain
      have hne : x ≠ d.quote ∧ x ≠ d.cr ∧ x ≠ d.lf :=
        ⟨fun h => hx (.inr (.inl h)), fun h => hx (.inr (.inr (.inl h))), fun h => hx (.inr (.inr (.inr h)))⟩
      have hfirst : d.next r x = r.add x .inField := by
        rw [next_atField h hne.2.1 hne.2.2, Dialect.first, if_neg hne.1, Dialect.unquoted_plain hx]
      have hrest := scan_plain (d := d) text htext (r := r.add x .inField) rfl
      unfold Dialect.scan at hrest ⊢
      rw [List.cons_append, List.foldl_cons, hfirst, List.foldl_append, hrest]
      have hfield : (r.add x .inField).field = [x] := by
        show r.field ++ [x] = [x]
        rw [h.field, List.nil_append]
      rw [hfield]
      exact unquoted_mode { r with field := x :: text } .inField hseparator

/-! ## Records -/

/-- The fields of a record, up to the end of its line. -/
theorem scan_fields {fields : List (List α)} (hne : fields ≠ []) {r : Reader α} (h : r.AtField)
    (hline : r.mode = .startRecord → fields ≠ [[]]) :
    d.scan r ([d.delimiter].intercalate (fields.map d.field) ++ [d.cr]) =
      ⟨r.records ++ [r.fields ++ fields], [], [], .afterCr⟩ := by
  induction fields generalizing r with
  | nil => exact absurd rfl hne
  | cons text fields ih =>
    cases fields with
    | nil =>
      have hends : d.Ends r text d.cr := .inr ⟨rfl, fun hstart hempty => hline hstart (by rw [hempty])⟩
      rw [List.map_singleton, List.intercalate_singleton, scan_field h text hends, Dialect.unquoted,
        if_neg d.delimiter_ne.2.1.symm, if_pos rfl]
      rfl
    | cons next fields =>
      have hscan := scan_field h text (.inl rfl : d.Ends r text d.delimiter)
      rw [Dialect.unquoted, if_pos rfl] at hscan
      have hnext : (Reader.endField { r with field := text }).AtField := ⟨.inr rfl, rfl⟩
      have hrest := ih (List.cons_ne_nil next fields) hnext fun hstart => nomatch hstart
      unfold Dialect.scan at hscan hrest ⊢
      rw [List.map_cons, List.map_cons, List.intercalate_cons_cons, List.append_assoc, List.append_assoc,
        ← List.append_assoc (d.field text), List.foldl_append, hscan]
      refine hrest.trans (Reader.ext ?_ rfl rfl rfl)
      show r.records ++ [r.fields ++ [text] ++ next :: fields] = _
      rw [List.append_assoc]
      rfl

/-- **A record is read** at the start of a line. -/
theorem scan_record (fields : List (List α)) (hne : fields ≠ []) (records : List (List (List α))) :
    d.scan ⟨records, [], [], .startRecord⟩ (d.record fields) = ⟨records ++ [fields], [], [], .startRecord⟩ := by
  have hstart : (⟨records, [], [], .startRecord⟩ : Reader α).AtField := ⟨.inl rfl, rfl⟩
  have hend : ∀ r : Reader α, d.next { r with mode := .afterCr } d.lf = { r with mode := .startRecord } :=
    fun r => if_pos rfl
  have hline : d.scan ⟨records, [], [], .startRecord⟩ ((if fields = [[]] then d.quoted [] else
      [d.delimiter].intercalate (fields.map d.field)) ++ [d.cr]) = ⟨records ++ [fields], [], [], .afterCr⟩ := by
    split_ifs with hempty
    · subst hempty
      rw [scan_quoted hstart [] d.quote_ne.1.symm, Dialect.unquoted, if_neg d.delimiter_ne.2.1.symm, if_pos rfl]
      rfl
    · exact scan_fields hne hstart fun _ => hempty
  unfold Dialect.scan at hline ⊢
  have hsplit : d.record fields = ((if fields = [[]] then d.quoted [] else
      [d.delimiter].intercalate (fields.map d.field)) ++ [d.cr]) ++ [d.lf] := by
    rw [Dialect.record, List.append_assoc]
    rfl
  rw [hsplit, List.foldl_append, hline]
  exact hend ⟨records ++ [fields], [], [], .startRecord⟩

theorem scan_records {records : List (List (List α))} (h : ∀ record ∈ records, record ≠ [])
    (before : List (List (List α))) :
    d.scan ⟨before, [], [], .startRecord⟩ (records.flatMap d.record) = ⟨before ++ records, [], [], .startRecord⟩ := by
  induction records generalizing before with
  | nil => exact Reader.ext (List.append_nil _).symm rfl rfl rfl
  | cons record records ih =>
    rw [List.forall_mem_cons] at h
    have hfirst := scan_record (d := d) record h.1 before
    have hrest := ih h.2 (before ++ [record])
    unfold Dialect.scan at hfirst hrest ⊢
    rw [List.flatMap_cons, List.foldl_append, hfirst, hrest, List.append_assoc]
    rfl

/-- **Records written one after the other are read back**, whatever is in their fields. -/
theorem read_records {records : List (List (List α))} (h : ∀ record ∈ records, record ≠ []) :
    d.read (records.flatMap d.record) = records := by
  have hscan := scan_records (d := d) h []
  unfold Dialect.read
  rw [show Reader.new = (⟨[], [], [], .startRecord⟩ : Reader α) from rfl, hscan]
  exact List.nil_append _

end Csv
