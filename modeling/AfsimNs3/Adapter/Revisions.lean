import AfsimNs3.Adapter.Gates
import AfsimNs3.Adapter.Values

/-!
# Revisions are read exactly

`JsonUint64` tests before it multiplies, by a division that depends on the digit. The loop therefore holds the integer
the digits so far denote (`uint64Digits_append`), and never wraps; a revision is read as the integer in the text, or the
line is refused (`revision_exact`). What the guards of both gates compare are these integers.
-/

namespace AfsimNs3.Adapter

/-- The value for the key starts with these digits, and with no more. -/
structure DigitRun (json key digits : Bytes) : Prop where
  value : ∃ position rest, valueStart json key = .ok position ∧ json.drop position = digits ++ rest ∧
    ∀ c ∈ rest.head?, isDigit c = false
  decimal : ∀ c ∈ digits, isDigit c = true
  nonempty : digits ≠ []

/-- The turn of the loop that takes the digit computes with the integers themselves. -/
structure ExactTurn (value : UInt64) (c : UInt8) : Prop where
  product : (value * 10).toNat = value.toNat * 10
  sum : (value * 10 + digitOf c).toNat = value.toNat * 10 + (c.toNat - 48)

theorem digitsValue_concat (digits : Bytes) (c : UInt8) :
    digitsValue (digits ++ [c]) = 10 * digitsValue digits + (c.toNat - 48) := by
  rw [digitsValue, List.foldl_append]
  rfl

/-- A turn whose result fits passes the test and is exact. -/
theorem exactTurn_of_fits {value : UInt64} {c : UInt8} (hc : isDigit c = true)
    (hfits : 10 * value.toNat + (c.toNat - 48) < 2 ^ 64) :
    ¬ (uint64Max - digitOf c) / 10 < value ∧ ExactTurn value c := by
  obtain ⟨hdigit, hnine⟩ := digitOf_toNat hc
  have hpasses : ¬ (uint64Max - digitOf c) / 10 < value := by
    rw [exceeds_iff hnine]
    omega
  obtain ⟨hproduct, hsum⟩ := turn_exact hnine hpasses
  refine ⟨hpasses, hproduct, ?_⟩
  rw [hsum, hdigit]

/-- **The loop invariant**: behind digits that fit, the loop holds the integer they denote. -/
theorem uint64Digits_append {done : Bytes} (hdone : ∀ c ∈ done, isDigit c = true) (hfits : digitsValue done < 2 ^ 64)
    (rest : Bytes) : uint64Digits 0 (done ++ rest) = uint64Digits (UInt64.ofNat (digitsValue done)) rest := by
  induction done using List.reverseRecOn generalizing rest with
  | nil => rfl
  | append_singleton done c ih =>
    rw [List.forall_mem_append, List.forall_mem_singleton] at hdone
    rw [digitsValue_concat] at hfits ⊢
    have hlt : digitsValue done < 2 ^ 64 := by omega
    have hvalue : (UInt64.ofNat (digitsValue done)).toNat = digitsValue done := by
      rw [UInt64.toNat_ofNat', Nat.mod_eq_of_lt hlt]
    obtain ⟨hpasses, hturn⟩ := exactTurn_of_fits hdone.2 (by rw [hvalue]; exact hfits)
    have hnext : UInt64.ofNat (digitsValue done) * 10 + digitOf c =
        UInt64.ofNat (10 * digitsValue done + (c.toNat - 48)) := by
      apply UInt64.toNat_inj.mp
      rw [hturn.sum, hvalue, UInt64.toNat_ofNat', Nat.mod_eq_of_lt hfits, Nat.mul_comm]
    rw [List.append_assoc, ih hdone.1 hlt, List.singleton_append, uint64Digits, if_pos hdone.2, if_neg hpasses, hnext]

/-! ## The guards -/

/-- The latest revision goes up to the integer the digits denote. -/
def Advances (latest latest' : UInt64) (digits : Bytes) : Prop :=
  latest.toNat < digitsValue digits ∧ latest'.toNat = digitsValue digits

/-- The revision of a result is what the reader makes of the line. -/
theorem MessageTransportGate.readMetrics_revision {stod : Bytes → Except Bytes Double} {line : Bytes}
    {revision : UInt64} {profiles : Profiles} (h : readMetrics stod line = .ok (some (revision, profiles))) :
    jsonUint64 line (ascii "revision") = .ok revision := by
  rw [readMetrics, Except.bind_ok_iff] at h
  obtain ⟨messageType, -, h⟩ := h
  split_ifs at h
  · cases h
  · simp only [Except.bind_ok_iff, Except.pure_ok_iff] at h
    obtain ⟨r, hrevision, _, -, _, -, _, -, _, -, heq⟩ := h
    obtain ⟨rfl, -⟩ := Prod.mk.inj (Option.some.inj heq)
    exact hrevision

theorem NetworkEffectGate.readMetrics_revision {line : Bytes} {revision : UInt64} {decisions : List EffectDecision}
    (h : readMetrics line = .ok (some (revision, decisions))) : jsonUint64 line (ascii "revision") = .ok revision := by
  rw [readMetrics, Except.bind_ok_iff] at h
  obtain ⟨messageType, -, h⟩ := h
  split_ifs at h
  · cases h
  · simp only [Except.bind_ok_iff, Except.pure_ok_iff] at h
    obtain ⟨r, hrevision, _, -, _, -, heq⟩ := h
    obtain ⟨rfl, -⟩ := Prod.mk.inj (Option.some.inj heq)
    exact hrevision

theorem DigitRun.read {json key digits : Bytes} (h : DigitRun json key digits) :
    jsonUint64 json key = if digitsValue digits < 2 ^ 64 then .ok (UInt64.ofNat (digitsValue digits))
      else .error (ascii "JSON integer exceeds uint64 range") := by
  obtain ⟨position, rest, hstart, hjson, hrest⟩ := h.value
  exact jsonUint64_digits hstart hjson h.nonempty h.decimal hrest

/-- A revision that is returned is the integer in the text. -/
theorem DigitRun.toNat_of_read {json key digits : Bytes} (h : DigitRun json key digits) {revision : UInt64}
    (hread : jsonUint64 json key = .ok revision) : revision.toNat = digitsValue digits := by
  rw [h.read] at hread
  split_ifs at hread with hfits
  obtain rfl := Except.ok.inj hread
  rw [UInt64.toNat_ofNat', Nat.mod_eq_of_lt hfits]

/-- A revision above the latest one. -/
theorem DigitRun.advances {json key digits : Bytes} (h : DigitRun json key digits) {latest revision : UInt64}
    (hread : jsonUint64 json key = .ok revision) (hnew : ¬ revision ≤ latest) : Advances latest revision digits := by
  have hvalue := h.toNat_of_read hread
  have hlt := UInt64.lt_iff_toNat_lt.mp (UInt64.not_le.mp hnew)
  rw [hvalue] at hlt
  exact ⟨hlt, hvalue⟩

theorem MessageTransportGate.update_advances {stod : Bytes → Except Bytes Double} {gate gate' : MessageTransportGate}
    {line digits : Bytes} {adopted : Bool} (h : DigitRun line (ascii "revision") digits)
    (hupdate : gate.updateFromMetricsJson stod line = .ok (gate', adopted)) :
    gate' = gate ∨ Advances gate.mLatestRevision gate'.mLatestRevision digits := by
  rw [updateFromMetricsJson] at hupdate
  obtain ⟨result, hread, haccept⟩ := Except.map_ok_iff.mp hupdate
  rcases result with _ | ⟨revision, profiles⟩
  · exact .inl (Prod.mk.inj haccept).1.symm
  · rw [accept] at haccept
    split_ifs at haccept with hle
    · exact .inl (Prod.mk.inj haccept).1.symm
    · obtain ⟨rfl, -⟩ := Prod.mk.inj haccept
      exact .inr (h.advances (readMetrics_revision hread) hle)

theorem NetworkEffectGate.update_advances {gate gate' : NetworkEffectGate} {line digits : Bytes}
    {adopted : List EffectDecision} (h : DigitRun line (ascii "revision") digits)
    (hupdate : gate.updateFromMetricsJson line = .ok (gate', adopted)) :
    gate' = gate ∨ Advances gate.mLatestRevision gate'.mLatestRevision digits := by
  rw [updateFromMetricsJson] at hupdate
  obtain ⟨result, hread, haccept⟩ := Except.map_ok_iff.mp hupdate
  rcases result with _ | ⟨revision, decisions⟩
  · exact .inl (Prod.mk.inj haccept).1.symm
  · rw [accept] at haccept
    split_ifs at haccept with hle
    · exact .inl (Prod.mk.inj haccept).1.symm
    · obtain ⟨rfl, -⟩ := Prod.mk.inj haccept
      exact .inr (h.advances (readMetrics_revision hread) hle)

/-! ## The reader -/

/-- **The revision reader is exact up to the last representable value.** It returns the integer the digits denote, or
throws when that is beyond `2 ^ 64 - 1`; every turn before that holds the integer of the digits so far and does not wrap;
and neither guard moves to anything but the integer in the text. -/
theorem revision_exact {json key digits : Bytes} (h : DigitRun json key digits) :
    (digitsValue digits ≤ 2 ^ 64 - 1 → ∃ value, jsonUint64 json key = .ok value ∧ value.toNat = digitsValue digits) ∧
    (2 ^ 64 - 1 < digitsValue digits → jsonUint64 json key = .error (ascii "JSON integer exceeds uint64 range")) ∧
    (∀ done c todo, digits = done ++ c :: todo → digitsValue (done ++ [c]) ≤ 2 ^ 64 - 1 →
      ∃ value : UInt64, value.toNat = digitsValue done ∧ ExactTurn value c ∧
        ∀ rest, uint64Digits 0 (digits ++ rest) = uint64Digits value (c :: todo ++ rest)) ∧
    (key = ascii "revision" →
      (∀ stod (gate gate' : MessageTransportGate) adopted, gate.updateFromMetricsJson stod json = .ok (gate', adopted) →
        gate' = gate ∨ Advances gate.mLatestRevision gate'.mLatestRevision digits) ∧
      ∀ (gate gate' : NetworkEffectGate) adopted, gate.updateFromMetricsJson json = .ok (gate', adopted) →
        gate' = gate ∨ Advances gate.mLatestRevision gate'.mLatestRevision digits) := by
  refine ⟨fun hfits => ?_, fun hover => ?_, fun done c todo hsplit hfits => ?_, ?_⟩
  · have hread := h.read
    rw [if_pos (by omega)] at hread
    exact ⟨_, hread, h.toNat_of_read hread⟩
  · rw [h.read, if_neg (by omega)]
  · have hdigits := h.decimal
    rw [hsplit, List.forall_mem_append, List.forall_mem_cons] at hdigits
    rw [digitsValue_concat] at hfits
    have hlt : digitsValue done < 2 ^ 64 := by omega
    have hvalue : (UInt64.ofNat (digitsValue done)).toNat = digitsValue done := by
      rw [UInt64.toNat_ofNat', Nat.mod_eq_of_lt hlt]
    refine ⟨UInt64.ofNat (digitsValue done), hvalue, ?_, fun rest => ?_⟩
    · apply (exactTurn_of_fits hdigits.2.1 _).2
      rw [hvalue]
      omega
    · rw [hsplit, List.append_assoc]
      exact uint64Digits_append hdigits.1 hlt _
  · rintro rfl
    exact ⟨fun _ _ _ _ hupdate => MessageTransportGate.update_advances h hupdate,
      fun _ _ _ hupdate => NetworkEffectGate.update_advances h hupdate⟩

theorem digitRun_revision {digits : Bytes} (hdecimal : ∀ c ∈ digits, isDigit c = true) (hne : digits ≠ [])
    {line : Bytes} (hline : line = ascii "\x7b\"revision\":" ++ (digits ++ ascii "\x7d"))
    (hstart : valueStart line (ascii "revision") = .ok 12) : DigitRun line (ascii "revision") digits := by
  refine ⟨⟨12, ascii "\x7d", hstart, ?_, ?_⟩, hdecimal, hne⟩
  · rw [hline]
    rfl
  · intro c hc
    obtain rfl := Option.some.inj hc
    rfl

/-- The last revision that fits, behind a zero, and the first that does not. -/
theorem boundary_revisions :
    (∃ value, jsonUint64 (ascii "\x7b\"revision\":018446744073709551615\x7d") (ascii "revision") = .ok value ∧
      value.toNat = 2 ^ 64 - 1) ∧
    jsonUint64 (ascii "\x7b\"revision\":18446744073709551616\x7d") (ascii "revision") =
      .error (ascii "JSON integer exceeds uint64 range") := by
  have hlast : DigitRun (ascii "\x7b\"revision\":018446744073709551615\x7d") (ascii "revision")
      (ascii "018446744073709551615") :=
    digitRun_revision (forall_of_all (by decide +kernel)) (by decide +kernel) (by decide +kernel) (by decide +kernel)
  have hfirst : DigitRun (ascii "\x7b\"revision\":18446744073709551616\x7d") (ascii "revision")
      (ascii "18446744073709551616") :=
    digitRun_revision (forall_of_all (by decide +kernel)) (by decide +kernel) (by decide +kernel) (by decide +kernel)
  have hlastValue : digitsValue (ascii "018446744073709551615") = 2 ^ 64 - 1 := by decide +kernel
  have hfirstValue : digitsValue (ascii "18446744073709551616") = 2 ^ 64 := by decide +kernel
  have hread := (revision_exact hlast).1
  rw [hlastValue] at hread
  have hrefused := (revision_exact hfirst).2.1
  rw [hfirstValue] at hrefused
  exact ⟨hread (Nat.le_refl _), hrefused (by decide)⟩

end AfsimNs3.Adapter
