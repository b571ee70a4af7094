import AfsimNs3.Adapter.Gates

/-!
# The message gate over runs of lines

`decides_by_newest_line`: after any lines the message gate is the one fed only the first line of the highest
revision, among the lines it can read as `ns3_metrics`.
-/

namespace AfsimNs3.Adapter

namespace MessageTransportGate
variable (stod : Bytes → Except Bytes Double)

/-- `UpdateFromMetricsJson` on a line, under the `catch` of `DispatchLines`. -/
def handle (gate : MessageTransportGate) (line : Bytes) : MessageTransportGate :=
  match gate.updateFromMetricsJson stod line with
  | .ok (gate, _) => gate
  | .error _ => gate

/-- The gate after some lines. -/
def afterLines (lines : List Bytes) : MessageTransportGate := lines.foldl (handle stod) new

/-- The result a line carries, if the line can be read as a whole. -/
def result? (line : Bytes) : Option (UInt64 × Profiles) := (readMetrics stod line).toOption.join

/-- The revision of that result. -/
def revision? (line : Bytes) : Option ℕ := (result? stod line).map (fun result => result.1.toNat)

/-- The highest revision among the results, or 0. -/
def highest (lines : List Bytes) : ℕ := (lines.filterMap (revision? stod)).foldl max 0

/-- The first line with a result of the highest revision. -/
def newestLine (lines : List Bytes) : Option Bytes :=
  lines.find? (fun line => revision? stod line = some (highest stod lines))

/-- A fresh gate fed at most one line. -/
def fed (line : Option Bytes) : MessageTransportGate := line.elim new (handle stod new)

/-- A link or a metric of the line is about the pair. -/
def NamesPair (line source target : Bytes) : Prop :=
  ∃ key ∈ [ascii "links", ascii "metrics"], ∃ objects, objectArray line key = .ok objects ∧ ∃ object ∈ objects,
    jsonString object (ascii "source_entity_id") = .ok source ∧ jsonString object (ascii "target_entity_id") = .ok target

variable {stod}

theorem result?_eq_some_iff {line : Bytes} {result : UInt64 × Profiles} :
    result? stod line = some result ↔ readMetrics stod line = .ok (some result) := by
  rw [result?, Option.join_eq_some_iff, Except.toOption_eq_some_iff]

theorem mem_revision?_iff {line : Bytes} {n : ℕ} : n ∈ revision? stod line ↔
    ∃ revision profiles, readMetrics stod line = .ok (some (revision, profiles)) ∧ revision.toNat = n := by
  simp only [revision?, Option.mem_def, Option.map_eq_some_iff, result?_eq_some_iff, Prod.exists]

/-- **A line handled**: only a result of a higher revision changes the gate. -/
theorem handle_eq (gate : MessageTransportGate) (line : Bytes) :
    gate.handle stod line = match result? stod line with
      | some (revision, profiles) => if gate.mLatestRevision < revision then ⟨profiles, revision⟩ else gate
      | none => gate := by
  rw [handle, updateFromMetricsJson, result?]
  rcases readMetrics stod line with e | (_ | ⟨revision, profiles⟩)
  · rfl
  · rfl
  · simp only [Except.map, accept, Except.toOption, Option.join_some]
    by_cases h : revision ≤ gate.mLatestRevision
    · rw [if_pos h, if_neg (UInt64.not_lt.mpr h)]
    · rw [if_neg h, if_pos (UInt64.not_le.mp h)]

theorem afterLines_append (lines : List Bytes) (line : Bytes) :
    afterLines stod (lines ++ [line]) = (afterLines stod lines).handle stod line := by
  rw [afterLines, List.foldl_append]
  rfl

theorem highest_append (lines : List Bytes) (line : Bytes) :
    highest stod (lines ++ [line]) = max (highest stod lines) ((revision? stod line).getD 0) := by
  rw [highest, List.filterMap_append, List.foldl_append, ← highest]
  cases h : revision? stod line with
  | none => rw [List.filterMap_cons_none h, Option.getD_none, Nat.max_zero]; rfl
  | some revision => rw [List.filterMap_cons_some h, Option.getD_some]; rfl

theorem le_highest {lines : List Bytes} {line : Bytes} (hline : line ∈ lines) {revision : ℕ}
    (h : revision? stod line = some revision) : revision ≤ highest stod lines := by
  induction lines using List.reverseRecOn with
  | nil => exact absurd hline List.not_mem_nil
  | append_singleton lines last ih =>
    rw [highest_append]
    rcases List.mem_append.mp hline with hline | hline
    · exact le_trans (ih hline) (Nat.le_max_left _ _)
    · rw [List.mem_singleton.mp hline] at h
      rw [h]
      exact Nat.le_max_right _ _

/-- Without a line of the highest revision there is none at all. -/
theorem highest_of_newestLine {lines : List Bytes} (h : newestLine stod lines = none) : highest stod lines = 0 := by
  have hnone := List.find?_eq_none.mp h
  simp only [decide_eq_true_eq] at hnone
  by_contra hpos
  have hattained : ∀ revisions : List ℕ, revisions.foldl max 0 ≠ 0 → revisions.foldl max 0 ∈ revisions := by
    intro revisions
    induction revisions using List.reverseRecOn with
    | nil => exact fun h => absurd rfl h
    | append_singleton revisions last ih =>
      intro hne
      rw [List.foldl_append, List.foldl_cons, List.foldl_nil] at hne ⊢
      rcases Nat.le_total (revisions.foldl max 0) last with hle | hle
      · rw [Nat.max_eq_right hle]
        exact List.mem_append_right _ (List.mem_singleton_self _)
      · rw [Nat.max_eq_left hle] at hne ⊢
        exact List.mem_append_left _ (ih hne)
  obtain ⟨line, hline, hrevision⟩ := List.mem_filterMap.mp (hattained _ hpos)
  exact hnone line hline hrevision

section Append
variable {lines : List Bytes} {line : Bytes}

/-- A line without a result is not the newest one. -/
theorem newestLine_append_of_none (h : revision? stod line = none) :
    newestLine stod (lines ++ [line]) = newestLine stod lines := by
  rw [newestLine, highest_append, h, Option.getD_none, Nat.max_zero, List.find?_append,
    List.find?_cons_of_neg (by simp [h]), List.find?_nil, Option.or_none]
  rfl

/-- A result above all others is. -/
theorem newestLine_append_of_lt {revision : ℕ} (h : revision? stod line = some revision)
    (hlt : highest stod lines < revision) : newestLine stod (lines ++ [line]) = some line := by
  have hmax : max (highest stod lines) revision = revision := Nat.max_eq_right (Nat.le_of_lt hlt)
  have hnone : lines.find? (fun line => revision? stod line = some revision) = none := by
    rw [List.find?_eq_none]
    intro l hl hrevision
    have hle := le_highest hl (of_decide_eq_true hrevision)
    omega
  rw [newestLine, highest_append, h, Option.getD_some, hmax, List.find?_append, hnone, Option.none_or,
    List.find?_cons_of_pos (by simp [h])]

/-- Any other is the newest line only when it is the first result, and its revision is 0. -/
theorem newestLine_append_of_le {revision : ℕ} (h : revision? stod line = some revision)
    (hle : revision ≤ highest stod lines) : newestLine stod (lines ++ [line]) = newestLine stod lines ∨
      newestLine stod lines = none ∧ newestLine stod (lines ++ [line]) = some line ∧ revision = 0 := by
  have happend : newestLine stod (lines ++ [line]) =
      (newestLine stod lines).or ([line].find? (fun line => revision? stod line = some (highest stod lines))) := by
    rw [newestLine, highest_append, h, Option.getD_some, Nat.max_eq_left hle, List.find?_append]
    rfl
  cases hnewest : newestLine stod lines with
  | some l =>
    rw [happend, hnewest]
    exact .inl rfl
  | none =>
    have hzero := highest_of_newestLine hnewest
    have hrevision : revision = highest stod lines := by omega
    rw [happend, hnewest, List.find?_cons_of_pos (by simp [h, hrevision])]
    exact .inr ⟨rfl, rfl, by omega⟩

end Append

/-- **The gate is the one fed the newest line only**, at the highest revision. -/
theorem afterLines_eq (lines : List Bytes) :
    afterLines stod lines = fed stod (newestLine stod lines) ∧
      (afterLines stod lines).mLatestRevision.toNat = highest stod lines := by
  induction lines using List.reverseRecOn with
  | nil => exact ⟨rfl, rfl⟩
  | append_singleton lines line ih =>
    obtain ⟨hgate, hlatest⟩ := ih
    rw [afterLines_append, handle_eq, highest_append]
    cases hresult : result? stod line with
    | none =>
      have hrevision : revision? stod line = none := by rw [revision?, hresult]; rfl
      rw [newestLine_append_of_none hrevision, hrevision, Option.getD_none, Nat.max_zero]
      exact ⟨hgate, hlatest⟩
    | some result =>
      obtain ⟨revision, profiles⟩ := result
      have hrevision : revision? stod line = some revision.toNat := by rw [revision?, hresult]; rfl
      have hfed : fed stod (some line) = if 0 < revision then ⟨profiles, revision⟩ else new := by
        rw [fed, Option.elim_some, handle_eq, hresult]
        rfl
      rw [hrevision, Option.getD_some]
      by_cases hnew : (afterLines stod lines).mLatestRevision < revision
      · have hlt := UInt64.lt_iff_toNat_lt.mp hnew
        have hpos : 0 < revision := UInt64.lt_iff_toNat_lt.mpr (lt_of_le_of_lt (Nat.zero_le _) hlt)
        rw [hlatest] at hlt
        rw [newestLine_append_of_lt hrevision hlt, hfed, if_pos hpos, Nat.max_eq_right (Nat.le_of_lt hlt)]
        dsimp only
        rw [if_pos hnew]
        exact ⟨rfl, rfl⟩
      · have hle : revision.toNat ≤ highest stod lines := by
          rw [← hlatest, ← UInt64.le_iff_toNat_le]
          exact UInt64.not_lt.mp hnew
        rw [Nat.max_eq_left hle]
        dsimp only
        rw [if_neg hnew]
        refine ⟨?_, hlatest⟩
        rcases newestLine_append_of_le hrevision hle with hsame | ⟨hnone, hsome, hzero⟩
        · rw [hgate, hsame]
        · have hnot : ¬ 0 < revision := by
            rw [UInt64.lt_iff_toNat_lt, hzero]
            exact Nat.not_lt_zero _
          rw [hgate, hnone, hsome, hfed, if_neg hnot]
          rfl

/-! ## The pairs of a line -/

/-- Every profile is that of a pair some object read so far names. -/
def Named (objects : List Bytes) (profiles : Profiles) : Prop :=
  ∀ source target, profiles.get? (source, target) ≠ none → ∃ object ∈ objects,
    jsonString object (ascii "source_entity_id") = .ok source ∧ jsonString object (ascii "target_entity_id") = .ok target

theorem Named.put {objects : List Bytes} {profiles : Profiles} (h : Named objects profiles) {object source target : Bytes}
    (hsource : jsonString object (ascii "source_entity_id") = .ok source)
    (htarget : jsonString object (ascii "target_entity_id") = .ok target) (profile : Profile) :
    Named (objects ++ [object]) (profiles.put (source, target) profile) := by
  intro s t hsome
  by_cases hkey : (s, t) = (source, target)
  · obtain ⟨rfl, rfl⟩ := Prod.mk.inj hkey
    exact ⟨object, List.mem_append_right _ (List.mem_singleton_self _), hsource, htarget⟩
  · rw [Dict.get?_put_of_ne _ _ hkey] at hsome
    obtain ⟨o, ho, hread⟩ := h s t hsome
    exact ⟨o, List.mem_append_left _ ho, hread⟩

theorem Named.readLink {objects : List Bytes} {profiles profiles' : Profiles} (h : Named objects profiles) {object : Bytes}
    (hread : readLink stod profiles object = .ok profiles') : Named (objects ++ [object]) profiles' := by
  simp only [MessageTransportGate.readLink, Except.bind_ok_iff, Except.pure_ok_iff] at hread
  obtain ⟨state, -, delayMs, -, lossRate, -, source, hsource, target, htarget, rfl⟩ := hread
  exact h.put hsource htarget _

theorem Named.readMetric {objects : List Bytes} {profiles profiles' : Profiles} (h : Named objects profiles)
    {object : Bytes} (hread : readMetric stod profiles object = .ok profiles') : Named (objects ++ [object]) profiles' := by
  simp only [MessageTransportGate.readMetric, Except.bind_ok_iff, Except.pure_ok_iff] at hread
  obtain ⟨source, hsource, target, htarget, connected, -, latencyMs, -, rfl⟩ := hread
  exact h.put hsource htarget _

/-- A result has no profile for a pair its line does not name. -/
theorem get?_of_not_namesPair {line source target : Bytes} (h : ¬ NamesPair line source target) {revision : UInt64}
    {profiles : Profiles} (hread : readMetrics stod line = .ok (some (revision, profiles))) :
    profiles.get? (source, target) = none := by
  rw [readMetrics, Except.bind_ok_iff] at hread
  obtain ⟨messageType, -, hread⟩ := hread
  split_ifs at hread with htype
  · cases hread
  simp only [Except.bind_ok_iff, Except.pure_ok_iff] at hread
  obtain ⟨_, -, links, hlinks, linkProfiles, hfold, metrics, hmetrics, allProfiles, hfold', heq⟩ := hread
  obtain ⟨rfl, rfl⟩ := Prod.mk.inj (Option.some.inj heq)
  have hempty : Named [] (Dict.empty : Profiles) := fun _ _ hsome => absurd rfl hsome
  have hnamed : Named links linkProfiles :=
    Except.foldlM_ok Named (fun _ _ _ _ hnamed hstep => hnamed.readLink hstep) hempty hfold
  have hall : Named (links ++ metrics) allProfiles :=
    Except.foldlM_append_ok Named (fun _ _ _ _ hnamed hstep => hnamed.readMetric hstep) hnamed hfold'
  by_contra hsome
  obtain ⟨object, hobject, hends⟩ := hall source target hsome
  rcases List.mem_append.mp hobject with hobject | hobject
  · exact h ⟨_, List.mem_cons_self, links, hlinks, object, hobject, hends⟩
  · exact h ⟨_, List.mem_cons_of_mem _ (List.mem_singleton_self _), metrics, hmetrics, object, hobject, hends⟩

theorem fed_noLink {line : Option Bytes} {source target : Bytes} (h : ∀ l ∈ line, ¬ NamesPair l source target)
    (messageSerial : UInt64) : ((fed stod line).decide source target messageSerial).disposition = .noLink := by
  have hnone : (fed stod line).mProfiles.get? (source, target) = none := by
    cases line with
    | none => rfl
    | some l =>
      rw [fed, Option.elim_some, handle_eq]
      cases hresult : result? stod l with
      | none => rfl
      | some result =>
        obtain ⟨revision, profiles⟩ := result
        have hread : readMetrics stod l = .ok (some (revision, profiles)) :=
          result?_eq_some_iff.mp hresult
        dsimp only
        split_ifs
        · exact get?_of_not_namesPair (h l rfl) hread
        · rfl
  rw [MessageTransportGate.decide, hnone]

/-- **The newest line alone decides.** After any lines, readable or not, the latest revision is the highest among the
results read, decisions are those of a fresh gate fed only the first line of that revision, a pair that line does not
name has no link, and no further line lowers the revision. -/
theorem decides_by_newest_line (stod : Bytes → Except Bytes Double) (lines : List Bytes) :
    (afterLines stod lines).mLatestRevision.toNat = highest stod lines ∧
    (∀ source target messageSerial, (afterLines stod lines).decide source target messageSerial =
      (fed stod (newestLine stod lines)).decide source target messageSerial) ∧
    (∀ source target messageSerial, (∀ line ∈ newestLine stod lines, ¬ NamesPair line source target) →
      ((afterLines stod lines).decide source target messageSerial).disposition = .noLink) ∧
    ∀ line, (afterLines stod lines).mLatestRevision ≤ (afterLines stod (lines ++ [line])).mLatestRevision := by
  obtain ⟨hgate, hlatest⟩ := afterLines_eq lines
  refine ⟨hlatest, fun source target serial => by rw [hgate], fun source target serial h => ?_, fun line => ?_⟩
  · rw [hgate]
    exact fed_noLink h serial
  · rw [UInt64.le_iff_toNat_le, hlatest, (afterLines_eq (lines ++ [line])).2, highest_append]
    exact Nat.le_max_left _ _

/-- `std::stod` on a text that begins with a single digit 0 or 1. -/
def stodBit : Bytes → Except Bytes Double
  | 48 :: _ => .ok (.finite 0)
  | 49 :: _ => .ok (.finite 1)
  | _ => .error (ascii "stod")

/-- The link from A to B in some state. -/
def stateText (state : String) : Bytes :=
  ascii "\x7b\"source_entity_id\":\"A\",\"target_entity_id\":\"B\",\"delay_ms\":0,\"configured_loss_rate\":0,\"state\":\"" ++
    ascii state ++ ascii "\"\x7d"

def stateLine (revision state : String) : Bytes :=
  ascii "\x7b\"message_type\":\"ns3_metrics\",\"revision\":" ++ ascii revision ++ ascii ",\"links\":[" ++
    stateText state ++ ascii "],\"metrics\":[]\x7d"

/-- A result, an older one that comes late, and one without a number in its revision. -/
def mixedLines : List Bytes := [stateLine "2" "UP", stateLine "1" "DOWN", stateLine "x" "DOWN"]

theorem mixedLines_decided :
    (afterLines stodBit mixedLines).mLatestRevision.toNat = 2 ∧
    ((afterLines stodBit mixedLines).decide (ascii "A") (ascii "B") 7).disposition = .deliver ∧
    ((afterLines stodBit mixedLines).decide (ascii "B") (ascii "A") 7).disposition = .noLink ∧
    ∀ line, 2 ≤ (afterLines stodBit (mixedLines ++ [line])).mLatestRevision.toNat := by
  have hruns : highest stodBit mixedLines = 2 ∧ newestLine stodBit mixedLines = some (stateLine "2" "UP") ∧
      ((fed stodBit (some (stateLine "2" "UP"))).decide (ascii "A") (ascii "B") 7).disposition = .deliver ∧
      objectArray (stateLine "2" "UP") (ascii "links") = .ok [stateText "UP"] ∧
      objectArray (stateLine "2" "UP") (ascii "metrics") = .ok [] ∧
      jsonString (stateText "UP") (ascii "source_entity_id") ≠ .ok (ascii "B") := by
    unfold mixedLines stateLine stateText
    repeat rw [ascii_ofList]
    decide +kernel
  obtain ⟨hhighest, hnewest, hdelivers, hlinks, hmetrics, hother⟩ := hruns
  obtain ⟨hlatest, hsame, hunnamed, hkept⟩ := decides_by_newest_line stodBit mixedLines
  refine ⟨hlatest.trans hhighest, ?_, ?_, fun line => ?_⟩
  · rw [hsame, hnewest]
    exact hdelivers
  · refine hunnamed (ascii "B") (ascii "A") 7 fun line hline hnames => ?_
    rw [hnewest, Option.mem_some_iff] at hline
    subst hline
    obtain ⟨key, hkey, objects, hobjects, object, hobject, hsource, -⟩ := hnames
    rcases List.mem_pair.mp hkey with rfl | rfl
    · obtain rfl := Except.ok.inj (hlinks.symm.trans hobjects)
      obtain rfl := List.mem_singleton.mp hobject
      exact hother hsource
    · obtain rfl := Except.ok.inj (hmetrics.symm.trans hobjects)
      cases hobject
  · rw [← hhighest, ← hlatest]
    exact UInt64.le_iff_toNat_le.mp (hkept line)

end MessageTransportGate

end AfsimNs3.Adapter
