import AfsimNs3.Bridge.ServerSpec

/-!
# No computation job is lost or done twice

Every accepted revision becomes one job. The job is pending, or was taken by the worker, or was replaced by a newer
one, which the reply to the newer request reports. `JobLedger` says so of the log of a run: pending, taken and
reported revisions together are the accepted ones.

A request that is repeated under its `request_id` gets the first reply again (`duplicate`), report included; so
reports are counted over the replies to newly accepted requests.
-/

namespace AfsimNs3.System
open Bridge Bridge.Server

/-! ## Reading the log -/

def acceptedRevisions (log : List Event) : List ℕ :=
  log.filterMap fun event => match event with | .accepted revision => some revision | _ => none

def takenRevisions (log : List Event) : List ℕ :=
  log.filterMap fun event => match event with | .taken revision => some revision | _ => none

/-- The revisions reported as coalesced to newly accepted requests. -/
def coalescedRevisions (log : List Event) : List ℕ :=
  log.filterMap fun event => match event with
    | .replied ack => if ack.duplicate then none else ack.coalescedRevision
    | _ => none

def pendingRevisions (pending : Option Job) : List ℕ := (pending.map (fun job => job.snapshot.revision)).toList

@[simp] theorem acceptedRevisions_append (log events : List Event) :
    acceptedRevisions (log ++ events) = acceptedRevisions log ++ acceptedRevisions events := List.filterMap_append

@[simp] theorem takenRevisions_append (log events : List Event) :
    takenRevisions (log ++ events) = takenRevisions log ++ takenRevisions events := List.filterMap_append

@[simp] theorem coalescedRevisions_append (log events : List Event) :
    coalescedRevisions (log ++ events) = coalescedRevisions log ++ coalescedRevisions events := List.filterMap_append

theorem mem_acceptedRevisions {log : List Event} {revision : ℕ} :
    revision ∈ acceptedRevisions log ↔ .accepted revision ∈ log := by
  rw [acceptedRevisions, List.mem_filterMap]
  constructor
  · rintro ⟨event, hevent, h⟩
    split at h
    · rwa [← Option.some.inj h]
    · exact nomatch h
  · exact fun h => ⟨_, h, rfl⟩

theorem mem_takenRevisions {log : List Event} {revision : ℕ} :
    revision ∈ takenRevisions log ↔ .taken revision ∈ log := by
  rw [takenRevisions, List.mem_filterMap]
  constructor
  · rintro ⟨event, hevent, h⟩
    split at h
    · rwa [← Option.some.inj h]
    · exact nomatch h
  · exact fun h => ⟨_, h, rfl⟩

theorem mem_coalescedRevisions {log : List Event} {revision : ℕ} : revision ∈ coalescedRevisions log ↔
    ∃ ack, .replied ack ∈ log ∧ ack.duplicate = false ∧ ack.coalescedRevision = some revision := by
  rw [coalescedRevisions, List.mem_filterMap]
  constructor
  · rintro ⟨event, hevent, h⟩
    split at h
    · rename_i ack
      split_ifs at h with hduplicate
      exact ⟨ack, hevent, Bool.eq_false_iff.mpr hduplicate, h⟩
    · exact nomatch h
  · rintro ⟨ack, hack, hduplicate, h⟩
    refine ⟨_, hack, ?_⟩
    dsimp only
    rwa [hduplicate, if_neg Bool.false_ne_true]

/-- Events that are about no job. -/
def Silent (events : List Event) : Prop :=
  acceptedRevisions events = [] ∧ takenRevisions events = [] ∧ coalescedRevisions events = [] ∧
    ∀ ack, .replied ack ∉ events

/-! ## The ledger -/

/-- The accounts of the service at `revision`. -/
structure JobLedger {δ : Type} (revision : ℕ) (pending : Option Job) (event : Bool)
    (idempotency : List (Str × δ × Ack)) (log : List Event) : Prop where
  accepted : acceptedRevisions log = List.range' 1 revision
  accounted : (pendingRevisions pending ++ takenRevisions log ++ coalescedRevisions log).Perm (acceptedRevisions log)
  newest : ∀ job, pending = some job → job.snapshot.revision = revision ∧ event = true
  replied : ∀ ack, .replied ack ∈ log → ack.revision ≤ revision
  later : ∀ ack, .replied ack ∈ log → ∀ r, ack.coalescedRevision = some r → r < ack.revision
  cached : ∀ e ∈ idempotency, e.2.2.duplicate = false ∧ .replied e.2.2 ∈ log
  repeated : ∀ ack, .replied ack ∈ log → ack.duplicate = true → .replied { ack with duplicate := false } ∈ log

def Accounted {δ : Type} (s : Server δ) : Prop :=
  JobLedger s.state.revision s.pending s.pendingEvent s.idempotency s.log

section Ledger
variable {δ : Type} {revision : ℕ} {pending : Option Job} {event : Bool} {idempotency : List (Str × δ × Ack)}
  {log : List Event}

theorem JobLedger.silent (h : JobLedger revision pending event idempotency log) {events : List Event}
    (hevents : Silent events) : JobLedger revision pending event idempotency (log ++ events) := by
  obtain ⟨haccepted, htaken, hcoalesced, hreplied⟩ := hevents
  have hold : ∀ ack, .replied ack ∈ log ++ events → .replied ack ∈ log := fun ack hack =>
    (List.mem_append.mp hack).resolve_right (hreplied ack)
  refine ⟨?_, ?_, h.newest, fun ack hack => h.replied ack (hold ack hack), fun ack hack => h.later ack (hold ack hack),
    fun e he => ?_, fun ack hack hd => ?_⟩
  · rw [acceptedRevisions_append, haccepted, List.append_nil]
    exact h.accepted
  · rw [acceptedRevisions_append, takenRevisions_append, coalescedRevisions_append, haccepted, htaken, hcoalesced,
      List.append_nil, List.append_nil, List.append_nil]
    exact h.accounted
  · exact ⟨(h.cached e he).1, List.mem_append_left _ (h.cached e he).2⟩
  · exact List.mem_append_left _ (h.repeated ack (hold ack hack) hd)

/-- The worker takes the pending job. -/
theorem JobLedger.take {job : Job} (h : JobLedger revision (some job) event idempotency log) (event' : Bool) :
    JobLedger revision none event' idempotency (log ++ [.taken job.snapshot.revision]) := by
  have hold : ∀ ack, .replied ack ∈ log ++ [.taken job.snapshot.revision] → .replied ack ∈ log := by
    intro ack hack
    rcases List.mem_append.mp hack with hack | hack
    · exact hack
    · exact nomatch List.mem_singleton.mp hack
  refine ⟨?_, ?_, fun job hjob => absurd hjob (Option.some_ne_none job).symm,
    fun ack hack => h.replied ack (hold ack hack), fun ack hack => h.later ack (hold ack hack), fun e he => ?_,
    fun ack hack hd => ?_⟩
  · rw [acceptedRevisions_append]
    exact (List.append_nil _).trans h.accepted
  · rw [acceptedRevisions_append, takenRevisions_append, coalescedRevisions_append]
    show ([] ++ (takenRevisions log ++ [job.snapshot.revision]) ++ (coalescedRevisions log ++ [])).Perm
      (acceptedRevisions log ++ [])
    refine List.perm_iff_count.mpr fun r => ?_
    have hcount := h.accounted.count_eq r
    simp only [pendingRevisions, Option.map_some, Option.toList_some, List.count_append, List.count_nil] at hcount ⊢
    omega
  · exact ⟨(h.cached e he).1, List.mem_append_left _ (h.cached e he).2⟩
  · exact List.mem_append_left _ (h.repeated ack (hold ack hack) hd)

/-- A cached reply is given again. -/
theorem JobLedger.duplicate (h : JobLedger revision pending event idempotency log) {e : Str × δ × Ack}
    (he : e ∈ idempotency) :
    JobLedger revision pending event idempotency (log ++ [.replied { e.2.2 with duplicate := true }]) := by
  obtain ⟨hfirst, hcached⟩ := h.cached e he
  have hsame : { e.2.2 with duplicate := false } = e.2.2 := by rw [← hfirst]
  refine ⟨?_, ?_, h.newest, fun ack hack => ?_, fun ack hack => ?_, fun e he => ?_, fun ack hack hd => ?_⟩
  · rw [acceptedRevisions_append]
    exact (List.append_nil _).trans h.accepted
  · rw [acceptedRevisions_append, takenRevisions_append, coalescedRevisions_append]
    show (pendingRevisions pending ++ (takenRevisions log ++ []) ++ (coalescedRevisions log ++ [])).Perm
      (acceptedRevisions log ++ [])
    rw [List.append_nil, List.append_nil, List.append_nil]
    exact h.accounted
  · rcases List.mem_append.mp hack with hack | hack
    · exact h.replied ack hack
    · rw [Event.replied.inj (List.mem_singleton.mp hack)]
      exact h.replied e.2.2 hcached
  · rcases List.mem_append.mp hack with hack | hack
    · exact h.later ack hack
    · rw [Event.replied.inj (List.mem_singleton.mp hack)]
      exact h.later e.2.2 hcached
  · exact ⟨(h.cached e he).1, List.mem_append_left _ (h.cached e he).2⟩
  · rcases List.mem_append.mp hack with hack | hack
    · exact List.mem_append_left _ (h.repeated ack hack hd)
    · rw [Event.replied.inj (List.mem_singleton.mp hack)]
      refine List.mem_append_left _ ?_
      rw [← hsame] at hcached
      exact hcached

/-- A newer job replaces the pending one. -/
theorem JobLedger.accept (h : JobLedger revision pending event idempotency log) (envelope : Envelope) (digest : δ)
    {snapshot : StateSnapshot} (hsnapshot : snapshot.revision = revision + 1) :
    JobLedger (revision + 1) (some ⟨envelope.requestId, snapshot⟩) true
      (rememberRequest idempotency envelope.requestId (digest, ackOf envelope snapshot pending))
      (log ++ [.accepted (revision + 1), .replied (ackOf envelope snapshot pending)]) := by
  have hold : ∀ ack, .replied ack ∈ log ++ [.accepted (revision + 1), .replied (ackOf envelope snapshot pending)] →
      .replied ack ∈ log ∨ ack = ackOf envelope snapshot pending := by
    intro ack hack
    rw [List.mem_append, List.mem_cons, List.mem_singleton, Event.replied.injEq] at hack
    exact hack.imp_right fun hack => hack.resolve_left Event.noConfusion
  refine ⟨?_, ?_, ?_, fun ack hack => ?_, fun ack hack r hr => ?_, fun e he => ?_, fun ack hack hd => ?_⟩
  · rw [acceptedRevisions_append, h.accepted, List.range'_1_concat, Nat.add_comm 1 revision]
    rfl
  · have hreport : coalescedRevisions [.accepted (revision + 1), .replied (ackOf envelope snapshot pending)] =
        pendingRevisions pending := by
      cases pending <;> rfl
    rw [acceptedRevisions_append, takenRevisions_append, coalescedRevisions_append, hreport]
    show ([snapshot.revision] ++ (takenRevisions log ++ []) ++ (coalescedRevisions log ++ pendingRevisions pending)).Perm
      (acceptedRevisions log ++ [revision + 1])
    rw [hsnapshot]
    refine List.perm_iff_count.mpr fun r => ?_
    have hcount := h.accounted.count_eq r
    simp only [List.count_append, List.count_nil] at hcount ⊢
    omega
  · rintro job hjob
    rw [← Option.some.inj hjob]
    exact ⟨hsnapshot, rfl⟩
  · rcases hold ack hack with hack | rfl
    · have := h.replied ack hack
      omega
    · exact hsnapshot.le
  · rcases hold ack hack with hack | rfl
    · exact h.later ack hack r hr
    · obtain ⟨job, hjob, rfl⟩ := Option.map_eq_some_iff.mp hr
      show job.snapshot.revision < snapshot.revision
      rw [(h.newest job hjob).1, hsnapshot]
      exact Nat.lt_succ_self revision
  · rcases mem_rememberRequest he with he | rfl
    · exact ⟨(h.cached e he).1, List.mem_append_left _ (h.cached e he).2⟩
    · exact ⟨rfl, List.mem_append_right _ (List.mem_cons_of_mem _ List.mem_cons_self)⟩
  · rcases hold ack hack with hack | rfl
    · exact List.mem_append_left _ (h.repeated ack hack hd)
    · exact absurd hd Bool.false_ne_true

end Ledger

/-! ## Moves and runs -/

section Runs
variable {δ : Type}

theorem takeJob_accounted {s : Server δ} (h : Accounted s) : Accounted s.takeJob := by
  unfold takeJob
  cases hp : s.pending with
  | none =>
    have haccounted : JobLedger s.state.revision none s.pendingEvent s.idempotency s.log := hp ▸ h
    exact ⟨haccounted.accepted, haccounted.accounted, fun job hjob => absurd hjob (Option.some_ne_none job).symm,
      haccounted.replied, haccounted.later, haccounted.cached, haccounted.repeated⟩
  | some job =>
    have haccounted : JobLedger s.state.revision (some job) s.pendingEvent s.idempotency s.log := hp ▸ h
    exact haccounted.take false

theorem awaitEvent_accounted {s : Server δ} (hs : s.Unlocked) (h : Accounted s) : Accounted s.awaitEvent := by
  unfold awaitEvent
  split_ifs
  · rw [awaitJob_eq hs.pending]
    exact takeJob_accounted h
  · exact h

theorem sendNext_accounted {s : Server δ} (hs : s.Unlocked) (h : Accounted s) (message : Broadcast)
    (todo failed : List Client) : Accounted (s.sendNext message todo failed) := by
  unfold sendNext
  cases todo with
  | nil => exact awaitEvent_accounted (removeClients_unlocked hs failed) h
  | cons client todo => exact h

theorem move_accounted {s s' : Server δ} (hs : s.Unlocked) (h : Accounted s) (hmove : Move s s') : Accounted s' := by
  cases hmove with
  | idle => exact h
  | clients => exact h
  | duplicate requestId digest ack hcached => exact JobLedger.duplicate h hcached
  | accept envelope digest state snapshot hrevision hsnapshot =>
    have hledger : JobLedger s.state.revision s.pending s.pendingEvent s.idempotency s.log := h
    have haccept := hledger.accept envelope digest hsnapshot
    rw [← hrevision] at haccept
    unfold Accounted
    dsimp only
    exact haccept
  | wake => exact takeJob_accounted h
  | failed => exact sendNext_accounted (setLastError_unlocked hs _) (by exact h) _ _ _
  | stale => exact awaitEvent_accounted (setLastError_unlocked hs _) (by exact h)
  | fresh =>
    refine sendNext_accounted (record_unlocked (setLastError_unlocked hs _) _ _) ?_ _ _ _
    exact JobLedger.silent h ⟨rfl, rfl, rfl, fun ack hack => Event.noConfusion (List.mem_singleton.mp hack)⟩
  | written message client todo failed =>
    refine JobLedger.silent h ?_
    cases message with
    | metrics response => exact ⟨rfl, rfl, rfl, fun ack hack => Event.noConfusion (List.mem_singleton.mp hack)⟩
    | error => exact ⟨rfl, rfl, rfl, fun ack => List.not_mem_nil⟩
  | refused message client todo failed => exact sendNext_accounted hs h _ _ _
  | drained message client todo failed failed' => exact sendNext_accounted hs h _ _ _

theorem new_accounted : Accounted (new : Server δ) :=
  ⟨rfl, List.Perm.refl _, fun job hjob => absurd hjob (Option.some_ne_none job).symm,
    fun _ hack => absurd hack List.not_mem_nil, fun _ hack => absurd hack List.not_mem_nil, fun _ he => absurd he List.not_mem_nil,
    fun _ hack => absurd hack List.not_mem_nil⟩

variable [DecidableEq δ] {digestOf : Json → Except PyError δ}

theorem run_accounted {actions : List Action} {s : Server δ} (h : Machine.run (step digestOf) new actions = some s) :
    Accounted s :=
  (run_moves Accounted (fun _ _ hs hi hmove => move_accounted hs hi hmove) new_accounted h).2

end Runs

/-- The accepted revision that no accepted revision exceeds. -/
def NewestAccepted (log : List Event) (revision : ℕ) : Prop :=
  .accepted revision ∈ log ∧ ∀ r, .accepted r ∈ log → r ≤ revision

section Ledger
variable {δ : Type} {s : Server δ}

theorem Accounted.mem_accepted (h : Accounted s) {r : ℕ} : .accepted r ∈ s.log ↔ 1 ≤ r ∧ r ≤ s.state.revision := by
  rw [← mem_acceptedRevisions, h.accepted, List.mem_range'_1]
  omega

theorem Accounted.newest_iff (h : Accounted s) {r : ℕ} :
    NewestAccepted s.log r ↔ 1 ≤ r ∧ r = s.state.revision := by
  constructor
  · rintro ⟨hr, hmax⟩
    have hbounds := h.mem_accepted.mp hr
    have hle := hmax s.state.revision (h.mem_accepted.mpr (by omega))
    omega
  · rintro ⟨hr, rfl⟩
    exact ⟨h.mem_accepted.mpr ⟨hr, Nat.le_refl _⟩, fun r hr => (h.mem_accepted.mp hr).2⟩

/-- Exactly one of the three situations, and that one once. -/
theorem Accounted.situations (h : Accounted s) {r : ℕ} (hr : .accepted r ∈ s.log) :
    (pendingRevisions s.pending).count r + (takenRevisions s.log).count r + (coalescedRevisions s.log).count r = 1 := by
  rw [← List.count_append, ← List.count_append, h.accounted.count_eq]
  apply List.count_eq_one_of_mem
  · rw [h.accepted]
    exact List.nodup_range'
  · exact mem_acceptedRevisions.mpr hr

/-- A reported revision was accepted before the one whose reply reports it. -/
theorem Accounted.reported (h : Accounted s) {ack : Ack} (hack : .replied ack ∈ s.log) {r : ℕ}
    (hr : ack.coalescedRevision = some r) : .accepted r ∈ s.log ∧ r < ack.revision := by
  refine ⟨?_, h.later ack hack r hr⟩
  have hfirst : .replied { ack with duplicate := false } ∈ s.log := by
    cases hd : ack.duplicate with
    | true => exact h.repeated ack hack hd
    | false =>
      rw [← hd]
      exact hack
  have hmem : r ∈ coalescedRevisions s.log := mem_coalescedRevisions.mpr ⟨_, hfirst, rfl, hr⟩
  exact mem_acceptedRevisions.mp (h.accounted.subset (List.mem_append_right _ hmem))

end Ledger

/-- **Coalescing.** In every run, an accepted revision is pending, or was taken by the worker once, or is reported as
coalesced in one reply to a newer request (and again only where that reply is given again); the pending job is the
newest accepted revision and the event is set for it; while the worker waits with nothing pending, the newest
accepted revision has been handed to the runner. -/
theorem jobs_accounted {δ : Type} [DecidableEq δ] {digestOf : Json → Except PyError δ} {actions : List Action}
    {s : Server δ} (h : Machine.run (step digestOf) new actions = some s) :
    (∀ r, .accepted r ∈ s.log →
      (pendingRevisions s.pending).count r + (takenRevisions s.log).count r + (coalescedRevisions s.log).count r = 1) ∧
    (∀ ack r, .replied ack ∈ s.log → ack.coalescedRevision = some r → .accepted r ∈ s.log ∧ r < ack.revision ∧
      (ack.duplicate = true → .replied { ack with duplicate := false } ∈ s.log)) ∧
    (∀ job, s.pending = some job → NewestAccepted s.log job.snapshot.revision ∧ s.pendingEvent = true) ∧
    (s.worker = .waiting → s.pending = none → ∀ r, NewestAccepted s.log r → .taken r ∈ s.log) := by
  have hs := run_accounted h
  refine ⟨fun r hr => hs.situations hr, fun ack r hack hr => ?_, fun job hjob => ?_, fun _ hnone r hr => ?_⟩
  · obtain ⟨haccepted, hlater⟩ := hs.reported hack hr
    exact ⟨haccepted, hlater, hs.repeated ack hack⟩
  · obtain ⟨hrevision, hevent⟩ := hs.newest job hjob
    refine ⟨hs.newest_iff.mpr ⟨?_, hrevision⟩, hevent⟩
    have hpending : job.snapshot.revision ∈ pendingRevisions s.pending := by
      rw [hjob]
      exact List.mem_singleton_self _
    have haccepted := hs.accounted.subset (List.mem_append_left _ (List.mem_append_left _ hpending))
    exact (hs.mem_accepted.mp (mem_acceptedRevisions.mp haccepted)).1
  · have hone := hs.situations hr.1
    have hnotCoalesced : (coalescedRevisions s.log).count r = 0 := by
      rw [List.count_eq_zero]
      intro hmem
      obtain ⟨ack, hack, -, hcoalesced⟩ := mem_coalescedRevisions.mp hmem
      have hlater := hs.later ack hack r hcoalesced
      have hreplied := hs.replied ack hack
      have hnewest := (hs.newest_iff.mp hr).2
      omega
    rw [hnone, hnotCoalesced] at hone
    have htaken : 0 < (takenRevisions s.log).count r := by
      simp only [pendingRevisions, Option.map_none, Option.toList_none, List.count_nil] at hone
      omega
    exact mem_takenRevisions.mp (List.count_pos_iff.mp htaken)

/-! ## A request sent twice -/

/-- The revisions reported as coalesced in any reply. -/
def reportedRevisions (log : List Event) : List ℕ :=
  log.filterMap fun event => match event with | .replied ack => ack.coalescedRevision | _ => none

def requestOf (messageType requestId : Str) (rest : Fields) : Json := .obj ([
  (str "protocol_version", .str protocolVersion),
  (str "message_type", .str messageType),
  (str "request_id", .str requestId),
  (str "timestamp_ms", .int 0)] ++ rest)

def emptyInit : Json := requestOf (str "afsim_init") (str "i") [(str "entities", .arr []), (str "flows", .arr [])]

def emptyDelta : Json := requestOf (str "afsim_delta") (str "d") []

/-- A digest that tells the two requests apart. -/
def digestById (payload : Json) : Except PyError (Option Str) := .ok (payload.fields.get (str "request_id")).text?

/-- An initialisation, a delta before the worker runs, the same delta again; then the worker takes the job. -/
def repeatedRun : List Action := [.call emptyInit, .call emptyDelta, .call emptyDelta, .wake]

theorem repeatedRun_log : (Machine.run (step digestById) new repeatedRun).map (fun s => s.log) = some [
    .accepted 1, .replied ⟨str "i", 0, 1, none, false⟩, .accepted 2, .replied ⟨str "d", 0, 2, some 1, false⟩,
    .replied ⟨str "d", 0, 2, some 1, true⟩, .taken 2] := by
  decide +kernel

theorem repeatedRun_accounted : ∃ s, Machine.run (step digestById) new repeatedRun = some s ∧
    (takenRevisions s.log).count 2 = 1 ∧ (coalescedRevisions s.log).count 1 = 1 ∧
    ∀ r, .accepted r ∈ s.log →
      (pendingRevisions s.pending).count r + (takenRevisions s.log).count r + (coalescedRevisions s.log).count r = 1 := by
  obtain ⟨s, hs, hlog⟩ := Option.map_eq_some_iff.mp repeatedRun_log
  refine ⟨s, hs, ?_, ?_, (jobs_accounted hs).1⟩
  · rw [hlog]
    decide
  · rw [hlog]
    decide

/-- **A reply given again** reports the coalesced revision again. -/
theorem duplicate_reports_again : ∃ s, Machine.run (step digestById) new repeatedRun = some s ∧ .accepted 1 ∈ s.log ∧
    (reportedRevisions s.log).count 1 = 2 ∧
    (pendingRevisions s.pending).count 1 + (takenRevisions s.log).count 1 + (reportedRevisions s.log).count 1 ≠ 1 := by
  obtain ⟨s, hs, hlog⟩ := Option.map_eq_some_iff.mp repeatedRun_log
  have htwice : (reportedRevisions s.log).count 1 = 2 := by
    rw [hlog]
    decide
  refine ⟨s, hs, ?_, htwice, ?_⟩
  · rw [hlog]
    decide
  · omega

end AfsimNs3.System
