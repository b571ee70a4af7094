import AfsimNs3.Adapter.TcpClient
import AfsimNs3.Bridge.Process
import AfsimNs3.System.Mirror

/-!
# Single messages

What one message of a frame does to a store and to the service, whichever messages came before: a full snapshot makes
the store the frame (`update_full`), so does a delta on the frame before (`update_delta`), and either one leaves a
store at the frame as it is (`update_same`). A request that is in the cache changes nothing, and is for a frame no
newer than the one shown as long as the cache `Remembers` no others; so a line in order brings the store to its frame
in any case (`receive_in_order`).
-/

namespace AfsimNs3.System
open AfsimNs3.Bridge (StateStore Server PyError validateEnvelope)
open AfsimNs3.Bridge.Server (Kept StateRequest)
open AfsimNs3.Adapter (Submission StateDeltaTracker Indexed LineKind)

/-! ## Messages -/

/-- A message of the client: the place of its frame among those queued, and what its text decodes to (`none`: it is
no JSON). -/
structure Message where
  kind : LineKind
  frame : ℕ
  payload : Option Json

/-- The IDs of the messages of a frame. -/
def requestIds (sub : Submission) : List Str :=
  [Str.strip sub.requestId, Str.strip (sub.requestId ++ str "-resync")]

section
variable {δ : Type}

/-- The service has an answer in its cache, or the line is a delta older than the store. -/
def Ignored (s : Server δ) (payload : Json) : Prop :=
  match validateEnvelope payload with
  | .error _ => False
  | .ok envelope =>
    envelope.requestId ∈ s.idempotency.map Prod.fst ∨
      (envelope.messageType = .afsimDelta ∧ envelope.timestampMs < s.state.timestampMs)

instance (s : Server δ) (payload : Json) : Decidable (Ignored s payload) :=
  match h : validateEnvelope payload with
  | .error _ => .isFalse fun hignored => by rw [Ignored, h] at hignored; exact hignored
  | .ok envelope =>
    decidable_of_iff (envelope.requestId ∈ s.idempotency.map Prod.fst ∨
      (envelope.messageType = .afsimDelta ∧ envelope.timestampMs < s.state.timestampMs)) (by rw [Ignored, h])

variable [DecidableEq δ] (digestOf : Json → Except PyError δ)

/-- A line that is no JSON is answered with an error. -/
def receive (s : Server δ) (message : Message) : Server δ :=
  match message.payload with
  | none => s
  | some payload => (s.process digestOf payload).1

end

/-- The store is what an initialisation with the frame alone gives. -/
def Mirrors (s : StateStore) (sub : Submission) : Prop :=
  ∃ f snap snap', fresh sub = some f ∧ s.snapshot = .ok snap ∧ f.snapshot = .ok snap' ∧
    snap.entities = snap'.entities ∧ snap.flows = snap'.flows ∧ snap.timestampMs = snap'.timestampMs

/-! ## The messages of a frame -/

section Messages

theorem envelope_of_fields {fields : Fields} {messageType : Bridge.MessageType} {kind requestId : Str} {timestampMs : UInt64}
    (hversion : Fields.get fields (str "protocol_version") = .str (str "0.2"))
    (htype : Fields.get fields (str "message_type") = .str kind) (hparse : Str.strip kind ≠ [])
    (hkind : Bridge.MessageType.parse (Str.strip kind) = .ok messageType)
    (hid : Fields.get fields (str "request_id") = .str requestId) (hne : Str.strip requestId ≠ [])
    (htime : Fields.get fields (str "timestamp_ms") = .int timestampMs.toNat) :
    validateEnvelope (.obj fields) = .ok ⟨messageType, Str.strip requestId, timestampMs.toNat⟩ := by
  have htext : Bridge.requiredText fields (str "message_type") = .ok (Str.strip kind) :=
    Bridge.requiredText_ok_iff.mpr ⟨kind, htype, hparse, rfl⟩
  have hrequest : Bridge.requiredText fields (str "request_id") = .ok (Str.strip requestId) :=
    Bridge.requiredText_ok_iff.mpr ⟨requestId, hid, hne, rfl⟩
  have hnumber : Bridge.integer fields (str "timestamp_ms") (some 0) = .ok (timestampMs.toNat : ℤ) := by
    rw [Bridge.integer, htime]
    have hlow : ¬ (timestampMs.toNat : ℤ) < 0 := by omega
    simp [hlow]
  have hchecked : Bridge.checkVersion (.str (str "0.2")) = .ok () := by decide
  simp only [validateEnvelope, hversion, hchecked, htext, hrequest, hnumber, hkind, Except.ok_bind]
  rfl

theorem initMessage_envelope {requestId : Str} {timestampMs : UInt64} {entities : List Adapter.EntityState}
    {flows : List Adapter.FlowConfig} {message : Json}
    (h : Adapter.buildInitMessage requestId timestampMs entities flows = some message) (hne : Str.strip requestId ≠ []) :
    validateEnvelope message = .ok ⟨.afsimInit, Str.strip requestId, timestampMs.toNat⟩ := by
  simp only [Adapter.buildInitMessage, Option.bind_eq_bind, Option.bind_eq_some_iff, Option.some.injEq] at h
  obtain ⟨_, -, _, -, rfl⟩ := h
  have hstrip : Str.strip (str "afsim_init") = str "afsim_init" := by decide
  exact envelope_of_fields rfl rfl (hstrip ▸ by decide) (by rw [hstrip]; rfl) rfl hne rfl

theorem deltaMessage_envelope {requestId : Str} {timestampMs : UInt64} {delta : Adapter.DeltaState} {message : Json}
    (h : Adapter.buildDeltaMessage requestId timestampMs delta = some message) (hne : Str.strip requestId ≠ []) :
    validateEnvelope message = .ok ⟨.afsimDelta, Str.strip requestId, timestampMs.toNat⟩ := by
  simp only [Adapter.buildDeltaMessage, Option.bind_eq_bind, Option.bind_eq_some_iff, Option.some.injEq] at h
  obtain ⟨_, -, _, -, rfl⟩ := h
  have hstrip : Str.strip (str "afsim_delta") = str "afsim_delta" := by decide
  exact envelope_of_fields rfl rfl (hstrip ▸ by decide) (by rw [hstrip]; rfl) rfl hne rfl

def typeOf : LineKind → Bridge.MessageType
  | .full => .afsimInit
  | .delta => .afsimDelta

/-- The two trackers hold the same records. -/
structure SameTables (t t' : StateDeltaTracker) : Prop where
  entities : entityKind.table t.mEntities = entityKind.table t'.mEntities
  flows : flowKind.table t.mFlows = flowKind.table t'.mFlows

/-- The tracker's baseline is the frame. -/
def Baseline (t : StateDeltaTracker) (sub : Submission) : Prop :=
  ∃ f t', Indexed f t ∧ Indexed sub.frame t' ∧ SameTables t t'

/-- What is sent for a frame: all of it, or what changed since the frame before. -/
inductive Built (queued : List Submission) (frame : ℕ) (sub : Submission) : LineKind → Json → Prop where
  | full {requestId : Str} {payload : Json} (hid : Str.strip requestId ∈ requestIds sub)
      (h : Adapter.buildInitMessage requestId sub.timestampMs sub.frame.entities sub.frame.flows = some payload) :
      Built queued frame sub .full payload
  | delta {prev : Submission} {t t' : StateDeltaTracker} {payload : Json} {before : ℕ} (hbefore : before + 1 = frame)
      (hprev : queued[before]? = some prev) (hbase : Baseline t prev) (hi : Indexed sub.frame t')
      (h : Adapter.buildDeltaMessage sub.requestId sub.timestampMs (t.deltaTo t') = some payload) :
      Built queued frame sub .delta payload

/-- A message the client built for one of its frames. -/
def Genuine {δ : Type} (digestOf : Json → Except PyError δ) (queued : List Submission) (m : Message) : Prop :=
  ∃ sub payload digest, queued[m.frame]? = some sub ∧ m.payload = some payload ∧ digestOf payload = .ok digest ∧
    Built queued m.frame sub m.kind payload

theorem getElem?_of_grown {queued queued' : List Submission} (h : queued <+: queued') {n : ℕ} {sub : Submission}
    (hn : queued[n]? = some sub) : queued'[n]? = some sub := by
  obtain ⟨rest, rfl⟩ := h
  obtain ⟨hlt, -⟩ := List.getElem?_eq_some_iff.mp hn
  rw [List.getElem?_append_left hlt]
  exact hn

theorem Built.grown {queued queued' : List Submission} (hgrown : queued <+: queued') {frame : ℕ} {sub : Submission}
    {kind : LineKind} {payload : Json} (h : Built queued frame sub kind payload) :
    Built queued' frame sub kind payload := by
  cases h with
  | full hid hm => exact .full hid hm
  | delta hbefore hprev hbase hi hm => exact .delta hbefore (getElem?_of_grown hgrown hprev) hbase hi hm

theorem Genuine.grown {δ : Type} {digestOf : Json → Except PyError δ} {queued queued' : List Submission} {m : Message}
    (h : Genuine digestOf queued m) (hgrown : queued <+: queued') : Genuine digestOf queued' m := by
  obtain ⟨sub, payload, digest, hsub, hpayload, hdigest, hbuilt⟩ := h
  exact ⟨sub, payload, digest, getElem?_of_grown hgrown hsub, hpayload, hdigest, hbuilt.grown hgrown⟩

theorem Genuine.frame_lt {δ : Type} {digestOf : Json → Except PyError δ} {queued : List Submission} {m : Message}
    (h : Genuine digestOf queued m) :
    m.frame < queued.length := by
  obtain ⟨sub, -, -, hsub, -⟩ := h
  exact (List.getElem?_eq_some_iff.mp hsub).choose

theorem Built.envelope {queued : List Submission} {frame : ℕ} {sub : Submission} {kind : LineKind} {payload : Json}
    (h : Built queued frame sub kind payload) (hnamed : ∀ id ∈ requestIds sub, id ≠ []) :
    ∃ envelope, validateEnvelope payload = .ok envelope ∧ envelope.requestId ∈ requestIds sub ∧
      envelope.timestampMs = sub.timestampMs.toNat ∧
      envelope.messageType = typeOf kind := by
  cases h with
  | full hid hm => exact ⟨_, initMessage_envelope hm (hnamed _ hid), hid, rfl, rfl⟩
  | delta hbefore hprev hbase hi hm =>
    have hid : Str.strip sub.requestId ∈ requestIds sub := List.mem_cons_self
    exact ⟨_, deltaMessage_envelope hm (hnamed _ hid), hid, rfl, rfl⟩

end Messages

/-! ## The store after a message -/

section Store

/-- The store holds the frame. -/
def Presents (s : StateStore) (sub : Submission) : Prop :=
  ∃ t, Indexed sub.frame t ∧ Holds s t ∧ WiredStore s ∧ s.initialized = true ∧
    s.timestampMs = sub.timestampMs.toNat

theorem Presents.mirrors {s : StateStore} {sub : Submission} (h : Presents s sub) (hv : Valid sub) : Mirrors s sub := by
  obtain ⟨t, hi, hholds, -, hinit, htime⟩ := h
  obtain ⟨f, hf⟩ := Option.isSome_iff_exists.mp hv.accepted
  obtain ⟨_, -, -, -, -, -, -, -, href, hfinit, hfresh⟩ := fresh_eq_some hf
  obtain ⟨hsame, hsame'⟩ := (hv.fresh_holds hi hf).same hholds
  obtain ⟨snap', hsnap'⟩ := Bridge.StateStore.snapshot_exists hfinit href
  obtain ⟨snap, hsnap⟩ := Bridge.StateStore.snapshot_exists hinit
    (Bridge.StateStore.validateReferences_congr hsame hsame' href)
  obtain ⟨he, hfl⟩ := Bridge.StateStore.snapshot_congr hsame hsame' hsnap' hsnap
  have htime' : f.timestampMs = sub.timestampMs.toNat := by
    obtain ⟨_, _, _, _, -, -, -, -, -, rfl⟩ := Bridge.StateStore.initializeStore_ok_iff.mp hfresh
    rfl
  obtain ⟨-, -, -, hs, -⟩ := Bridge.StateStore.snapshot_ok_iff.mp hsnap
  obtain ⟨-, -, -, hs', -⟩ := Bridge.StateStore.snapshot_ok_iff.mp hsnap'
  exact ⟨f, snap, snap', hf, hsnap, hsnap', he.symm, hfl.symm, by rw [hs, hs', htime, htime']⟩

theorem Holds.of_same {s : StateStore} {t t' : StateDeltaTracker} (h : Holds s t) (hsame : SameTables t' t) :
    Holds s t' :=
  ⟨h.entities.trans hsame.entities.symm, h.flows.trans hsame.flows.symm⟩

variable {queued : List Submission} {frame : ℕ} {sub : Submission} {payload : Json} {s s' : StateStore}
  {envelope : Bridge.Envelope}

/-- A full snapshot is accepted by any store. -/
theorem update_full (hv : Valid sub) (h : Built queued frame sub .full payload)
    (htype : envelope.messageType = .afsimInit) (htime : envelope.timestampMs = sub.timestampMs.toNat) (s : StateStore) :
    ∃ s', Server.update s envelope payload.fields = .ok s' ∧ Presents s' sub := by
  cases h with
  | full hid hm =>
    obtain ⟨t, hi⟩ := hv.indexed
    obtain ⟨s', hok, hholds, hwired, hinit, htime'⟩ := initialize_holds hv hi hm s
    refine ⟨s', ?_, t, hi, hholds, hwired, hinit, htime'⟩
    rw [Server.update, if_pos htype, htime]
    exact hok

/-- A delta is accepted by a store that holds the frame before. -/
theorem update_delta (hv : Valid sub) (h : Built queued frame sub .delta payload)
    (htype : envelope.messageType = .afsimDelta) (htime : envelope.timestampMs = sub.timestampMs.toNat)
    {before : ℕ} (hbefore : before + 1 = frame) {prev : Submission} (hprev : queued[before]? = some prev)
    (hpresents : Presents s prev) (hle : prev.timestampMs ≤ sub.timestampMs) :
    ∃ s', Server.update s envelope payload.fields = .ok s' ∧ Presents s' sub := by
  cases h with
  | @delta prev' t t' _ before' hbefore' hprev' hbase hi hm =>
    obtain rfl : before' = before := by omega
    obtain rfl := Option.some.inj (hprev'.symm.trans hprev)
    obtain ⟨f, tp, hif, hip, hsame⟩ := hbase
    obtain ⟨tp', hip', hholds, hwired, hinit, htimes⟩ := hpresents
    obtain rfl := hip.unique hip'
    have hle' : s.timestampMs ≤ sub.timestampMs.toNat := by
      rw [htimes]
      exact Int.ofNat_le.mpr (UInt64.le_iff_toNat_le.mp hle)
    obtain ⟨s', hok, hholds', hwired', hinit', htime'⟩ :=
      applyDelta_holds hif hi hv (hholds.of_same hsame) hwired hinit hle' hm
    refine ⟨s', ?_, t', hi, hholds', hwired', hinit', htime'⟩
    rw [Server.update, if_neg (by rw [htype]; exact Bridge.MessageType.noConfusion), htime]
    exact hok

/-- A message for the frame the store holds changes nothing that shows. -/
theorem update_same {kind : LineKind} (hv : Valid sub) (h : Built queued frame sub kind payload)
    (htype : envelope.messageType = typeOf kind)
    (htime : envelope.timestampMs = sub.timestampMs.toNat) (hpresents : Presents s sub)
    (hok : Server.update s envelope payload.fields = .ok s') : Presents s' sub := by
  cases kind with
  | full =>
    obtain ⟨s'', hok', hpresents'⟩ := update_full hv h htype htime s
    obtain rfl := Except.ok.inj (hok.symm.trans hok')
    exact hpresents'
  | delta =>
    cases h with
    | @delta prev t t' _ before hbefore hprev hbase hi hm =>
      obtain ⟨t'', hi', hholds, hwired, hinit, htimes⟩ := hpresents
      obtain rfl := hi.unique hi'
      rw [Server.update, if_neg (by rw [htype]; exact Bridge.MessageType.noConfusion), htime] at hok
      obtain ⟨hentities, hflows, hwired'⟩ := delta_patches_store hi hm hwired hok
      rw [hholds.entities, Patch.apply_self] at hentities
      rw [hholds.flows, Patch.apply_self] at hflows
      obtain ⟨-, -, _, _, _, -, -, -, rfl⟩ := Bridge.StateStore.applyDelta_ok_iff.mp hok
      exact ⟨t', hi, ⟨hentities, hflows⟩, hwired', rfl, rfl⟩

end Store

/-! ## The service after a message -/

section Service
variable {δ : Type} [DecidableEq δ] {digestOf : Json → Except PyError δ} {queued : List Submission}

/-- The cache only knows requests for frames up to the one shown. -/
def Remembers (queued : List Submission) (shown : Option Message) (s : Server δ) : Prop :=
  ∀ e ∈ s.idempotency, ∃ n sub, queued[n]? = some sub ∧ e.1 ∈ requestIds sub ∧ ∃ m ∈ shown, n ≤ m.frame

/-- What the client's frames are like: valid, named apart, in the order of time. -/
structure Proper (queued : List Submission) : Prop where
  valid : ∀ sub ∈ queued, Valid sub
  named : ∀ sub ∈ queued, ∀ id ∈ requestIds sub, id ≠ []
  apart : ∀ (n n' : ℕ) sub sub', queued[n]? = some sub → queued[n']? = some sub' → ∀ id ∈ requestIds sub,
    id ∈ requestIds sub' → n = n'
  times : ∀ (n n' : ℕ) sub sub', n ≤ n' → queued[n]? = some sub → queued[n']? = some sub' →
    sub.timestampMs ≤ sub'.timestampMs

omit [DecidableEq δ] in
theorem Remembers.mono {s s' : Server δ} {shown shown' : Option Message} (h : Remembers queued shown s)
    (hcache : s'.idempotency = s.idempotency) (hle : ∀ m ∈ shown, ∃ m' ∈ shown', m.frame ≤ m'.frame) :
    Remembers queued shown' s' := by
  intro e he
  rw [hcache] at he
  obtain ⟨n, sub, hsub, hid, m, hm, hn⟩ := h e he
  obtain ⟨m', hm', hle'⟩ := hle m hm
  exact ⟨n, sub, hsub, hid, m', hm', hn.trans hle'⟩

omit [DecidableEq δ] in
/-- A request that is in the cache was for a frame no newer than the one shown. -/
theorem le_of_cached {s : Server δ} {shown : Option Message} (hremembers : Remembers queued shown s)
    (hproper : Proper queued) {n : ℕ} {sub : Submission} (hsub : queued[n]? = some sub) {id : Str}
    (hid : id ∈ requestIds sub) {entry : δ × Bridge.Ack} (hcached : Assoc.find? s.idempotency id = some entry) :
    ∃ m ∈ shown, n ≤ m.frame := by
  obtain ⟨n', sub', hsub', hid', m, hm, hle⟩ := hremembers _ (Assoc.mem_of_find? hcached)
  obtain rfl := hproper.apart n n' sub sub' hsub hsub' id hid hid'
  exact ⟨m, hm, hle⟩

theorem receive_unlocked {s : Server δ} (hs : s.Unlocked) (m : Message) : (receive digestOf s m).Unlocked := by
  unfold receive
  split
  · exact hs
  · exact (Server.process_move hs _).unlocked hs

variable (digestOf) in
/-- What the service makes of a message for a frame: nothing changes, or it is newly accepted. -/
theorem receive_cases {s : Server δ} (hs : s.Unlocked) {m : Message} {payload : Json} {envelope : Bridge.Envelope}
    (hpayload : m.payload = some payload)
    (henvelope : validateEnvelope payload = .ok envelope) :
    Kept s (receive digestOf s m) ∨ ∃ digest state snapshot, Assoc.find? s.idempotency envelope.requestId = none ∧
      Server.update s.state envelope payload.fields = .ok state ∧
      receive digestOf s m = s.accept envelope digest state snapshot := by
  have hreceive : receive digestOf s m = (s.process digestOf payload).1 := by rw [receive, hpayload]
  rw [hreceive]
  rcases Server.process_kept_or_accepted hs payload with hkept | ⟨envelope', digest, state, snapshot, hrequest, hnew,
    hupdate, -, haccept⟩
  · exact .inl hkept
  · obtain rfl := Except.ok.inj (hrequest.valid.symm.trans henvelope)
    exact .inr ⟨digest, state, snapshot, hnew, hupdate, haccept⟩

/-- An ignored line changes nothing. -/
theorem receive_ignored {s : Server δ} (hs : s.Unlocked) {m : Message} {payload : Json}
    (hpayload : m.payload = some payload) (hignored : Ignored s payload) : Kept s (receive digestOf s m) := by
  unfold Ignored at hignored
  split at hignored
  · exact hignored.elim
  · rename_i envelope henvelope
    rcases receive_cases digestOf hs hpayload henvelope with hkept | ⟨digest, state, snapshot, hnew,
      hupdate, -⟩
    · exact hkept
    · rcases hignored with hcached | ⟨htype, htime⟩
      · exact absurd hcached (Assoc.find?_eq_none_iff.mp hnew)
      · rw [Server.update, if_neg (by rw [htype]; exact Bridge.MessageType.noConfusion)] at hupdate
        obtain ⟨-, hle, -⟩ := Bridge.StateStore.applyDelta_ok_iff.mp hupdate
        exact absurd hle (not_le.mpr htime)

/-- The frame of a message, and the frame shown. -/
def PresentsFrame (queued : List Submission) (n : ℕ) (s : StateStore) : Prop :=
  ∃ sub, queued[n]? = some sub ∧ Presents s sub

variable {s : Server δ} {m : Message} {shown : Option Message} (hs : s.Unlocked) (hproper : Proper queued)
  (hgenuine : Genuine digestOf queued m) (hremembers : Remembers queued shown s)
  (hpresents : ∀ m ∈ shown, PresentsFrame queued m.frame s.state)
include hs hproper hgenuine hremembers hpresents

omit hpresents in
/-- A message for the frame shown, or a newer one, is remembered under the frame it is for. -/
theorem receive_remembers {shown' : Option Message} (hle : ∀ a ∈ shown, ∃ b ∈ shown', a.frame ≤ b.frame)
    (hm : ∃ b ∈ shown', m.frame ≤ b.frame) : Remembers queued shown' (receive digestOf s m) := by
  obtain ⟨sub, payload, digest, hsub, hpayload, hdigest, hbuilt⟩ := hgenuine
  obtain ⟨envelope, henvelope, hid, -, -⟩ := hbuilt.envelope (hproper.named sub (List.mem_of_getElem? hsub))
  rcases receive_cases digestOf hs hpayload henvelope with ⟨-, hcache⟩ | ⟨digest, state, snapshot, -, -,
    haccept⟩
  · exact hremembers.mono hcache hle
  · rw [haccept]
    intro e he
    rw [Server.accept_idempotency] at he
    rcases Server.mem_rememberRequest he with he | rfl
    · exact (hremembers.mono rfl hle) e he
    · obtain ⟨b, hb, hle⟩ := hm
      exact ⟨m.frame, sub, hsub, hid, b, hb, hle⟩

/-- **A line in order** brings the store to its frame. -/
theorem receive_in_order (hle : ∀ a ∈ shown, a.frame ≤ m.frame)
    (hnext : m.kind = .full ∨ ∃ a ∈ shown, a.frame + 1 = m.frame) :
    PresentsFrame queued m.frame (receive digestOf s m).state := by
  obtain ⟨sub, payload, digest, hsub, hpayload, hdigest, hbuilt⟩ := hgenuine
  have hv := hproper.valid sub (List.mem_of_getElem? hsub)
  obtain ⟨envelope, henvelope, hid, htime, htype⟩ := hbuilt.envelope (hproper.named sub (List.mem_of_getElem? hsub))
  have hreceive : receive digestOf s m = (s.process digestOf payload).1 := by rw [receive, hpayload]
  cases hcached : Assoc.find? s.idempotency envelope.requestId with
  | some entry =>
    obtain ⟨a, ha, hage⟩ := le_of_cached hremembers hproper hsub hid hcached
    have hframe : a.frame = m.frame := le_antisymm (hle a ha) hage
    rcases receive_cases digestOf hs hpayload henvelope with ⟨hstate, -⟩ | ⟨_, _, _, hnone, -, -⟩
    · rw [hstate, ← hframe]
      exact hpresents a ha
    · cases hcached.symm.trans hnone
  | none =>
    obtain ⟨state, hupdate, hstate⟩ : ∃ state, Server.update s.state envelope payload.fields = .ok state ∧
        Presents state sub := by
      generalize hkind : m.kind = kind at hbuilt htype hnext
      cases kind with
      | full => exact update_full hv hbuilt htype htime s.state
      | delta =>
        obtain ⟨a, ha, hframe⟩ := hnext.resolve_left LineKind.noConfusion
        obtain ⟨prev, hprev, hprevPresents⟩ := hpresents a ha
        exact update_delta hv hbuilt htype htime hframe hprev hprevPresents
          (hproper.times a.frame m.frame prev sub (by omega) hprev hsub)
    have hrequest : StateRequest digestOf payload envelope digest := by
      refine ⟨henvelope, ?_, hdigest⟩
      rw [htype]
      cases m.kind <;> exact Bridge.MessageType.noConfusion
    obtain ⟨snapshot, -, hprocess⟩ := Server.process_of_update hs hrequest hcached hupdate
    rw [hreceive, hprocess]
    exact ⟨sub, hsub, hstate⟩

omit hremembers in
/-- A line for the frame shown leaves the store at it. -/
theorem receive_same {a : Message} (ha : a ∈ shown) (hframe : m.frame = a.frame) :
    PresentsFrame queued a.frame (receive digestOf s m).state := by
  obtain ⟨sub, payload, digest, hsub, hpayload, hdigest, hbuilt⟩ := hgenuine
  have hv := hproper.valid sub (List.mem_of_getElem? hsub)
  obtain ⟨envelope, henvelope, hid, htime, htype⟩ := hbuilt.envelope (hproper.named sub (List.mem_of_getElem? hsub))
  rcases receive_cases digestOf hs hpayload henvelope with ⟨hstate, -⟩ | ⟨_, state, snapshot, -, hupdate,
    haccept⟩
  · rw [hstate]
    exact hpresents a ha
  · obtain ⟨sub', hsub', hshown⟩ := hpresents a ha
    rw [← hframe] at hsub'
    obtain rfl := Option.some.inj (hsub'.symm.trans hsub)
    rw [haccept, Server.accept_state, ← hframe]
    exact ⟨sub', hsub, update_same hv hbuilt htype htime hshown hupdate⟩

end Service

end AfsimNs3.System
