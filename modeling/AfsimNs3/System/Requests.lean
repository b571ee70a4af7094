import AfsimNs3.Bridge.Digest
import AfsimNs3.Bridge.Identity
import AfsimNs3.Bridge.Process
import AfsimNs3.System.Coalescing

/-!
# Requests that fail and requests that come again

A call that raises leaves the service as it was (`process_all_or_nothing`), so only accepted requests are
remembered. The cache of replies is a window on the accepted revisions (`Window`): the last
`idempotencyCacheSize` of them in order. A request inside the window that comes again is answered from the cache.
-/

namespace AfsimNs3.System

open Bridge Bridge.Server

/-! ## All or nothing -/

section
variable {δ : Type} [DecidableEq δ] {digestOf : Json → Except PyError δ} {s : Server δ}

theorem run_unlocked {actions : List Action} (hrun : Machine.run (step digestOf) new actions = some s) : s.Unlocked :=
  (run_moves (fun _ => True) (fun _ _ _ _ _ => trivial) trivial hrun).1

/-- **All or nothing.** In every reachable state of the service and for every payload, a call that raises leaves the
service as it was, and a call that newly accepts a request has done all of it. -/
theorem process_all_or_nothing {actions : List Action} (hrun : Machine.run (step digestOf) new actions = some s)
    (payload : Json) :
    (∀ e s', (processStatements digestOf payload).run s = (.error e, s') → s' = s) ∧
      ∀ ack s', (processStatements digestOf payload).run s = (.ok (.ack ack), s') → ack.duplicate = false →
        Committed digestOf s payload ack s' := by
  have hs : s.Unlocked := run_unlocked hrun
  rw [processStatements_run digestOf hs]
  cases hprocess : s.process digestOf payload with
  | mk t answer =>
    have houtcome := process_outcome digestOf hs payload
    rw [hprocess] at houtcome
    cases houtcome with
    | raised e => exact ⟨fun e' s' h => (Prod.mk.inj h).2.symm, (fun ack s' h => nomatch h)⟩
    | latest envelope henvelope hquery => exact ⟨(fun e' s' h => nomatch h), (fun ack s' h => nomatch h)⟩
    | repeated envelope digest ack hrequest hcached =>
      refine ⟨(fun e' s' h => nomatch h), fun ack' s' h hnew => ?_⟩
      have hack : { ack with duplicate := true } = ack' := Answer.ack.inj (Except.ok.inj (Prod.mk.inj h).1)
      rw [← hack] at hnew
      cases hnew
    | accepted envelope digest state snapshot hrequest hnew hupdate hsnapshot =>
      refine ⟨(fun e' s' h => nomatch h), fun ack' s' h _ => ?_⟩
      obtain ⟨hack, rfl⟩ := Prod.mk.inj h
      obtain rfl := Answer.ack.inj (Except.ok.inj hack)
      exact accept_committed hrequest hupdate hsnapshot

end

/-- The reply of a call that returns one. -/
def answeredAck : Except PyError Answer → Option Ack
  | .ok (.ack ack) => some ack
  | _ => none

/-- The exception of a call that raises. -/
def raisedError : Except PyError Answer → Option PyError
  | .error e => some e
  | .ok _ => none

theorem eq_of_answeredAck {outcome : Except PyError Answer} {ack : Ack} (h : answeredAck outcome = some ack) :
    outcome = .ok (.ack ack) := by
  unfold answeredAck at h
  split at h
  · rw [Option.some.inj h]
  · cases h

theorem eq_of_raisedError {outcome : Except PyError Answer} {e : PyError} (h : raisedError outcome = some e) :
    outcome = .error e := by
  cases outcome with
  | error e' => rw [Option.some.inj h]
  | ok answer => cases h

/-- An entity arrives. -/
def arrivalDelta : Json := requestOf (str "afsim_delta") (str "d") [
  (str "entity_upserts", .arr [restingEntity (str "B")])]

/-- An entity arrives with a flow from one that is not there. -/
def strandedDelta : Json := requestOf (str "afsim_delta") (str "f") [
  (str "entity_upserts", .arr [restingEntity (str "B")]),
  (str "flow_upserts", .arr [.obj [
    (str "flow_id", .str (str "f")),
    (str "source_entity_id", .str (str "A")),
    (str "target_entity_id", .str (str "B")),
    (str "packet_size_bytes", .int 64),
    (str "interval_ms", .int 1),
    (str "duration_ms", .int 100)]])]

/-- After an initialisation a delta commits; one whose flow has no source, and a payload that is no object, leave the
service as it was. -/
theorem delta_committed : ∃ s ack s', Machine.run (step digestById) new [.call emptyInit] = some s ∧
    (processStatements digestById arrivalDelta).run s = (.ok (.ack ack), s') ∧
    Committed digestById s arrivalDelta ack s' ∧
    (processStatements digestById strandedDelta).run s =
      (.error (.protocol 1002 (str "unknown flow source: A")), s) ∧
    (processStatements digestById .null).run s =
      (.error (.protocol 1001 (str "message must be a JSON object")), s) := by
  have hanswers : (Machine.run (step digestById) new [.call emptyInit]).map (fun s =>
      (answeredAck ((processStatements digestById arrivalDelta).run s).1,
        raisedError ((processStatements digestById strandedDelta).run s).1,
        raisedError ((processStatements digestById .null).run s).1)) =
      some (some ⟨str "d", 0, 2, some 1, false⟩, some (.protocol 1002 (str "unknown flow source: A")),
        some (.protocol 1001 (str "message must be a JSON object"))) := by
    decide +kernel
  obtain ⟨s, hrun, hanswers⟩ := Option.map_eq_some_iff.mp hanswers
  obtain ⟨hack, herrors⟩ := Prod.mk.inj hanswers
  obtain ⟨hstranded, hnull⟩ := Prod.mk.inj herrors
  have hdelta : (processStatements digestById arrivalDelta).run s = (_, _) := Prod.ext (eq_of_answeredAck hack) rfl
  have hrefused : ∀ payload e, raisedError ((processStatements digestById payload).run s).1 = some e →
      (processStatements digestById payload).run s = (.error e, s) := by
    intro payload e h
    have hraised := eq_of_raisedError h
    exact Prod.ext hraised ((process_all_or_nothing hrun payload).1 e _ (Prod.ext hraised rfl))
  exact ⟨s, _, _, hrun, hdelta, (process_all_or_nothing hrun arrivalDelta).2 _ _ hdelta rfl,
    hrefused strandedDelta _ hstranded, hrefused .null _ hnull⟩

/-! ## The window -/

/-- In a list numbered one by one, the numbers tell what a drop leaves. -/
theorem mem_drop_of_numbered {α : Type} {f : α → ℕ} {l : List α} {a n k : ℕ} (h : l.map f = List.range' a n) {x : α}
    (hx : x ∈ l) (hk : a + k ≤ f x) : x ∈ l.drop k := by
  obtain ⟨i, hi, rfl⟩ := List.getElem_of_mem hx
  have hnumber : f l[i] = a + i := by
    have hget : (l.map f)[i]? = (List.range' a n)[i]? := by rw [h]
    have hn : i < n := by
      have hlen := congrArg List.length h
      rw [List.length_map, List.length_range'] at hlen
      omega
    rw [List.getElem?_map, List.getElem?_eq_getElem hi, List.getElem?_range' hn, Nat.one_mul] at hget
    exact Option.some.inj hget
  rw [List.mem_drop_iff_getElem]
  refine ⟨i - k, by omega, ?_⟩
  congr 1
  omega

section
variable {δ : Type}

/-- The cache holds the replies of the last accepted revisions, the oldest first. -/
structure Window (revision : ℕ) (cache : List (Str × δ × Ack)) : Prop where
  numbered : cache.map (fun e => e.2.2.revision) =
    List.range' (revision + 1 - min revision idempotencyCacheSize) (min revision idempotencyCacheSize)
  keys : (cache.map Prod.fst).Nodup
  own : ∀ e ∈ cache, e.1 = e.2.2.requestId ∧ e.2.2.duplicate = false

theorem Window.length_le {revision : ℕ} {cache : List (Str × δ × Ack)} (h : Window revision cache) :
    cache.length ≤ idempotencyCacheSize := by
  have hlen := congrArg List.length h.numbered
  rw [List.length_map, List.length_range'] at hlen
  omega

theorem Window.bounds {revision : ℕ} {cache : List (Str × δ × Ack)} (h : Window revision cache) {e : Str × δ × Ack}
    (he : e ∈ cache) : revision + 1 - min revision idempotencyCacheSize ≤ e.2.2.revision ∧ e.2.2.revision ≤ revision := by
  have hmem : e.2.2.revision ∈ cache.map (fun e => e.2.2.revision) := List.mem_map.mpr ⟨e, he, rfl⟩
  rw [h.numbered, List.mem_range'_1] at hmem
  omega

/-- A request that is not in the cache goes to its end, and the oldest goes if there are too many. -/
theorem rememberRequest_new {cache : List (Str × δ × Ack)} {requestId : Str} (hnew : Assoc.find? cache requestId = none)
    (entry : δ × Ack) : rememberRequest cache requestId entry =
      (cache ++ [(requestId, entry)]).drop (cache.length + 1 - idempotencyCacheSize) := by
  have hothers : cache.filter (fun e => e.1 ≠ requestId) = cache := by
    rw [List.filter_eq_self]
    intro e he
    have hkey : e.1 ≠ requestId := fun h => Assoc.find?_eq_none_iff.mp hnew (List.mem_map.mpr ⟨e, he, h⟩)
    exact decide_eq_true hkey
  rw [rememberRequest, hothers, List.length_append, List.length_singleton]

section
variable {revision : ℕ} {cache : List (Str × δ × Ack)} {requestId : Str} {entry : δ × Ack}

theorem Window.numbered_append (h : Window revision cache) (hrevision : entry.2.revision = revision + 1) :
    (cache ++ [(requestId, entry)]).map (fun e => e.2.2.revision) =
      List.range' (revision + 1 - min revision idempotencyCacheSize) (min revision idempotencyCacheSize + 1) := by
  rw [List.map_append, h.numbered, List.map_singleton, hrevision, List.range'_1_concat]
  congr 2
  omega

theorem Window.length_eq (h : Window revision cache) : cache.length = min revision idempotencyCacheSize := by
  have hlen := congrArg List.length h.numbered
  rwa [List.length_map, List.length_range'] at hlen

/-- **The window moves on by one** with a newly accepted request. -/
theorem Window.accept (h : Window revision cache) (hnew : Assoc.find? cache requestId = none)
    (hrevision : entry.2.revision = revision + 1) (hown : requestId = entry.2.requestId)
    (hfirst : entry.2.duplicate = false) : Window (revision + 1) (rememberRequest cache requestId entry) := by
  have hlen := h.length_eq
  rw [rememberRequest_new hnew]
  refine ⟨?_, ?_, fun e he => ?_⟩
  · have hstart : revision + 1 - min revision idempotencyCacheSize +
        (min revision idempotencyCacheSize + 1 - idempotencyCacheSize) * 1 =
        revision + 1 + 1 - min (revision + 1) idempotencyCacheSize := by omega
    have hcount : min revision idempotencyCacheSize + 1 - (min revision idempotencyCacheSize + 1 - idempotencyCacheSize) =
        min (revision + 1) idempotencyCacheSize := by omega
    rw [List.map_drop, h.numbered_append hrevision, List.drop_range', hlen, hstart, hcount]
  · have hkeys : ((cache ++ [(requestId, entry)]).map Prod.fst).Nodup := by
      rw [List.map_append, List.map_singleton, List.nodup_append]
      refine ⟨h.keys, List.nodup_singleton _, fun key hkey key' hkey' heq => ?_⟩
      rw [heq, List.mem_singleton.mp hkey'] at hkey
      exact Assoc.find?_eq_none_iff.mp hnew hkey
    rw [List.map_drop]
    exact hkeys.sublist (List.drop_sublist _ _)
  · have hmem := List.mem_of_mem_drop he
    rw [List.mem_append, List.mem_singleton] at hmem
    rcases hmem with hmem | rfl
    · exact h.own e hmem
    · exact ⟨hown, hfirst⟩

/-- **A reply stays in the cache** until `idempotencyCacheSize` newer requests are accepted. -/
theorem Window.mem_accept (h : Window revision cache) (hnew : Assoc.find? cache requestId = none)
    (hrevision : entry.2.revision = revision + 1) {e : Str × δ × Ack} (he : e ∈ cache)
    (hwithin : revision + 1 < e.2.2.revision + idempotencyCacheSize) : e ∈ rememberRequest cache requestId entry := by
  have hlen := h.length_eq
  have hbounds := h.bounds he
  rw [rememberRequest_new hnew]
  refine mem_drop_of_numbered (f := fun e => e.2.2.revision) (h.numbered_append hrevision) (List.mem_append_left _ he) ?_
  show _ ≤ e.2.2.revision
  omega

end

end

/-! ## Runs -/

section
variable {δ : Type} [DecidableEq δ] {digestOf : Json → Except PyError δ} {s s' : Server δ}

omit [DecidableEq δ] in
theorem accepted_window {payload : Json} (h : Window s.state.revision s.idempotency)
    (haccepted : Accepted digestOf s payload s') : Window s'.state.revision s'.idempotency := by
  obtain ⟨envelope, digest, state, snapshot, -, hnew, hupdate, hsnapshot, rfl⟩ := haccepted
  obtain ⟨hrevision, -⟩ := update_ok hupdate
  have hsame : snapshot.revision = state.revision := (StateStore.snapshot_ok_iff.mp hsnapshot).2.2.2.2
  have haccept : Window (s.state.revision + 1)
      (rememberRequest s.idempotency envelope.requestId (digest, ackOf envelope snapshot s.pending)) :=
    h.accept hnew (hsame.trans hrevision) rfl rfl
  rw [← hrevision] at haccept
  rw [accept_state, accept_idempotency]
  exact haccept

theorem step_window {action : Action} (hs : s.Unlocked) (h : Window s.state.revision s.idempotency)
    (hstep : step digestOf s action = some s') : Window s'.state.revision s'.idempotency := by
  rcases step_kept_or_accepted hs hstep with ⟨hstate, hcache⟩ | ⟨payload, -, haccepted⟩
  · rw [hstate, hcache]
    exact h
  · exact accepted_window h haccepted

theorem run_window {actions : List Action} (hrun : Machine.run (step digestOf) new actions = some s) :
    Window s.state.revision s.idempotency := by
  have hnew : Window 0 ([] : List (Str × δ × Ack)) := ⟨rfl, List.nodup_nil, fun _ he => absurd he List.not_mem_nil⟩
  have hinv := Machine.run_invariant (fun s : Server δ => s.Unlocked ∧ Window s.state.revision s.idempotency)
    (fun _ _ _ h hstep => ⟨(step_move h.1 hstep).unlocked h.1, step_window h.1 h.2 hstep⟩) ⟨new_unlocked, hnew⟩ hrun
  exact hinv.2

theorem accepted_length {actions : List Action} (hrun : Machine.run (step digestOf) new actions = some s) :
    (acceptedRevisions s.log).length = s.state.revision := by
  rw [(run_accounted hrun).accepted, List.length_range']

theorem committed_of_ack {payload : Json} {ack : Ack} (hs : s.Unlocked)
    (h : s.process digestOf payload = (s', .ack ack)) (hfirst : ack.duplicate = false) :
    Committed digestOf s payload ack s' := by
  have houtcome := process_outcome digestOf hs payload
  rw [h] at houtcome
  cases houtcome with
  | repeated envelope digest cached hrequest hcached => cases hfirst
  | accepted envelope digest state snapshot hrequest hnew hupdate hsnapshot =>
    exact accept_committed hrequest hupdate hsnapshot

/-- The entry is in the cache, or the window has moved past it. -/
def Remembered (e : Str × δ × Ack) (s : Server δ) : Prop :=
  e ∈ s.idempotency ∨ e.2.2.revision + idempotencyCacheSize ≤ s.state.revision

theorem step_remembered {action : Action} {e : Str × δ × Ack} (hs : s.Unlocked)
    (hwindow : Window s.state.revision s.idempotency) (h : Remembered e s)
    (hstep : step digestOf s action = some s') : Remembered e s' := by
  rcases step_kept_or_accepted hs hstep with ⟨hstate, hcache⟩ | ⟨payload, -, haccepted⟩
  · rw [Remembered, hstate, hcache]
    exact h
  · obtain ⟨envelope, digest, state, snapshot, -, hnew, hupdate, hsnapshot, rfl⟩ := haccepted
    obtain ⟨hrevision, -⟩ := update_ok hupdate
    have hsame : snapshot.revision = state.revision := (StateStore.snapshot_ok_iff.mp hsnapshot).2.2.2.2
    by_cases hwithin : s.state.revision + 1 < e.2.2.revision + idempotencyCacheSize
    · left
      have hmem : e ∈ s.idempotency := h.resolve_right (by omega)
      rw [accept_idempotency]
      exact hwindow.mem_accept hnew (hsame.trans hrevision) hmem hwithin
    · right
      show e.2.2.revision + idempotencyCacheSize ≤ state.revision
      omega

theorem run_remembered {actions : List Action} {e : Str × δ × Ack} (hs : s.Unlocked)
    (hwindow : Window s.state.revision s.idempotency) (he : e ∈ s.idempotency)
    (hrun : Machine.run (step digestOf) s actions = some s') :
    s'.Unlocked ∧ Window s'.state.revision s'.idempotency ∧ Remembered e s' :=
  Machine.run_invariant
    (fun s : Server δ => s.Unlocked ∧ Window s.state.revision s.idempotency ∧ Remembered e s)
    (fun _ _ _ h hstep => ⟨(step_move h.1 hstep).unlocked h.1, step_window h.1 h.2.1 hstep,
      step_remembered h.1 h.2.1 h.2.2 hstep⟩) ⟨hs, hwindow, .inl he⟩ hrun

end

/-! ## A request that comes again -/

section
variable {δ : Type} {floatText : ℚ → Bytes} {sha256 : Bytes → δ}

/-- The same content, its keys in any order. -/
theorem request_congr {payload payload' : Json} {envelope : Envelope} {digest : δ}
    (h : StateRequest (requestDigest floatText sha256) payload envelope digest)
    (hsame : sortKeys payload' = sortKeys payload) :
    StateRequest (requestDigest floatText sha256) payload' envelope digest := by
  refine ⟨?_, h.kind, ?_⟩
  · rw [validateEnvelope_congr hsame, h.valid]
  · rw [requestDigest, canonical_congr hsame]
    exact h.content

theorem requestDigest_ok_iff {payload : Json} {digest : δ} : requestDigest floatText sha256 payload = .ok digest ↔
    ∃ content, canonical floatText payload = .ok content ∧ sha256 content = digest := by
  rw [requestDigest]
  cases canonical floatText payload with
  | error e => exact iff_of_false Except.error_ne_ok fun ⟨_, h, _⟩ => Except.error_ne_ok h
  | ok content =>
    exact ⟨fun h => ⟨content, rfl, Except.ok.inj h⟩, fun ⟨_, h, hdigest⟩ => by rw [Except.ok.inj h, ← hdigest]; rfl⟩

/-- **Retransmissions.** The cache never exceeds its size and holds replies to accepted requests only. A request that
was accepted, with fewer than `idempotencyCacheSize` newer ones accepted since, is answered from the cache when it
comes again, and refused when its `request_id` comes with other content; neither changes the store, the pending job
or the cache. -/
theorem retransmission_window [DecidableEq δ] (hsha : Function.Injective sha256) {before : List Action} {s : Server δ}
    (hrun : Machine.run (step (requestDigest floatText sha256)) new before = some s) :
    s.idempotency.length ≤ idempotencyCacheSize ∧
    (∀ e ∈ s.idempotency, e.2.2.duplicate = false ∧ .accepted e.2.2.revision ∈ s.log ∧ .replied e.2.2 ∈ s.log) ∧
    (∀ payload error t, s.process (requestDigest floatText sha256) payload = (t, .raised error) →
      t.idempotency = s.idempotency) ∧
    ∀ payload ack s₁ after s₂, s.process (requestDigest floatText sha256) payload = (s₁, .ack ack) →
      ack.duplicate = false → Machine.run (step (requestDigest floatText sha256)) s₁ after = some s₂ →
      (acceptedRevisions s₂.log).length < (acceptedRevisions s₁.log).length + idempotencyCacheSize →
      (∀ payload', sortKeys payload' = sortKeys payload →
        s₂.process (requestDigest floatText sha256) payload' =
          (s₂.repeatReply ack, .ack { ack with duplicate := true })) ∧
      ∀ payload' envelope content, validateEnvelope payload' = .ok envelope → envelope.messageType ≠ .metricsQuery →
        envelope.requestId = ack.requestId → canonical floatText payload' = .ok content →
        canonical floatText payload ≠ .ok content →
        s₂.process (requestDigest floatText sha256) payload' =
          (s₂, .raised (.protocol 1004 (str "request_id was reused with different content"))) := by
  have hs := run_unlocked hrun
  have hwindow := run_window hrun
  refine ⟨hwindow.length_le, fun e he => ?_, fun payload error t hraised => ?_,
    fun payload ack s₁ after s₂ haccepted hfirst hafter hwithin => ?_⟩
  · obtain ⟨hduplicate, hreplied⟩ := (run_accounted hrun).cached e he
    have hbounds := hwindow.bounds he
    refine ⟨hduplicate, (run_accounted hrun).mem_accepted.mpr ?_, hreplied⟩
    omega
  · have houtcome := process_outcome (requestDigest floatText sha256) hs payload
    rw [hraised] at houtcome
    cases houtcome
    rfl
  · have hcommitted := committed_of_ack hs haccepted hfirst
    obtain ⟨envelope, digest, hrequest, hid, -, hcached⟩ := hcommitted.remembered
    have hreached : Machine.run (step (requestDigest floatText sha256)) new (before ++ [.call payload]) = some s₁ :=
      Machine.run_append.mpr ⟨s, hrun, by rw [Machine.run_cons]; exact ⟨s₁, by rw [step, haccepted], rfl⟩⟩
    obtain ⟨hs₂, hwindow₂, hremembered⟩ :=
      run_remembered (run_unlocked hreached) (run_window hreached) (Assoc.mem_of_find? hcached) hafter
    rw [accepted_length hreached, accepted_length (Machine.run_append.mpr ⟨s₁, hreached, hafter⟩)] at hwithin
    have hmem : (ack.requestId, digest, ack) ∈ s₂.idempotency := by
      refine hremembered.resolve_right fun hpast => ?_
      have hrevision := hcommitted.acknowledged
      dsimp only at hpast
      omega
    have hfound : Assoc.find? s₂.idempotency envelope.requestId = some (digest, ack) :=
      hid ▸ Assoc.find?_of_mem hwindow₂.keys hmem
    refine ⟨fun payload' hsame => process_of_cached hs₂ (request_congr hrequest hsame) hfound,
      fun payload' envelope' content henvelope hkind hid' hcontent hother => ?_⟩
    have hrequest' : StateRequest (requestDigest floatText sha256) payload' envelope' (sha256 content) :=
      ⟨henvelope, hkind, requestDigest_ok_iff.mpr ⟨content, hcontent, rfl⟩⟩
    have hfound' : Assoc.find? s₂.idempotency envelope'.requestId = some (digest, ack) := by
      rw [hid', hid, hfound]
    refine process_of_reused hs₂ hrequest' hfound' fun hdigest => ?_
    obtain ⟨content', hcontent', hhash⟩ := requestDigest_ok_iff.mp hrequest.content
    rw [hsha (hhash.trans hdigest)] at hcontent'
    exact hother hcontent'

end

/-- The same content, its keys in another order. -/
def reorderedInit : Json := .obj emptyInit.fields.reverse

/-- A delta under the `request_id` of the initialisation. -/
def reusedId : Json := requestOf (str "afsim_delta") (str "i") []

/-- The initialisation comes again after a delta was accepted. -/
theorem init_comes_again : ∃ s₁ ack s₂, new.process (requestDigest (fun _ => []) id) emptyInit = (s₁, .ack ack) ∧
    ack.duplicate = false ∧
    Machine.run (step (requestDigest (fun _ => []) id)) s₁ [.call arrivalDelta] = some s₂ ∧
    acceptedRevisions s₂.log = [1, 2] ∧
    s₂.process (requestDigest (fun _ => []) id) reorderedInit =
      (s₂.repeatReply ack, .ack { ack with duplicate := true }) ∧
    s₂.process (requestDigest (fun _ => []) id) reusedId =
      (s₂, .raised (.protocol 1004 (str "request_id was reused with different content"))) := by
  have hruns : (match new.process (requestDigest (fun _ => []) id) emptyInit with
      | (s₁, .ack ack) => some (ack, acceptedRevisions s₁.log,
          (Machine.run (step (requestDigest (fun _ => []) id)) s₁ [.call arrivalDelta]).map
            (fun s₂ => acceptedRevisions s₂.log))
      | _ => none) = some (⟨str "i", 0, 1, none, false⟩, [1], some [1, 2]) := by decide +kernel
  cases hprocess : new.process (requestDigest (fun _ => []) id) emptyInit with
  | mk s₁ answer =>
    rw [hprocess] at hruns
    cases answer with
    | ack ack =>
      obtain ⟨rfl, hlogs⟩ := Prod.mk.inj (Option.some.inj hruns)
      obtain ⟨hfirst, hafter⟩ := Prod.mk.inj hlogs
      obtain ⟨s₂, hdelta, hsecond⟩ := Option.map_eq_some_iff.mp hafter
      have hrun : Machine.run (step (requestDigest (fun _ => []) id)) new [] = some (new : Server Bytes) := rfl
      have hwithin : (acceptedRevisions s₂.log).length < (acceptedRevisions s₁.log).length + idempotencyCacheSize := by
        rw [hfirst, hsecond]
        decide
      obtain ⟨hagain, hreused⟩ := (retransmission_window Function.injective_id hrun).2.2.2 emptyInit _ s₁
        [.call arrivalDelta] s₂ hprocess rfl hdelta hwithin
      have hvalid : validateEnvelope reusedId = .ok ⟨.afsimDelta, str "i", 0⟩ := by decide +kernel
      have hcontent : canonical (fun _ => []) reusedId = .ok (dumps (fun _ => []) (sortKeys reusedId)) :=
        if_pos (by decide +kernel)
      have hother : canonical (fun _ => []) emptyInit ≠ canonical (fun _ => []) reusedId := by decide +kernel
      exact ⟨s₁, _, s₂, rfl, rfl, hdelta, hsecond, hagain reorderedInit rfl,
        hreused reusedId _ _ hvalid MessageType.noConfusion rfl hcontent (hcontent ▸ hother)⟩
    | latest requestId response => cases hruns
    | raised error => cases hruns
    | suspended => cases hruns

end AfsimNs3.System
