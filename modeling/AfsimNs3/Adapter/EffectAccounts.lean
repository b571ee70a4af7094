import AfsimNs3.Adapter.PendingEffects

/-!
# The accounts of pending effects

Two invariants of the threads, each kept by every step. `Balanced`: the decisions returned so far are those overwritten,
waiting in the map, taken from it, and in the hand of the worker. `Increasing`: the revision in the hand is above all
that was put into the map before, so for each key the revisions grow. `effects_accounted` is what they mean for every
interleaving.
-/

namespace AfsimNs3.Adapter.EffectExchange

/-- The revision of a decision. -/
def revisionOf (ticket : Ticket) : UInt64 := ticket.decision.revision

/-- What was taken from the map so far, passed or still to pass. -/
def sent (s : EffectExchange) : List Ticket := s.passed ++ s.rest

section
variable {stod : Bytes → Except Bytes Double} {hasHandler : Bool} {s s' : EffectExchange}

theorem sent_of_some {call : ApplyCall} (h : s.call = some call) : s.sent =
    s.finished.flatMap (fun call => call.attempts.map Prod.fst) ++ (call.attempts.map Prod.fst ++ call.rest) := by
  rw [sent, passed, rest, calls, h, List.flatMap_append, List.append_assoc]
  show _ ++ ((_ ++ []) ++ (_ ++ [])) = _
  rw [List.append_nil, List.append_nil]

theorem sent_of_none (h : s.call = none) :
    s.sent = s.finished.flatMap (fun call => call.attempts.map Prod.fst) := by
  rw [sent, passed, rest, calls, h]
  show List.flatMap _ (_ ++ []) ++ [] = _
  rw [List.append_nil, List.append_nil]

/-- Taking the map adds what waits there. -/
theorem sent_swap (hstep : step stod hasHandler s .swap = some s') :
    s'.sent = s.sent ++ s.box.pending.sorted.map Prod.snd := by
  obtain ⟨hcall, rfl⟩ := step_swap.mp hstep
  rw [sent_of_none hcall, sent_of_some rfl]
  rfl

/-- Passing an entry and returning from the call take nothing. -/
theorem sent_pass {sink handler : Option Thrown} (hstep : step stod hasHandler s (.pass sink handler) = some s') :
    s'.sent = s.sent := by
  obtain ⟨call, ticket, rest, hcall, hrest, rfl⟩ := step_pass.mp hstep
  rw [sent_of_some hcall, sent_of_some rfl, hrest, List.map_append, List.append_assoc]
  rfl

theorem sent_finish (hstep : step stod hasHandler s .finish = some s') : s'.sent = s.sent := by
  obtain ⟨call, hcall, hrest, rfl⟩ := step_finish.mp hstep
  rw [sent_of_some hcall, sent_of_none rfl, hrest, List.flatMap_append, List.append_nil]
  show _ ++ (_ ++ []) = _
  rw [List.append_nil]

/-! ## Tickets -/

theorem map_serial_ticketsFrom (serial : ℕ) (decisions : List EffectDecision) :
    (ticketsFrom serial decisions).map Ticket.serial = List.range' serial decisions.length := by
  rw [ticketsFrom, List.map_map]
  exact List.zipIdx_map_snd serial decisions

theorem mem_ticketsFrom {serial : ℕ} {decisions : List EffectDecision} {ticket : Ticket}
    (h : ticket ∈ ticketsFrom serial decisions) : ticket.decision ∈ decisions ∧ serial ≤ ticket.serial := by
  have hserial : ticket.serial ∈ (ticketsFrom serial decisions).map Ticket.serial := List.mem_map_of_mem h
  rw [map_serial_ticketsFrom, List.mem_range'_1] at hserial
  obtain ⟨decision, hmem, rfl⟩ := List.mem_map.mp h
  exact ⟨List.fst_mem_of_mem_zipIdx hmem, hserial.1⟩

theorem ticketsFrom_ne_nil {serial : ℕ} {decisions : List EffectDecision} (h : ticketsFrom serial decisions ≠ []) :
    decisions ≠ [] := by
  rintro rfl
  exact h rfl

/-- **The accounts balance**: every decision returned is in one place. -/
structure Balanced (s : EffectExchange) : Prop where
  account : s.returned.Perm (s.box.account ++ s.sent ++ s.inHand)
  tickets : s.returned.map Ticket.serial = List.range s.returned.length
  keyed : Mailbox.Keyed effectKey s.box
  overwritten : ∀ pair ∈ s.box.overwritten,
    effectKey pair.1 = effectKey pair.2 ∧ pair.1.serial < pair.2.serial ∧ pair.2 ∈ s.returned
  inHand : s.inHand.Pairwise (fun a b => a.serial < b.serial)
  later : ∀ a ∈ s.box.pending.values, ∀ b ∈ s.inHand, a.serial < b.serial

theorem Balanced.serial_lt (h : Balanced s) {ticket : Ticket} (hmem : ticket ∈ s.returned) :
    ticket.serial < s.returned.length := by
  have hserial : ticket.serial ∈ s.returned.map Ticket.serial := List.mem_map_of_mem hmem
  rw [h.tickets] at hserial
  exact List.mem_range.mp hserial

theorem Balanced.returned_of_pending (h : Balanced s) {ticket : Ticket} (hmem : ticket ∈ s.box.pending.values) :
    ticket ∈ s.returned :=
  h.account.symm.subset (List.mem_append_left _ (List.mem_append_left _ (List.mem_append_right _ hmem)))

theorem Balanced.returned_of_inHand (h : Balanced s) {ticket : Ticket} (hmem : ticket ∈ s.inHand) :
    ticket ∈ s.returned :=
  h.account.symm.subset (List.mem_append_right _ hmem)

theorem balanced_readLine (h : Balanced s) {line : Bytes} (hstep : step stod hasHandler s (.readLine line) = some s') :
    Balanced s' := by
  obtain ⟨hfree, rfl⟩ := step_readLine.mp hstep
  have hserials := map_serial_ticketsFrom s.returned.length (readLine stod s.gates line).2
  have haccount := h.account
  rw [hfree, List.append_nil] at haccount
  refine ⟨haccount.append_right _, ?_, h.keyed, fun pair hpair => ?_, ?_, fun a ha b hb => ?_⟩
  · have hlength : (ticketsFrom s.returned.length (readLine stod s.gates line).2).length =
        (readLine stod s.gates line).2.length := by
      rw [← List.length_map (f := Ticket.serial), hserials, List.length_range']
    rw [List.map_append, hserials, h.tickets, List.length_append, hlength, List.range_eq_range', List.range_eq_range']
    have happend := List.range'_append_1 (s := 0) (m := s.returned.length) (n := (readLine stod s.gates line).2.length)
    rwa [Nat.zero_add] at happend
  · obtain ⟨hkey, hserial, hmem⟩ := h.overwritten pair hpair
    exact ⟨hkey, hserial, List.mem_append_left _ hmem⟩
  · have hpairwise := List.pairwise_lt_range' (s := s.returned.length) (n := (readLine stod s.gates line).2.length)
    rw [← hserials, List.pairwise_map] at hpairwise
    exact hpairwise
  · have hlt := h.serial_lt (h.returned_of_pending ha)
    have hle := (mem_ticketsFrom hb).2
    omega

theorem balanced_insert (h : Balanced s) (hstep : step stod hasHandler s .insert = some s') : Balanced s' := by
  obtain ⟨-, rfl⟩ := step_insert.mp hstep
  have hposted := Mailbox.postAll_account effectKey s.box s.inHand
  have hlater : ∀ a ∈ s.box.pending.values, ∀ b ∈ s.inHand, a.serial < b.serial ∧ b ∈ s.returned := fun a ha b hb =>
    ⟨h.later a ha b hb, h.returned_of_inHand hb⟩
  have hitems : s.inHand.Pairwise (fun a b => a.serial < b.serial ∧ b ∈ s.returned) :=
    h.inHand.imp_of_mem fun _ hb hlt => ⟨hlt, h.returned_of_inHand hb⟩
  refine ⟨?_, h.tickets, Mailbox.postAll_keyed h.keyed _,
    Mailbox.postAll_overwritten h.keyed hlater hitems h.overwritten, List.Pairwise.nil, fun _ _ _ hb =>
      absurd hb List.not_mem_nil⟩
  have hmoved : (s.box.account ++ s.sent ++ s.inHand).Perm (s.box.account ++ s.inHand ++ s.sent) := by
    rw [List.append_assoc, List.append_assoc]
    exact List.perm_append_comm.append_left _
  show s.returned.Perm (_ ++ s.sent ++ [])
  rw [List.append_nil]
  exact (h.account.trans hmoved).trans (hposted.symm.append_right _)

theorem sorted_values (d : Dict (List Bytes) Ticket) : (d.sorted.map Prod.snd).Perm d.values :=
  d.sorted_perm.map Prod.snd

theorem balanced_swap (h : Balanced s) (hstep : step stod hasHandler s .swap = some s') : Balanced s' := by
  have hsent := sent_swap hstep
  obtain ⟨-, rfl⟩ := step_swap.mp hstep
  refine ⟨?_, h.tickets, fun k item hitem => ?_, h.overwritten, h.inHand, fun a ha => ?_⟩
  · rw [hsent]
    have hempty : Mailbox.Box.account { s.box with pending := (Dict.empty : Dict (List Bytes) Ticket) } =
        s.box.overwritten.map Prod.fst := List.append_nil _
    show s.returned.Perm (Mailbox.Box.account { s.box with pending := Dict.empty } ++ _ ++ s.inHand)
    rw [hempty]
    refine h.account.trans (List.Perm.append_right _ ?_)
    rw [Mailbox.Box.account, List.append_assoc]
    refine List.Perm.append_left _ (List.perm_append_comm.trans ?_)
    exact (sorted_values s.box.pending).symm.append_left _
  · exact absurd hitem (by simp [Dict.get?_empty])
  · exact absurd ha List.not_mem_nil

theorem balanced_step {a : Action} (h : Balanced s) (hstep : step stod hasHandler s a = some s') : Balanced s' := by
  cases a with
  | readLine line => exact balanced_readLine h hstep
  | insert => exact balanced_insert h hstep
  | swap => exact balanced_swap h hstep
  | pass sink handler =>
    have hsent := sent_pass hstep
    obtain ⟨call, ticket, rest, -, -, rfl⟩ := step_pass.mp hstep
    exact ⟨by rw [hsent]; exact h.account, h.tickets, h.keyed, h.overwritten, h.inHand, h.later⟩
  | finish =>
    have hsent := sent_finish hstep
    obtain ⟨call, -, -, rfl⟩ := step_finish.mp hstep
    exact ⟨by rw [hsent]; exact h.account, h.tickets, h.keyed, h.overwritten, h.inHand, h.later⟩

/-! ## Revisions -/

theorem update_revision {gate gate' : NetworkEffectGate} {line : Bytes} {decisions : List EffectDecision}
    (h : gate.updateFromMetricsJson line = .ok (gate', decisions)) :
    gate.mLatestRevision ≤ gate'.mLatestRevision ∧ (decisions ≠ [] → gate.mLatestRevision < gate'.mLatestRevision) ∧
      ∀ decision ∈ decisions, decision.revision = gate'.mLatestRevision := by
  have hsame : ∀ decision ∈ ([] : List EffectDecision), decision.revision = gate.mLatestRevision :=
    fun _ hmem => absurd hmem List.not_mem_nil
  rw [NetworkEffectGate.updateFromMetricsJson] at h
  cases hread : NetworkEffectGate.readMetrics line with
  | error what =>
    rw [hread] at h
    cases h
  | ok result =>
    rw [hread] at h
    have haccept := Except.ok.inj h
    cases result with
    | none =>
      obtain ⟨rfl, rfl⟩ := Prod.mk.inj haccept
      exact ⟨UInt64.le_refl _, fun hne => absurd rfl hne, hsame⟩
    | some result =>
      obtain ⟨revision, read⟩ := result
      unfold NetworkEffectGate.accept at haccept
      dsimp only at haccept
      split_ifs at haccept with hle
      · obtain ⟨rfl, rfl⟩ := Prod.mk.inj haccept
        exact ⟨UInt64.le_refl _, fun hne => absurd rfl hne, hsame⟩
      · obtain ⟨rfl, rfl⟩ := Prod.mk.inj haccept
        have hlt := UInt64.not_le.mp hle
        refine ⟨UInt64.le_of_lt hlt, fun _ => hlt, fun decision hmem => ?_⟩
        simp only [NetworkEffectGate.readMetrics, Except.bind_ok_iff] at hread
        obtain ⟨messageType, -, hread⟩ := hread
        split_ifs at hread
        · cases hread
        simp only [Except.bind_ok_iff, Except.pure_ok_iff] at hread
        obtain ⟨r, -, effects, -, decisions', hdecisions, heq⟩ := hread
        obtain ⟨rfl, rfl⟩ := Prod.mk.inj (Option.some.inj heq)
        obtain ⟨object, -, hobject⟩ := (Except.mapM_ok_iff.mp hdecisions).exists_left hmem
        simp only [NetworkEffectGate.readEffect, Except.bind_ok_iff, Except.pure_ok_iff] at hobject
        obtain ⟨_, -, _, -, _, -, _, -, _, -, rfl⟩ := hobject
        rfl

/-- The decisions of a line have the revision the gate adopts with it, which is above the one before. -/
theorem readLine_revision (stod : Bytes → Except Bytes Double) (gates : Gates) (line : Bytes) :
    gates.mGate.mLatestRevision ≤ (readLine stod gates line).1.mGate.mLatestRevision ∧
    ((readLine stod gates line).2 ≠ [] →
      gates.mGate.mLatestRevision < (readLine stod gates line).1.mGate.mLatestRevision) ∧
    ∀ decision ∈ (readLine stod gates line).2,
      decision.revision = (readLine stod gates line).1.mGate.mLatestRevision := by
  unfold readLine
  cases gates.mMessageGate.updateFromMetricsJson stod line with
  | error what => exact ⟨UInt64.le_refl _, fun hne => absurd rfl hne, fun _ hmem => absurd hmem List.not_mem_nil⟩
  | ok message =>
    dsimp only
    cases heffect : gates.mGate.updateFromMetricsJson line with
    | error what => exact ⟨UInt64.le_refl _, fun hne => absurd rfl hne, fun _ hmem => absurd hmem List.not_mem_nil⟩
    | ok effect => exact update_revision heffect

/-- **Revisions grow**, under each key. -/
structure Increasing (s : EffectExchange) : Prop where
  inHand : ∀ ticket ∈ s.inHand, revisionOf ticket = s.gates.mGate.mLatestRevision
  fresh : s.inHand ≠ [] → ∀ ticket ∈ s.sent ++ s.box.pending.values, revisionOf ticket < s.gates.mGate.mLatestRevision
  bounded : ∀ ticket ∈ s.sent ++ s.box.pending.values, revisionOf ticket ≤ s.gates.mGate.mLatestRevision
  sent : s.sent.Pairwise (fun a b => effectKey a = effectKey b → revisionOf a < revisionOf b)
  next : ∀ a ∈ s.sent, ∀ b ∈ s.box.pending.values, effectKey a = effectKey b → revisionOf a < revisionOf b

theorem increasing_readLine (h : Increasing s) {line : Bytes} (hstep : step stod hasHandler s (.readLine line) = some s') :
    Increasing s' := by
  obtain ⟨-, rfl⟩ := step_readLine.mp hstep
  obtain ⟨hle, hlt, hrevision⟩ := readLine_revision stod s.gates line
  refine ⟨fun ticket hmem => hrevision _ (mem_ticketsFrom hmem).1, fun hne ticket hmem => ?_, fun ticket hmem => ?_,
    h.sent, h.next⟩
  · exact UInt64.lt_of_le_of_lt (h.bounded ticket hmem) (hlt (ticketsFrom_ne_nil hne))
  · exact UInt64.le_trans (h.bounded ticket hmem) hle

theorem increasing_insert (h : Increasing s) (hstep : step stod hasHandler s .insert = some s') : Increasing s' := by
  obtain ⟨hne, rfl⟩ := step_insert.mp hstep
  refine ⟨fun ticket hmem => absurd hmem List.not_mem_nil, fun hempty => absurd rfl hempty, fun ticket hmem => ?_, h.sent,
    fun a ha b hb hkey => ?_⟩
  · rcases List.mem_append.mp hmem with hmem | hmem
    · exact h.bounded ticket (List.mem_append_left _ hmem)
    · rcases Mailbox.mem_pending_postAll hmem with hmem | hmem
      · exact h.bounded ticket (List.mem_append_right _ hmem)
      · exact UInt64.le_of_eq (h.inHand ticket hmem)
  · rcases Mailbox.mem_pending_postAll hb with hb | hb
    · exact h.next a ha b hb hkey
    · rw [h.inHand b hb]
      exact h.fresh hne a (List.mem_append_left _ ha)

/-- The entries of the map have different keys. -/
theorem sorted_pairwise (hkeyed : Mailbox.Keyed effectKey s.box) :
    (s.box.pending.sorted.map Prod.snd).Pairwise (fun a b => effectKey a = effectKey b → revisionOf a < revisionOf b) := by
  have hkeys := s.box.pending.sorted_keys_nodup
  rw [List.Nodup, List.pairwise_map] at hkeys
  rw [List.pairwise_map]
  refine hkeys.imp_of_mem fun ha hb hne hkey => absurd ?_ hne
  rw [← hkeyed _ _ (Dict.mem_sorted.mp ha), ← hkeyed _ _ (Dict.mem_sorted.mp hb)]
  exact hkey

theorem increasing_swap (h : Increasing s) (hkeyed : Mailbox.Keyed effectKey s.box)
    (hstep : step stod hasHandler s .swap = some s') : Increasing s' := by
  have hsent := sent_swap hstep
  obtain ⟨-, rfl⟩ := step_swap.mp hstep
  have hvalues := sorted_values s.box.pending
  have hmem : ∀ ticket ∈ s.sent ++ s.box.pending.sorted.map Prod.snd ++ (Dict.empty : Dict (List Bytes) Ticket).values,
      ticket ∈ s.sent ++ s.box.pending.values := by
    intro ticket hticket
    rw [List.mem_append, List.mem_append, hvalues.mem_iff] at hticket
    rcases hticket with (hticket | hticket) | hticket
    · exact List.mem_append_left _ hticket
    · exact List.mem_append_right _ hticket
    · exact absurd hticket List.not_mem_nil
  refine ⟨h.inHand, fun hne ticket hticket => ?_, fun ticket hticket => ?_, ?_, fun a _ b hb => absurd hb List.not_mem_nil⟩
  · rw [hsent] at hticket
    exact h.fresh hne ticket (hmem ticket hticket)
  · rw [hsent] at hticket
    exact h.bounded ticket (hmem ticket hticket)
  · rw [hsent, List.pairwise_append]
    exact ⟨h.sent, sorted_pairwise hkeyed, fun a ha b hb => h.next a ha b (hvalues.subset hb)⟩

theorem increasing_step {a : Action} (h : Increasing s) (hbalanced : Balanced s)
    (hstep : step stod hasHandler s a = some s') : Increasing s' := by
  cases a with
  | readLine line => exact increasing_readLine h hstep
  | insert => exact increasing_insert h hstep
  | swap => exact increasing_swap h hbalanced.keyed hstep
  | pass sink handler =>
    have hsent := sent_pass hstep
    obtain ⟨call, ticket, rest, -, -, rfl⟩ := step_pass.mp hstep
    exact ⟨h.inHand, by rw [hsent]; exact h.fresh, by rw [hsent]; exact h.bounded, by rw [hsent]; exact h.sent,
      by rw [hsent]; exact h.next⟩
  | finish =>
    have hsent := sent_finish hstep
    obtain ⟨call, -, -, rfl⟩ := step_finish.mp hstep
    exact ⟨h.inHand, by rw [hsent]; exact h.fresh, by rw [hsent]; exact h.bounded, by rw [hsent]; exact h.sent,
      by rw [hsent]; exact h.next⟩

/-! ## Every interleaving -/

theorem Balanced.account_perm (h : Balanced s) :
    s.returned.Perm (s.box.overwritten.map Prod.fst ++ s.passed ++ s.waiting) := by
  have hswap : (s.box.pending.values ++ s.sent).Perm (s.sent ++ s.box.pending.values) := List.perm_append_comm
  have hmoved := (hswap.append_left (s.box.overwritten.map Prod.fst)).append_right s.inHand
  have haccount := h.account
  simp only [Mailbox.Box.account, sent, waiting, List.append_assoc] at hmoved haccount ⊢
  exact haccount.trans hmoved

theorem Balanced.nodup (h : Balanced s) : s.returned.Nodup := by
  apply List.Nodup.of_map Ticket.serial
  rw [h.tickets]
  exact List.nodup_range

/-- In the accounts a decision returned stands in one place, once. -/
theorem fate_of_balanced (h : Balanced s) {ticket : Ticket} (hmem : ticket ∈ s.returned) : Fate s ticket := by
  have haccount := h.account_perm
  have hnodup := haccount.nodup h.nodup
  rw [List.nodup_append, List.nodup_append] at hnodup
  obtain ⟨⟨-, hpassed, hdisjoint⟩, -, hwaiting⟩ := hnodup
  have hoverwritten : ∀ later, (ticket, later) ∈ s.box.overwritten → ticket ∈ s.box.overwritten.map Prod.fst :=
    fun later hlater => List.mem_map_of_mem hlater
  have hplace := haccount.subset hmem
  rw [List.mem_append, List.mem_append] at hplace
  rcases hplace with (hplace | hplace) | hplace
  · obtain ⟨⟨_, later⟩, hlater, rfl⟩ := List.mem_map.mp hplace
    obtain ⟨hkey, hserial, hreturned⟩ := h.overwritten _ hlater
    have hnotPassed := fun hpass => hdisjoint _ hplace _ hpass rfl
    refine .inr (.inr ⟨⟨later, hlater, hkey.symm, hserial, hreturned⟩, List.count_eq_zero.mpr hnotPassed, fun hwait => ?_⟩)
    exact hwaiting _ (List.mem_append_left _ hplace) _ hwait rfl
  · refine .inr (.inl ⟨List.count_eq_one_of_mem hpassed hplace, fun hwait => ?_, fun later hlater => ?_⟩)
    · exact hwaiting _ (List.mem_append_right _ hplace) _ hwait rfl
    · exact hdisjoint _ (hoverwritten later hlater) _ hplace rfl
  · refine .inl ⟨hplace, List.count_eq_zero.mpr fun hpass => ?_, fun later hlater => ?_⟩
    · exact hwaiting _ (List.mem_append_right _ hpass) _ hplace rfl
    · exact hwaiting _ (List.mem_append_left _ (hoverwritten later hlater)) _ hplace rfl

theorem Increasing.passed (h : Increasing s) (key : List Bytes) :
    ((s.passed.filter (fun ticket => effectKey ticket = key)).map
      (fun ticket => ticket.decision.revision)).Pairwise (· < ·) := by
  have hpassed := (List.pairwise_append.mp h.sent).1
  rw [List.pairwise_map]
  refine (hpassed.filter _).imp_of_mem fun {a b} ha hb hlt => hlt ?_
  have hkey : effectKey a = key := of_decide_eq_true (List.mem_filter.mp ha).2
  have hkey' : effectKey b = key := of_decide_eq_true (List.mem_filter.mp hb).2
  rw [hkey, hkey']

theorem new_invariants : CallsSound hasHandler new ∧ Balanced new ∧ Increasing new := by
  have hnone : ∀ {α : Type} {p : α → Prop}, ∀ x ∈ ([] : List α), p x := fun x hx => absurd hx List.not_mem_nil
  have hkeyed : Mailbox.Keyed effectKey (Mailbox.Box.empty : Mailbox.Box (List Bytes) Ticket) := fun k item hitem =>
    absurd hitem (by simp [Mailbox.Box.empty])
  exact ⟨⟨rfl, hnone, hnone⟩, ⟨List.Perm.refl _, rfl, hkeyed, hnone, List.Pairwise.nil, hnone⟩,
    ⟨hnone, fun h => absurd rfl h, hnone, List.Pairwise.nil, hnone⟩⟩

/-- **Pending effects are neither lost nor applied out of order**, whatever the interleaving of the two threads and
whatever the sink and the error handler throw. -/
theorem effects_accounted {actions : List Action} (hrun : Machine.run (step stod hasHandler) new actions = some s) :
    Accounted hasHandler s := by
  have hinvariants : CallsSound hasHandler s ∧ Balanced s ∧ Increasing s :=
    Machine.run_invariant (fun s => CallsSound hasHandler s ∧ Balanced s ∧ Increasing s)
      (fun _ _ _ h hstep => ⟨callsSound_step h.1 hstep, balanced_step h.2.1 hstep, increasing_step h.2.2 h.2.1 hstep⟩)
      new_invariants hrun
  obtain ⟨hcalls, hbalanced, hincreasing⟩ := hinvariants
  exact ⟨fun ticket hmem => fate_of_balanced hbalanced hmem, hbalanced.account_perm, hbalanced.tickets,
    hincreasing.passed, hcalls.batches, hcalls.sound, hcalls.finished⟩

end

/-! ## A weapon whose sink throws -/

/-- A line of a revision with a decision for each of two peers, the first of them twice. -/
def twoPeersLine (revision : String) : Bytes :=
  ascii "\x7b\"message_type\":\"ns3_metrics\",\"revision\":" ++ ascii revision ++
    ascii ",\"links\":[],\"metrics\":[],\"effects\":[" ++ NetworkEffectGate.weaponEffect "B" "BLOCKED" ++ ascii "," ++
    NetworkEffectGate.weaponEffect "B" "AVAILABLE" ++ ascii "," ++ NetworkEffectGate.weaponEffect "C" "BLOCKED" ++
    ascii "]\x7d"

/-- The second line is read while the first is being applied; the sink throws, and so does the error handler. -/
def throwingRun : List Action := [.readLine (twoPeersLine "1"), .insert, .swap, .readLine (twoPeersLine "2"),
  .pass (some (.exception (ascii "no such weapon"))) (some .other), .insert, .pass none none, .finish]

theorem throwing_accounted : ∃ s, Machine.run (step (fun _ => .error []) true) new throwingRun = some s ∧
    s.finished.map ApplyCall.applied = [1] ∧ s.passed.map Ticket.serial = [1, 2] ∧
    s.waiting.map Ticket.serial = [4, 5] ∧ Accounted true s := by
  have hend : (Machine.run (step (fun _ => .error []) true) new throwingRun).map (fun s =>
      (s.finished.map ApplyCall.applied, s.passed.map Ticket.serial, s.waiting.map Ticket.serial)) =
      some ([1], [1, 2], [4, 5]) := by decide +kernel
  obtain ⟨s, hrun, hs⟩ := Option.map_eq_some_iff.mp hend
  obtain ⟨happlied, hrest⟩ := Prod.mk.inj hs
  obtain ⟨hpassed, hwaiting⟩ := Prod.mk.inj hrest
  exact ⟨s, hrun, happlied, hpassed, hwaiting, effects_accounted hrun⟩

end AfsimNs3.Adapter.EffectExchange
