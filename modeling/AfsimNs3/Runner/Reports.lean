import AfsimNs3.Lib.Ends
import AfsimNs3.Lib.Fixed
import AfsimNs3.Lib.Split
import AfsimNs3.Lib.Utf8
import AfsimNs3.Runner.Paths

/-!
# What the worker prints (`afsim-ns3-runner.cc`)

The lines on the standard output and the figures in them. The flow monitor counts packets, octets and nanoseconds; the
figures are quotients of these in doubles, printed with six decimals.

* `segments_output`: the lines of the output are those of the replies;
* `handleLines_sound`: whatever lines the worker is given, its replies are `Sound`: each fits into a line;
* `resultOf_sound`: a flow is reported with figures in their ranges, and they stay there when they are printed
  (`SoundResult.printedBack`).
-/

namespace AfsimNs3.Runner
open AfsimNs3.Bridge.Ns3Runner (Result MetricValues tabJoin flag)

/-- A `double` after `std::fixed << std::setprecision(6)`. -/
def figureText : Double → Bytes
  | .finite q => Fixed.text 6 q
  | .inf true => ascii "-inf"
  | .inf false => ascii "inf"
  | .nan => ascii "nan"

/-- The line of a reply, without its end. -/
def Reply.line : Reply → Bytes
  | .error what => tabJoin [ascii "ERROR", what]
  | .result ⟨index, values⟩ => tabJoin [ascii "RESULT", natBytes index, flag values.connected,
      figureText values.latencyMs, figureText values.lossRate, figureText values.throughputBps,
      natBytes values.txPackets, natBytes values.rxPackets, utf8 values.linkState]
  | .done id => tabJoin [ascii "DONE", id]

/-- The octets on the standard output. -/
def output (replies : List Reply) : Bytes := (replies.map Reply.line).flatMap fun line => line ++ [10]

/-! ## The figures of a flow -/

/-- `Time::GetSeconds` of a count of nanoseconds, not off by more than a factor of two. -/
structure Clock where
  getSeconds : ℤ → Double
  near : ∀ n : ℤ, 0 ≤ n → n < 2 ^ 63 →
    ∃ q, getSeconds n = .finite q ∧ (n : ℚ) / (2 * 10 ^ 9) ≤ q ∧ q ≤ n / (5 * 10 ^ 8)

/-- The entry of a flow in the flow monitor, times in nanoseconds. No packet is received that was not sent. -/
structure Monitored where
  txPackets : ℕ
  rxPackets : ℕ
  rxBytes : ℕ
  delaySum : ℤ
  timeFirstTxPacket : ℤ
  timeLastRxPacket : ℤ
  received : rxPackets ≤ txPackets
  counted : txPackets < 2 ^ 32
  bytes : rxBytes < 2 ^ 64
  delays : 0 ≤ delaySum ∧ delaySum < 2 ^ 63
  times : 0 < rxPackets → 0 ≤ timeLastRxPacket - timeFirstTxPacket ∧ timeLastRxPacket - timeFirstTxPacket < 2 ^ 63

/-- The quotients `RunScenario` forms. -/
def Monitored.stats (clock : Clock) (m : Monitored) : FlowStats where
  txPackets := m.txPackets
  rxPackets := m.rxPackets
  meanDelayMs := ((clock.getSeconds m.delaySum).scale 1000).quotient (Double.ofRat m.rxPackets)
  lostShare := (Double.ofRat (m.txPackets - m.rxPackets : ℕ)).quotient (Double.ofRat m.txPackets)
  activeSeconds := clock.getSeconds (m.timeLastRxPacket - m.timeFirstTxPacket)
  receivedBps := ((Double.ofRat m.rxBytes).scale 8).quotient
    (clock.getSeconds (m.timeLastRxPacket - m.timeFirstTxPacket))

/-- A text on one line, in ASCII. -/
def OneLine (text : Bytes) : Prop := ∀ c ∈ text, c.toNat < 128 ∧ c ≠ 10 ∧ c ≠ 13

/-- The run of a network: the entries of the flow monitor by flow index, or an exception with a text on one line. -/
structure Network where
  clock : Clock
  run : Scenario → Except Bytes (UInt32 → Option Monitored)
  what : ∀ scenario text, run scenario = .error text → OneLine text

/-- `RunScenario` after the validation. -/
def Network.simulate (network : Network) : Scenario → Except Bytes (List Result) :=
  Runner.simulate fun scenario =>
    (network.run scenario).map fun measured index => (measured index).map (Monitored.stats network.clock)

/-! ## Ranges -/

/-- The values of a flow as they are reported: mean delay, loss, throughput and counts in their ranges. -/
structure SoundValues (values : MetricValues) : Prop where
  latencyMs : Double.Within 0 (1000 * 2 ^ 35) values.latencyMs
  lossRate : Double.Within 0 1 values.lossRate
  throughputBps : Double.Within 0 (2 ^ 98) values.throughputBps
  received : values.rxPackets ≤ values.txPackets
  counted : values.txPackets < 2 ^ 32
  linkState : values.linkState = if values.connected then str "UP" else str "DOWN"

structure SoundResult (result : Result) : Prop where
  index : result.index < 2 ^ 32
  values : SoundValues result.values

theorem within_zero {bound : ℚ} (h : 0 ≤ bound) : Double.Within 0 bound (.finite 0) := ⟨0, rfl, le_refl 0, h⟩

/-- A quotient by a positive count. -/
theorem quotient_count {x : Double} {bound n : ℕ} (h : Double.Within 0 bound x) (hbound : bound < 2 ^ 53) (hn : 0 < n)
    (hlt : n < 2 ^ 53) : Double.Within 0 bound (x.quotient (Double.ofRat n)) := by
  obtain ⟨q, rfl, hlow, hhigh⟩ := h
  have hone : (1 : ℚ) ≤ n := by exact_mod_cast hn
  rw [Double.ofRat_natCast hlt]
  exact Double.ofRat_within (div_nonneg hlow (by linarith)) ((div_le_self hlow hone).trans hhigh) hbound

variable (clock : Clock) (m : Monitored)

theorem meanDelayMs_within (h : 0 < m.rxPackets) : Double.Within 0 (1000 * 2 ^ 35) (m.stats clock).meanDelayMs := by
  obtain ⟨q, hq, hlow, hhigh⟩ := clock.near m.delaySum m.delays.1 m.delays.2
  have hsum : (0 : ℚ) ≤ m.delaySum ∧ (m.delaySum : ℚ) ≤ 2 ^ 63 :=
    ⟨by exact_mod_cast m.delays.1, by exact_mod_cast m.delays.2.le⟩
  have hnonneg : 0 ≤ q := (div_nonneg hsum.1 (by norm_num)).trans hlow
  have hle : q * 1000 ≤ ((1000 * 2 ^ 35 : ℕ) : ℚ) := by
    have hdiv : (m.delaySum : ℚ) / (5 * 10 ^ 8) ≤ 2 ^ 63 / (5 * 10 ^ 8) :=
      div_le_div_of_nonneg_right hsum.2 (by norm_num)
    push_cast
    linarith
  have hms : Double.Within 0 (1000 * 2 ^ 35 : ℕ) ((clock.getSeconds m.delaySum).scale 1000) := by
    rw [hq]
    exact Double.ofRat_within (mul_nonneg hnonneg (by norm_num)) hle (by norm_num)
  have hlt : m.rxPackets < 2 ^ 53 := m.received.trans_lt (m.counted.trans (by norm_num))
  exact_mod_cast quotient_count hms (by norm_num) h hlt

theorem lostShare_within (h : 0 < m.txPackets) : Double.Within 0 1 (m.stats clock).lostShare := by
  have htx : m.txPackets < 2 ^ 53 := m.counted.trans (by norm_num)
  have hpos : (0 : ℚ) < m.txPackets := by exact_mod_cast h
  have hlost : ((m.txPackets - m.rxPackets : ℕ) : ℚ) ≤ m.txPackets := by exact_mod_cast Nat.sub_le _ _
  show Double.Within 0 1 ((Double.ofRat (m.txPackets - m.rxPackets : ℕ)).quotient (Double.ofRat m.txPackets))
  rw [Double.ofRat_natCast htx, Double.ofRat_natCast (lt_of_le_of_lt (Nat.sub_le _ _) htx)]
  have hle : ((m.txPackets - m.rxPackets : ℕ) : ℚ) / m.txPackets ≤ (1 : ℕ) := by
    rw [Nat.cast_one, div_le_one hpos]
    exact hlost
  exact_mod_cast Double.ofRat_within (div_nonneg (Nat.cast_nonneg _) hpos.le) hle (by norm_num)

theorem receivedBps_within (h : 0 < m.rxPackets) (hactive : (m.stats clock).activeSeconds.above 0 = true) :
    Double.Within 0 (2 ^ 98) (m.stats clock).receivedBps := by
  obtain ⟨hnonneg, hlt⟩ := m.times h
  obtain ⟨q, hq, hlow, hhigh⟩ := clock.near _ hnonneg hlt
  have hpos : 0 < q := by
    have habove : (clock.getSeconds (m.timeLastRxPacket - m.timeFirstTxPacket)).above 0 = true := hactive
    rw [hq] at habove
    exact of_decide_eq_true habove
  -- a positive time is a nanosecond at least
  have hone : (1 : ℚ) / (2 * 10 ^ 9) ≤ q := by
    have hne : m.timeLastRxPacket - m.timeFirstTxPacket ≠ 0 := by
      intro hzero
      rw [hzero, Int.cast_zero, zero_div] at hhigh
      exact absurd hpos (not_lt.mpr hhigh)
    have hle : (1 : ℚ) ≤ ((m.timeLastRxPacket - m.timeFirstTxPacket : ℤ) : ℚ) := by
      exact_mod_cast (show (1 : ℤ) ≤ m.timeLastRxPacket - m.timeFirstTxPacket by omega)
    exact (div_le_div_of_nonneg_right hle (by norm_num)).trans hlow
  have hbytes : (m.rxBytes : ℚ) ≤ (1 : ℕ) * 2 ^ 64 := by
    rw [Nat.cast_one, one_mul]
    exact_mod_cast m.bytes.le
  obtain ⟨b, hb, hb0, hble⟩ := Double.ofRat_within_zpow (Nat.cast_nonneg m.rxBytes) hbytes (by norm_num) (by norm_num)
  have hbits : b * 8 ≤ (1 : ℕ) * 2 ^ 67 := by
    push_cast at hble ⊢
    linarith
  obtain ⟨r, hr, hr0, hrle⟩ := Double.ofRat_within_zpow (mul_nonneg hb0 (by norm_num : (0 : ℚ) ≤ 8)) hbits (by norm_num)
    (by norm_num)
  have hquotient : r / q ≤ (1 : ℕ) * 2 ^ 98 := by
    rw [div_le_iff₀ hpos]
    have hscaled : (1 : ℕ) * 2 ^ 98 * ((1 : ℚ) / (2 * 10 ^ 9)) ≤ (1 : ℕ) * 2 ^ 98 * q :=
      mul_le_mul_of_nonneg_left hone (by norm_num)
    push_cast at hrle hscaled ⊢
    linarith
  have hwithin := Double.ofRat_within_zpow (div_nonneg hr0 hpos.le) hquotient (by norm_num) (by norm_num)
  have hvalue : (m.stats clock).receivedBps = Double.ofRat (r / q) := by
    show ((Double.ofRat m.rxBytes).scale 8).quotient _ = _
    rw [hb, hq]
    show (Double.ofRat (b * 8)).quotient _ = _
    rw [hr]
    rfl
  rw [hvalue]
  simpa using hwithin

/-- **A flow is reported in its ranges.** -/
theorem resultOf_sound (network : Network) (scenario : Scenario) (measured : UInt32 → Option Monitored)
    (flow : FlowInput) : SoundResult (resultOf scenario
      (fun index => (measured index).map (Monitored.stats network.clock)) flow) := by
  unfold resultOf
  dsimp only
  cases hflow : measured flow.index with
  | none =>
    exact ⟨flow.index.toNat_lt, within_zero (by norm_num), ⟨1, rfl, by norm_num, le_refl 1⟩, within_zero (by norm_num),
      le_refl 0, by norm_num, rfl⟩
  | some m =>
    refine ⟨flow.index.toNat_lt, ?_, ?_, ?_, m.received, m.counted, rfl⟩
    · show Double.Within 0 (1000 * 2 ^ 35) (if 0 < m.rxPackets then _ else _)
      split_ifs with hrx
      · exact meanDelayMs_within network.clock m hrx
      · exact within_zero (by norm_num)
    · show Double.Within 0 1 (if 0 < m.txPackets then _ else _)
      split_ifs with htx
      · exact lostShare_within network.clock m htx
      · exact ⟨1, rfl, by norm_num, le_refl 1⟩
    · show Double.Within 0 (2 ^ 98) (if 0 < m.rxPackets ∧ (m.stats network.clock).activeSeconds.above 0 = true then
        (m.stats network.clock).receivedBps else .finite 0)
      split_ifs with hrx
      · exact receivedBps_within network.clock m hrx.1 hrx.2
      · exact within_zero (by norm_num)

theorem simulate_ends (network : Network) (scenario : Scenario) :
    Except.Ends (fun results => ∀ result ∈ results, SoundResult result) OneLine (network.simulate scenario) := by
  unfold Network.simulate simulate
  dsimp only
  cases hrun : network.run scenario with
  | error text => exact network.what scenario text hrun
  | ok measured =>
    intro result hresult
    obtain ⟨flow, -, rfl⟩ := List.mem_map.mp hresult
    exact resultOf_sound network scenario measured flow

/-! ## Printed figures -/

/-- What is read of a printed figure: six decimals of it, as the nearest double. -/
def reprinted : Double → Double
  | .finite q => Double.ofRat (Fixed.rounded 6 q)
  | x => x

/-- What is read of a printed result. -/
def printedBack (result : Result) : Result :=
  { result with values :=
    { result.values with
      latencyMs := reprinted result.values.latencyMs
      lossRate := reprinted result.values.lossRate
      throughputBps := reprinted result.values.throughputBps } }

theorem reprinted_within {bound m : ℕ} {x : Double} (h : Double.Within 0 (bound * 2 ^ m) x) (hbound : bound < 2 ^ 53)
    (hm : m ≤ 900) : Double.Within 0 (bound * 2 ^ m) (reprinted x) := by
  obtain ⟨q, rfl, hlow, hhigh⟩ := h
  refine Double.ofRat_within_zpow (Fixed.rounded_nonneg 6 hlow) ?_ hbound hm
  have hle := @Fixed.rounded_le 6 q (bound * 2 ^ m) (by exact_mod_cast hhigh)
  exact_mod_cast hle

/-- Printing keeps the ranges. -/
theorem SoundResult.printedBack {result : Result} (h : SoundResult result) : SoundResult (printedBack result) := by
  obtain ⟨hindex, hvalues⟩ := h
  refine ⟨hindex, ?_, ?_, ?_, hvalues.received, hvalues.counted, hvalues.linkState⟩
  · have hwithin := @reprinted_within 1000 35 _ (by exact_mod_cast hvalues.latencyMs) (by norm_num) (by norm_num)
    exact_mod_cast hwithin
  · have hwithin := @reprinted_within 1 0 result.values.lossRate (by simpa using hvalues.lossRate) (by norm_num)
      (by norm_num)
    rwa [Nat.cast_one, pow_zero, one_mul] at hwithin
  · have hwithin := @reprinted_within 1 98 result.values.throughputBps (by simpa using hvalues.throughputBps)
      (by norm_num) (by norm_num)
    rwa [Nat.cast_one, one_mul] at hwithin

/-! ## Texts on one line -/

theorem oneLine_of_ascii {text : Bytes} (h : text.all (fun c => c.toNat < 128 && c ≠ 10 && c ≠ 13) = true) :
    OneLine text := by
  intro c hc
  have hall := List.all_eq_true.mp h c hc
  rw [Bool.and_eq_true, Bool.and_eq_true, decide_eq_true_eq, decide_eq_true_eq, decide_eq_true_eq] at hall
  exact ⟨hall.1.1, hall.1.2, hall.2⟩

theorem oneLine_natBytes (n : ℕ) : OneLine (natBytes n) := by
  intro c hc
  have hdigit := isDigit_iff.mp (isDigit_of_mem_natBytes hc)
  refine ⟨by omega, ?_, ?_⟩
  · rintro rfl
    exact absurd hdigit.1 (by decide)
  · rintro rfl
    exact absurd hdigit.1 (by decide)

theorem oneLine_part {line part : Bytes} (hline : OneLine line) (h : part ∈ splitTabs line) :
    OneLine part ∧ (9 : UInt8) ∉ part := by
  have hmem : part ∈ line.splitOn 9 := by
    unfold splitTabs at h
    dsimp only at h
    split_ifs at h
    · exact List.mem_of_mem_dropLast h
    · exact h
  obtain ⟨hfree, hsub⟩ := Split.mem_splitOn hmem
  exact ⟨fun c hc => hline c (hsub c hc), hfree⟩

/-! ## The texts of the exceptions -/

section Texts
open Except

theorem stoull_ends (value : Bytes) : Ends (fun _ => True) OneLine (stoull value) := by
  have hdigits : ∀ negative text, Ends (fun _ => True) OneLine (stoullDigits negative text) := by
    intro negative text
    unfold stoullDigits
    dsimp only
    split_ifs
    · exact oneLine_of_ascii (by decide)
    · exact oneLine_of_ascii (by decide)
    · trivial
    · trivial
  unfold stoull
  split
  · exact hdigits _ _
  · exact hdigits _ _
  · exact hdigits _ _

theorem toUint32_ends (value : Bytes) : Ends (fun _ => True) OneLine (toUint32 value) := by
  refine (stoull_ends value).bind fun parsed _ => ?_
  split_ifs
  · exact oneLine_of_ascii (by decide)
  · trivial

theorem toBool_ends (value : Bytes) : Ends (fun _ => True) OneLine (toBool value) := by
  unfold toBool
  split_ifs
  · trivial
  · trivial
  · exact oneLine_of_ascii (by decide)

theorem ensure_ends {condition : Bool} {message : Bytes} (h : OneLine message) :
    Ends (fun _ => True) OneLine (ensure condition message) := by
  unfold ensure
  split_ifs
  · trivial
  · exact h

theorem validateScenario_ends (scenario : Scenario) : Ends (fun _ => True) OneLine (validateScenario scenario) := by
  have hlink : ∀ link, Ends (fun _ => True) OneLine (validateLink scenario.nodes.length link) := fun link =>
    (ensure_ends (oneLine_of_ascii (by decide))).bind fun _ _ => ensure_ends (oneLine_of_ascii (by decide))
  have hflow : ∀ flow, Ends (fun _ => True) OneLine (validateFlow scenario.nodes.length flow) := fun flow =>
    (ensure_ends (oneLine_of_ascii (by decide))).bind fun _ _ => ensure_ends (oneLine_of_ascii (by decide))
  refine (ensure_ends (oneLine_of_ascii (by decide))).bind fun _ _ => ?_
  refine (Ends.forM fun node _ => ensure_ends (oneLine_of_ascii (by decide))).bind fun _ _ => ?_
  refine (Ends.forM fun link _ => hlink link).bind fun _ _ => ?_
  exact Ends.forM fun flow _ => hflow flow

/-- An ID that fits into the `DONE` line. -/
def Named (id : Bytes) : Prop := OneLine id ∧ (9 : UInt8) ∉ id

/-- A `SCENARIO` command with such an ID. -/
def Command.Named : Command → Prop
  | .scenario id _ _ _ => Runner.Named id
  | _ => True

variable {stod : Bytes → Except Bytes Double}

theorem parseCommand_ends (hstod : ∀ text, Ends (fun _ => True) OneLine (stod text)) {line : Bytes}
    (hline : OneLine line) : Ends Command.Named OneLine (parseCommand stod line) := by
  unfold parseCommand
  have hparts : ∀ part ∈ splitTabs line, Named part := fun part h => oneLine_part hline h
  generalize splitTabs line = parts at hparts
  cases parts with
  | nil => exact oneLine_of_ascii (by decide)
  | cons name parts =>
    dsimp only
    rw [List.forall_mem_cons] at hparts
    split_ifs
    · split
      · have hid := hparts.2 _ List.mem_cons_self
        exact (toUint32_ends _).bind fun _ _ => (toUint32_ends _).bind fun _ _ => (toUint32_ends _).bind fun _ _ => hid
      · exact oneLine_of_ascii (by decide)
    · split
      · exact (toUint32_ends _).bind fun _ _ => (hstod _).bind fun _ _ => (hstod _).bind fun _ _ =>
          (hstod _).bind fun _ _ => (toBool_ends _).bind fun _ _ => trivial
      · exact oneLine_of_ascii (by decide)
    · split
      · exact (toUint32_ends _).bind fun _ _ => (toUint32_ends _).bind fun _ _ => (toUint32_ends _).bind fun _ _ =>
          (stoull_ends _).bind fun _ _ => (hstod _).bind fun _ _ => (hstod _).bind fun _ _ =>
          (toBool_ends _).bind fun _ _ => trivial
      · exact oneLine_of_ascii (by decide)
    · split
      · exact (toUint32_ends _).bind fun _ _ => (toUint32_ends _).bind fun _ _ => (toUint32_ends _).bind fun _ _ =>
          (toUint32_ends _).bind fun _ _ => (toUint32_ends _).bind fun _ _ => (toUint32_ends _).bind fun _ _ =>
          (toBool_ends _).bind fun _ _ => trivial
      · exact oneLine_of_ascii (by decide)
    · trivial
    · exact oneLine_of_ascii (by decide)

/-! ## Every reply fits into a line -/

/-- A reply that fits into a line, a result in its ranges. -/
def Reply.Sound : Reply → Prop
  | .error what => OneLine what
  | .result values => SoundResult values
  | .done id => Named id

theorem runScenario_ends (network : Network) {scenario : Scenario} (hid : Named scenario.id) :
    Ends (fun replies => ∀ reply ∈ replies, Reply.Sound reply) OneLine (runScenario network.simulate scenario) := by
  refine (validateScenario_ends scenario).bind fun _ _ => ?_
  refine (simulate_ends network scenario).bind fun results hresults => ?_
  intro reply hreply
  rw [List.mem_append, List.mem_singleton] at hreply
  rcases hreply with hresult | rfl
  · obtain ⟨result, hmem, rfl⟩ := List.mem_map.mp hresult
    exact hresults result hmem
  · exact hid

variable (network : Network) (hstod : ∀ text, Ends (fun _ => True) OneLine (stod text))
include hstod

theorem handleLine_sound {scenario : Scenario} (hid : Named scenario.id) {line : Bytes} (hline : OneLine line) :
    Named (handleLine stod network.simulate scenario line).1.id ∧
      ∀ reply ∈ (handleLine stod network.simulate scenario line).2, Reply.Sound reply := by
  have hsilent : ∀ reply ∈ ([] : List Reply), Reply.Sound reply := fun reply h => absurd h List.not_mem_nil
  have hends : Ends (fun out : Scenario × List Reply => Named out.1.id ∧ ∀ reply ∈ out.2, Reply.Sound reply) OneLine
      (parseCommand stod line >>= execute network.simulate scenario) := by
    refine (parseCommand_ends hstod hline).bind fun command hcommand => ?_
    cases command with
    | scenario id nodes links flows => exact ⟨hcommand, hsilent⟩
    | node input => exact ⟨hid, hsilent⟩
    | link input => exact ⟨hid, hsilent⟩
    | flow input => exact ⟨hid, hsilent⟩
    | run =>
      have hrun := runScenario_ends network hid
      unfold execute
      cases h : runScenario network.simulate scenario with
      | error what => exact hrun.raised h
      | ok replies => exact ⟨hid, hrun.value h⟩
  unfold handleLine
  split_ifs
  · exact ⟨hid, hsilent⟩
  · split
    · rename_i out hout
      exact hends.value hout
    · rename_i what hwhat
      refine ⟨⟨fun c hc => absurd hc List.not_mem_nil, List.not_mem_nil⟩, fun reply hreply => ?_⟩
      obtain rfl := List.mem_singleton.mp hreply
      exact hends.raised hwhat

/-- **Whatever lines come in, the replies fit into lines.** -/
theorem handleLines_sound {lines : List Bytes} (hlines : ∀ line ∈ lines, OneLine line) {scenario : Scenario}
    (hid : Named scenario.id) : Named (handleLines stod network.simulate scenario lines).1.id ∧
      ∀ reply ∈ (handleLines stod network.simulate scenario lines).2, Reply.Sound reply := by
  induction lines generalizing scenario with
  | nil => exact ⟨hid, fun reply h => absurd h List.not_mem_nil⟩
  | cons line lines ih =>
    rw [List.forall_mem_cons] at hlines
    obtain ⟨hnext, hreplies⟩ := handleLine_sound network hstod hid hlines.1
    obtain ⟨hend, hrest⟩ := ih hlines.2 hnext
    refine ⟨hend, fun reply hreply => ?_⟩
    rcases List.mem_append.mp hreply with h | h
    · exact hreplies reply h
    · exact hrest reply h

end Texts

/-! ## The lines of the output -/

theorem oneLine_tabJoin {parts : List Bytes} (h : ∀ part ∈ parts, OneLine part) : OneLine (tabJoin parts) := by
  unfold tabJoin
  induction parts with
  | nil => exact fun c hc => absurd hc List.not_mem_nil
  | cons part parts ih =>
    rw [List.forall_mem_cons] at h
    cases parts with
    | nil => simpa using h.1
    | cons next rest =>
      rw [List.intercalate_cons_cons]
      intro c hc
      rw [List.mem_append, List.mem_append, List.mem_singleton] at hc
      rcases hc with (hc | rfl) | hc
      · exact h.1 c hc
      · decide
      · exact ih h.2 c hc

theorem named_natBytes (n : ℕ) : Named (natBytes n) :=
  ⟨oneLine_natBytes n, fun h => absurd (isDigit_of_mem_natBytes h) (by decide)⟩

theorem named_of_ascii {text : Bytes}
    (h : text.all (fun c => c.toNat < 128 && c ≠ 10 && c ≠ 13) = true ∧ (9 : UInt8) ∉ text) : Named text :=
  ⟨oneLine_of_ascii h.1, h.2⟩

theorem named_flag (b : Bool) : Named (flag b) := by
  cases b
  · exact named_of_ascii (by decide)
  · exact named_of_ascii (by decide)

theorem named_figureText (x : Double) : Named (figureText x) := by
  cases x with
  | finite q =>
    have hchar : ∀ c ∈ Fixed.text 6 q, (c.toNat < 128 ∧ c ≠ 10 ∧ c ≠ 13) ∧ c ≠ 9 := by
      intro c hc
      rcases Fixed.mem_text hc with hdigit | rfl | rfl
      · have hrange := isDigit_iff.mp hdigit
        refine ⟨⟨by omega, ?_, ?_⟩, ?_⟩
        · rintro rfl
          exact absurd hrange.1 (by decide)
        · rintro rfl
          exact absurd hrange.1 (by decide)
        · rintro rfl
          exact absurd hrange.1 (by decide)
      · decide
      · decide
    exact ⟨fun c hc => (hchar c hc).1, fun h => (hchar 9 h).2 rfl⟩
  | inf negative =>
    cases negative
    · exact named_of_ascii (by decide)
    · exact named_of_ascii (by decide)
  | nan => exact named_of_ascii (by decide)

/-- The columns of a `RESULT` line. -/
def columns (result : Result) : List Bytes := [ascii "RESULT", natBytes result.index, flag result.values.connected,
  figureText result.values.latencyMs, figureText result.values.lossRate, figureText result.values.throughputBps,
  natBytes result.values.txPackets, natBytes result.values.rxPackets, utf8 result.values.linkState]

theorem named_columns {result : Result} (h : SoundResult result) : ∀ column ∈ columns result, Named column := by
  have hstate : Named (utf8 result.values.linkState) := by
    rw [h.values.linkState]
    split_ifs
    · exact named_of_ascii (by decide)
    · exact named_of_ascii (by decide)
  unfold columns
  simp only [List.forall_mem_cons, named_natBytes, named_flag, named_figureText, hstate, List.not_mem_nil,
    false_imp_iff, implies_true, and_true]
  exact named_of_ascii (by decide)

/-- The columns come apart again. -/
theorem splitOn_result {result : Result} (h : SoundResult result) :
    (Reply.line (.result result)).splitOn 9 = columns result :=
  List.splitOn_intercalate 9 (fun column hcolumn => (named_columns h column hcolumn).2) (List.cons_ne_nil _ _)

theorem oneLine_line {reply : Reply} (h : reply.Sound) : OneLine reply.line := by
  cases reply with
  | error what =>
    refine oneLine_tabJoin ?_
    simp only [List.forall_mem_cons, List.not_mem_nil, false_imp_iff, implies_true, and_true]
    exact ⟨oneLine_of_ascii (by decide), h⟩
  | result result => exact oneLine_tabJoin fun column hcolumn => (named_columns h column hcolumn).1
  | done id =>
    refine oneLine_tabJoin ?_
    simp only [List.forall_mem_cons, List.not_mem_nil, false_imp_iff, implies_true, and_true]
    exact ⟨oneLine_of_ascii (by decide), h.1⟩

/-- **The lines of the output** are those of the replies. -/
theorem segments_output {replies : List Reply} (h : ∀ reply ∈ replies, reply.Sound) :
    Split.segments 10 (output replies) = replies.map Reply.line := by
  refine Split.segments_lines fun line hline => ?_
  obtain ⟨reply, hreply, rfl⟩ := List.mem_map.mp hline
  exact fun hten => (oneLine_line (h reply hreply) 10 hten).2.1 rfl

end AfsimNs3.Runner
