import AfsimNs3.Lib.Machine
import AfsimNs3.Lib.Split
import AfsimNs3.Lib.Text

/-!
# Receiving lines (`TcpJsonlClient`)

The receive loop of `ProcessConnection` appends a chunk to its buffer and `DispatchLines` takes the complete lines off
the front. The handler may do anything to its consumer and may throw; what it throws is dropped.

* `dispatchLines_eq`: one call hands over the complete lines of the buffer and leaves the rest (`Split.leftover`);
* `receive_chunks`: the lines of a connection are those of the whole stream, wherever it was cut.
-/

namespace AfsimNs3.Adapter

/-- A handler: what becomes of the consumer, and the exception the call ends in, if any. -/
abbrev LineHandler (σ ε : Type) := σ → Bytes → σ × Option ε

def lineFeed : UInt8 := 10

/-- The line without one trailing carriage return. -/
def dropReturn (line : Bytes) : Bytes := if line.getLast? = some 13 then line.dropLast else line

section Dispatch
variable {σ ε : Type} (mHandler : Option (LineHandler σ ε))

/-- The call of the handler in its `try` block. -/
def handOver (consumer : σ) (line : Bytes) : σ :=
  match mHandler with
  | some handler => if line ≠ [] then (handler consumer line).1 else consumer
  | none => consumer

/-- The loop of `DispatchLines`. Every turn takes at least one octet off the buffer, so its length is enough turns. -/
def dispatchLoop : ℕ → σ → Bytes → σ × Bytes
  | 0, consumer, buffer => (consumer, buffer)
  | turns + 1, consumer, buffer =>
    match buffer.findIdx? (fun c => c = lineFeed) with
    | none => (consumer, buffer)
    | some newline =>
      dispatchLoop turns (handOver mHandler consumer (dropReturn (buffer.take newline))) (buffer.drop (newline + 1))

/-- `DispatchLines`. -/
def dispatchLines (consumer : σ) (buffer : Bytes) : σ × Bytes := dispatchLoop mHandler buffer.length consumer buffer

/-- The connection: the consumer of its lines and the local `received`. -/
structure Reception (σ : Type) where
  consumer : σ
  received : Bytes

/-- The limit of the receive buffer. -/
def maxReceived : ℕ := 10 * 1024 * 1024

/-- A chunk is received; beyond the limit the connection is closed. -/
def receive (r : Reception σ) (chunk : Bytes) : Option (Reception σ) :=
  let received := r.received ++ chunk
  if maxReceived < received.length then none
  else
    let out := dispatchLines mHandler r.consumer received
    some ⟨out.1, out.2⟩

end Dispatch

/-- The lines of a stream: its segments, each without one trailing carriage return, and no empty ones. -/
def linesOf (stream : Bytes) : List Bytes := ((Split.segments lineFeed stream).map dropReturn).filter (fun line => line ≠ [])

section Lines
variable {σ ε : Type} (handler : LineHandler σ ε)

/-- The consumer after some lines, whether or not the handler threw on them. -/
def afterLines (consumer : σ) (lines : List Bytes) : σ := lines.foldl (fun consumer line => (handler consumer line).1) consumer

variable {handler}

theorem linesOf_append (stream more : Bytes) :
    linesOf (stream ++ more) = linesOf stream ++ linesOf (Split.leftover lineFeed stream ++ more) := by
  rw [linesOf, Split.segments_append, List.map_append, List.filter_append]
  rfl

theorem linesOf_append_cons {front rest : Bytes} (h : lineFeed ∉ front) :
    linesOf (front ++ lineFeed :: rest) = (if dropReturn front ≠ [] then [dropReturn front] else []) ++ linesOf rest := by
  rw [linesOf, Split.segments_append_cons h, List.map_cons, List.filter_cons]
  split_ifs with h₁ h₂ h₂
  · rfl
  · simp [h₂] at h₁
  · simp [h₂] at h₁
  · rfl

theorem findIdx?_of_notMem {text : Bytes} (h : lineFeed ∉ text) : text.findIdx? (fun c => c = lineFeed) = none := by
  rw [List.findIdx?_eq_none_iff]
  intro c hc
  exact decide_eq_false fun heq => h (heq ▸ hc)

theorem findIdx?_front {front rest : Bytes} (h : lineFeed ∉ front) :
    (front ++ lineFeed :: rest).findIdx? (fun c => c = lineFeed) = some front.length := by
  rw [List.findIdx?_append, findIdx?_of_notMem h, List.findIdx?_cons, decide_eq_true rfl]
  simp

/-- **The loop hands over the complete lines and leaves what follows the last line feed.** -/
theorem dispatchLoop_eq {buffer : Bytes} {turns : ℕ} (hturns : buffer.length ≤ turns) (consumer : σ) :
    dispatchLoop (some handler) turns consumer buffer =
      (afterLines handler consumer (linesOf buffer), Split.leftover lineFeed buffer) := by
  induction buffer using Split.segment_induction lineFeed generalizing turns consumer with
  | hlast last h =>
    rw [Split.leftover_of_notMem h, linesOf, Split.segments_of_notMem h]
    cases turns with
    | zero => rfl
    | succ turns => rw [dispatchLoop, findIdx?_of_notMem h]; rfl
  | hcut front rest h ih =>
    rw [List.length_append, List.length_cons] at hturns
    obtain ⟨turns, rfl⟩ : ∃ n, turns = n + 1 := ⟨turns - 1, by omega⟩
    have htake : (front ++ lineFeed :: rest).take front.length = front := List.take_left
    have hdrop : (front ++ lineFeed :: rest).drop (front.length + 1) = rest := by
      rw [← List.drop_drop, List.drop_left]
      rfl
    have hhanded : handOver (some handler) consumer (dropReturn front) =
        afterLines handler consumer (if dropReturn front ≠ [] then [dropReturn front] else []) := by
      unfold handOver
      dsimp only
      split_ifs <;> rfl
    rw [dispatchLoop, findIdx?_front h]
    dsimp only
    rw [htake, hdrop, ih (by omega), hhanded, linesOf_append_cons h, Split.leftover_append_cons h]
    simp only [afterLines, List.foldl_append]

theorem dispatchLines_eq (consumer : σ) (buffer : Bytes) : dispatchLines (some handler) consumer buffer =
    (afterLines handler consumer (linesOf buffer), Split.leftover lineFeed buffer) :=
  dispatchLoop_eq (le_refl _) consumer

/-! ## Chunks -/

/-- **One chunk** continues the stream. -/
theorem receive_step {start : σ} {stream chunk : Bytes} {r r' : Reception σ}
    (hconsumer : r.consumer = afterLines handler start (linesOf stream))
    (hreceived : r.received = Split.leftover lineFeed stream) (hstep : receive (some handler) r chunk = some r') :
    r'.consumer = afterLines handler start (linesOf (stream ++ chunk)) ∧
      r'.received = Split.leftover lineFeed (stream ++ chunk) := by
  unfold receive at hstep
  dsimp only at hstep
  split_ifs at hstep
  obtain rfl := Option.some.inj hstep
  rw [dispatchLines_eq, hconsumer, hreceived, linesOf_append stream chunk, Split.leftover_append stream chunk]
  refine ⟨?_, rfl⟩
  rw [afterLines, afterLines, afterLines, List.foldl_append]

/-- **The lines handed over are those of the stream, however it is cut into chunks**, and what is left in the buffer
is what follows its last line feed. -/
theorem receive_chunks {start : σ} {chunks : List Bytes} {r : Reception σ}
    (hrun : Machine.run (receive (some handler)) ⟨start, []⟩ chunks = some r) :
    r.consumer = afterLines handler start (linesOf chunks.flatten) ∧
      r.received = Split.leftover lineFeed chunks.flatten := by
  induction chunks using List.reverseRecOn generalizing r with
  | nil =>
    obtain rfl := Option.some.inj hrun
    exact ⟨rfl, rfl⟩
  | append_singleton chunks chunk ih =>
    obtain ⟨t, hfront, hlast⟩ := Machine.run_append.mp hrun
    obtain ⟨u, hstep, hu⟩ := Machine.run_cons.mp hlast
    obtain rfl := Option.some.inj hu
    rw [List.flatten_append, List.flatten_singleton]
    exact receive_step (ih hfront).1 (ih hfront).2 hstep

/-- A handler that logs its lines and throws on every one. -/
def throwing : LineHandler (List Bytes) Unit := fun log line => (log ++ [line], some ())

/-- Cuts inside a line, between carriage return and line feed, and with an empty line in one chunk. -/
theorem receive_chunks_throwing : ∃ r,
    Machine.run (receive (some throwing)) ⟨[], []⟩ [ascii "a", ascii "b\r", ascii "\n\nc\n\r\nd", ascii "e"] = some r ∧
      r.consumer = [ascii "ab", ascii "c"] ∧ r.received = ascii "de" := by
  obtain ⟨r, hrun⟩ : ∃ r, Machine.run (receive (some throwing)) ⟨[], []⟩
    [ascii "a", ascii "b\r", ascii "\n\nc\n\r\nd", ascii "e"] = some r := ⟨_, rfl⟩
  have hlines := receive_chunks hrun
  refine ⟨r, hrun, hlines.1.trans ?_, hlines.2.trans ?_⟩
  · decide +kernel
  · decide +kernel

end Lines

end AfsimNs3.Adapter
