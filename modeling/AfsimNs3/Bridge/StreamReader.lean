import AfsimNs3.Bridge.Handler

/-!
# The octets of a client (`StreamReader.readline`)

The handler reads lines off the octets of its connection, which end with the input or with an error of the
connection. A line comes with its line feed; what follows the last line feed is a line as well; after that the empty
line stands for the end of the input. A line longer than `limit` raises.
-/

namespace AfsimNs3.Bridge

/-- The `limit` of the server's reader. -/
def readerLimit : ℕ := maxJsonlBytes + 1

/-- The next line and the octets behind it, or the `ValueError` of a long line. -/
def readline (unread : Bytes) : Option (Bytes × Bytes) :=
  match unread.findIdx? (fun c => c = 10) with
  | some i => if readerLimit < i then none else some (unread.take (i + 1), unread.drop (i + 1))
  | none => if readerLimit < unread.length then none else some (unread, [])

/-- A line feed ends the line. -/
theorem readline_line {line rest : Bytes} (hline : (10 : UInt8) ∉ line) (hlimit : line.length ≤ readerLimit) :
    readline (line ++ 10 :: rest) = some (line ++ [10], rest) := by
  have hnone : line.findIdx? (fun c => c = 10) = none := by
    rw [List.findIdx?_eq_none_iff]
    intro c hc
    exact decide_eq_false fun heq => hline (heq ▸ hc)
  have hfind : (line ++ 10 :: rest).findIdx? (fun c => c = 10) = some line.length := by
    rw [List.findIdx?_append, hnone, List.findIdx?_cons, decide_eq_true rfl]
    simp
  have hsplit : line ++ 10 :: rest = (line ++ [10]) ++ rest := by simp
  have hlength : line.length + 1 = (line ++ [10]).length := by simp
  rw [readline, hfind]
  dsimp only
  rw [if_neg (by omega), hsplit, hlength, List.take_left, List.drop_left]

/-- The end of the input ends the last line. -/
theorem readline_last {line : Bytes} (hline : (10 : UInt8) ∉ line) (hlimit : line.length ≤ readerLimit) :
    readline line = some (line, []) := by
  have hnone : line.findIdx? (fun c => c = 10) = none := by
    rw [List.findIdx?_eq_none_iff]
    intro c hc
    exact decide_eq_false fun heq => hline (heq ▸ hc)
  rw [readline, hnone]
  dsimp only
  rw [if_neg (by omega)]

/-- A connection and the octets of it that are not read yet. -/
structure Wire (δ : Type) where
  connection : Connection δ
  unread : Bytes

namespace Wire

section
variable {δ : Type}

inductive Action where
  /-- `readline` returns or raises. -/
  | read
  /-- Reading or `drain` raises a `ConnectionError`, which ends the handler. -/
  | reset
  /-- Something else happens in the service. -/
  | other (action : Server.Action)

variable [DecidableEq δ] (py : Interpreter) (floatText : ℚ → Bytes) (digestOf : Json → Except PyError δ)

def step (w : Wire δ) : Action → Option (Wire δ)
  | .read =>
    match readline w.unread with
    | some (line, rest) => (w.connection.step py floatText digestOf (.line line)).map (fun c => ⟨c, rest⟩)
    | none => (w.connection.step py floatText digestOf .overrun).map (fun c => ⟨c, []⟩)
  | .reset => if w.connection.isOpen then some ⟨w.connection.close, []⟩ else none
  | .other action => (w.connection.step py floatText digestOf (.other action)).map (fun c => ⟨c, w.unread⟩)

end

end Wire

end AfsimNs3.Bridge
