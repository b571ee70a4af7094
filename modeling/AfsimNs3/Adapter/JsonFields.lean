import AfsimNs3.Lib.Ctype
import AfsimNs3.Lib.Double
import AfsimNs3.Lib.Except

/-!
# Reading fields out of a JSON text

The helpers `MessageTransportGate.cpp` and `NetworkEffectGate.cpp` share. They do not parse: `ValueStart` searches the
octets for the quoted key and then for a colon, wherever these are. `std::stod` is a parameter.
-/

namespace AfsimNs3.Adapter

/-- The first position at which `needle` starts. -/
def indexOf (needle : Bytes) : Bytes → Option ℕ
  | [] => if needle = [] then some 0 else none
  | c :: rest => if needle.isPrefixOf (c :: rest) then some 0 else (indexOf needle rest).map (· + 1)

/-- `json.find(needle, begin)`. -/
def find (json needle : Bytes) (begin : ℕ) : Option ℕ := (indexOf needle (json.drop begin)).map (begin + ·)

/-- The key in quotes. -/
def needleOf (key : Bytes) : Bytes := 34 :: key ++ [34]

/-- The first position from `position` on that holds no white space. -/
def skipSpaces (json : Bytes) (position : ℕ) : ℕ := position + ((json.drop position).takeWhile isSpace).length

/-- `ValueStart`. -/
def valueStart (json key : Bytes) : Except Bytes ℕ :=
  match find json (needleOf key) 0 with
  | none => .error (ascii "missing JSON field: " ++ key)
  | some keyPosition =>
    match find json [58] (keyPosition + (needleOf key).length) with
    | none => .error (ascii "invalid JSON field: " ++ key)
    | some colon => .ok (skipSpaces json (colon + 1))

/-- The character an escape stands for. -/
def unescapeChar (c : UInt8) : Option UInt8 :=
  if c = 34 ∨ c = 92 ∨ c = 47 then some c
  else if c = 98 then some 8
  else if c = 102 then some 12
  else if c = 110 then some 10
  else if c = 114 then some 13
  else if c = 116 then some 9
  else none

/-- The loop of `JsonString`, after the opening quote. -/
def unquote : Bytes → Except Bytes Bytes
  | [] => .error (ascii "unterminated JSON string")
  | [c] => if c = 34 then .ok [] else .error (ascii "unterminated JSON string")
  | c :: escaped :: rest =>
    if c = 34 then .ok []
    else if c ≠ 92 then (unquote (escaped :: rest)).map (c :: ·)
    else
      match unescapeChar escaped with
      | some d => (unquote rest).map (d :: ·)
      | none => .error (ascii "unsupported JSON string escape")

/-- `JsonString`. -/
def jsonString (json key : Bytes) : Except Bytes Bytes := do
  let position ← valueStart json key
  match json.drop position with
  | 34 :: rest => unquote rest
  | _ => .error (ascii "JSON field is not a string: " ++ key)

/-- `std::numeric_limits<std::uint64_t>::max()`. -/
def uint64Max : UInt64 := 18446744073709551615

/-- `static_cast<unsigned int>(c - '0')` of a digit. -/
def digitOf (c : UInt8) : UInt64 := (c - 48).toUInt64

/-- The loop of `JsonUint64`, in the arithmetic of `std::uint64_t`. -/
def uint64Digits (value : UInt64) : Bytes → Except Bytes UInt64
  | [] => .ok value
  | c :: rest =>
    if isDigit c then
      if (uint64Max - digitOf c) / 10 < value then .error (ascii "JSON integer exceeds uint64 range")
      else uint64Digits (value * 10 + digitOf c) rest
    else .ok value

/-- `JsonUint64`. -/
def jsonUint64 (json key : Bytes) : Except Bytes UInt64 := do
  let position ← valueStart json key
  match json.drop position with
  | [] => .error (ascii "JSON field is not an unsigned integer: " ++ key)
  | c :: rest =>
    if isDigit c then uint64Digits 0 (c :: rest)
    else .error (ascii "JSON field is not an unsigned integer: " ++ key)

/-- The result of `JsonDouble` on the value `std::stod` reads. -/
def finiteOr (key : Bytes) : Double → Except Bytes ℚ
  | .finite q => .ok q
  | _ => .error (ascii "JSON field is not a finite number: " ++ key)

/-- `JsonDouble`. -/
def jsonDouble (stod : Bytes → Except Bytes Double) (json key : Bytes) : Except Bytes ℚ := do
  let begin ← valueStart json key
  let value ← stod (json.drop begin)
  finiteOr key value

/-- `JsonBool`. -/
def jsonBool (json key : Bytes) : Except Bytes Bool := do
  let position ← valueStart json key
  if (json.drop position).take 4 = ascii "true" then .ok true
  else if (json.drop position).take 5 = ascii "false" then .ok false
  else .error (ascii "JSON field is not boolean: " ++ key)

/-- The loop of `MatchingEnd` on the octets from `position` on. -/
def scanEnd (opening closing : UInt8) (position : ℕ) (depth : ℤ) (inString escaped : Bool) : Bytes → Except Bytes ℕ
  | [] => .error (ascii "unterminated JSON container")
  | c :: rest =>
    if inString then
      if escaped then scanEnd opening closing (position + 1) depth true false rest
      else if c = 92 then scanEnd opening closing (position + 1) depth true true rest
      else if c = 34 then scanEnd opening closing (position + 1) depth false false rest
      else scanEnd opening closing (position + 1) depth true false rest
    else if c = 34 then scanEnd opening closing (position + 1) depth true escaped rest
    else if c = opening then scanEnd opening closing (position + 1) (depth + 1) false escaped rest
    else if c = closing then
      if depth - 1 = 0 then .ok position else scanEnd opening closing (position + 1) (depth - 1) false escaped rest
    else scanEnd opening closing (position + 1) depth false escaped rest

/-- `MatchingEnd`. -/
def matchingEnd (json : Bytes) (begin : ℕ) (opening closing : UInt8) : Except Bytes ℕ :=
  scanEnd opening closing begin 0 false false (json.drop begin)

/-- The octets the inner loop of `ObjectArray` skips. -/
def isGap (c : UInt8) : Bool := isSpace c || c = 44

/-- The loop of `ObjectArray`. Every turn takes at least one octet, so `fuel` turns are enough. -/
def objectsFrom (json key : Bytes) (arrayEnd : ℕ) : ℕ → ℕ → Except Bytes (List Bytes)
  | 0, _ => .ok []
  | fuel + 1, position =>
    if arrayEnd ≤ position then .ok []
    else
      let position := position + (((json.drop position).take (arrayEnd - position)).takeWhile isGap).length
      if position = arrayEnd then .ok []
      else if json[position]? ≠ some 123 then .error (key ++ ascii " entries must be objects")
      else do
        let objectEnd ← matchingEnd json position 123 125
        let objects ← objectsFrom json key arrayEnd fuel (objectEnd + 1)
        pure ((json.drop position).take (objectEnd - position + 1) :: objects)

/-- `ObjectArray`. -/
def objectArray (json key : Bytes) : Except Bytes (List Bytes) := do
  let position ← valueStart json key
  if json[position]? ≠ some 91 then .error (key ++ ascii " must be a JSON array")
  else do
    let arrayEnd ← matchingEnd json position 91 93
    objectsFrom json key arrayEnd json.length (position + 1)

end AfsimNs3.Adapter
