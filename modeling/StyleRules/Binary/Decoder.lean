import StyleRules.Text.Utf8

/-!
# Binary records

The building blocks of a binary format in which nothing is named: numbers of a
fixed width with the least significant byte first, truth values and options by
one byte, texts and lists behind their length in eight bytes, and choices by
their number in four.

A decoder reads from the front and stops at the first fault.
-/

namespace StyleRules
namespace Binary

/-- What can be wrong with bytes. -/
inductive Fault where
  /-- The bytes end within a number, a truth value or an option. -/
  | endOfInput
  /-- A text is longer than what is left. -/
  | textTooLong
  /-- A truth value is neither zero nor one. -/
  | badBool (byte : UInt8)
  /-- The byte of an option is neither zero nor one. -/
  | badOption (byte : UInt8)
  /-- There is no choice with this number among the given count. -/
  | badChoice (number count : Nat)
  /-- The bytes of a text are not UTF-8. -/
  | badText (fault : Text.Utf8.Fault)
  deriving DecidableEq, Repr

/-- The wording of a fault. -/
def Fault.message : Fault -> String
  | endOfInput => "io error: unexpected end of file"
  | textTooLong => "io error: "
  | badBool byte =>
      "invalid u8 while decoding bool, expected 0 or 1, found " ++ toString byte.toNat
  | badOption byte => "tag for enum is not valid, found " ++ toString byte.toNat
  | badChoice number count =>
      "invalid value: integer `" ++ toString number ++
        "`, expected variant index 0 <= i < " ++ toString count
  | badText fault => "string is not valid utf8: " ++ fault.message

/-- Reads a value from the front of bytes. -/
abbrev Decoder := StateT (List UInt8) (Except Fault)

/-- The first byte. -/
def byte : Decoder UInt8
  | [] => .error .endOfInput
  | first :: rest => .ok (first, rest)

/-- A number of the given width in bytes, the least significant byte first. -/
def natural : Nat -> Decoder Nat
  | 0 => pure 0
  | width + 1 => do
      let low ← byte
      let high ← natural width
      return low.toNat + 256 * high

/-- A number of 32 bits. -/
def word : Decoder UInt32 := do
  return UInt32.ofNat (← natural 4)

/-- A truth value. -/
def bool : Decoder Bool := do
  let value ← byte
  if value = 0 then return false
  else if value = 1 then return true
  else throw (.badBool value)

/-- A value that may be absent. -/
def option (item : Decoder α) : Decoder (Option α) := do
  let value ← byte
  if value = 0 then return none
  else if value = 1 then return some (← item)
  else throw (.badOption value)

/-- The next bytes as a text. -/
def textOfSize (size : Nat) : Decoder String := fun bytes =>
  if bytes.length < size then .error .textTooLong
  else
    match Text.ofUtf8? (bytes.take size) with
    | some text => .ok (text, bytes.drop size)
    | none =>
        .error (.badText ((Text.Utf8.fault? (bytes.take size)).getD (.incomplete 0)))

/-- A text behind its length. -/
def text : Decoder String := do
  textOfSize (← natural 8)

/-- As many values as are asked for. -/
def times (item : Decoder α) : Nat -> Decoder (List α)
  | 0 => pure []
  | count + 1 => do
      let first ← item
      let others ← times item count
      return first :: others

/-- Values behind their number. -/
def list (item : Decoder α) : Decoder (List α) := do
  times item (← natural 8)

/-- A number of the given width in bytes, the least significant byte first. -/
def encodeNatural : Nat -> Nat -> List UInt8
  | 0, _ => []
  | width + 1, value => UInt8.ofNat value :: encodeNatural width (value / 256)

/-- A number of 32 bits. -/
def encodeWord (value : UInt32) : List UInt8 :=
  encodeNatural 4 value.toNat

/-- A truth value. -/
def encodeBool (value : Bool) : List UInt8 :=
  [if value then 1 else 0]

/-- A value that may be absent. -/
def encodeOption (encode : α -> List UInt8) : Option α -> List UInt8
  | none => [0]
  | some value => 1 :: encode value

/-- A text behind its length. -/
def encodeText (value : String) : List UInt8 :=
  encodeNatural 8 (Text.utf8Bytes value).length ++ Text.utf8Bytes value

/-- Values behind their number. -/
def encodeList (encode : α -> List UInt8) (values : List α) : List UInt8 :=
  encodeNatural 8 values.length ++ values.flatMap encode

end Binary
end StyleRules
