/-!
# Faults in UTF-8

Where a sequence of bytes stops being UTF-8.  A fault is at the first byte of
the first sequence that is not well-formed.  Its length is that of the longest
part that begins a well-formed sequence, and at least one; a part that the end
of the bytes cuts short is incomplete.
-/

namespace StyleRules
namespace Text
namespace Utf8

/-- A place at which bytes stop being UTF-8. -/
inductive Fault where
  | invalid (length : Nat) (index : Nat)
  | incomplete (index : Nat)
  deriving DecidableEq, Repr

/-- The wording of a fault. -/
def Fault.message : Fault -> String
  | invalid length index =>
      "invalid utf-8 sequence of " ++ toString length ++ " bytes from index " ++ toString index
  | incomplete index =>
      "incomplete utf-8 byte sequence from index " ++ toString index

/-- The ranges for the bytes that follow a first byte, if it can begin a
character. -/
def following? (first : Nat) : Option (List (Nat × Nat)) :=
  if first ≤ 0x7F then some []
  else if first < 0xC2 then none
  else if first ≤ 0xDF then some [(0x80, 0xBF)]
  else if first = 0xE0 then some [(0xA0, 0xBF), (0x80, 0xBF)]
  else if first = 0xED then some [(0x80, 0x9F), (0x80, 0xBF)]
  else if first ≤ 0xEF then some [(0x80, 0xBF), (0x80, 0xBF)]
  else if first = 0xF0 then some [(0x90, 0xBF), (0x80, 0xBF), (0x80, 0xBF)]
  else if first ≤ 0xF3 then some [(0x80, 0xBF), (0x80, 0xBF), (0x80, 0xBF)]
  else if first = 0xF4 then some [(0x80, 0x8F), (0x80, 0xBF), (0x80, 0xBF)]
  else none

/-- The first fault of bytes that begin at an index, inside a character that
began at `start` and lacks the given ranges. -/
def faultFrom? (start : Nat) : List (Nat × Nat) -> Nat -> List UInt8 -> Option Fault
  | [], _, [] => none
  | _ :: _, _, [] => some (.incomplete start)
  | [], index, byte :: bytes =>
      match following? byte.toNat with
      | none => some (.invalid 1 index)
      | some ranges => faultFrom? index ranges (index + 1) bytes
  | (least, greatest) :: ranges, index, byte :: bytes =>
      if least ≤ byte.toNat ∧ byte.toNat ≤ greatest then
        faultFrom? start ranges (index + 1) bytes
      else
        some (.invalid (index - start) start)

/-- The first fault of bytes. -/
def fault? (bytes : List UInt8) : Option Fault :=
  faultFrom? 0 [] 0 bytes

end Utf8

/-- The bytes of a text in UTF-8. -/
def utf8Bytes (text : String) : List UInt8 :=
  text.toUTF8.data.toList

/-- The text of bytes in UTF-8. -/
def ofUtf8? (bytes : List UInt8) : Option String :=
  String.fromUTF8? ⟨bytes.toArray⟩

/-- A text is read back from its bytes. -/
@[simp]
theorem ofUtf8?_utf8Bytes (text : String) :
    ofUtf8? (utf8Bytes text) = some text := by
  have valid := text.isValidUTF8
  simp only [ofUtf8?, utf8Bytes, Array.toArray_toList, String.fromUTF8?]
  exact dif_pos valid

/-- Bytes that are read as a text are the bytes of that text. -/
theorem utf8Bytes_of_ofUtf8?
    {bytes : List UInt8}
    {text : String}
    (read : ofUtf8? bytes = some text) :
    utf8Bytes text = bytes := by
  unfold ofUtf8? String.fromUTF8? at read
  split at read
  · cases read
    rfl
  · cases read

end Text
end StyleRules
