/-!
# Positions in a text

A position counts the bytes of UTF-8 before it, its line and its column; lines
and columns count from one, and a column is a number of characters.  A slice of
a text is named by two byte offsets and exists when both fall between
characters.
-/

namespace StyleRules
namespace Text

/-- A place between two characters of a text. -/
structure Position where
  /-- The number of bytes before the position. -/
  offset : Nat
  /-- One more than the number of newlines before the position. -/
  line : Nat
  /-- One more than the number of characters since the last newline. -/
  column : Nat
  deriving DecidableEq, Repr

namespace Position

/-- The position before the first character of a text. -/
def start : Position :=
  ⟨0, 1, 1⟩

/-- The position after one more character. -/
def advance (position : Position) (c : Char) : Position :=
  if c = '\n' then
    ⟨position.offset + c.utf8Size, position.line + 1, 1⟩
  else
    ⟨position.offset + c.utf8Size, position.line, position.column + 1⟩

/-- The position after several more characters. -/
def advanceAll (position : Position) (cs : List Char) : Position :=
  cs.foldl advance position

@[simp]
theorem advanceAll_nil (position : Position) :
    position.advanceAll [] = position :=
  rfl

@[simp]
theorem advanceAll_cons
    (position : Position)
    (c : Char)
    (cs : List Char) :
    position.advanceAll (c :: cs) = (position.advance c).advanceAll cs :=
  rfl

@[simp]
theorem advanceAll_append
    (position : Position)
    (cs more : List Char) :
    position.advanceAll (cs ++ more) = (position.advanceAll cs).advanceAll more := by
  simp [advanceAll]

end Position

/-- The number of bytes of the characters in UTF-8. -/
def byteSize : List Char -> Nat
  | [] => 0
  | c :: cs => c.utf8Size + byteSize cs

@[simp]
theorem byteSize_nil :
    byteSize [] = 0 :=
  rfl

@[simp]
theorem byteSize_cons (c : Char) (cs : List Char) :
    byteSize (c :: cs) = c.utf8Size + byteSize cs :=
  rfl

@[simp]
theorem byteSize_append (cs more : List Char) :
    byteSize (cs ++ more) = byteSize cs + byteSize more := by
  induction cs with
  | nil => simp
  | cons c cs inductionHypothesis =>
      rw [List.cons_append, byteSize_cons, byteSize_cons, inductionHypothesis, Nat.add_assoc]

/-- The characters split after the given number of bytes, if that falls between
two of them. -/
def splitBytes? : Nat -> List Char -> Option (List Char × List Char)
  | 0, cs => some ([], cs)
  | _ + 1, [] => none
  | count + 1, c :: cs =>
      if c.utf8Size ≤ count + 1 then
        (splitBytes? (count + 1 - c.utf8Size) cs).map fun (taken, rest) => (c :: taken, rest)
      else
        none

/-- Splitting after the bytes of a leading part splits off that part. -/
theorem splitBytes?_append (cs rest : List Char) :
    splitBytes? (byteSize cs) (cs ++ rest) = some (cs, rest) := by
  induction cs with
  | nil => simp [splitBytes?]
  | cons c cs inductionHypothesis =>
      have sizePos : 0 < c.utf8Size := c.utf8Size_pos
      obtain ⟨count, countEquality⟩ :
          ∃ count, byteSize (c :: cs) = count + 1 := ⟨byteSize (c :: cs) - 1, by
        simp only [byteSize_cons]
        omega⟩
      rw [countEquality, List.cons_append, splitBytes?]
      simp only [byteSize_cons] at countEquality
      rw [if_pos (by omega)]
      rw [show count + 1 - c.utf8Size = byteSize cs by omega, inductionHypothesis]
      rfl

/-- The part of a text between two byte offsets, if both fall between
characters and are in order. -/
def slice? (text : String) (start stop : Nat) : Option String := do
  let (_, fromStart) ← splitBytes? start text.toList
  if start ≤ stop then
    let (part, _) ← splitBytes? (stop - start) fromStart
    some (String.ofList part)
  else
    none

end Text
end StyleRules
