/-!
# Lines

The lines of a text end at newlines; one carriage return directly before a
newline belongs to the end of its line.  Text behind the last newline is a line
too, unless it is empty.
-/

namespace StyleRules
namespace Text

/-- The lines of a text, without their ends. -/
def lines : List Char -> List (List Char)
  | [] => []
  | '\n' :: rest => [] :: lines rest
  | '\r' :: '\n' :: rest => [] :: lines rest
  | c :: rest =>
      match lines rest with
      | [] => [[c]]
      | line :: others => (c :: line) :: others

@[simp]
theorem lines_nil :
    lines [] = [] := by
  rw [lines]

@[simp]
theorem lines_newline (rest : List Char) :
    lines ('\n' :: rest) = [] :: lines rest := by
  rw [lines]

end Text
end StyleRules
