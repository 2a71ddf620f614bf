import StyleRules.Json.Basic

/-!
# Printing JSON

JSON text on several lines: two spaces of indentation for each level, a colon
and a space after a name, and nothing between the brackets of an empty array or
object.  Strings escape quotes, backslashes and the control characters below
the space, and nothing else.
-/

namespace StyleRules
namespace Json

/-- The double quote. -/
def quote : Char := '\x22'

/-- The backslash. -/
def backslash : Char := '\x5c'

/-- The opening brace. -/
def openBrace : Char := '\x7b'

/-- The closing brace. -/
def closeBrace : Char := '\x7d'

/-- The hexadecimal digit of a value below sixteen, in lower case. -/
def hexDigit (value : Nat) : Char :=
  Nat.digitChar value

/-- The spelling of a character in a string. -/
def escape (c : Char) : List Char :=
  if c = quote then [backslash, quote]
  else if c = backslash then [backslash, backslash]
  else if c = '\x08' then [backslash, 'b']
  else if c = '\x09' then [backslash, 't']
  else if c = '\x0a' then [backslash, 'n']
  else if c = '\x0c' then [backslash, 'f']
  else if c = '\x0d' then [backslash, 'r']
  else if c.toNat < 0x20 then
    [backslash, 'u', '0', '0', hexDigit (c.toNat / 16), hexDigit (c.toNat % 16)]
  else [c]

/-- The literal of a string.  A string without a text is spelled by half of a
surrogate pair. -/
def stringLiteral : Option String -> List Char
  | some text => quote :: text.toList.flatMap escape ++ [quote]
  | none => [quote, backslash, 'u', 'd', '8', '0', '0', quote]

/-- The literal of a number. -/
def numberLiteral : JsonNumber -> List Char
  | .natural value => Nat.toDigits 10 value
  | .decimal negative digits exponent =>
      (if negative then ['-'] else []) ++ Nat.toDigits 10 digits ++ ['e'] ++
        (if exponent < 0 then ['-'] else []) ++ Nat.toDigits 10 exponent.natAbs

/-- The beginning of a line at a level. -/
def newline (level : Nat) : List Char :=
  '\n' :: List.replicate (2 * level) ' '

mutual

/-- The text of a value at a level. -/
def layout (level : Nat) : Json -> List Char
  | .null => ['n', 'u', 'l', 'l']
  | .bool true => ['t', 'r', 'u', 'e']
  | .bool false => ['f', 'a', 'l', 's', 'e']
  | .number value => numberLiteral value
  | .string text => stringLiteral text
  | .array [] => ['[', ']']
  | .array (item :: items) =>
      '[' :: newline (level + 1) ++ layout (level + 1) item ++
        layoutItems (level + 1) items ++ newline level ++ [']']
  | .object [] => [openBrace, closeBrace]
  | .object ((name, value) :: members) =>
      openBrace :: newline (level + 1) ++ stringLiteral name ++ ':' :: ' ' ::
        layout (level + 1) value ++ layoutMembers (level + 1) members ++
        newline level ++ [closeBrace]

/-- The text of the values behind the first one. -/
def layoutItems (level : Nat) : List Json -> List Char
  | [] => []
  | item :: items => ',' :: newline level ++ layout level item ++ layoutItems level items

/-- The text of the members behind the first one. -/
def layoutMembers (level : Nat) : List (Option String × Json) -> List Char
  | [] => []
  | (name, value) :: members =>
      ',' :: newline level ++ stringLiteral name ++ ':' :: ' ' :: layout level value ++
        layoutMembers level members

end

/-- The text of a value. -/
def print (value : Json) : String :=
  String.ofList (layout 0 value)

end Json
end StyleRules
