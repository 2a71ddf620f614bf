import StyleRules.Token.Lexeme

/-!
# The tokens of a text

The tokens of a text are its lexemes, each with its place, followed by one token
for the end of the input.
-/

namespace StyleRules
namespace Token

/-- The token of a lexeme that begins at a position. -/
def ofLexeme (position : Text.Position) (lexeme : Lexeme) : Token where
  kind := lexeme.kind
  value := String.ofList lexeme.value
  span := {
    start := position.offset
    stop := (position.advanceAll lexeme.text).offset
    line := position.line
    column := position.column }

/-- The token for the end of the input at a position. -/
def endAt (position : Text.Position) : Token where
  kind := .endOfInput
  value := ""
  span := {
    start := position.offset
    stop := position.offset
    line := position.line
    column := position.column }

/-- The tokens of lexemes that begin at a position, closed by the end of the
input. -/
def place : Text.Position -> List Lexeme -> List Token
  | position, [] => [endAt position]
  | position, lexeme :: lexemes =>
      ofLexeme position lexeme :: place (position.advanceAll lexeme.text) lexemes

@[simp]
theorem place_nil (position : Text.Position) :
    place position [] = [endAt position] :=
  rfl

@[simp]
theorem place_cons
    (position : Text.Position)
    (lexeme : Lexeme)
    (lexemes : List Lexeme) :
    place position (lexeme :: lexemes) =
      ofLexeme position lexeme :: place (position.advanceAll lexeme.text) lexemes :=
  rfl

/-- The tokens of a text, closed by the end of the input. -/
def tokenize (source : String) : List Token :=
  place .start (Lexeme.lexemes source.toList)

/-- The first `count` tokens of a sequence, the last one again and again once
the others are used up. -/
def readMany : Nat -> List Token -> List Token
  | 0, _ => []
  | _ + 1, [] => []
  | count + 1, [last] => last :: readMany count [last]
  | count + 1, token :: next :: rest => token :: readMany count (next :: rest)

end Token
end StyleRules
