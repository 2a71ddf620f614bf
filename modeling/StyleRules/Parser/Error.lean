import StyleRules.Token.Basic

/-!
# Parse errors

A parse error is a fault together with the token at which it was found.  The
wording of every fault is in `ParseFault.text`.
-/

namespace StyleRules

/-- What can be wrong with a rule. -/
inductive ParseFault where
  /-- Another token was due. -/
  | expected (what : String)
  /-- The first word of a selector names no element. -/
  | unknownElement
  /-- The word after the colon names no type of list. -/
  | unknownListType
  /-- A list level is zero, but levels are written from one. -/
  | levelZero
  /-- A list level does not fit 32 bits. -/
  | levelTooLarge
  deriving DecidableEq, Repr

/-- A fault and the token at which it was found. -/
structure ParseError where
  fault : ParseFault
  token : Token
  deriving DecidableEq, Repr

namespace ParseError

/-- The wording of the error without its place. -/
def text (error : ParseError) : String :=
  match error.fault with
  | .expected what => "Expected " ++ what ++ ", got " ++ error.token.describe
  | .unknownElement => "Unrecognised document element: " ++ error.token.describe
  | .unknownListType => "Unrecognised list type: " ++ error.token.describe
  | .levelZero => "List level must be at least 1"
  | .levelTooLarge => "List level is out of range: " ++ error.token.value

/-- The wording of the error with its place. -/
def message (error : ParseError) : String :=
  error.text ++ " (line " ++ toString error.token.span.line ++
    ", column " ++ toString error.token.span.column ++ ")"

/-- The same error on another line.  The byte offsets and the column stay those
within the line. -/
def atLine (error : ParseError) (line : Nat) : ParseError :=
  { error with token.span.line := line }

end ParseError
end StyleRules
