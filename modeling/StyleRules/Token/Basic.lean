import StyleRules.Text.Position

/-!
# Tokens

The words of the rule language.  A token knows its kind, its value and where it
stands in its source.  Blank runs are tokens too, since the path grammar spells
its descendant sign with them, and input that begins no word is a token of the
kind `unrecognised`, so that reading tokens never fails.
-/

namespace StyleRules

/-- The kinds of tokens. -/
inductive TokenKind where
  | identifier
  | className
  | quoted
  | integer
  | colon
  | equals
  | bang
  | bar
  | greaterThan
  | openBracket
  | closeBracket
  | openParen
  | closeParen
  | arrow
  | blank
  | unrecognised
  | endOfInput
  deriving DecidableEq, Repr

namespace TokenKind

/-- The name of a kind in messages. -/
def describe : TokenKind -> String
  | identifier => "identifier"
  | className => "class name"
  | quoted => "string"
  | integer => "integer"
  | colon => "':'"
  | equals => "'='"
  | bang => "'!'"
  | bar => "'|'"
  | greaterThan => "'>'"
  | openBracket => "'['"
  | closeBracket => "']'"
  | openParen => "'('"
  | closeParen => "')'"
  | arrow => "'->'"
  | blank => "whitespace"
  | unrecognised => "unrecognised input"
  | endOfInput => "end of input"

end TokenKind

/-- Where a token stands: the byte offsets of its two ends, and the line and the
column of its first character. -/
structure Span where
  start : Nat
  stop : Nat
  line : Nat
  column : Nat
  deriving DecidableEq, Repr

/-- A token.  The value of a class name lacks the leading dot, and the value of
a quoted string keeps its quotes. -/
structure Token where
  kind : TokenKind
  value : String
  span : Span
  deriving DecidableEq, Repr

namespace Token

/-- The wording of a token in messages. -/
def describe (token : Token) : String :=
  match token.kind with
  | .identifier => "identifier '" ++ token.value ++ "'"
  | .className => "class name '." ++ token.value ++ "'"
  | .quoted => "string " ++ token.value
  | .integer => "integer " ++ token.value
  | .unrecognised => "unrecognised input '" ++ token.value ++ "'"
  | .blank | .endOfInput => token.kind.describe
  | _ => "'" ++ token.value ++ "'"

/-- The part of the source that the token was read from. -/
def sourceText? (token : Token) (source : String) : Option String :=
  Text.slice? source token.span.start token.span.stop

end Token
end StyleRules
