import StyleRules.Token.Tokenize

/-!
# Cursors

A cursor stands before one token of a sequence that is closed by the end of the
input.  It keeps the tokens that are still ahead and the closing token apart, so
that there is a current token wherever it stands.  Moving on from a token that
marks the end of the input leaves the cursor where it is; a sequence given by
hand may hold such a token in its middle.
-/

namespace StyleRules

/-- A place before a token. -/
structure Cursor where
  /-- The tokens that are still to be read, without the closing one. -/
  ahead : List Token
  /-- The token that closes the sequence. -/
  stop : Token
  /-- The sequence is closed by the end of the input. -/
  stop_kind : stop.kind = .endOfInput

namespace Cursor

/-- The token for the end of the input behind a sequence of tokens: where the
last of them stops, on its line, as many columns further as its value has
characters. -/
def endAfter : Option Token -> Token
  | none => Token.endAt .start
  | some last => {
      kind := .endOfInput
      value := ""
      span := {
        start := last.span.stop
        stop := last.span.stop
        line := last.span.line
        column := last.span.column + last.value.length } }

@[simp]
theorem kind_endAfter (last : Option Token) :
    (endAfter last).kind = .endOfInput := by
  cases last <;> rfl

/-- The cursor before the first of the given tokens.  A sequence that lacks the
end of the input is closed by it. -/
def ofTokens (tokens : List Token) : Cursor :=
  match tokens.getLast? with
  | none => ⟨tokens, endAfter none, kind_endAfter none⟩
  | some last =>
      if isEnd : last.kind = .endOfInput then
        ⟨tokens.dropLast, last, isEnd⟩
      else
        ⟨tokens, endAfter last, kind_endAfter last⟩

/-- The cursor before the first token of a text. -/
def ofSource (source : String) : Cursor :=
  ofTokens (Token.tokenize source)

/-- The current token and all that follow it. -/
def remaining (cursor : Cursor) : List Token :=
  cursor.ahead ++ [cursor.stop]

/-- The token that the cursor stands before. -/
def current (cursor : Cursor) : Token :=
  cursor.ahead.head?.getD cursor.stop

/-- The kind of the current token. -/
def kind (cursor : Cursor) : TokenKind :=
  cursor.current.kind

/-- The kind of the token some places ahead.  Behind the closing token there is
only the end of the input. -/
def kindAt (cursor : Cursor) (places : Nat) : TokenKind :=
  match cursor.remaining[places]? with
  | some token => token.kind
  | none => .endOfInput

/-- The cursor behind the current token; the same cursor at an end of the
input. -/
def advance (cursor : Cursor) : Cursor :=
  match cursor.ahead with
  | [] => cursor
  | token :: rest =>
      if token.kind = .endOfInput then cursor else { cursor with ahead := rest }

/-- The current token is the first of those that remain. -/
theorem remaining_head? (cursor : Cursor) :
    cursor.remaining.head? = some cursor.current := by
  unfold remaining current
  cases cursor.ahead <;> rfl

/-- The kind at no distance is the kind of the current token. -/
@[simp]
theorem kindAt_zero (cursor : Cursor) :
    cursor.kindAt 0 = cursor.kind := by
  unfold kindAt kind remaining current
  cases cursor.ahead <;> rfl

/-- Moving on keeps the closing token. -/
@[simp]
theorem stop_advance (cursor : Cursor) :
    cursor.advance.stop = cursor.stop := by
  unfold advance
  split
  · rfl
  · split <;> rfl

/-- At an end of the input the cursor stays. -/
theorem advance_of_kind_eq
    {cursor : Cursor}
    (atEnd : cursor.kind = .endOfInput) :
    cursor.advance = cursor := by
  unfold kind current at atEnd
  unfold advance
  split
  · rfl
  · rename_i token rest aheadEquality
    rw [aheadEquality] at atEnd
    rw [if_pos (by simpa using atEnd)]

/-- Before any other token the cursor leaves that token behind. -/
theorem ahead_eq_of_kind_ne
    {cursor : Cursor}
    (notAtEnd : cursor.kind ≠ .endOfInput) :
    cursor.ahead = cursor.current :: cursor.advance.ahead := by
  unfold kind current at notAtEnd
  unfold current advance
  split
  · rename_i aheadEquality
    rw [aheadEquality] at notAtEnd
    exact absurd cursor.stop_kind notAtEnd
  · rename_i token rest aheadEquality
    rw [aheadEquality] at notAtEnd
    rw [if_neg (by simpa using notAtEnd), aheadEquality]
    rfl

end Cursor
end StyleRules
