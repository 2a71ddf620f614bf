import StyleRules.Parser.Error
import StyleRules.Token.Cursor

/-!
# Parsers

A parser moves a cursor and answers a value or an error.  A parser that fails
leaves the cursor where it stopped; it does not go back.

`many` repeats a parser as long as a test of the cursor holds.  Its bound on the
number of rounds never shows when each round moves the cursor
(`many_eq_of_progress`).
-/

namespace StyleRules

/-- A computation that moves a cursor and may fail. -/
abbrev Parser := EStateM ParseError Cursor

namespace Parser

/-- The current token. -/
def current : Parser Token :=
  fun cursor => .ok cursor.current cursor

/-- The kind of the current token. -/
def kind : Parser TokenKind :=
  fun cursor => .ok cursor.kind cursor

/-- Moves on from the current token and answers it. -/
def advance : Parser Token :=
  fun cursor => .ok cursor.current cursor.advance

/-- The error that something else was due at the cursor. -/
def unexpected (what : String) (cursor : Cursor) : ParseError :=
  ⟨.expected what, cursor.current⟩

/-- Fails at the current token since something else was due. -/
def failExpecting (what : String) : Parser α :=
  fun cursor => .error (unexpected what cursor) cursor

/-- Fails at a token that was read before. -/
def failAt (token : Token) (fault : ParseFault) : Parser α :=
  fun cursor => .error ⟨fault, token⟩ cursor

/-- Moves on from a token of the given kind. -/
def expect (kind : TokenKind) : Parser Token := do
  if (← Parser.kind) = kind then advance else failExpecting kind.describe

/-- Moves on from a token of the given kind and answers its value. -/
def expectValue (kind : TokenKind) : Parser String := do
  return (← expect kind).value

/-- Moves on from a token of the given kind and value. -/
def expectLiteral (kind : TokenKind) (value : String) : Parser Unit := do
  let token ← current
  if token.kind = kind ∧ token.value = value then
    let _ ← advance
  else
    failExpecting (kind.describe ++ " '" ++ value ++ "'")

/-- Moves on from a blank run, if there is one. -/
def skipBlank : Parser Unit := do
  if (← kind) = .blank then
    let _ ← advance

/-- Succeeds at the end of the input. -/
def expectEnd : Parser Unit := do
  let _ ← expect .endOfInput

/-- The answer of a parser that starts before the first token of a text. -/
def runOn (source : String) (parser : Parser α) : Except ParseError α :=
  match parser (Cursor.ofSource source) with
  | .ok value _ => .ok value
  | .error error _ => .error error

/-- Repeats a parser while a test of the cursor holds, at most `bound` times. -/
def repeatWhile (test : Cursor -> Bool) (item : Parser α) : Nat -> Parser (List α)
  | 0 => pure []
  | bound + 1 => do
      if test (← get) then
        let first ← item
        let others ← repeatWhile test item bound
        return first :: others
      else
        return []

/-- Repeats a parser while a test of the cursor holds. -/
def many (test : Cursor -> Bool) (item : Parser α) : Parser (List α) := do
  repeatWhile test item ((← get).ahead.length + 1)

/-- Where the test holds and the parser succeeds, it moves the cursor. -/
def Progresses (test : Cursor -> Bool) (item : Parser α) : Prop :=
  ∀ cursor value after,
    test cursor = true -> item cursor = .ok value after ->
      after.ahead.length < cursor.ahead.length

/-- Puts a value before the values that another result answers. -/
def consResult (first : α) :
    EStateM.Result ParseError Cursor (List α) ->
      EStateM.Result ParseError Cursor (List α)
  | .ok others after => .ok (first :: others) after
  | .error error after => .error error after

/-- One round of a repetition. -/
theorem repeatWhile_succ
    (test : Cursor -> Bool)
    (item : Parser α)
    (bound : Nat)
    (cursor : Cursor) :
    repeatWhile test item (bound + 1) cursor =
      if test cursor = true then
        match item cursor with
        | .ok first after => consResult first (repeatWhile test item bound after)
        | .error error after => .error error after
      else
        .ok [] cursor := by
  have unfolded : repeatWhile test item (bound + 1) cursor =
      (if test cursor = true then do
        let first ← item
        let others ← repeatWhile test item bound
        return first :: others
      else
        return []) cursor := rfl
  rw [unfolded]
  split
  · simp only [bind, EStateM.bind]
    cases item cursor with
    | error error after => rfl
    | ok value after =>
        simp only
        cases repeatWhile test item bound after <;> rfl
  · rfl

/-- More rounds than tokens make no difference. -/
theorem repeatWhile_eq_of_progress
    {test : Cursor -> Bool}
    {item : Parser α}
    (progress : Progresses test item)
    {cursor : Cursor}
    {bound other : Nat}
    (enough : cursor.ahead.length < bound)
    (otherEnough : cursor.ahead.length < other) :
    repeatWhile test item bound cursor = repeatWhile test item other cursor := by
  induction bound generalizing cursor other with
  | zero => omega
  | succ bound inductionHypothesis =>
      obtain ⟨other, rfl⟩ : ∃ count, other = count + 1 := ⟨other - 1, by omega⟩
      rw [repeatWhile_succ, repeatWhile_succ]
      split
      · rename_i holds
        split
        · rename_i first after result
          have shorter := progress cursor first after holds result
          have enoughAfter : after.ahead.length < bound := by omega
          have otherEnoughAfter : after.ahead.length < other := by omega
          rw [inductionHypothesis enoughAfter otherEnoughAfter]
        · rfl
      · rfl

/-- A repetition is one round followed by the repetition. -/
theorem many_eq_of_progress
    {test : Cursor -> Bool}
    {item : Parser α}
    (progress : Progresses test item)
    (cursor : Cursor) :
    many test item cursor =
      if test cursor = true then
        match item cursor with
        | .ok first after => consResult first (many test item after)
        | .error error after => .error error after
      else
        .ok [] cursor := by
  change repeatWhile test item (cursor.ahead.length + 1) cursor = _
  rw [repeatWhile_succ]
  split
  · rename_i holds
    split
    · rename_i first after result
      have shorter := progress cursor first after holds result
      rw [repeatWhile_eq_of_progress progress shorter (Nat.lt_succ_self _)]
      rfl
    · rfl
  · rfl

end Parser
end StyleRules
