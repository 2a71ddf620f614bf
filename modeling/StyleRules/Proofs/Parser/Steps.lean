import StyleRules.Proofs.Parser.Positions

/-!
# Cursors never leave their tokens

Whatever is done with a cursor, in whatever order and also behind failures, its position stays
that of a token, does not go back and does not go beyond an end of the input.  Nothing that is
taken for granted on the way fails, as long as quoted strings are in quotes; those of a text
are (`CursorStep.run_stays_within`).
-/

namespace StyleRules

/-- What can be done with a cursor. -/
inductive CursorStep where
  | peek
  | peekAt (places : Nat)
  | advance
  | expect (kind : TokenKind)
  | expectValue (kind : TokenKind)
  | expectLiteral (kind : TokenKind) (value : String)
  | skipBlank
  | expectEnd
  | unexpected (what : String)
  | selector
  | paragraphSelector
  | runSelector
  | listLevel
  | path

/-- The cursor that was reached, also by failing. -/
def Parser.reached : EStateM.Result ParseError Cursor α -> Cursor
  | .ok _ after | .error _ after => after

theorem Agrees.standsAt_reached
    {tokens : List Token}
    {position reached : Nat}
    {outcome : Outcome α}
    {result : EStateM.Result ParseError Cursor α}
    (agrees : Agrees tokens position outcome result)
    (reaches : outcome.reached? = some reached) :
    MovesTo tokens position reached ∧ (Parser.reached result).StandsAt tokens reached := by
  cases agrees <;> cases reaches
  case ok moves stands => exact ⟨moves, stands⟩
  case error moves stands => exact ⟨moves, stands⟩

theorem Agrees.reached?_ne_none
    {tokens : List Token}
    {position : Nat}
    {outcome : Outcome α}
    {result : EStateM.Result ParseError Cursor α}
    (agrees : Agrees tokens position outcome result)
    (wellQuoted : WellQuoted tokens) :
    ∃ reached, outcome.reached? = some reached := by
  cases agrees with
  | ok _ _ => exact ⟨_, rfl⟩
  | error _ _ => exact ⟨_, rfl⟩
  | stuck notQuoted => exact absurd wellQuoted notQuoted

namespace CursorStep

/-- What a step answers. -/
def Answer : CursorStep -> Type
  | peek | peekAt _ => TokenKind
  | advance | expect _ => Token
  | expectValue _ => String
  | expectLiteral .. | skipBlank | expectEnd => Unit
  | unexpected _ => ParseError
  | selector => Selector
  | paragraphSelector => ParagraphSelector
  | runSelector => RunSelector
  | listLevel => Option ListLevel
  | path => HtmlPath

/-- The step of a cursor. -/
def parser : (step : CursorStep) -> Parser step.Answer
  | peek => Parser.kind
  | peekAt places => fun cursor => .ok (cursor.kindAt places) cursor
  | advance => Parser.advance
  | expect kind => Parser.expect kind
  | expectValue kind => Parser.expectValue kind
  | expectLiteral kind value => Parser.expectLiteral kind value
  | skipBlank => Parser.skipBlank
  | expectEnd => Parser.expectEnd
  | unexpected what => fun cursor => .ok (Parser.unexpected what cursor) cursor
  | selector => Parser.selector
  | paragraphSelector => Parser.paragraphSelector
  | runSelector => Parser.runSelector
  | listLevel => Parser.listLevel
  | path => Parser.path

/-- The step of a position. -/
def indexed : (step : CursorStep) -> Indexed step.Answer
  | peek => Indexed.peek
  | peekAt places => Indexed.peekAt places
  | advance => Indexed.advance
  | expect kind => Indexed.expect kind
  | expectValue kind => Indexed.expectValue kind
  | expectLiteral kind value => Indexed.expectLiteral kind value
  | skipBlank => Indexed.skipBlank
  | expectEnd => Indexed.expectEnd
  | unexpected what => Indexed.unexpected what
  | selector => Indexed.selector
  | paragraphSelector => Indexed.paragraphSelector
  | runSelector => Indexed.runSelector
  | listLevel => Indexed.listLevel
  | path => Indexed.path

/-- Does the step demand something of the current token only? -/
def isDemand : CursorStep -> Bool
  | expect _ | expectValue _ | expectLiteral .. | expectEnd => true
  | _ => false

/-- The position behind several steps, each at the position where the one before it
succeeded or failed, unless one of them gets stuck. -/
def run (tokens : List Token) : List CursorStep -> Nat -> Option Nat
  | [], position => some position
  | step :: steps, position => (step.indexed tokens position).reached?.bind (run tokens steps)

/-- The cursor behind several steps, each at the cursor where the one before it succeeded or
failed. -/
def cursorBehind : List CursorStep -> Cursor -> Cursor
  | [], cursor => cursor
  | step :: steps, cursor => cursorBehind steps (Parser.reached (step.parser cursor))

/-! ## One step -/

variable {tokens : List Token} {position : Nat} {cursor : Cursor}

theorem follows (step : CursorStep) :
    Follows tokens step.indexed step.parser := by
  cases step with
  | peek => exact .peek
  | peekAt places =>
      intro position cursor stands
      rw [indexed, Indexed.peekAt, stands.kindAt_eq]
      exact .ok stands.movesTo_self stands
  | advance => exact .advance
  | expect kind => exact .expect kind
  | expectValue kind => exact .expectValue kind
  | expectLiteral kind value => exact .expectLiteral kind value
  | skipBlank => exact .skipBlank
  | expectEnd => exact .expectEnd
  | unexpected what =>
      intro position cursor stands
      rw [indexed, stands.unexpected_eq]
      exact .ok stands.movesTo_self stands
  | selector => exact .selector
  | paragraphSelector => exact .paragraphSelector
  | runSelector => exact .runSelector
  | listLevel => exact .listLevel
  | path => exact .path

theorem reached_of_expect
    {kind : TokenKind}
    {error : ParseError}
    {after : Cursor}
    (failed : Parser.expect kind cursor = .error error after) :
    after = cursor := by
  by_cases due : cursor.kind = kind
  · rw [Parser.expect_of_kind_eq due] at failed
    cases failed
  · rw [Parser.expect_of_kind_ne due] at failed
    cases failed
    rfl

theorem cursor_eq_of_isDemand
    {step : CursorStep}
    {error : ParseError}
    {after : Cursor}
    (demand : step.isDemand = true)
    (failed : step.parser cursor = .error error after) :
    after = cursor := by
  -- Behind the check of the kind, an answer is only passed on.
  have passedOn : ∀ {α : Type} {kind : TokenKind} {next : Token -> α},
      (Parser.expect kind >>= fun token => pure (next token)) cursor = .error error after ->
        after = cursor := by
    intro α kind next failed
    cases outcome : Parser.expect kind cursor with
    | ok token reached =>
        rw [Parser.bind_of_eq_ok outcome] at failed
        cases failed
    | error _ reached =>
        rw [Parser.bind_of_eq_error outcome] at failed
        cases failed
        exact reached_of_expect outcome
  cases step with
  | expect kind => exact reached_of_expect failed
  | expectValue kind => exact passedOn failed
  | expectEnd => exact passedOn failed
  | expectLiteral kind value =>
      by_cases due : cursor.current.kind = kind ∧ cursor.current.value = value
      · cases (Parser.expectLiteral_of_current due).symm.trans failed
      · cases (Parser.expectLiteral_of_not_current due).symm.trans failed
        rfl
  | _ => cases demand

/-- A demand that is not met leaves the position where it was. -/
theorem reached_eq_of_isDemand
    {step : CursorStep}
    {error : ParseError}
    {reached : Nat}
    (stands : cursor.StandsAt tokens position)
    (demand : step.isDemand = true)
    (failed : step.indexed tokens position = .error error reached) :
    reached = position := by
  have agrees := step.follows position cursor stands
  rw [failed] at agrees
  generalize outcome : step.parser cursor = result at agrees
  cases agrees with
  | error moves standsBehind =>
      obtain rfl := cursor_eq_of_isDemand demand outcome
      exact standsBehind.position_eq stands

/-! ## Many steps -/

theorem standsAt_of_run
    {steps : List CursorStep}
    {reached : Nat}
    (stands : cursor.StandsAt tokens position)
    (reaches : run tokens steps position = some reached) :
    MovesTo tokens position reached ∧ (cursorBehind steps cursor).StandsAt tokens reached := by
  induction steps generalizing position cursor with
  | nil =>
      cases reaches
      exact ⟨stands.movesTo_self, stands⟩
  | cons step steps inductionHypothesis =>
      obtain ⟨between, stepReaches, restReaches⟩ := Option.bind_eq_some_iff.mp reaches
      obtain ⟨moves, standsBetween⟩ :=
        (step.follows position cursor stands).standsAt_reached stepReaches
      obtain ⟨furtherMoves, standsLast⟩ := inductionHypothesis standsBetween restReaches
      exact ⟨moves.trans furtherMoves, standsLast⟩

theorem exists_run_of_wellQuoted
    (steps : List CursorStep)
    (wellQuoted : WellQuoted tokens)
    (stands : cursor.StandsAt tokens position) :
    ∃ reached, run tokens steps position = some reached := by
  induction steps generalizing position cursor with
  | nil => exact ⟨position, rfl⟩
  | cons step steps inductionHypothesis =>
      have agrees := step.follows position cursor stands
      obtain ⟨between, stepReaches⟩ := agrees.reached?_ne_none wellQuoted
      obtain ⟨_, standsBetween⟩ := agrees.standsAt_reached stepReaches
      obtain ⟨reached, restReaches⟩ := inductionHypothesis standsBetween
      exact ⟨reached, Option.bind_eq_some_iff.mpr ⟨between, stepReaches, restReaches⟩⟩

/-- Over any tokens, closed if need be, and whatever steps were done before, the position is
that of a token, and the cursor stands there.  The next step agrees with that of the cursor:
the position is again that of a token, not further back, with no end of the input in between,
and where it was if a demand was not met.  No step gets stuck if all quoted strings are in
quotes, as they are in a text. -/
theorem run_stays_within (steps : List CursorStep) :
    (∀ tokens,
      (∀ position, run (Cursor.closed tokens) steps 0 = some position ->
        MovesTo (Cursor.closed tokens) 0 position ∧
          (cursorBehind steps (Cursor.ofTokens tokens)).StandsAt (Cursor.closed tokens) position ∧
          ∀ step : CursorStep,
            Agrees (Cursor.closed tokens) position (step.indexed (Cursor.closed tokens) position)
                (step.parser (cursorBehind steps (Cursor.ofTokens tokens))) ∧
              (step.isDemand = true -> ∀ error reached,
                step.indexed (Cursor.closed tokens) position = .error error reached ->
                  reached = position)) ∧
        (WellQuoted tokens -> ∃ position, run (Cursor.closed tokens) steps 0 = some position)) ∧
      ∀ source : String,
        ∃ position, run (Cursor.closed (Token.tokenize source)) steps 0 = some position := by
  have standsFirst : ∀ tokens, (Cursor.ofTokens tokens).StandsAt (Cursor.closed tokens) 0 :=
    Cursor.remaining_ofTokens_eq_closed
  refine ⟨fun tokens => ⟨fun position reaches => ?_, fun wellQuoted => ?_⟩, fun source => ?_⟩
  · obtain ⟨moves, stands⟩ := standsAt_of_run (standsFirst tokens) reaches
    refine ⟨moves, stands, fun step => ⟨step.follows position _ stands, ?_⟩⟩
    intro demand error reached failed
    exact reached_eq_of_isDemand stands demand failed
  · exact exists_run_of_wellQuoted steps wellQuoted.closed (standsFirst tokens)
  · exact exists_run_of_wellQuoted steps (wellQuoted_tokenize source).closed (standsFirst _)

/-- Three tokens, the second of which is an end of the input. -/
def endInMiddle : List Token :=
  [⟨.identifier, "p", ⟨0, 1, 1, 1⟩⟩, ⟨.endOfInput, "", ⟨1, 1, 1, 2⟩⟩,
    ⟨.quoted, "'a'", ⟨1, 4, 1, 2⟩⟩]

/-- An end of the input holds the position, also behind a demand that is not met, while more
tokens are ahead. -/
theorem run_endInMiddle :
    WellQuoted endInMiddle ∧
      run (Cursor.closed endInMiddle) [.selector, .expect .arrow, .advance, .path] 0 = some 1 ∧
      MovesTo (Cursor.closed endInMiddle) 0 1 := by
  have wellQuoted : WellQuoted endInMiddle := by
    simp only [WellQuoted, endInMiddle, List.forall_mem_cons]
    exact ⟨nofun, nofun, fun _ => ⟨['a'], by decide +kernel⟩, List.forall_mem_nil _⟩
  have within :=
    (run_stays_within [.selector, .expect .arrow, .advance, .path]).1 endInMiddle
  obtain ⟨position, reaches⟩ := within.2 wellQuoted
  obtain rfl : 1 = position := by
    apply Option.some.inj
    rw [← reaches]
    decide +kernel
  exact ⟨wellQuoted, reaches, (within.1 1 reaches).1⟩

end CursorStep
end StyleRules
