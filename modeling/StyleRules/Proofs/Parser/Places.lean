import StyleRules.Parser.Rule
import StyleRules.Proofs.Parser.Runs

/-!
# Parsers do not look at places

Where the tokens stand makes no difference to what a parser does with them.  When every
token is moved to another place, the parser answers the same value, or it fails in the same
way at the same token, which is blamed at its new place (`movesAlong_rule`).
-/

namespace StyleRules

variable (move : Span -> Span)

/-! ## Moving tokens -/

/-- The same token at another place. -/
def Token.moved (token : Token) : Token :=
  { token with span := move token.span }

@[simp]
theorem Token.kind_moved (token : Token) :
    (token.moved move).kind = token.kind :=
  rfl

@[simp]
theorem Token.value_moved (token : Token) :
    (token.moved move).value = token.value :=
  rfl

/-- The same error at a token that is at another place. -/
def ParseError.moved (error : ParseError) : ParseError :=
  { error with token := error.token.moved move }

/-- The wording of an error does not depend on the place. -/
@[simp]
theorem ParseError.text_moved (error : ParseError) :
    (error.moved move).text = error.text :=
  rfl

namespace Cursor

/-- The same cursor, with all tokens at other places. -/
def moved (cursor : Cursor) : Cursor where
  ahead := cursor.ahead.map (Token.moved move)
  stop := cursor.stop.moved move
  stop_kind := cursor.stop_kind

variable (cursor : Cursor)

theorem remaining_moved :
    (cursor.moved move).remaining = cursor.remaining.map (Token.moved move) := by
  rw [remaining, remaining, List.map_append]
  rfl

@[simp]
theorem current_moved :
    (cursor.moved move).current = cursor.current.moved move := by
  unfold current moved
  cases cursor.ahead <;> rfl

@[simp]
theorem kind_moved :
    (cursor.moved move).kind = cursor.kind := by
  rw [kind, current_moved, Token.kind_moved, kind]

@[simp]
theorem kindAt_moved (places : Nat) :
    (cursor.moved move).kindAt places = cursor.kindAt places := by
  rw [kindAt, kindAt, remaining_moved, List.getElem?_map]
  cases cursor.remaining[places]? <;> rfl

@[simp]
theorem advance_moved :
    (cursor.moved move).advance = cursor.advance.moved move := by
  obtain ⟨ahead, stop, stopKind⟩ := cursor
  cases ahead with
  | nil => rfl
  | cons token rest =>
      simp only [advance, moved, List.map_cons, Token.kind_moved]
      split <;> rfl

end Cursor

namespace Parser

/-! ## Parsers on moved tokens -/

/-- What a parser comes to, with the value carried over and all tokens at other places. -/
def resultMoved (carry : α -> α) :
    EStateM.Result ParseError Cursor α -> EStateM.Result ParseError Cursor α
  | .ok value reached => .ok (carry value) (reached.moved move)
  | .error error reached => .error (error.moved move) (reached.moved move)

/-- Does the second parser do on moved tokens what the first one does on the tokens?  A
value with a token in it is carried over to the one with the moved token. -/
def MovesAlong (carry : α -> α) (parser other : Parser α) : Prop :=
  ∀ cursor, other (cursor.moved move) = resultMoved move carry (parser cursor)

namespace MovesAlong

variable {move}

theorem pure
    {carry : α -> α}
    (value : α) :
    MovesAlong move carry (pure value) (pure (carry value)) :=
  fun _ => rfl

theorem bind
    {carry : α -> α}
    {carryNext : β -> β}
    {first other : Parser α}
    {next otherNext : α -> Parser β}
    (firstMoves : MovesAlong move carry first other)
    (nextMoves : ∀ value, MovesAlong move carryNext (next value) (otherNext (carry value))) :
    MovesAlong move carryNext (first >>= next) (other >>= otherNext) := by
  intro cursor
  have firstResult := firstMoves cursor
  cases outcome : first cursor with
  | ok value reached =>
      rw [outcome] at firstResult
      rw [bind_of_eq_ok outcome, bind_of_eq_ok firstResult]
      exact nextMoves value reached
  | error error reached =>
      rw [outcome] at firstResult
      rw [bind_of_eq_error outcome, bind_of_eq_error firstResult]
      rfl

theorem ite
    {carry : α -> α}
    {condition : Prop}
    [Decidable condition]
    {first other firstElse otherElse : Parser α}
    (firstMoves : MovesAlong move carry first other)
    (elseMoves : MovesAlong move carry firstElse otherElse) :
    MovesAlong move carry (if condition then first else firstElse)
      (if condition then other else otherElse) := by
  split
  · exact firstMoves
  · exact elseMoves

theorem kind :
    MovesAlong move id kind kind := by
  intro cursor
  rw [Parser.kind, Parser.kind, Cursor.kind_moved]
  rfl

theorem current :
    MovesAlong move (Token.moved move) current current := by
  intro cursor
  rw [Parser.current, Parser.current, Cursor.current_moved]
  rfl

theorem advance :
    MovesAlong move (Token.moved move) advance advance := by
  intro cursor
  rw [Parser.advance, Parser.advance, Cursor.current_moved, Cursor.advance_moved]
  rfl

theorem failExpecting
    (carry : α -> α)
    (what : String) :
    MovesAlong move carry (failExpecting what) (failExpecting what) := by
  intro cursor
  rw [Parser.failExpecting, Parser.failExpecting, unexpected, Cursor.current_moved]
  rfl

theorem failAt
    (carry : α -> α)
    (token : Token)
    (fault : ParseFault) :
    MovesAlong move carry (failAt token fault) (failAt (token.moved move) fault) :=
  fun _ => rfl

theorem expect (due : TokenKind) :
    MovesAlong move (Token.moved move) (expect due) (expect due) := by
  apply kind.bind
  intro _
  exact advance.ite (.failExpecting _ _)

theorem expectValue (due : TokenKind) :
    MovesAlong move id (expectValue due) (expectValue due) := by
  apply (expect due).bind
  intro token
  exact .pure token.value

theorem expectLiteral
    (due : TokenKind)
    (value : String) :
    MovesAlong move id (expectLiteral due value) (expectLiteral due value) := by
  apply current.bind
  intro _
  refine .ite ?_ (.failExpecting _ _)
  apply advance.bind
  intro _
  exact .pure ()

/-- A repetition makes as many rounds, since as many tokens are ahead. -/
theorem many
    {test : Cursor -> Bool}
    {item : Parser α}
    (testMoved : ∀ cursor, test (cursor.moved move) = test cursor)
    (itemMoves : MovesAlong move id item item) :
    MovesAlong move id (many test item) (many test item) := by
  have rounds : ∀ bound,
      MovesAlong move id (repeatWhile test item bound) (repeatWhile test item bound) := by
    intro bound
    induction bound with
    | zero => exact .pure []
    | succ bound inductionHypothesis =>
        intro cursor
        rw [repeatWhile_succ, repeatWhile_succ, testMoved]
        split
        · rw [itemMoves cursor]
          cases item cursor with
          | error error reached => rfl
          | ok first reached =>
              simp only [resultMoved, inductionHypothesis reached]
              cases repeatWhile test item bound reached <;> rfl
        · rfl
  intro cursor
  have sameBound : (cursor.moved move).ahead.length = cursor.ahead.length := List.length_map ..
  change repeatWhile test item ((cursor.moved move).ahead.length + 1) (cursor.moved move) = _
  rw [sameBound]
  exact rounds _ cursor

end MovesAlong

/-! ## The parser for rules -/

theorem movesAlong_skipBlank :
    MovesAlong move id skipBlank skipBlank := by
  apply MovesAlong.kind.bind
  intro _
  refine .ite ?_ (.pure _)
  apply MovesAlong.advance.bind
  intro _
  exact .pure _

theorem movesAlong_expectEnd :
    MovesAlong move id expectEnd expectEnd := by
  apply (MovesAlong.expect _).bind
  intro _
  exact .pure _

theorem movesAlong_styleId :
    MovesAlong move id styleId styleId := by
  apply MovesAlong.kind.bind
  intro _
  refine .ite ?_ (.pure _)
  apply MovesAlong.advance.bind
  intro token
  exact .pure _

theorem movesAlong_styleName :
    MovesAlong move id styleName styleName := by
  apply MovesAlong.kind.bind
  intro _
  refine .ite ?_ (.pure _)
  apply MovesAlong.advance.bind
  intro _
  apply (MovesAlong.expectLiteral _ _).bind
  intro _
  apply (MovesAlong.expect _).bind
  intro _
  apply (MovesAlong.expectValue _).bind
  intro value
  apply (MovesAlong.expect _).bind
  intro _
  exact .pure _

theorem movesAlong_listType :
    MovesAlong move id listType listType := by
  apply (MovesAlong.expect _).bind
  intro word
  exact .ite (.pure _) (.ite (.pure _) (.failAt _ word _))

theorem movesAlong_levelIndex (numeral : Token) :
    MovesAlong move id (levelIndex numeral) (levelIndex (numeral.moved move)) := by
  rw [levelIndex, levelIndex, Token.value_moved]
  cases Text.word? numeral.value with
  | none => exact .failAt _ numeral _
  | some level => exact .ite (.failAt _ numeral _) (.pure _)

theorem movesAlong_listLevel :
    MovesAlong move id listLevel listLevel := by
  apply MovesAlong.kind.bind
  intro _
  refine .ite ?_ (.pure _)
  apply MovesAlong.advance.bind
  intro _
  apply (movesAlong_listType move).bind
  intro ordered
  apply (MovesAlong.expect _).bind
  intro _
  apply (MovesAlong.expect _).bind
  intro numeral
  apply (movesAlong_levelIndex move numeral).bind
  intro index
  apply (MovesAlong.expect _).bind
  intro _
  exact .pure _

theorem movesAlong_paragraphSelector :
    MovesAlong move id paragraphSelector paragraphSelector := by
  apply (movesAlong_styleId move).bind
  intro styleId
  apply (movesAlong_styleName move).bind
  intro styleName
  apply (movesAlong_listLevel move).bind
  intro level
  exact .pure _

theorem movesAlong_runSelector :
    MovesAlong move id runSelector runSelector := by
  apply (movesAlong_styleId move).bind
  intro styleId
  apply (movesAlong_styleName move).bind
  intro styleName
  exact .pure _

theorem movesAlong_selector :
    MovesAlong move id selector selector := by
  apply (MovesAlong.expect _).bind
  intro word
  refine .ite ?_ (.ite ?_ ?_)
  · apply (movesAlong_paragraphSelector move).bind
    intro selector
    exact .pure _
  · apply (movesAlong_runSelector move).bind
    intro selector
    exact .pure _
  · rw [Token.value_moved]
    cases toggle? word.value with
    | none => exact .failAt _ word _
    | some toggle => exact .pure _

theorem movesAlong_tagNames :
    MovesAlong move id tagNames tagNames := by
  apply (MovesAlong.expectValue _).bind
  intro first
  have barName : MovesAlong move id (advance >>= fun _ => expectValue .identifier)
      (advance >>= fun _ => expectValue .identifier) := by
    apply MovesAlong.advance.bind
    intro _
    exact .expectValue _
  apply (MovesAlong.many (fun cursor => by rw [Cursor.kind_moved]) barName).bind
  intro others
  exact .pure _

theorem movesAlong_classNames :
    MovesAlong move id classNames classNames := by
  refine .many (fun cursor => by rw [Cursor.kind_moved]) ?_
  apply MovesAlong.advance.bind
  intro token
  exact .pure _

theorem movesAlong_isFresh :
    MovesAlong move id isFresh isFresh := by
  apply MovesAlong.kind.bind
  intro _
  refine .ite ?_ (.pure _)
  apply MovesAlong.advance.bind
  intro _
  apply (MovesAlong.expectLiteral _ _).bind
  intro _
  exact .pure _

theorem movesAlong_pathElement :
    MovesAlong move id pathElement pathElement := by
  apply (movesAlong_tagNames move).bind
  intro tagNames
  apply (movesAlong_classNames move).bind
  intro classNames
  apply (movesAlong_isFresh move).bind
  intro fresh
  exact .pure _

theorem movesAlong_descendant :
    MovesAlong move id descendant descendant := by
  apply MovesAlong.advance.bind
  intro _
  apply MovesAlong.advance.bind
  intro _
  apply (MovesAlong.expect _).bind
  intro _
  exact movesAlong_pathElement move

theorem atDescendant_moved (cursor : Cursor) :
    atDescendant (cursor.moved move) = atDescendant cursor := by
  rw [atDescendant, atDescendant, Cursor.kind_moved, Cursor.kindAt_moved]

theorem movesAlong_path :
    MovesAlong move id path path := by
  apply MovesAlong.kind.bind
  intro _
  refine .ite ?_ (.ite ?_ (.pure _))
  · apply MovesAlong.advance.bind
    intro _
    exact .pure _
  · apply (movesAlong_pathElement move).bind
    intro first
    apply (MovesAlong.many (atDescendant_moved move) (movesAlong_descendant move)).bind
    intro others
    exact .pure _

/-- On moved tokens the parser for rules answers the same rule, or it fails in the same way
at the same token, moved. -/
theorem movesAlong_rule :
    MovesAlong move id rule rule := by
  apply (movesAlong_skipBlank move).bind
  intro _
  apply (movesAlong_selector move).bind
  intro selector
  apply (movesAlong_skipBlank move).bind
  intro _
  apply (MovesAlong.expect _).bind
  intro _
  apply (movesAlong_skipBlank move).bind
  intro _
  apply (movesAlong_path move).bind
  intro path
  apply (movesAlong_skipBlank move).bind
  intro _
  apply (movesAlong_expectEnd move).bind
  intro _
  exact .pure _

end Parser
end StyleRules
