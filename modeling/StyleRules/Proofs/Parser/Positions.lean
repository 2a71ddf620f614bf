import StyleRules.Proofs.Grammar.Paths
import StyleRules.Proofs.Parser.Indexed
import StyleRules.Proofs.Token.Closing

/-!
# Positions inside the tokens

A cursor and a position that have the same tokens in front of them stay side by side: a
parser and the parser over positions come to the same answer or the same error, and the
position is still that of a token, has not gone back and has not gone beyond an end of the
input (`Follows`).  The parser over positions can only get stuck at a quoted string without
its quotes.
-/

namespace StyleRules

/-! ## Quoted strings -/

/-- Does the value begin with a quote and end with another one? -/
def Token.IsQuoted (token : Token) : Prop :=
  ∃ name, token.value.toList = Lexeme.quote :: (name ++ [Lexeme.quote])

/-- Are the values of all quoted strings in quotes? -/
def WellQuoted (tokens : List Token) : Prop :=
  ∀ token ∈ tokens, token.kind = .quoted -> token.IsQuoted

theorem WellQuoted.closed
    {tokens : List Token}
    (wellQuoted : WellQuoted tokens) :
    WellQuoted (Cursor.closed tokens) := by
  intro token member isQuoted
  rw [Cursor.closed] at member
  split at member
  · exact wellQuoted token member isQuoted
  · rcases List.mem_append.mp member with given | isClosing
    · exact wellQuoted token given isQuoted
    · rw [List.mem_singleton.mp isClosing, Cursor.kind_endAfter] at isQuoted
      cases isQuoted

/-- The quoted strings of a text are in quotes. -/
theorem wellQuoted_tokenize (source : String) :
    WellQuoted (Token.tokenize source) := by
  intro token member isQuoted
  rw [Token.tokenize_eq_append] at member
  rcases List.mem_append.mp member with isWord | isEnd
  · obtain ⟨lexeme, lexemeMember, reached, rfl⟩ := Token.exists_of_mem_placeWords isWord
    have wellFormed := Lexeme.wellFormed_of_mem_lexemes lexemeMember
    have isQuoted : lexeme.kind = .quoted := isQuoted
    rw [Lexeme.WellFormed, isQuoted] at wellFormed
    obtain ⟨name, textEquality, _⟩ := wellFormed
    refine ⟨name, ?_⟩
    simp only [Token.ofLexeme, Lexeme.value, isQuoted, String.toList_ofList, textEquality]
  · rw [List.mem_singleton.mp isEnd] at isQuoted
    cases isQuoted

namespace Indexed

theorem byteSize_quote :
    Text.byteSize [Lexeme.quote] = 1 :=
  rfl

/-- Between its quotes, a quoted string has a text. -/
theorem unquoted?_of_isQuoted
    {token : Token}
    (isQuoted : token.IsQuoted) :
    unquoted? token.value = some (Parser.unquoted token.value) := by
  obtain ⟨name, valueEquality⟩ := isQuoted
  have splits : token.value.toList = [Lexeme.quote] ++ name ++ [Lexeme.quote] := valueEquality
  have size : token.value.utf8ByteSize = 1 + Text.byteSize name + 1 := by
    rw [← Text.byteSize_toList, splits, Text.byteSize_append, Text.byteSize_append, byteSize_quote]
  have sliced := Text.slice?_of_append splits
  rw [byteSize_quote] at sliced
  rw [unquoted?, if_pos (by omega), size, Nat.add_sub_cancel, sliced, Parser.unquoted,
    valueEquality, List.tail_cons, List.dropLast_concat]

theorem exists_eq_singleton_of_byteSize
    {cs : List Char}
    (size : Text.byteSize cs = 1) :
    ∃ c, cs = [c] := by
  cases cs with
  | nil => cases size
  | cons c cs =>
      have sizePos : 0 < c.utf8Size := c.utf8Size_pos
      rw [Text.byteSize_cons] at size
      cases cs with
      | nil => exact ⟨c, rfl⟩
      | cons next cs =>
          have nextPos : 0 < next.utf8Size := next.utf8Size_pos
          rw [Text.byteSize_cons] at size
          omega

/-- Whatever the first and the last byte are, the text between them is what is left without
the first and the last character. -/
theorem eq_unquoted_of_unquoted?
    {value name : String}
    (sliced : unquoted? value = some name) :
    name = Parser.unquoted value := by
  rw [unquoted?] at sliced
  split at sliced
  · rename_i twoBytes
    obtain ⟨before, behind, splits, startSize, stopSize⟩ := Text.exists_of_slice? sliced
    have size : Text.byteSize behind = 1 := by
      have whole := Text.byteSize_toList value
      rw [splits, Text.byteSize_append, Text.byteSize_append] at whole
      omega
    obtain ⟨first, rfl⟩ := exists_eq_singleton_of_byteSize startSize
    obtain ⟨last, rfl⟩ := exists_eq_singleton_of_byteSize size
    rw [Parser.unquoted, splits, List.singleton_append, List.cons_append, List.tail_cons,
      List.dropLast_concat, String.ofList_toList]
  · cases sliced

theorem oneLess?_of_ne_zero
    {level : UInt32}
    (notZero : level ≠ 0) :
    oneLess? level = some (level - 1) := by
  rw [oneLess?, if_pos]
  rw [UInt32.le_iff_toNat_le]
  have positive : level.toNat ≠ 0 := fun isZero => notZero (UInt32.toNat_inj.mp isZero)
  exact Nat.one_le_iff_ne_zero.mpr positive

end Indexed

/-! ## Cursors and positions -/

/-- Does the cursor have the tokens from the position on in front of it? -/
def Cursor.StandsAt (cursor : Cursor) (tokens : List Token) (position : Nat) : Prop :=
  cursor.remaining = tokens.drop position

/-- The position has moved to another one, which is that of a token as well.  It has not gone
back, and there is no end of the input among the tokens that it has left behind. -/
structure MovesTo (tokens : List Token) (position reached : Nat) : Prop where
  lt_length : reached < tokens.length
  le : position ≤ reached
  no_end : ∀ index token, position ≤ index -> index < reached ->
    tokens[index]? = some token -> token.kind ≠ .endOfInput

namespace MovesTo

variable {tokens : List Token} {position between reached : Nat}

theorem refl (isPosition : position < tokens.length) :
    MovesTo tokens position position :=
  ⟨isPosition, Nat.le_refl _, fun _ _ _ _ _ => by omega⟩

theorem trans
    (first : MovesTo tokens position between)
    (second : MovesTo tokens between reached) :
    MovesTo tokens position reached := by
  refine ⟨second.lt_length, Nat.le_trans first.le second.le, ?_⟩
  intro index token notBefore notBehind isToken
  by_cases inFirst : index < between
  · exact first.no_end index token notBefore inFirst isToken
  · exact second.no_end index token (Nat.le_of_not_lt inFirst) notBehind isToken

end MovesTo

namespace Cursor.StandsAt

variable {tokens : List Token} {position : Nat} {cursor : Cursor}

theorem length_eq (stands : cursor.StandsAt tokens position) :
    tokens.length - position = cursor.ahead.length + 1 := by
  rw [← List.length_drop, ← show cursor.remaining = _ from stands, remaining, List.length_append,
    List.length_singleton]

theorem lt_length (stands : cursor.StandsAt tokens position) :
    position < tokens.length := by
  have lengthEquality := stands.length_eq
  omega

theorem getElem?_add
    (stands : cursor.StandsAt tokens position)
    (places : Nat) :
    tokens[position + places]? = cursor.remaining[places]? := by
  rw [show cursor.remaining = _ from stands, List.getElem?_drop]

theorem getElem?_eq (stands : cursor.StandsAt tokens position) :
    tokens[position]? = some cursor.current := by
  rw [← cursor.remaining_head?, List.head?_eq_getElem?, ← stands.getElem?_add 0, Nat.add_zero]

theorem kindAt_eq
    (stands : cursor.StandsAt tokens position)
    (places : Nat) :
    Indexed.kindAt places tokens position = cursor.kindAt places := by
  rw [Indexed.kindAt, stands.getElem?_add]
  rfl

theorem kind_eq (stands : cursor.StandsAt tokens position) :
    Indexed.kindAt 0 tokens position = cursor.kind := by
  rw [stands.kindAt_eq, kindAt_zero]

theorem decide_kind_eq
    (stands : cursor.StandsAt tokens position)
    (kind : TokenKind) :
    decide (Indexed.kindAt 0 tokens position = kind) = decide (cursor.kind = kind) := by
  rw [stands.kind_eq]

theorem current_bind
    (stands : cursor.StandsAt tokens position)
    (next : Token -> Indexed α) :
    (Indexed.current >>= next) tokens position = next cursor.current tokens position := by
  simp only [Bind.bind, Indexed.current, stands.getElem?_eq]
  rfl

theorem unexpected_eq
    (stands : cursor.StandsAt tokens position)
    (what : String) :
    Indexed.unexpected what tokens position = .ok (Parser.unexpected what cursor) position :=
  stands.current_bind _

theorem position_eq
    {other : Nat}
    (stands : cursor.StandsAt tokens position)
    (standsToo : cursor.StandsAt tokens other) :
    position = other := by
  have lengthEquality := stands.length_eq
  have otherLengthEquality := standsToo.length_eq
  omega

theorem movesTo_self (stands : cursor.StandsAt tokens position) :
    MovesTo tokens position position :=
  .refl stands.lt_length

theorem advance
    (stands : cursor.StandsAt tokens position)
    (notEnd : cursor.kind ≠ .endOfInput) :
    cursor.advance.StandsAt tokens (position + 1) := by
  rw [StandsAt, ← List.drop_drop, ← show cursor.remaining = _ from stands,
    remaining_eq_cons notEnd, List.drop_one, List.tail_cons]

theorem movesTo_succ
    (stands : cursor.StandsAt tokens position)
    (notEnd : cursor.kind ≠ .endOfInput) :
    MovesTo tokens position (position + 1) := by
  refine ⟨(stands.advance notEnd).lt_length, Nat.le_succ _, ?_⟩
  intro index token notBefore notBehind isToken
  obtain rfl : index = position := by omega
  rw [stands.getElem?_eq] at isToken
  cases isToken
  exact notEnd

end Cursor.StandsAt

/-! ## Parsers side by side -/

/-- Do a parser over positions, which started at the position, and a parser come to the same?
The former may get stuck, but only if there is a quoted string without its quotes. -/
inductive Agrees (tokens : List Token) (position : Nat) :
    Outcome α -> EStateM.Result ParseError Cursor α -> Prop
  | ok
      {value : α}
      {reached : Nat}
      {after : Cursor}
      (moves : MovesTo tokens position reached)
      (stands : after.StandsAt tokens reached) :
      Agrees tokens position (.ok value reached) (.ok value after)
  | error
      {error : ParseError}
      {reached : Nat}
      {after : Cursor}
      (moves : MovesTo tokens position reached)
      (stands : after.StandsAt tokens reached) :
      Agrees tokens position (.error error reached) (.error error after)
  | stuck
      {result : EStateM.Result ParseError Cursor α}
      (notQuoted : ¬WellQuoted tokens) :
      Agrees tokens position .stuck result

/-- Do the parser over positions and the parser agree wherever a position and a cursor stand
at the same token? -/
def Follows (tokens : List Token) (indexed : Indexed α) (parser : Parser α) : Prop :=
  ∀ position cursor, cursor.StandsAt tokens position ->
    Agrees tokens position (indexed tokens position) (parser cursor)

/-- Is the value an answer that the parser gives at one of the tokens? -/
def Answers (tokens : List Token) (parser : Parser α) (value : α) : Prop :=
  ∃ position cursor after, cursor.StandsAt tokens position ∧ parser cursor = .ok value after

namespace Agrees

variable {tokens : List Token} {position between : Nat} {cursor : Cursor}

theorem behind
    {outcome : Outcome α}
    {result : EStateM.Result ParseError Cursor α}
    (moves : MovesTo tokens position between)
    (agrees : Agrees tokens between outcome result) :
    Agrees tokens position outcome result := by
  cases agrees with
  | ok further stands => exact .ok (moves.trans further) stands
  | error further stands => exact .error (moves.trans further) stands
  | stuck notQuoted => exact .stuck notQuoted

theorem bind
    {indexed : Indexed α}
    {parser : Parser α}
    {indexedNext : α -> Indexed β}
    {next : α -> Parser β}
    (agrees : Agrees tokens position (indexed tokens position) (parser cursor))
    (nextAgrees : ∀ value reached after,
      parser cursor = .ok value after -> after.StandsAt tokens reached ->
        Agrees tokens reached (indexedNext value tokens reached) (next value after)) :
    Agrees tokens position ((indexed >>= indexedNext) tokens position)
      ((parser >>= next) cursor) := by
  simp only [Bind.bind, EStateM.bind]
  generalize indexed tokens position = outcome at agrees
  generalize parserEquality : parser cursor = result at agrees
  cases agrees with
  | ok moves stands => exact (nextAgrees _ _ _ parserEquality stands).behind moves
  | error moves stands => exact .error moves stands
  | stuck notQuoted => exact .stuck notQuoted

end Agrees

/-- Where the test holds, a repetition is one item and a shorter repetition. -/
theorem Parser.repeatWhile_of_test_eq_true
    {test : Cursor -> Bool}
    {item : Parser α}
    {bound : Nat}
    {cursor : Cursor}
    (holds : test cursor = true) :
    repeatWhile test item (bound + 1) cursor =
      (item >>= fun first => repeatWhile test item bound >>= fun others =>
        pure (first :: others)) cursor := by
  change (if test cursor = true then
    (item >>= fun first => repeatWhile test item bound >>= fun others =>
      pure (first :: others) : Parser (List α)) else pure []) cursor = _
  rw [if_pos holds]

namespace Follows

variable {tokens : List Token}

theorem pure (value : α) :
    Follows tokens (pure value) (pure value) :=
  fun _ _ stands => .ok stands.movesTo_self stands

/-- In a sequence, the second parser goes on with an answer that the first one gave. -/
theorem bind
    {indexed : Indexed α}
    {parser : Parser α}
    {indexedNext : α -> Indexed β}
    {next : α -> Parser β}
    (firstFollows : Follows tokens indexed parser)
    (nextFollows : ∀ value, Answers tokens parser value ->
      Follows tokens (indexedNext value) (next value)) :
    Follows tokens (indexed >>= indexedNext) (parser >>= next) := by
  intro position cursor stands
  apply (firstFollows position cursor stands).bind
  intro value reached after answered standsBehind
  exact nextFollows value ⟨position, cursor, after, stands, answered⟩ reached after standsBehind

theorem ite
    {condition : Prop}
    [Decidable condition]
    {indexed indexedElse : Indexed α}
    {parser parserElse : Parser α}
    (thenFollows : condition -> Follows tokens indexed parser)
    (elseFollows : ¬condition -> Follows tokens indexedElse parserElse) :
    Follows tokens (if condition then indexed else indexedElse)
      (if condition then parser else parserElse) := by
  by_cases holds : condition
  · rw [if_pos holds, if_pos holds]
    exact thenFollows holds
  · rw [if_neg holds, if_neg holds]
    exact elseFollows holds

/-- What is taken for granted and holds is as good as answered. -/
theorem checked
    {value? : Option α}
    {value : α}
    (isValue : value? = some value) :
    Follows tokens (Indexed.checked value?) (Pure.pure value) := by
  rw [isValue]
  exact .pure value

/-! ## Basic parsers -/

theorem peek :
    Follows tokens Indexed.peek Parser.kind := by
  intro position cursor stands
  rw [Indexed.peek, Indexed.peekAt, stands.kind_eq]
  exact .ok stands.movesTo_self stands

theorem current :
    Follows tokens Indexed.current Parser.current := by
  intro position cursor stands
  rw [Indexed.current, stands.getElem?_eq]
  exact .ok stands.movesTo_self stands

theorem advance :
    Follows tokens Indexed.advance Parser.advance := by
  intro position cursor stands
  rw [Indexed.advance, stands.current_bind, Parser.advance]
  by_cases atEnd : cursor.current.kind = .endOfInput
  · rw [if_pos atEnd, Cursor.advance_of_kind_eq atEnd]
    exact .ok stands.movesTo_self stands
  · rw [if_neg atEnd]
    exact .ok (stands.movesTo_succ atEnd) (stands.advance atEnd)

theorem failAt
    (token : Token)
    (fault : ParseFault) :
    Follows tokens (Indexed.fail ⟨fault, token⟩ : Indexed α) (Parser.failAt token fault) :=
  fun _ _ stands => .error stands.movesTo_self stands

theorem failExpecting (what : String) :
    Follows tokens (Indexed.failExpecting what : Indexed α) (Parser.failExpecting what) := by
  intro position cursor stands
  rw [Indexed.failExpecting]
  simp only [Bind.bind, stands.unexpected_eq]
  exact .error stands.movesTo_self stands

theorem expect (kind : TokenKind) :
    Follows tokens (Indexed.expect kind) (Parser.expect kind) := by
  apply peek.bind
  intro _ _
  exact .ite (fun _ => advance) fun _ => failExpecting _

theorem expectValue (kind : TokenKind) :
    Follows tokens (Indexed.expectValue kind) (Parser.expectValue kind) := by
  apply (expect kind).bind
  intro _ _
  exact .pure _

theorem expectLiteral
    (kind : TokenKind)
    (value : String) :
    Follows tokens (Indexed.expectLiteral kind value) (Parser.expectLiteral kind value) := by
  apply current.bind
  intro _ _
  refine .ite (fun _ => ?_) fun _ => failExpecting _
  apply advance.bind
  intro _ _
  exact .pure ()

theorem skipBlank :
    Follows tokens Indexed.skipBlank Parser.skipBlank := by
  apply peek.bind
  intro _ _
  refine .ite (fun _ => ?_) fun _ => .pure ()
  apply advance.bind
  intro _ _
  exact .pure ()

theorem expectEnd :
    Follows tokens Indexed.expectEnd Parser.expectEnd := by
  apply (expect _).bind
  intro _ _
  exact .pure ()

/-- A loop ends before it has made as many tests as there are tokens ahead, since each round
moves the cursor. -/
theorem many
    {test : Cursor -> Bool}
    {indexedTest : List Token -> Nat -> Bool}
    {item : Parser α}
    {indexedItem : Indexed α}
    (progress : Parser.Progresses test item)
    (sameTest : ∀ position cursor, cursor.StandsAt tokens position ->
      indexedTest tokens position = test cursor)
    (itemFollows : Follows tokens indexedItem item) :
    Follows tokens (Indexed.many indexedTest indexedItem) (Parser.many test item) := by
  have rounds : ∀ bound position cursor, cursor.StandsAt tokens position ->
      cursor.ahead.length < bound ->
        Agrees tokens position (Indexed.repeatWhile indexedTest indexedItem bound tokens position)
          (Parser.repeatWhile test item bound cursor) := by
    intro bound
    induction bound with
    | zero => exact fun _ _ _ noRoom => absurd noRoom (Nat.not_lt_zero _)
    | succ bound inductionHypothesis =>
        intro position cursor stands room
        rw [Indexed.repeatWhile_succ, sameTest position cursor stands]
        by_cases holds : test cursor = true
        · rw [if_pos holds, Parser.repeatWhile_of_test_eq_true holds]
          apply (itemFollows position cursor stands).bind
          intro first reached after answered standsBehind
          have shorter := progress cursor first after holds answered
          apply (inductionHypothesis reached after standsBehind (by omega)).bind
          intro others _ _ _ standsLast
          exact .ok standsLast.movesTo_self standsLast
        · rw [if_neg holds, Parser.repeatWhile_succ, if_neg holds]
          exact .ok stands.movesTo_self stands
  intro position cursor stands
  rw [Indexed.many, stands.length_eq]
  exact rounds _ position cursor stands (Nat.lt_succ_self _)

/-! ## Selectors -/

theorem styleId :
    Follows tokens Indexed.styleId Parser.styleId := by
  apply peek.bind
  intro _ _
  refine .ite (fun _ => ?_) fun _ => .pure none
  apply advance.bind
  intro _ _
  exact .pure _

/-- A value that was expected is that of a token. -/
theorem exists_of_expectValue
    {kind : TokenKind}
    {value : String}
    (notEnd : kind ≠ .endOfInput)
    (answered : Answers tokens (Parser.expectValue kind) value) :
    ∃ token ∈ tokens, token.kind = kind ∧ token.value = value := by
  obtain ⟨position, cursor, after, stands, answered⟩ := answered
  obtain ⟨token, tokenKind, tokenValue, rfl⟩ := (Parser.expectValue_eq_ok_iff notEnd).mp answered
  have isFirst := stands.getElem?_eq
  exact ⟨token, List.mem_of_getElem? isFirst, tokenKind, tokenValue⟩

theorem unquoted
    {value : String}
    (isValue : ∃ token ∈ tokens, token.kind = .quoted ∧ token.value = value) :
    Follows tokens
      (Indexed.checked (Indexed.unquoted? value) >>= fun name => Pure.pure (some name))
      (Pure.pure (some (Parser.unquoted value))) := by
  cases sliced : Indexed.unquoted? value with
  | some name =>
      rw [Indexed.eq_unquoted_of_unquoted? sliced]
      exact .pure _
  | none =>
      obtain ⟨token, member, isQuoted, rfl⟩ := isValue
      intro position cursor stands
      apply Agrees.stuck
      intro wellQuoted
      rw [Indexed.unquoted?_of_isQuoted (wellQuoted token member isQuoted)] at sliced
      cases sliced

theorem styleName :
    Follows tokens Indexed.styleName Parser.styleName := by
  apply peek.bind
  intro _ _
  refine .ite (fun _ => ?_) fun _ => .pure none
  apply advance.bind
  intro _ _
  apply (expectLiteral _ _).bind
  intro _ _
  apply (expect _).bind
  intro _ _
  apply (expectValue _).bind
  intro value answered
  apply (expect _).bind
  intro _ _
  exact unquoted (exists_of_expectValue (by decide) answered)

theorem listType :
    Follows tokens Indexed.listType Parser.listType := by
  apply (expect _).bind
  intro word _
  refine .ite (fun _ => .pure true) fun _ => ?_
  exact .ite (fun _ => .pure false) fun _ => .failAt word _

theorem levelIndex (numeral : Token) :
    Follows tokens (Indexed.levelIndex numeral) (Parser.levelIndex numeral) := by
  rw [Indexed.levelIndex, Parser.levelIndex]
  cases Text.word? numeral.value with
  | none => exact .failAt numeral _
  | some level =>
      refine .ite (fun _ => .failAt numeral _) fun notZero => ?_
      exact .checked (Indexed.oneLess?_of_ne_zero notZero)

theorem listLevel :
    Follows tokens Indexed.listLevel Parser.listLevel := by
  apply peek.bind
  intro _ _
  refine .ite (fun _ => ?_) fun _ => .pure none
  apply advance.bind
  intro _ _
  apply listType.bind
  intro _ _
  apply (expect _).bind
  intro _ _
  apply (expect _).bind
  intro numeral _
  apply (levelIndex numeral).bind
  intro _ _
  apply (expect _).bind
  intro _ _
  exact .pure _

theorem paragraphSelector :
    Follows tokens Indexed.paragraphSelector Parser.paragraphSelector := by
  apply styleId.bind
  intro _ _
  apply styleName.bind
  intro _ _
  apply listLevel.bind
  intro _ _
  exact .pure _

theorem runSelector :
    Follows tokens Indexed.runSelector Parser.runSelector := by
  apply styleId.bind
  intro _ _
  apply styleName.bind
  intro _ _
  exact .pure _

theorem selector :
    Follows tokens Indexed.selector Parser.selector := by
  apply (expect _).bind
  intro word _
  refine .ite (fun _ => ?_) fun _ => .ite (fun _ => ?_) fun _ => ?_
  · apply paragraphSelector.bind
    intro _ _
    exact .pure _
  · apply runSelector.bind
    intro _ _
    exact .pure _
  · cases Parser.toggle? word.value with
    | none => exact .failAt word _
    | some toggle => exact .pure _

/-! ## Paths -/

theorem tagNames :
    Follows tokens Indexed.tagNames Parser.tagNames := by
  apply (expectValue _).bind
  intro _ _
  have barName : Follows tokens (Indexed.advance >>= fun _ => Indexed.expectValue .identifier)
      (Parser.advance >>= fun _ => Parser.expectValue .identifier) := by
    apply advance.bind
    intro _ _
    exact expectValue _
  apply (many Parser.progresses_barName (fun _ _ stands => stands.decide_kind_eq _) barName).bind
  intro _ _
  exact .pure _

theorem classNames :
    Follows tokens Indexed.classNames Parser.classNames := by
  refine many Parser.progresses_nextClassName (fun _ _ stands => stands.decide_kind_eq _) ?_
  apply advance.bind
  intro _ _
  exact .pure _

theorem isFresh :
    Follows tokens Indexed.isFresh Parser.isFresh := by
  apply peek.bind
  intro _ _
  refine .ite (fun _ => ?_) fun _ => .pure false
  apply advance.bind
  intro _ _
  apply (expectLiteral _ _).bind
  intro _ _
  exact .pure true

theorem ne_nil_of_tagNames
    {names : List String}
    (answered : Answers tokens Parser.tagNames names) :
    names ≠ [] := by
  obtain ⟨_, _, _, _, answered⟩ := answered
  rintro rfl
  exact Parser.separated_ne_ok_nil answered

theorem pathElement :
    Follows tokens Indexed.pathElement Parser.pathElement := by
  apply tagNames.bind
  intro names answered
  apply classNames.bind
  intro _ _
  apply isFresh.bind
  intro _ _
  exact .checked (if_neg (by simpa using ne_nil_of_tagNames answered))

theorem descendant :
    Follows tokens Indexed.descendant Parser.descendant := by
  apply advance.bind
  intro _ _
  apply advance.bind
  intro _ _
  apply (expect _).bind
  intro _ _
  exact pathElement

theorem path :
    Follows tokens Indexed.path Parser.path := by
  apply peek.bind
  intro _ _
  refine .ite (fun _ => ?_) fun _ => .ite (fun _ => ?_) fun _ => .pure _
  · apply advance.bind
    intro _ _
    exact .pure _
  · apply pathElement.bind
    intro _ _
    have sameTest : ∀ position cursor, cursor.StandsAt tokens position ->
        Indexed.atDescendant tokens position = Parser.atDescendant cursor := by
      intro position cursor stands
      rw [Indexed.atDescendant, stands.kind_eq, stands.kindAt_eq, Parser.atDescendant]
    apply (many (Parser.descendant_eq ▸ Parser.progresses_descendant) sameTest descendant).bind
    intro _ _
    exact .pure _

/-! ## Rules -/

theorem rule :
    Follows tokens Indexed.rule Parser.rule := by
  apply skipBlank.bind
  intro _ _
  apply selector.bind
  intro _ _
  apply skipBlank.bind
  intro _ _
  apply (expect _).bind
  intro _ _
  apply skipBlank.bind
  intro _ _
  apply path.bind
  intro _ _
  apply skipBlank.bind
  intro _ _
  apply expectEnd.bind
  intro _ _
  exact .pure _

end Follows

end StyleRules
