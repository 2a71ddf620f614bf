import StyleRules.Proofs.Grammar.Rules
import StyleRules.Proofs.Grammar.Writing
import StyleRules.Proofs.Parser.Places
import StyleRules.Proofs.Text.Trimming
import StyleRules.Proofs.Token.Separation

/-!
# Indented rules

Blanks in front of a text on one line push its tokens along the line: they come behind more
bytes, and their column is as many characters further.  The parser for rules passes over the
blanks and does not look at places, so it reads the same rule, or it fails in the same way
at the same token, which is pushed along (`StyleRule.parse_indented`).
-/

namespace StyleRules

/-! ## Places behind more characters -/

namespace Text.Position

/-- The position with more characters in front of it on its line. -/
def behind (lead : List Char) (position : Position) : Position :=
  { position with
    offset := position.offset + byteSize lead
    column := position.column + lead.length }

theorem behind_comm
    (lead more : List Char)
    (position : Position) :
    (position.behind lead).behind more = (position.behind more).behind lead := by
  simp only [behind, Position.mk.injEq, true_and]
  omega

/-- Characters on one line push a position along the line. -/
theorem advanceAll_eq_behind
    {cs : List Char}
    (noNewline : '\n' ∉ cs)
    (position : Position) :
    position.advanceAll cs = position.behind cs := by
  induction cs generalizing position with
  | nil => rfl
  | cons c cs inductionHypothesis =>
      obtain ⟨notNewline, noneBehind⟩ := List.ne_and_not_mem_of_not_mem_cons noNewline
      rw [advanceAll_cons, inductionHypothesis noneBehind, advance, if_neg (Ne.symm notNewline)]
      simp only [behind, byteSize_cons, List.length_cons, Position.mk.injEq, true_and]
      omega

/-- What is in front of a line pushes every position on the line along. -/
theorem advanceAll_behind
    {cs : List Char}
    (noNewline : '\n' ∉ cs)
    (lead : List Char)
    (position : Position) :
    (position.behind lead).advanceAll cs = (position.advanceAll cs).behind lead := by
  rw [advanceAll_eq_behind noNewline, advanceAll_eq_behind noNewline, behind_comm]

end Text.Position

/-- The place of a token with more characters in front of it on its line. -/
def Span.behind (lead : List Char) (span : Span) : Span :=
  { span with
    start := span.start + Text.byteSize lead
    stop := span.stop + Text.byteSize lead
    column := span.column + lead.length }

theorem Span.behind_append
    (lead more : List Char)
    (span : Span) :
    span.behind (lead ++ more) = (span.behind more).behind lead := by
  simp only [behind, Text.byteSize_append, List.length_append, Span.mk.injEq, true_and]
  omega

/-- The error with more characters in front of its token on the line. -/
def ParseError.behind (lead : List Char) (error : ParseError) : ParseError :=
  error.moved (Span.behind lead)

theorem ParseError.behind_append
    (lead more : List Char)
    (error : ParseError) :
    error.behind (lead ++ more) = (error.behind more).behind lead := by
  simp only [behind, moved, Token.moved, Span.behind_append]

/-! ## Tokens behind more characters -/

namespace Token

theorem endAt_behind
    (lead : List Char)
    (position : Text.Position) :
    endAt (position.behind lead) = (endAt position).moved (Span.behind lead) :=
  rfl

theorem ofLexeme_behind
    {lexeme : Lexeme}
    (noNewline : '\n' ∉ lexeme.text)
    (lead : List Char)
    (position : Text.Position) :
    ofLexeme (position.behind lead) lexeme =
      (ofLexeme position lexeme).moved (Span.behind lead) := by
  rw [ofLexeme, Text.Position.advanceAll_behind noNewline]
  rfl

theorem placeWords_behind
    {lexemes : List Lexeme}
    (noNewline : '\n' ∉ lexemes.flatMap Lexeme.text)
    (lead : List Char)
    (position : Text.Position) :
    placeWords (position.behind lead) lexemes =
      (placeWords position lexemes).map (Token.moved (Span.behind lead)) := by
  induction lexemes generalizing position with
  | nil => rfl
  | cons lexeme lexemes inductionHypothesis =>
      rw [List.flatMap_cons, List.mem_append, not_or] at noNewline
      obtain ⟨headNoNewline, tailNoNewline⟩ := noNewline
      rw [placeWords, placeWords, List.map_cons, ofLexeme_behind headNoNewline,
        Text.Position.advanceAll_behind headNoNewline, inductionHypothesis tailNoNewline]

/-- Blanks in front of a text that does not begin with one are one word or none. -/
theorem exists_wordsOf_indented
    {lead text : List Char}
    (areBlank : ∀ c ∈ lead, Text.isBlank c = true)
    (ends : ∀ c ∈ text.head?, Text.isBlank c = false) :
    ∃ gap, Grammar.SpellsGap .tokens gap ∧
      wordsOf (String.ofList (lead ++ text)) =
        gap ++ placeWords (Text.Position.start.advanceAll lead) (Lexeme.lexemes text) := by
  rw [wordsOf, String.toList_ofList]
  by_cases isEmpty : lead = []
  · subst isEmpty
    exact ⟨[], .inl rfl, rfl⟩
  · rw [Lexeme.lexemes_blank isEmpty areBlank ends]
    exact ⟨[ofLexeme .start ⟨.blank, lead⟩], .inr ⟨_, rfl, rfl⟩, rfl⟩

end Token

namespace Cursor

theorem moved_pushAll
    (move : Span -> Span)
    (cursor : Cursor)
    (tokens : List Token) :
    (cursor.pushAll tokens).moved move =
      (cursor.moved move).pushAll (tokens.map (Token.moved move)) := by
  simp only [moved, pushAll, List.map_append]

theorem atEndOf_indented
    {lead text : List Char}
    (leadNoNewline : '\n' ∉ lead)
    (textNoNewline : '\n' ∉ text) :
    atEndOf (String.ofList (lead ++ text)) =
      (atEndOf (String.ofList text)).moved (Span.behind lead) := by
  have endPushed :
      Token.endOf (String.ofList (lead ++ text)) =
        (Token.endOf (String.ofList text)).moved (Span.behind lead) := by
    rw [Token.endOf, Token.endOf, String.toList_ofList, String.toList_ofList,
      Text.Position.advanceAll_append, Text.Position.advanceAll_eq_behind leadNoNewline,
      Text.Position.advanceAll_behind textNoNewline, Token.endAt_behind]
  simp only [atEndOf, moved, endPushed, List.map_nil]

/-- The cursor before an indented text stands before the indentation and, behind it, before
the tokens of the text, pushed along. -/
theorem exists_ofSource_indented
    {lead text : List Char}
    (areBlank : ∀ c ∈ lead, Text.isBlank c = true)
    (leadNoNewline : '\n' ∉ lead)
    (textNoNewline : '\n' ∉ text)
    (ends : ∀ c ∈ text.head?, Text.isBlank c = false) :
    ∃ gap, Grammar.SpellsGap .tokens gap ∧
      ofSource (String.ofList (lead ++ text)) =
        ((ofSource (String.ofList text)).moved (Span.behind lead)).pushAll gap := by
  obtain ⟨gap, gapSpelled, words⟩ := Token.exists_wordsOf_indented areBlank ends
  have textWords := (Lexeme.flatMap_text_lexemes text).symm ▸ textNoNewline
  refine ⟨gap, gapSpelled, ?_⟩
  rw [ofSource_eq, ofSource_eq, words, moved_pushAll, pushAll_pushAll,
    atEndOf_indented leadNoNewline textNoNewline,
    Text.Position.advanceAll_eq_behind leadNoNewline, Token.placeWords_behind textWords,
    Token.wordsOf, String.toList_ofList]

theorem kind_ofSource_ne_blank
    {text : List Char}
    (ends : ∀ c ∈ text.head?, Text.isBlank c = false) :
    (ofSource (String.ofList text)).kind ≠ .blank := by
  rw [ofSource_eq, Token.wordsOf, String.toList_ofList]
  cases text with
  | nil =>
      rw [Lexeme.lexemes_nil]
      exact TokenKind.noConfusion
  | cons c rest =>
      rw [Lexeme.lexemes_cons, Token.placeWords, kind_pushAll_cons]
      intro isBlank
      have wellFormed := Lexeme.wellFormed_scan c rest
      rw [Lexeme.WellFormed, show (Lexeme.scan c rest).1 = .blank from isBlank] at wellFormed
      have blank : Text.isBlank c = true := wellFormed.2 c List.mem_cons_self
      rw [ends c rfl] at blank
      exact absurd blank Bool.false_ne_true

end Cursor

/-! ## Rules behind blanks -/

/-- The parser for rules passes over a gap in front of the rule. -/
theorem Parser.rule_pushAll_gap
    {gap : List Token}
    {cursor : Cursor}
    (gapSpelled : Grammar.SpellsGap .tokens gap)
    (notBlank : cursor.kind ≠ .blank) :
    rule (cursor.pushAll gap) = rule cursor := by
  have gapSkipped := skipBlank_of_gap cursor gapSpelled fun _ => notBlank
  have nothingSkipped := skipBlank_of_gap cursor (.inl rfl) fun _ => notBlank
  rw [Cursor.pushAll_nil] at nothingSkipped
  rw [rule, bind_of_eq_ok gapSkipped, bind_of_eq_ok nothingSkipped]

namespace StyleRule

theorem parse_blanks_append
    {lead text : List Char}
    (areBlank : ∀ c ∈ lead, Text.isBlank c = true)
    (leadNoNewline : '\n' ∉ lead)
    (textNoNewline : '\n' ∉ text)
    (ends : ∀ c ∈ text.head?, Text.isBlank c = false) :
    parse (String.ofList (lead ++ text)) =
      (parse (String.ofList text)).mapError (ParseError.behind lead) := by
  obtain ⟨gap, gapSpelled, cursorSplits⟩ :=
    Cursor.exists_ofSource_indented areBlank leadNoNewline textNoNewline ends
  have notBlank := Cursor.kind_ofSource_ne_blank ends
  rw [← Cursor.kind_moved (Span.behind lead)] at notBlank
  rw [parse, parse, Parser.runOn, Parser.runOn, cursorSplits,
    Parser.rule_pushAll_gap gapSpelled notBlank, Parser.movesAlong_rule]
  cases Parser.rule (Cursor.ofSource (String.ofList text)) <;> rfl

/-- An indented text is read as the same rule, or it fails in the same way, at the same
token pushed along the line. -/
theorem parse_indented
    {gap text : List Char}
    (areBlank : ∀ c ∈ gap, Text.isBlank c = true)
    (gapNoNewline : '\n' ∉ gap)
    (textNoNewline : '\n' ∉ text) :
    parse (String.ofList (gap ++ text)) =
      (parse (String.ofList text)).mapError (ParseError.behind gap) := by
  -- The gap and the blanks that the text begins with are one gap before the rest of the text.
  obtain ⟨lead, rest, rfl, leadBlank, ends⟩ := Text.exists_blanks_in_front text
  rw [List.mem_append, not_or] at textNoNewline
  have wholeBlank := List.forall_mem_append.mpr ⟨areBlank, leadBlank⟩
  have wholeNoNewline : '\n' ∉ gap ++ lead := by
    rw [List.mem_append, not_or]
    exact ⟨gapNoNewline, textNoNewline.1⟩
  rw [← List.append_assoc, parse_blanks_append wholeBlank wholeNoNewline textNoNewline.2 ends,
    parse_blanks_append leadBlank textNoNewline.1 textNoNewline.2 ends]
  cases parse (String.ofList rest) with
  | ok rule => rfl
  | error error => exact congrArg Except.error (error.behind_append gap lead)

end StyleRule
end StyleRules
