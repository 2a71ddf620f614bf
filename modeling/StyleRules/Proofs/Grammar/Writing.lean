import StyleRules.Proofs.Grammar.Rules
import StyleRules.Proofs.Text.Numerals
import StyleRules.Proofs.Token.Coverage

/-!
# From tokens to characters

The words of a text are genuine tokens: the characters that they were read from
have the shape of their kind.  What genuine tokens spell, their characters spell
too (`tokens_carries_characters`), so a text that is read as a rule or as a path spells
it.
-/

namespace StyleRules

namespace Token

/-- The characters that a token was read from. -/
def text (token : Token) : List Char :=
  match token.kind with
  | .className => '.' :: token.value.toList
  | _ => token.value.toList

/-- Do the characters have the shape of the kind? -/
def Genuine (token : Token) : Prop :=
  Lexeme.WellFormed ⟨token.kind, token.text⟩

theorem text_ofLexeme
    {lexeme : Lexeme}
    (position : Text.Position)
    (wellFormed : lexeme.WellFormed) :
    (ofLexeme position lexeme).text = lexeme.text := by
  obtain ⟨kind, text⟩ := lexeme
  cases kind with
  | className =>
      obtain ⟨name, rfl, _⟩ := wellFormed
      simp [Token.text, ofLexeme, Lexeme.value]
  | _ => simp [Token.text, ofLexeme, Lexeme.value]

theorem genuine_ofLexeme
    {lexeme : Lexeme}
    (position : Text.Position)
    (wellFormed : lexeme.WellFormed) :
    (ofLexeme position lexeme).Genuine := by
  rw [Genuine, text_ofLexeme position wellFormed]
  exact wellFormed

theorem genuine_of_mem_wordsOf
    {source : String}
    {token : Token}
    (member : token ∈ wordsOf source) :
    token.Genuine := by
  obtain ⟨lexeme, lexemeMember, reached, rfl⟩ := exists_of_mem_placeWords member
  exact genuine_ofLexeme reached (Lexeme.wellFormed_of_mem_lexemes lexemeMember)

theorem flatMap_text_placeWords
    {lexemes : List Lexeme}
    (position : Text.Position)
    (wellFormed : ∀ lexeme ∈ lexemes, lexeme.WellFormed) :
    (placeWords position lexemes).flatMap text = lexemes.flatMap Lexeme.text := by
  induction lexemes generalizing position with
  | nil => rfl
  | cons lexeme lexemes inductionHypothesis =>
      obtain ⟨headWellFormed, tailWellFormed⟩ := List.forall_mem_cons.mp wellFormed
      rw [placeWords, List.flatMap_cons, List.flatMap_cons, text_ofLexeme position headWellFormed,
        inductionHypothesis _ tailWellFormed]

/-- The words of a text are read from all of its characters. -/
theorem flatMap_text_wordsOf (source : String) :
    (wordsOf source).flatMap text = source.toList := by
  rw [wordsOf, flatMap_text_placeWords .start fun _ => Lexeme.wellFormed_of_mem_lexemes,
    Lexeme.flatMap_text_lexemes]

end Token

namespace Alphabet

open Token (Genuine)

/-- A letter that is one genuine token is written as its characters. -/
theorem exists_token
    {kind : TokenKind}
    {text : List Token}
    (property : Token -> Prop)
    (allGenuine : ∀ token ∈ text, Genuine token)
    (single : ∃ token, text = [token] ∧ token.kind = kind ∧ property token) :
    ∃ token, Lexeme.WellFormed ⟨kind, token.text⟩ ∧ text.flatMap Token.text = token.text ∧
      token.kind = kind ∧ property token := by
  obtain ⟨token, rfl, rfl, holds⟩ := single
  exact ⟨token, allGenuine token List.mem_cons_self, by simp, rfl, holds⟩

theorem text_eq_value
    {token : Token}
    (notClassName : token.kind ≠ .className) :
    token.text = token.value.toList := by
  unfold Token.text
  split
  · rename_i isClassName
    exact absurd isClassName notClassName
  · rfl

/-- What genuine tokens spell, their characters spell. -/
theorem tokens_carries_characters :
    tokens.Carries characters Genuine Token.text where
  identifier allGenuine letter := by
    obtain ⟨token, wellFormed, written, tokenKind, rfl⟩ := exists_token _ allGenuine letter
    have textEquality := text_eq_value (by simp [tokenKind] : token.kind ≠ .className)
    rw [written, textEquality]
    rw [textEquality] at wellFormed
    exact ⟨rfl, wellFormed⟩
  className allGenuine letter := by
    obtain ⟨token, wellFormed, written, tokenKind, rfl⟩ := exists_token _ allGenuine letter
    have textEquality : token.text = '.' :: token.value.toList := by
      simp [Token.text, tokenKind]
    rw [textEquality] at wellFormed
    obtain ⟨name, same, identifier⟩ := wellFormed
    obtain ⟨_, rfl⟩ := List.cons.inj same
    rw [written]
    exact ⟨textEquality, identifier⟩
  quoted allGenuine letter := by
    obtain ⟨token, wellFormed, written, tokenKind, valueEquality⟩ := exists_token _ allGenuine letter
    rw [text_eq_value (by simp [tokenKind])] at wellFormed written
    obtain ⟨name, same, unquoted⟩ := wellFormed
    have same : token.value.toList = Lexeme.quote :: (name ++ [Lexeme.quote]) := same
    simp only [same, List.tail_cons, List.dropLast_concat] at valueEquality
    subst valueEquality
    rw [written]
    exact ⟨same, unquoted⟩
  level allGenuine letter := by
    obtain ⟨token, level, single, tokenKind, reads, notZero, levelEquality⟩ := letter
    obtain ⟨token, wellFormed, written, tokenKind, reads⟩ :=
      exists_token (fun token => Text.word? token.value = some level) allGenuine
        ⟨token, single, tokenKind, reads⟩
    rw [text_eq_value (by simp [tokenKind])] at wellFormed written
    obtain ⟨nonempty, areDigits⟩ := wellFormed
    rw [written]
    refine ⟨nonempty, areDigits, (Text.exists_level_iff nonempty areDigits).mp ?_⟩
    rw [String.ofList_toList]
    exact ⟨level, reads, notZero, levelEquality⟩
  mark {kind text} allGenuine marked letter := by
    obtain ⟨token, rfl, rfl⟩ := letter
    have wellFormed : Genuine token := allGenuine token List.mem_cons_self
    rw [List.flatMap_singleton]
    unfold Genuine at wellFormed
    generalize token.kind = kind at marked wellFormed ⊢
    cases kind <;> first
      | exact absurd rfl marked
      | exact wellFormed
  blank allGenuine letter := by
    obtain ⟨token, rfl, tokenKind⟩ := letter
    have wellFormed : Genuine token := allGenuine token List.mem_cons_self
    rw [Genuine, tokenKind] at wellFormed
    rw [List.flatMap_singleton]
    exact wellFormed

end Alphabet

namespace Cursor

/-- The cursor behind all words of a text. -/
def atEndOf (source : String) : Cursor where
  ahead := []
  stop := Token.endOf source
  stop_kind := rfl

theorem ofSource_eq (source : String) :
    ofSource source = (atEndOf source).pushAll (Token.wordsOf source) := by
  have isEnd : (Token.endOf source).kind = .endOfInput := rfl
  rw [ofSource, Token.tokenize_eq_append, ofTokens]
  simp only [List.getLast?_append, List.getLast?_singleton, Option.some_or]
  rw [dif_pos isEnd]
  simp [pushAll, atEndOf]

/-- No word of a text is an end of the input, so before an end of the input none is
left. -/
theorem eq_atEndOf
    {source : String}
    {after : Cursor}
    {tokens : List Token}
    (splits : ofSource source = after.pushAll tokens)
    (atEnd : after.kind = .endOfInput) :
    tokens = Token.wordsOf source ∧ after = atEndOf source := by
  rw [ofSource_eq] at splits
  obtain ⟨ahead, stop, stopKind⟩ := after
  simp only [pushAll, atEndOf, Cursor.mk.injEq, List.append_nil] at splits
  obtain ⟨wordsEquality, rfl⟩ := splits
  cases ahead with
  | nil => exact ⟨by rw [wordsEquality, List.append_nil], rfl⟩
  | cons token rest =>
      have member : token ∈ Token.wordsOf source := by simp [wordsEquality]
      exact absurd atEnd (Token.kind_ne_endOfInput_of_mem_wordsOf member)

end Cursor

theorem Parser.runOn_eq_ok_iff
    {source : String}
    {parser : Parser α}
    {value : α} :
    runOn source parser = .ok value ↔ ∃ after, parser (Cursor.ofSource source) = .ok value after := by
  rw [runOn]
  cases parser (Cursor.ofSource source) <;> simp

namespace StyleRule

open Grammar

/-- A text is read as a rule when its words spell the rule. -/
theorem parse_eq_ok_iff_words
    {source : String}
    {rule : StyleRule} :
    parse source = .ok rule ↔ SpellsRule .tokens rule (Token.wordsOf source) := by
  simp only [parse, Parser.runOn_eq_ok_iff, Parser.rule_eq_ok_iff]
  constructor
  · rintro ⟨after, tokens, spells, splits, atEnd⟩
    obtain ⟨rfl, rfl⟩ := Cursor.eq_atEndOf splits atEnd
    exact spells
  · intro spells
    exact ⟨_, _, spells, Cursor.ofSource_eq source, rfl⟩

/-- A text that is read as a rule spells it. -/
theorem spells_of_parse
    {source : String}
    {rule : StyleRule}
    (parsed : parse source = .ok rule) :
    SpellsRule .characters rule source.toList := by
  have spells := parse_eq_ok_iff_words.mp parsed
  rw [← Token.flatMap_text_wordsOf]
  exact spells.carry Alphabet.tokens_carries_characters fun _ => Token.genuine_of_mem_wordsOf

end StyleRule

namespace HtmlPath

open Grammar

/-- A text is read as a path when its words spell the path. -/
theorem parse_eq_ok_iff_words
    {source : String}
    {path : HtmlPath} :
    parse source = .ok path ↔ SpellsPath .tokens path (Token.wordsOf source) := by
  simp only [parse, Parser.runOn_eq_ok_iff, Parser.bind_eq_ok_iff, Parser.pure_eq_ok_iff,
    Parser.path_eq_ok_iff, Parser.expectEnd_eq_ok_iff]
  constructor
  · rintro ⟨_, _, _, ⟨tokens, spells, splits, _⟩, _, _, ⟨atEnd, rfl⟩, rfl, rfl⟩
    obtain ⟨rfl, rfl⟩ := Cursor.eq_atEndOf splits atEnd
    exact spells
  · intro spells
    have ends := @Parser.endsPath_of_gap path [] (.atEndOf source) (.inl rfl) rfl
    exact ⟨_, path, _, ⟨_, spells, Cursor.ofSource_eq source, ends⟩, (), _, ⟨rfl, rfl⟩, rfl, rfl⟩

/-- A text that is read as a path spells it. -/
theorem spells_of_parse
    {source : String}
    {path : HtmlPath}
    (parsed : parse source = .ok path) :
    SpellsPath .characters path source.toList := by
  have spells := parse_eq_ok_iff_words.mp parsed
  rw [← Token.flatMap_text_wordsOf]
  exact spells.carry Alphabet.tokens_carries_characters fun _ => Token.genuine_of_mem_wordsOf

end HtmlPath
end StyleRules
