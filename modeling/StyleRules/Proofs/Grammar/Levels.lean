import StyleRules.Proofs.Grammar.Reading

/-!
# Rules for list levels

A rule for the paragraphs at a level of a list gives the level in digits, and counts
from one.  It is read as that rule when the level fits 32 bits and is not zero
(`parse_levelRule`).  Otherwise reading it fails at the digits (`failsAtLevel_of_zero`,
`failsAtLevel_of_size_le`).
-/

namespace StyleRules

/-- The text of a rule for the paragraphs at a level of a list. -/
def levelRule (ordered : Bool) (digits : List Char) (pathText : String) : String :=
  "p:" ++ listWord ordered ++ "(" ++ String.ofList digits ++ ") -> " ++ pathText

/-- What stands in front of the digits in such a text. -/
def beforeLevel (ordered : Bool) : List Char :=
  ['p'] ++ [':'] ++ (listWord ordered).toList ++ ['(']

/-- What stands behind the digits. -/
def behindLevel (pathText : String) : List Char :=
  [')', ' ', '-', '>', ' '] ++ pathText.toList

theorem toList_levelRule (ordered : Bool) (digits : List Char) (pathText : String) :
    (levelRule ordered digits pathText).toList =
      beforeLevel ordered ++ digits ++ behindLevel pathText := by
  simp [levelRule, beforeLevel, behindLevel]

/-- Does reading the text of the rule fail at the digits of its level, with the given
wording? -/
def FailsAtLevel
    (ordered : Bool)
    (digits : List Char)
    (pathText wording : String) : Prop :=
  ∃ error, StyleRule.parse (levelRule ordered digits pathText) = .error error ∧
    error.token ∈ Token.tokenize (levelRule ordered digits pathText) ∧
    error.token.kind = .integer ∧
    error.token.StandsBetween (beforeLevel ordered) digits (behindLevel pathText) ∧
    error.text = wording

theorem FailsAtLevel.parse_ne_ok
    {ordered : Bool}
    {digits : List Char}
    {pathText wording : String}
    (fails : FailsAtLevel ordered digits pathText wording)
    (rule : StyleRule) :
    StyleRule.parse (levelRule ordered digits pathText) ≠ .ok rule := by
  obtain ⟨error, failed, _⟩ := fails
  simp [failed]

/-! ## Levels that are read -/

/-- A positive number of 32 bits is the level of some index. -/
theorem exists_index_of_digitsValue
    {digits : List Char}
    (nonempty : digits ≠ [])
    (areDigits : ∀ c ∈ digits, c.isDigit = true)
    (positive : 1 ≤ Text.digitsValue digits)
    (fits : Text.digitsValue digits < UInt32.size) :
    ∃ index, Alphabet.characters.level index digits := by
  refine ⟨UInt32.ofNat (Text.digitsValue digits - 1), nonempty, areDigits, ?_⟩
  rw [UInt32.toNat_ofNat_of_lt' (by omega)]
  omega

/-- Digits that are worth one more than an index are the level of that index. -/
theorem parse_levelRule
    {digits : List Char}
    {index : UInt32}
    {pathText : String}
    {path : HtmlPath}
    (level : Alphabet.characters.level index digits)
    (pathParsed : HtmlPath.parse pathText = .ok path)
    (ordered : Bool) :
    StyleRule.parse (levelRule ordered digits pathText) =
      .ok ⟨.paragraph ⟨none, none, some ⟨index, ordered⟩⟩, path⟩ := by
  have keyword : Alphabet.characters.identifier "p" ['p'] := ⟨rfl, by decide +kernel⟩
  have listKeyword : Alphabet.characters.identifier (listWord ordered) (listWord ordered).toList :=
    ⟨rfl, isIdentifier_listWord ordered⟩
  have selector := Grammar.SpellsSelector.paragraph keyword .absent .absent
    (.present rfl listKeyword rfl level rfl)
  have blank : Text.isBlank ' ' = true := by decide
  refine StyleRule.parse_eq_ok_iff_splits.mpr ⟨[], _, [' '], [' '], pathText.toList, [], ?_, ?_,
    selector, HtmlPath.spells_of_parse pathParsed⟩
  · simp [levelRule, TokenKind.mark]
  · simp [blank]

/-! ## Levels that are not -/

/-- What stands in front of the digits is read as four lexemes, whatever follows. -/
theorem lexemes_beforeLevel (ordered : Bool) (rest : List Char) :
    Lexeme.lexemes (beforeLevel ordered ++ rest) =
      ⟨.identifier, ['p']⟩ :: ⟨.colon, [':']⟩ :: ⟨.identifier, (listWord ordered).toList⟩ ::
        ⟨.openParen, ['(']⟩ :: Lexeme.lexemes rest := by
  have splits : beforeLevel ordered ++ rest =
      ['p'] ++ ':' :: ((listWord ordered).toList ++ '(' :: rest) := by
    simp [beforeLevel]
  have word := Lexeme.lexemes_identifier (by decide +kernel : Lexeme.IsIdentifier ['p'])
    (Lexeme.breaks_cons ((listWord ordered).toList ++ '(' :: rest)
      (by decide +kernel : Lexeme.continuesIdentifier ':' = false) (by decide))
  have colon : Lexeme.lexemes (':' :: ((listWord ordered).toList ++ '(' :: rest)) =
      ⟨.colon, [':']⟩ :: Lexeme.lexemes ((listWord ordered).toList ++ '(' :: rest) :=
    @Lexeme.lexemes_mark .colon _ (by decide)
  have keyword := Lexeme.lexemes_identifier (isIdentifier_listWord ordered)
    (Lexeme.breaks_cons rest
      (by decide +kernel : Lexeme.continuesIdentifier '(' = false) (by decide))
  have opening : Lexeme.lexemes ('(' :: rest) = ⟨.openParen, ['(']⟩ :: Lexeme.lexemes rest :=
    @Lexeme.lexemes_mark .openParen rest (by decide)
  rw [splits, word, colon, keyword, opening]

/-- The words of the rule up to the digits, with what the parser looks at, and the token
of the digits. -/
theorem exists_wordsOf_levelRule
    {digits : List Char}
    (nonempty : digits ≠ [])
    (areDigits : ∀ c ∈ digits, c.isDigit = true)
    (ordered : Bool)
    (pathText : String) :
    ∃ word colon keyword opening others,
      (word.kind = .identifier ∧ word.value = "p") ∧ colon.kind = .colon ∧
        (keyword.kind = .identifier ∧ keyword.value = listWord ordered) ∧
        opening.kind = .openParen ∧
        Token.wordsOf (levelRule ordered digits pathText) =
          word :: colon :: keyword :: opening ::
            .ofLexeme (.advanceAll .start (beforeLevel ordered)) ⟨.integer, digits⟩ :: others := by
  have digitsEnd : ∀ c ∈ (behindLevel pathText).head?, c.isDigit = false := by
    rintro c ⟨⟩
    decide
  rw [Token.wordsOf, toList_levelRule, List.append_assoc, lexemes_beforeLevel,
    Lexeme.lexemes_integer nonempty areDigits digitsEnd]
  simp only [Token.placeWords, beforeLevel, Text.Position.advanceAll_append]
  exact ⟨_, _, _, _, _, ⟨rfl, rfl⟩, rfl, ⟨rfl, String.ofList_toList⟩, rfl, rfl⟩

namespace Parser

/-- Where the numeral of a level is no level, the parser for levels fails at it. -/
theorem listLevel_eq_error
    {colon keyword opening numeral : Token}
    {ordered : Bool}
    {error : ParseError}
    (colonKind : colon.kind = .colon)
    (isKeyword : keyword.kind = .identifier ∧ keyword.value = listWord ordered)
    (openingKind : opening.kind = .openParen)
    (numeralKind : numeral.kind = .integer)
    (fails : ∀ cursor, levelIndex numeral cursor = .error error cursor)
    (others : List Token)
    (after : Cursor) :
    listLevel (after.pushAll (colon :: keyword :: opening :: numeral :: others)) =
      .error error (after.pushAll others) := by
  have keywordRead : listType (after.pushAll (keyword :: opening :: numeral :: others)) =
      .ok ordered (after.pushAll (opening :: numeral :: others)) :=
    listType_eq_ok_iff.mpr ⟨keyword, isKeyword.1, isKeyword.2, by simp⟩
  have openingRead : expect .openParen (after.pushAll (opening :: numeral :: others)) =
      .ok opening (after.pushAll (numeral :: others)) := by
    rw [← openingKind, expect_pushAll_cons (by simp [openingKind])]
  have numeralRead : expect .integer (after.pushAll (numeral :: others)) =
      .ok numeral (after.pushAll others) := by
    rw [← numeralKind, expect_pushAll_cons (by simp [numeralKind])]
  rw [listLevel, kind_bind, Cursor.kind_pushAll_cons, if_pos colonKind, advance_bind,
    Cursor.advance_pushAll_cons _ _ (by simp [colonKind]), bind_of_eq_ok keywordRead,
    bind_of_eq_ok openingRead, bind_of_eq_ok numeralRead, bind_of_eq_error (fails _)]

/-- Where the level of a selector is no level, the parser for rules fails there. -/
theorem rule_eq_error
    {word : Token}
    {tokens : List Token}
    {after reached : Cursor}
    {error : ParseError}
    (isWord : word.kind = .identifier ∧ word.value = "p")
    (fails : listLevel (after.pushAll tokens) = .error error reached)
    (atColon : (after.pushAll tokens).kind = .colon) :
    rule (after.pushAll (word :: tokens)) = .error error reached := by
  have lead : skipBlank (after.pushAll (word :: tokens)) = .ok () _ :=
    skipBlank_eq_ok_iff.mpr (.inl ⟨by simp [isWord.1], rfl⟩)
  have wordRead : expect .identifier (after.pushAll (word :: tokens)) =
      .ok word (after.pushAll tokens) := by
    rw [← isWord.1, expect_pushAll_cons (by simp [isWord.1])]
  have noId : styleId (after.pushAll tokens) = .ok none (after.pushAll tokens) :=
    styleId_eq_ok_iff.mpr ⟨[], .absent, rfl, fun _ => by simp [atColon]⟩
  have noName : styleName (after.pushAll tokens) = .ok none (after.pushAll tokens) :=
    styleName_eq_ok_iff.mpr ⟨[], .absent, rfl, fun _ => by simp [atColon]⟩
  have clausesFail : paragraphSelector (after.pushAll tokens) = .error error reached := by
    rw [paragraphSelector, bind_of_eq_ok noId, bind_of_eq_ok noName, bind_of_eq_error fails]
  have selectorFails : selector (after.pushAll (word :: tokens)) = .error error reached := by
    rw [selector, bind_of_eq_ok wordRead, if_pos isWord.2, bind_of_eq_error clausesFail]
  rw [rule, bind_of_eq_ok lead, bind_of_eq_error selectorFails]

end Parser

/-- Digits that are read as no level make reading the rule fail at them. -/
theorem failsAtLevel_of_levelIndex
    {digits : List Char}
    (nonempty : digits ≠ [])
    (areDigits : ∀ c ∈ digits, c.isDigit = true)
    (fault : ParseFault)
    (fails : ∀ numeral cursor, numeral.value = String.ofList digits ->
      Parser.levelIndex numeral cursor = .error ⟨fault, numeral⟩ cursor)
    (ordered : Bool)
    (pathText wording : String)
    (worded : ∀ numeral, numeral.value = String.ofList digits ->
      ParseError.text ⟨fault, numeral⟩ = wording) :
    FailsAtLevel ordered digits pathText wording := by
  obtain ⟨word, colon, keyword, opening, others, isWord, colonKind, isKeyword, openingKind, words⟩ :=
    exists_wordsOf_levelRule nonempty areDigits ordered pathText
  let numeral : Token := .ofLexeme (.advanceAll .start (beforeLevel ordered)) ⟨.integer, digits⟩
  have levelFails := Parser.listLevel_eq_error colonKind isKeyword openingKind rfl
    (fun cursor => fails numeral cursor rfl) others (.atEndOf (levelRule ordered digits pathText))
  have failed := Parser.rule_eq_error isWord levelFails colonKind
  refine ⟨⟨fault, numeral⟩, ?_, ?_, rfl, ?_, worded numeral rfl⟩
  · rw [StyleRule.parse, Parser.runOn, Cursor.ofSource_eq, words, failed]
  · simp [Token.tokenize_eq_append, words, numeral]
  · exact Token.standsBetween_ofLexeme _ _ ⟨nonempty, areDigits⟩

/-- There is no level zero. -/
theorem failsAtLevel_of_zero
    {digits : List Char}
    (nonempty : digits ≠ [])
    (areDigits : ∀ c ∈ digits, c.isDigit = true)
    (isZero : Text.digitsValue digits = 0)
    (ordered : Bool)
    (pathText : String) :
    FailsAtLevel ordered digits pathText "List level must be at least 1" := by
  refine failsAtLevel_of_levelIndex nonempty areDigits .levelZero ?_ ordered pathText _
    fun _ _ => rfl
  intro numeral cursor isNumeral
  have reads : Text.word? numeral.value = some 0 := by
    rw [isNumeral, Text.word?_of_digits nonempty areDigits, isZero, if_pos (by decide)]
    rfl
  rw [Parser.levelIndex, reads]
  rfl

/-- Levels that do not fit 32 bits are too large. -/
theorem failsAtLevel_of_size_le
    {digits : List Char}
    (nonempty : digits ≠ [])
    (areDigits : ∀ c ∈ digits, c.isDigit = true)
    (tooLarge : UInt32.size ≤ Text.digitsValue digits)
    (ordered : Bool)
    (pathText : String) :
    FailsAtLevel ordered digits pathText
      ("List level is out of range: " ++ String.ofList digits) := by
  refine failsAtLevel_of_levelIndex nonempty areDigits .levelTooLarge ?_ ordered pathText _ ?_
  · intro numeral cursor isNumeral
    rw [Parser.levelIndex, isNumeral, Text.word?_of_digits nonempty areDigits,
      if_neg (Nat.not_lt.mpr tooLarge)]
    rfl
  · intro numeral isNumeral
    rw [ParseError.text, isNumeral]

end StyleRules
