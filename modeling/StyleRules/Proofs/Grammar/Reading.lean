import StyleRules.Proofs.Grammar.Writing
import StyleRules.Proofs.Token.Separation

/-!
# From characters to tokens

The scanner knows nothing of the grammar: whether it cuts a text into the letters
of a rule depends on what stands behind each letter.  A letter is read as one
token where the text behind it does not extend it, and every part of a rule is
followed by something of that kind (`Lexeme.Breaks`).  So a text that spells a
rule is read as that rule.

The only place where letters are lost is an empty path with a blank run on both
sides, which is one run.
-/

namespace StyleRules

open Lexeme (Breaks)

/-- In front of the rest of a text, the characters are read as tokens of the given
form, wherever they stand. -/
def ReadAs (form : List Token -> Prop) (text rest : List Char) : Prop :=
  ∀ position, ∃ tokens reached, form tokens ∧
    Token.placeWords position (Lexeme.lexemes (text ++ rest)) =
      tokens ++ Token.placeWords reached (Lexeme.lexemes rest)

/-- Does a blank run end before the rest of a text? -/
def BlankEnds (rest : List Char) : Prop :=
  ∀ c ∈ rest.head?, Text.isBlank c = false

theorem blankEnds_cons
    {c : Char}
    (rest : List Char)
    (notBlank : Text.isBlank c = false) :
    BlankEnds (c :: rest) := by
  intro first isFirst
  obtain rfl : c = first := by simpa using isFirst
  exact notBlank

namespace ReadAs

theorem nil
    {form : List Token -> Prop}
    (rest : List Char)
    (holds : form []) :
    ReadAs form [] rest := by
  intro position
  exact ⟨[], position, holds, rfl⟩

theorem append
    {form others : List Token -> Prop}
    {text more rest : List Char}
    (first : ReadAs form text (more ++ rest))
    (second : ReadAs others more rest) :
    ReadAs (fun all => ∃ tokens moreTokens, all = tokens ++ moreTokens ∧ form tokens ∧
      others moreTokens) (text ++ more) rest := by
  intro position
  obtain ⟨tokens, between, firstHolds, firstRead⟩ := first position
  obtain ⟨moreTokens, reached, secondHolds, secondRead⟩ := second between
  refine ⟨tokens ++ moreTokens, reached, ⟨_, _, rfl, firstHolds, secondHolds⟩, ?_⟩
  rw [List.append_assoc, firstRead, secondRead, List.append_assoc]

/-- A text that is one lexeme is read as the token of that lexeme. -/
theorem of_lexemes
    {form : List Token -> Prop}
    {kind : TokenKind}
    {text rest : List Char}
    (scanned : Lexeme.lexemes (text ++ rest) = ⟨kind, text⟩ :: Lexeme.lexemes rest)
    (holds : ∀ position, form [Token.ofLexeme position ⟨kind, text⟩]) :
    ReadAs form text rest := by
  intro position
  refine ⟨[Token.ofLexeme position ⟨kind, text⟩], position.advanceAll text, holds position, ?_⟩
  rw [scanned]
  rfl

theorem mono
    {form weaker : List Token -> Prop}
    {text rest : List Char}
    (reads : ReadAs form text rest)
    (implies : ∀ tokens, form tokens -> weaker tokens) :
    ReadAs weaker text rest := by
  intro position
  obtain ⟨tokens, reached, holds, same⟩ := reads position
  exact ⟨tokens, reached, implies tokens holds, same⟩

end ReadAs

namespace Alphabet

theorem readAs_identifier
    {name : String}
    {text rest : List Char}
    (letter : characters.identifier name text)
    (breaks : Breaks rest) :
    ReadAs (tokens.identifier name) text rest := by
  obtain ⟨rfl, identifier⟩ := letter
  apply ReadAs.of_lexemes (Lexeme.lexemes_identifier identifier breaks)
  intro position
  exact ⟨_, rfl, rfl, String.ofList_toList⟩

theorem readAs_className
    {name : String}
    {text rest : List Char}
    (letter : characters.className name text)
    (breaks : Breaks rest) :
    ReadAs (tokens.className name) text rest := by
  obtain ⟨rfl, identifier⟩ := letter
  apply ReadAs.of_lexemes (Lexeme.lexemes_className identifier breaks)
  intro position
  exact ⟨_, rfl, rfl, String.ofList_toList⟩

theorem readAs_quoted
    {name : String}
    {text : List Char}
    (rest : List Char)
    (letter : characters.quoted name text) :
    ReadAs (tokens.quoted name) text rest := by
  obtain ⟨rfl, unquoted⟩ := letter
  apply ReadAs.of_lexemes (Lexeme.lexemes_quoted rest unquoted)
  intro position
  refine ⟨_, rfl, rfl, ?_⟩
  simp [Token.ofLexeme, Lexeme.value]

theorem readAs_level
    {index : UInt32}
    {text rest : List Char}
    (letter : characters.level index text)
    (ends : ∀ c ∈ rest.head?, c.isDigit = false) :
    ReadAs (tokens.level index) text rest := by
  obtain ⟨nonempty, areDigits, worth⟩ := letter
  apply ReadAs.of_lexemes (Lexeme.lexemes_integer nonempty areDigits ends)
  intro position
  obtain ⟨level, reads, levelEquality⟩ := (Text.exists_level_iff nonempty areDigits).mpr worth
  exact ⟨_, level, rfl, rfl, reads, levelEquality⟩

theorem readAs_mark
    {kind : TokenKind}
    {text : List Char}
    (rest : List Char)
    (marked : kind.mark ≠ [])
    (letter : characters.mark kind text) :
    ReadAs (tokens.mark kind) text rest := by
  obtain rfl := letter
  apply ReadAs.of_lexemes (Lexeme.lexemes_mark rest marked)
  intro position
  exact ⟨_, rfl, rfl⟩

theorem readAs_blank
    {text rest : List Char}
    (letter : characters.blank text)
    (ends : BlankEnds rest) :
    ReadAs tokens.blank text rest := by
  obtain ⟨nonempty, areBlank⟩ := letter
  apply ReadAs.of_lexemes (Lexeme.lexemes_blank nonempty areBlank ends)
  intro position
  exact ⟨_, rfl, rfl⟩

/-- Behind a mark that is one character, other than `>`, an identifier ends. -/
theorem breaks_mark
    {kind : TokenKind}
    {text : List Char}
    (rest : List Char)
    (letter : characters.mark kind text)
    (marked : kind.mark ≠ [])
    (noArrow : kind ≠ .greaterThan) :
    Breaks (text ++ rest) := by
  obtain rfl := letter
  cases kind <;> first
    | exact absurd rfl marked
    | exact absurd rfl noArrow
    | exact Lexeme.breaks_arrow rest
    | exact Lexeme.breaks_cons rest (by decide +kernel) (by decide)

theorem breaks_className
    {name : String}
    {text : List Char}
    (rest : List Char)
    (letter : characters.className name text) :
    Breaks (text ++ rest) := by
  obtain ⟨rfl, _⟩ := letter
  exact Lexeme.breaks_cons _ (by decide +kernel) (by decide)

theorem breaks_blank
    {text : List Char}
    (rest : List Char)
    (letter : characters.blank text) :
    Breaks (text ++ rest) := by
  obtain ⟨nonempty, areBlank⟩ := letter
  cases text with
  | nil => exact absurd rfl nonempty
  | cons c text => exact Lexeme.breaks_of_isBlank _ (areBlank c List.mem_cons_self)

theorem blankEnds_identifier
    {name : String}
    {text : List Char}
    (rest : List Char)
    (letter : characters.identifier name text) :
    BlankEnds (text ++ rest) := by
  obtain ⟨rfl, identifier⟩ := letter
  cases nameEquality : name.toList with
  | nil => exact absurd nameEquality identifier.ne_nil
  | cons first others =>
      rw [nameEquality] at identifier
      apply blankEnds_cons
      exact (Lexeme.startsIdentifier_cases identifier.1).2.2.1

theorem blankEnds_mark
    {kind : TokenKind}
    {text : List Char}
    (rest : List Char)
    (marked : kind.mark ≠ [])
    (letter : characters.mark kind text) :
    BlankEnds (text ++ rest) := by
  obtain rfl := letter
  cases kind <;> first
    | exact absurd rfl marked
    | exact blankEnds_cons _ (by decide)

end Alphabet

namespace Grammar

open Alphabet

theorem SpellsGap.readAs
    {text rest : List Char}
    (spells : SpellsGap .characters text)
    (ends : BlankEnds rest) :
    ReadAs (SpellsGap .tokens) text rest := by
  rcases spells with rfl | blank
  · exact .nil rest (.inl rfl)
  · exact (readAs_blank blank ends).mono fun _ => .inr

theorem SpellsGap.breaks
    {text rest : List Char}
    (spells : SpellsGap .characters text)
    (breaks : Breaks rest) :
    Breaks (text ++ rest) := by
  rcases spells with rfl | blank
  · exact breaks
  · exact breaks_blank rest blank

theorem SpellsStyleId.readAs
    {styleId : Option String}
    {text rest : List Char}
    (spells : SpellsStyleId .characters styleId text)
    (breaks : Breaks rest) :
    ReadAs (SpellsStyleId .tokens styleId) text rest := by
  cases spells with
  | absent => exact .nil rest .absent
  | present name => exact (readAs_className name breaks).mono fun _ => .present

theorem SpellsStyleId.breaks
    {styleId : Option String}
    {text rest : List Char}
    (spells : SpellsStyleId .characters styleId text)
    (breaks : Breaks rest) :
    Breaks (text ++ rest) := by
  cases spells with
  | absent => exact breaks
  | present name => exact breaks_className rest name

theorem SpellsStyleName.readAs
    {styleName : Option String}
    {text : List Char}
    (rest : List Char)
    (spells : SpellsStyleName .characters styleName text) :
    ReadAs (SpellsStyleName .tokens styleName) text rest := by
  cases spells with
  | absent => exact .nil rest .absent
  | @present _ _ _ equalsText _ _ opening keyword equals quoted closing =>
      have keywordEnds : ∀ more, Breaks ((equalsText ++ more) ++ rest) := by
        intro more
        rw [List.append_assoc]
        exact breaks_mark _ equals (by decide) (by decide)
      have reads := (readAs_mark _ (by decide) opening).append <|
        (readAs_identifier keyword (keywordEnds _)).append <|
        (readAs_mark _ (by decide) equals).append <|
        (readAs_quoted _ quoted).append (readAs_mark rest (by decide) closing)
      apply reads.mono
      rintro _ ⟨_, _, rfl, opening, _, _, rfl, keyword, _, _, rfl, equals, _, _, rfl, quoted,
        closing⟩
      exact .present opening keyword equals quoted closing

theorem SpellsStyleName.breaks
    {styleName : Option String}
    {text rest : List Char}
    (spells : SpellsStyleName .characters styleName text)
    (breaks : Breaks rest) :
    Breaks (text ++ rest) := by
  cases spells with
  | absent => exact breaks
  | present opening _ _ _ _ =>
      rw [List.append_assoc]
      exact breaks_mark _ opening (by decide) (by decide)

theorem SpellsLevel.readAs
    {level : Option ListLevel}
    {text : List Char}
    (rest : List Char)
    (spells : SpellsLevel .characters level text) :
    ReadAs (SpellsLevel .tokens level) text rest := by
  cases spells with
  | absent => exact .nil rest .absent
  | @present _ _ _ _ openingText _ closingText colon keyword opening numeral closing =>
      have keywordEnds : ∀ more, Breaks ((openingText ++ more) ++ rest) := by
        intro more
        rw [List.append_assoc]
        exact breaks_mark _ opening (by decide) (by decide)
      have numeralEnds : ∀ c ∈ (closingText ++ rest).head?, c.isDigit = false := by
        obtain rfl := closing
        intro c isClosing
        obtain rfl : ')' = c := by simpa [TokenKind.mark] using isClosing
        decide
      have reads := (readAs_mark _ (by decide) colon).append <|
        (readAs_identifier keyword (keywordEnds _)).append <|
        (readAs_mark _ (by decide) opening).append <|
        (readAs_level numeral numeralEnds).append (readAs_mark rest (by decide) closing)
      apply reads.mono
      rintro _ ⟨_, _, rfl, colon, _, _, rfl, keyword, _, _, rfl, opening, _, _, rfl, numeral,
        closing⟩
      exact .present colon keyword opening numeral closing

theorem SpellsLevel.breaks
    {level : Option ListLevel}
    {text rest : List Char}
    (spells : SpellsLevel .characters level text)
    (breaks : Breaks rest) :
    Breaks (text ++ rest) := by
  cases spells with
  | absent => exact breaks
  | present colon _ _ _ _ =>
      rw [List.append_assoc]
      exact breaks_mark _ colon (by decide) (by decide)

theorem SpellsSelector.readAs
    {selector : Selector}
    {text rest : List Char}
    (spells : SpellsSelector .characters selector text)
    (breaks : Breaks rest) :
    ReadAs (SpellsSelector .tokens selector) text rest := by
  cases spells with
  | toggle keyword => exact (readAs_identifier keyword breaks).mono fun _ => .toggle
  | run keyword styleId styleName =>
      have nameBreaks := styleName.breaks breaks
      have clausesBreak := styleId.breaks nameBreaks
      rw [← List.append_assoc] at clausesBreak
      have reads := (readAs_identifier keyword clausesBreak).append <|
        (styleId.readAs nameBreaks).append (styleName.readAs rest)
      apply reads.mono
      rintro _ ⟨_, _, rfl, keyword, _, _, rfl, styleId, styleName⟩
      exact .run keyword styleId styleName
  | paragraph keyword styleId styleName level =>
      have nameBreaks := styleName.breaks (level.breaks breaks)
      rw [← List.append_assoc] at nameBreaks
      have clausesBreak := styleId.breaks nameBreaks
      rw [← List.append_assoc] at clausesBreak
      have reads := (readAs_identifier keyword clausesBreak).append <|
        (styleId.readAs nameBreaks).append <|
        (styleName.readAs _).append (level.readAs rest)
      apply reads.mono
      rintro _ ⟨_, _, rfl, keyword, _, _, rfl, styleId, _, _, rfl, styleName, level⟩
      exact .paragraph keyword styleId styleName level

theorem SpellsSelector.blankEnds
    {selector : Selector}
    {text : List Char}
    (rest : List Char)
    (spells : SpellsSelector .characters selector text) :
    BlankEnds (text ++ rest) := by
  cases spells with
  | toggle keyword => exact blankEnds_identifier rest keyword
  | run keyword _ _ =>
      rw [List.append_assoc]
      exact blankEnds_identifier _ keyword
  | paragraph keyword _ _ _ =>
      rw [List.append_assoc]
      exact blankEnds_identifier _ keyword

theorem SpellsTagNames.readAs
    {names : List String}
    {text rest : List Char}
    (spells : SpellsTagNames .characters names text)
    (breaks : Breaks rest) :
    ReadAs (SpellsTagNames .tokens names) text rest := by
  induction spells with
  | single name => exact (readAs_identifier name breaks).mono fun _ => .single
  | @more _ _ _ _ restText name bar _ inductionHypothesis =>
      have nameEnds := breaks_mark (restText ++ rest) bar (by decide) (by decide)
      rw [← List.append_assoc] at nameEnds
      have reads := (readAs_identifier name nameEnds).append <|
        (readAs_mark _ (by decide) bar).append inductionHypothesis
      apply reads.mono
      rintro _ ⟨_, _, rfl, name, _, _, rfl, bar, names⟩
      exact .more name bar names

theorem SpellsTagNames.blankEnds
    {names : List String}
    {text : List Char}
    (rest : List Char)
    (spells : SpellsTagNames .characters names text) :
    BlankEnds (text ++ rest) := by
  cases spells with
  | single name => exact blankEnds_identifier rest name
  | more name _ _ =>
      rw [List.append_assoc]
      exact blankEnds_identifier _ name

theorem SpellsClassNames.breaks
    {names : List String}
    {text rest : List Char}
    (spells : SpellsClassNames .characters names text)
    (breaks : Breaks rest) :
    Breaks (text ++ rest) := by
  cases spells with
  | none => exact breaks
  | more name _ =>
      rw [List.append_assoc]
      exact breaks_className _ name

theorem SpellsClassNames.readAs
    {names : List String}
    {text rest : List Char}
    (spells : SpellsClassNames .characters names text)
    (breaks : Breaks rest) :
    ReadAs (SpellsClassNames .tokens names) text rest := by
  induction spells with
  | none => exact .nil rest .none
  | more name names inductionHypothesis =>
      have reads := (readAs_className name (names.breaks breaks)).append inductionHypothesis
      apply reads.mono
      rintro _ ⟨_, _, rfl, name, names⟩
      exact .more name names

theorem SpellsFreshness.breaks
    {collapsible : Bool}
    {text rest : List Char}
    (spells : SpellsFreshness .characters collapsible text)
    (breaks : Breaks rest) :
    Breaks (text ++ rest) := by
  cases spells with
  | collapsible => exact breaks
  | fresh colon _ =>
      rw [List.append_assoc]
      exact breaks_mark _ colon (by decide) (by decide)

theorem SpellsFreshness.readAs
    {collapsible : Bool}
    {text rest : List Char}
    (spells : SpellsFreshness .characters collapsible text)
    (breaks : Breaks rest) :
    ReadAs (SpellsFreshness .tokens collapsible) text rest := by
  cases spells with
  | collapsible => exact .nil rest .collapsible
  | fresh colon keyword =>
      have reads := (readAs_mark _ (by decide) colon).append (readAs_identifier keyword breaks)
      apply reads.mono
      rintro _ ⟨_, _, rfl, colon, keyword⟩
      exact .fresh colon keyword

theorem SpellsElement.readAs
    {element : PathElement}
    {text rest : List Char}
    (spells : SpellsElement .characters element text)
    (breaks : Breaks rest) :
    ReadAs (SpellsElement .tokens element) text rest := by
  cases spells with
  | intro tagNames classNames freshness =>
      have freshBreaks := freshness.breaks breaks
      have classesBreak := classNames.breaks freshBreaks
      rw [← List.append_assoc] at classesBreak
      have reads := (tagNames.readAs classesBreak).append <|
        (classNames.readAs freshBreaks).append (freshness.readAs breaks)
      apply reads.mono
      rintro _ ⟨_, _, rfl, tagNames, _, _, rfl, classNames, freshness⟩
      exact .intro tagNames classNames freshness

theorem SpellsElement.blankEnds
    {element : PathElement}
    {text : List Char}
    (rest : List Char)
    (spells : SpellsElement .characters element text) :
    BlankEnds (text ++ rest) := by
  cases spells with
  | intro tagNames _ _ =>
      rw [List.append_assoc]
      exact tagNames.blankEnds _

theorem SpellsSteps.blankEnds
    {steps : List PathElement}
    {text : List Char}
    (rest : List Char)
    (spells : SpellsSteps .characters steps text) :
    BlankEnds (text ++ rest) := by
  cases spells with
  | single element => exact element.blankEnds rest
  | more element _ _ _ _ =>
      rw [List.append_assoc]
      exact element.blankEnds _

theorem SpellsSteps.readAs
    {steps : List PathElement}
    {text rest : List Char}
    (spells : SpellsSteps .characters steps text)
    (breaks : Breaks rest) :
    ReadAs (SpellsSteps .tokens steps) text rest := by
  induction spells with
  | single element => exact (element.readAs breaks).mono fun _ => .single
  | @more _ _ _ _ signText behindText restText element before sign behind steps
      inductionHypothesis =>
      have elementEnds := breaks_blank ((signText ++ (behindText ++ restText)) ++ rest) before
      rw [← List.append_assoc] at elementEnds
      have beforeEnds := blankEnds_mark ((behindText ++ restText) ++ rest) (by decide) sign
      rw [← List.append_assoc] at beforeEnds
      have reads := (element.readAs elementEnds).append <|
        (readAs_blank before beforeEnds).append <|
        (readAs_mark _ (by decide) sign).append <|
        (readAs_blank behind (steps.blankEnds rest)).append inductionHypothesis
      apply reads.mono
      rintro _ ⟨_, _, rfl, element, _, _, rfl, before, _, _, rfl, sign, _, _, rfl, behind, steps⟩
      exact .more element before sign behind steps

theorem SpellsPath.readAs
    {path : HtmlPath}
    {text rest : List Char}
    (spells : SpellsPath .characters path text)
    (breaks : Breaks rest) :
    ReadAs (SpellsPath .tokens path) text rest := by
  cases spells with
  | ignore bang => exact (readAs_mark rest (by decide) bang).mono fun _ => .ignore
  | nothing => exact .nil rest .nothing
  | elements steps => exact (steps.readAs breaks).mono fun _ => .elements

theorem SpellsPath.blankEnds
    {path : HtmlPath}
    {text rest : List Char}
    (spells : SpellsPath .characters path text)
    (ends : text = [] -> BlankEnds rest) :
    BlankEnds (text ++ rest) := by
  cases spells with
  | ignore bang => exact blankEnds_mark rest (by decide) bang
  | nothing => exact ends rfl
  | elements steps => exact steps.blankEnds rest

theorem spellsGap_characters_iff
    {text : List Char} :
    SpellsGap .characters text ↔ ∀ c ∈ text, Text.isBlank c = true := by
  constructor
  · rintro (rfl | ⟨_, areBlank⟩)
    · simp
    · exact areBlank
  · intro areBlank
    by_cases isEmpty : text = []
    · exact .inl isEmpty
    · exact .inr ⟨isEmpty, areBlank⟩

/-- Two gaps with nothing between them are one gap. -/
theorem SpellsGap.append
    {text more : List Char}
    (first : SpellsGap .characters text)
    (second : SpellsGap .characters more) :
    SpellsGap .characters (text ++ more) := by
  rw [spellsGap_characters_iff] at first second ⊢
  rw [List.forall_mem_append]
  exact ⟨first, second⟩

/-- The gap behind an empty path can be left out, as part of the one before. -/
theorem exists_gaps
    {behind trail : List Char}
    (text : List Char)
    (behindSpelled : SpellsGap .characters behind)
    (trailSpelled : SpellsGap .characters trail) :
    ∃ first last, SpellsGap .characters first ∧ SpellsGap .characters last ∧
      behind ++ (text ++ trail) = first ++ (text ++ last) ∧ (text = [] -> last = []) := by
  cases textEquality : text with
  | nil => exact ⟨behind ++ trail, [], behindSpelled.append trailSpelled, .inl rfl, by simp,
      fun _ => rfl⟩
  | cons c text => exact ⟨behind, trail, behindSpelled, trailSpelled, rfl, by simp⟩

theorem SpellsRule.readAs
    {rule : StyleRule}
    {text : List Char}
    (spells : SpellsRule .characters rule text) :
    ReadAs (SpellsRule .tokens rule) text [] := by
  cases spells with
  | @intro _ _ _ _ beforeText arrowText _ pathText _ lead selector before arrow behind path trail =>
      obtain ⟨firstText, lastText, first, last, same, lastEmpty⟩ := exists_gaps pathText behind trail
      rw [same]
      have lastBreaks := last.breaks Lexeme.breaks_nil
      have lastEnds : BlankEnds [] := by simp [BlankEnds]
      have firstEnds : BlankEnds ((pathText ++ lastText) ++ []) := by
        rw [List.append_assoc]
        apply path.blankEnds
        intro noPath
        rw [lastEmpty noPath]
        exact lastEnds
      have arrowBreaks := breaks_mark ((firstText ++ (pathText ++ lastText)) ++ []) arrow
        (by decide) (by decide)
      have arrowEnds := blankEnds_mark ((firstText ++ (pathText ++ lastText)) ++ []) (by decide)
        arrow
      rw [← List.append_assoc] at arrowBreaks arrowEnds
      have selectorEnds := before.breaks arrowBreaks
      rw [← List.append_assoc] at selectorEnds
      have leadEnds := selector.blankEnds
        ((beforeText ++ (arrowText ++ (firstText ++ (pathText ++ lastText)))) ++ [])
      rw [← List.append_assoc] at leadEnds
      have reads := (lead.readAs leadEnds).append <|
        (selector.readAs selectorEnds).append <|
        (before.readAs arrowEnds).append <|
        (readAs_mark _ (by decide) arrow).append <|
        (first.readAs firstEnds).append <|
        (path.readAs lastBreaks).append (last.readAs lastEnds)
      apply reads.mono
      rintro _ ⟨_, _, rfl, lead, _, _, rfl, selector, _, _, rfl, before, _, _, rfl, arrow, _, _,
        rfl, first, _, _, rfl, path, last⟩
      exact .intro lead selector before arrow first path last

end Grammar

namespace StyleRule

open Grammar

/-- A text that spells a rule is read as it. -/
theorem parse_of_spells
    {source : String}
    {rule : StyleRule}
    (spells : SpellsRule .characters rule source.toList) :
    parse source = .ok rule := by
  obtain ⟨tokens, reached, tokensSpell, read⟩ := spells.readAs .start
  rw [List.append_nil, Lexeme.lexemes_nil, Token.placeWords, List.append_nil] at read
  rw [parse_eq_ok_iff_words, Token.wordsOf, read]
  exact tokensSpell

/-- A text is read as a rule exactly when it is a selector, an arrow and a path
that spell the rule, with any blanks in front of them, between them and behind
them. -/
theorem parse_eq_ok_iff_splits
    {source : String}
    {selector : Selector}
    {path : HtmlPath} :
    parse source = .ok ⟨selector, path⟩ ↔
      ∃ lead selectorText before behind pathText trail,
        source.toList =
          lead ++ selectorText ++ before ++ "->".toList ++ behind ++ pathText ++ trail ∧
        (∀ c ∈ lead ++ before ++ behind ++ trail, Text.isBlank c = true) ∧
        SpellsSelector .characters selector selectorText ∧
        SpellsPath .characters path pathText := by
  constructor
  · intro parsed
    have spells := spells_of_parse parsed
    generalize source.toList = text at spells
    cases spells with
    | @intro _ _ lead selectorText before _ behind pathText trail leadSpelled selectorSpelled
        beforeSpelled arrow behindSpelled pathSpelled trailSpelled =>
        obtain rfl := arrow
        refine ⟨lead, selectorText, before, behind, pathText, trail, ?_, ?_, selectorSpelled,
          pathSpelled⟩
        · simp [TokenKind.mark]
        · rw [spellsGap_characters_iff] at leadSpelled beforeSpelled behindSpelled trailSpelled
          simp only [List.forall_mem_append]
          exact ⟨⟨⟨leadSpelled, beforeSpelled⟩, behindSpelled⟩, trailSpelled⟩
  · rintro ⟨lead, selectorText, before, behind, pathText, trail, splits, areBlank, selectorSpelled,
      pathSpelled⟩
    simp only [List.forall_mem_append, ← spellsGap_characters_iff] at areBlank
    obtain ⟨⟨⟨leadSpelled, beforeSpelled⟩, behindSpelled⟩, trailSpelled⟩ := areBlank
    apply parse_of_spells
    rw [splits]
    have arrow : Alphabet.characters.mark .arrow "->".toList := rfl
    have spells := SpellsRule.intro leadSpelled selectorSpelled beforeSpelled arrow behindSpelled
      pathSpelled trailSpelled
    simpa only [List.append_assoc] using spells

end StyleRule
end StyleRules
