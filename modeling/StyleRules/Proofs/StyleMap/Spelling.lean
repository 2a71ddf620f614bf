import StyleRules.Proofs.StyleMap.WellFormed

/-!
# Writing style maps

A well-formed style map is written as one line for each of its rules and toggles:
the selector, an arrow with a space on both sides, and the path.  What is written
spells the rule (`StyleRule.spells_text`), it stays on its line, and the line is
neither blank nor a comment.  So the text is read as the style map again
(`StyleMap.parse_text`), and the style maps that texts express are exactly the
well-formed ones.
-/

namespace StyleRules

open Lexeme (IsIdentifier)
open Grammar

/-! ## Texts of rules -/

namespace Spelling

/-- A style identifier, if there is one. -/
def styleIdText : Option String -> List Char
  | none => []
  | some name => '.' :: name.toList

/-- A style name in brackets, if there is one. -/
def styleNameText : Option String -> List Char
  | none => []
  | some name =>
      '[' :: ("style-name".toList ++ ['=', Lexeme.quote] ++ name.toList ++ [Lexeme.quote, ']'])

/-- A list level, counted from one, if there is one. -/
def levelText : Option ListLevel -> List Char
  | none => []
  | some level =>
      ':' :: ((listWord level.ordered).toList ++
        '(' :: (Nat.toDigits 10 (level.index.toNat + 1) ++ [')']))

/-- Class names, from the value of the attribute that joins them by spaces. -/
def classNamesText : Option String -> List Char
  | none => []
  | some joined => '.' :: joined.toList.map fun c => if c = ' ' then '.' else c

/-- An element of a path. -/
def elementText (element : PathElement) : List Char :=
  ['|'].intercalate (element.tagNames.map String.toList) ++
    classNamesText element.className? ++
    if element.collapsible then [] else ':' :: "fresh".toList

end Spelling

open Spelling

/-- The text of a selector. -/
def Selector.text : Selector -> List Char
  | .paragraph selector =>
      "p".toList ++ styleIdText selector.styleId ++ styleNameText selector.styleName ++
        levelText selector.level
  | .run selector =>
      "r".toList ++ styleIdText selector.styleId ++ styleNameText selector.styleName
  | .toggle formatting => formatting.word.toList

/-- The text of a path. -/
def HtmlPath.text : HtmlPath -> List Char
  | .ignore => ['!']
  | .elements steps => [' ', '>', ' '].intercalate (steps.map elementText)

/-- The text of a rule. -/
def StyleRule.text (rule : StyleRule) : List Char :=
  rule.selector.text ++ [' ', '-', '>', ' '] ++ rule.path.text

namespace StyleMap

/-- The rules that make up a style map: those for paragraphs, those for runs, and
one for each toggle. -/
def rules (map : StyleMap) : List StyleRule :=
  map.paragraphRules.map (fun rule => ⟨.paragraph rule.selector, rule.path⟩) ++
    map.runRules.map (fun rule => ⟨.run rule.selector, rule.path⟩) ++
    [Toggle.bold, .italic, .underline, .strikethrough, .commentReference].map fun toggle =>
      ⟨.toggle toggle, map.toggles.get toggle⟩

/-- The text of a style map, one rule on a line. -/
def text (map : StyleMap) : String :=
  String.ofList ((map.rules.map StyleRule.text).flatMap (· ++ ['\n']))

end StyleMap

/-! ## What is written spells the rule -/

namespace Spelling

theorem blank_space :
    Alphabet.characters.blank [' '] := by
  refine ⟨List.cons_ne_nil _ _, ?_⟩
  rw [List.forall_mem_singleton]
  decide

theorem spells_styleIdText
    {styleId : Option String}
    (identifier : ∀ id ∈ styleId, IsIdentifier id.toList) :
    SpellsStyleId .characters styleId (styleIdText styleId) := by
  cases styleId with
  | none => exact .absent
  | some id => exact .present ⟨rfl, identifier id rfl⟩

theorem spells_styleNameText
    {styleName : Option String}
    (quotable : ∀ name ∈ styleName, Lexeme.quote ∉ name.toList ∧ '\n' ∉ name.toList) :
    SpellsStyleName .characters styleName (styleNameText styleName) := by
  cases styleName with
  | none => exact .absent
  | some name =>
      have shape : styleNameText (some name) =
          ['['] ++ ("style-name".toList ++ (['='] ++
            ((Lexeme.quote :: (name.toList ++ [Lexeme.quote])) ++ [']']))) := by
        simp only [styleNameText, List.cons_append, List.nil_append, List.append_assoc]
      have keyword : Alphabet.characters.identifier "style-name" "style-name".toList :=
        ⟨rfl, by decide +kernel⟩
      have unquoted : Lexeme.quote ∉ name.toList := (quotable name rfl).1
      have quoted : Alphabet.characters.quoted name
          (Lexeme.quote :: (name.toList ++ [Lexeme.quote])) := ⟨rfl, unquoted⟩
      rw [shape]
      exact .present rfl keyword rfl quoted rfl

theorem spells_levelText
    {level : Option ListLevel}
    (bounded : ∀ held ∈ level, held.index.toNat + 1 < UInt32.size) :
    SpellsLevel .characters level (levelText level) := by
  cases level with
  | none => exact .absent
  | some held =>
      obtain ⟨index, ordered⟩ := held
      have indexFits : index.toNat + 1 < UInt32.size := bounded _ rfl
      have shape : levelText (some ⟨index, ordered⟩) =
          [':'] ++ ((listWord ordered).toList ++ (['('] ++
            (Nat.toDigits 10 (index.toNat + 1) ++ [')']))) := rfl
      rw [shape]
      have worth : Text.digitsValue (Nat.toDigits 10 (index.toNat + 1)) = index.toNat + 1 :=
        Nat.ofDigitChars_eq_foldl.symm.trans Nat.ofDigitChars_ten_toDigits
      refine .present rfl ⟨rfl, isIdentifier_listWord ordered⟩ rfl
        ⟨Nat.toDigits_ne_nil, ?_, worth, indexFits⟩ rfl
      intro c member
      exact Nat.isDigit_of_mem_toDigits (by decide) (by decide) member

theorem spells_tagNamesText
    {names : List String}
    (someName : names ≠ [])
    (identifiers : ∀ name ∈ names, IsIdentifier name.toList) :
    SpellsTagNames .characters names (['|'].intercalate (names.map String.toList)) := by
  induction names with
  | nil => exact absurd rfl someName
  | cons name names inductionHypothesis =>
      obtain ⟨identifier, othersIdentifiers⟩ := List.forall_mem_cons.mp identifiers
      cases names with
      | nil =>
          rw [List.map_singleton, List.intercalate_singleton]
          exact .single ⟨rfl, identifier⟩
      | cons next names =>
          have rest := inductionHypothesis (by simp) othersIdentifiers
          rw [List.map_cons, List.map_cons, List.intercalate_cons_cons, List.append_assoc,
            ← List.map_cons]
          exact .more ⟨rfl, identifier⟩ rfl rest

theorem spells_classNames
    {names : List String}
    (identifiers : ∀ name ∈ names, IsIdentifier name.toList) :
    SpellsClassNames .characters names (names.flatMap fun name => '.' :: name.toList) := by
  induction names with
  | nil => exact .none
  | cons name names inductionHypothesis =>
      obtain ⟨identifier, othersIdentifiers⟩ := List.forall_mem_cons.mp identifiers
      exact .more ⟨rfl, identifier⟩ (inductionHypothesis othersIdentifiers)

/-- No blank stands in an identifier. -/
theorem isBlank_eq_false_of_identifier
    {cs : List Char}
    (identifier : IsIdentifier cs)
    {c : Char}
    (member : c ∈ cs) :
    Text.isBlank c = false := by
  rw [Bool.eq_false_iff]
  intro blank
  have continues := identifier.continues c member
  rw [Lexeme.continuesIdentifier_eq_false_of_isBlank blank] at continues
  exact absurd continues (by simp)

/-- Class names joined by spaces are written with a dot in front of each. -/
theorem classNamesText_intercalate
    {names : List String}
    (someName : names ≠ [])
    (identifiers : ∀ name ∈ names, IsIdentifier name.toList) :
    classNamesText (some (String.intercalate " " names)) =
      names.flatMap fun name => '.' :: name.toList := by
  simp only [classNamesText, String.toList_intercalate]
  induction names with
  | nil => exact absurd rfl someName
  | cons name names inductionHypothesis =>
      obtain ⟨identifier, othersIdentifiers⟩ := List.forall_mem_cons.mp identifiers
      have unchanged : name.toList.map (fun c => if c = ' ' then '.' else c) = name.toList := by
        conv_rhs => rw [← List.map_id name.toList]
        apply List.map_congr_left
        intro c member
        have notBlank := isBlank_eq_false_of_identifier identifier member
        have notSpace : c ≠ ' ' := by
          rintro rfl
          exact absurd notBlank (by decide)
        rw [if_neg notSpace, id_eq]
      cases names with
      | nil => simp [unchanged]
      | cons next names =>
          have rest := inductionHypothesis (by simp) othersIdentifiers
          rw [List.map_cons, List.map_cons, List.intercalate_cons_cons, List.map_append,
            List.map_append, unchanged, ← List.map_cons, List.flatMap_cons, ← rest]
          simp

theorem spells_elementText
    {element : PathElement}
    (wellFormed : element.WellFormed) :
    SpellsElement .characters element (elementText element) := by
  obtain ⟨tagNames, attributes, collapsible⟩ := element
  obtain ⟨someTag, tagsIdentifiers, classes⟩ := wellFormed
  have tagsSpelled := spells_tagNamesText someTag tagsIdentifiers
  have freshSpelled : SpellsFreshness .characters collapsible
      (if collapsible then [] else ':' :: "fresh".toList) := by
    cases collapsible with
    | true => exact .collapsible
    | false =>
        have colon : Alphabet.characters.mark .colon [':'] := rfl
        exact .fresh colon ⟨rfl, by decide +kernel⟩
  rw [elementText, List.append_assoc]
  rcases classes with noClasses | ⟨classNames, someClass, identifiers, joined⟩
  · obtain rfl : attributes = ∅ := noClasses
    exact .intro tagsSpelled .none freshSpelled
  · obtain rfl : attributes = _ := joined
    have sameElement : (⟨tagNames, (∅ : Attributes).insert "class"
        (String.intercalate " " classNames), collapsible⟩ : PathElement) =
          .ofNames tagNames classNames collapsible := by
      simp [PathElement.ofNames, someClass]
    have classText : (PathElement.ofNames tagNames classNames collapsible).className? =
        some (String.intercalate " " classNames) := by
      simp [PathElement.ofNames, PathElement.className?, someClass]
    rw [sameElement, classText, classNamesText_intercalate someClass identifiers]
    exact .intro tagsSpelled (spells_classNames identifiers) freshSpelled

theorem spells_stepsText
    {first : PathElement}
    {others : List PathElement}
    (wellFormed : ∀ step ∈ first :: others, step.WellFormed) :
    SpellsSteps .characters (first :: others)
      ([' ', '>', ' '].intercalate ((first :: others).map elementText)) := by
  induction others generalizing first with
  | nil =>
      rw [List.map_singleton, List.intercalate_singleton]
      exact .single (spells_elementText (wellFormed first List.mem_cons_self))
  | cons second others inductionHypothesis =>
      obtain ⟨firstWellFormed, othersWellFormed⟩ := List.forall_mem_cons.mp wellFormed
      have rest := inductionHypothesis othersWellFormed
      have sign : Alphabet.characters.mark .greaterThan ['>'] := rfl
      rw [List.map_cons, List.map_cons, List.intercalate_cons_cons, List.append_assoc,
        ← List.map_cons]
      exact .more (spells_elementText firstWellFormed) blank_space sign blank_space rest

end Spelling

open Spelling

theorem HtmlPath.spells_text
    {path : HtmlPath}
    (wellFormed : path.WellFormed) :
    SpellsPath .characters path path.text := by
  cases path with
  | ignore => exact .ignore rfl
  | elements steps =>
      cases steps with
      | nil => exact .nothing
      | cons first others => exact .elements (spells_stepsText wellFormed)

theorem Selector.spells_text
    {selector : Selector}
    (wellFormed : selector.WellFormed) :
    SpellsSelector .characters selector selector.text := by
  cases selector with
  | toggle formatting =>
      refine .toggle ⟨rfl, ?_⟩
      cases formatting <;> decide +kernel
  | run selector =>
      rw [Selector.text, List.append_assoc]
      exact .run ⟨rfl, by decide +kernel⟩ (spells_styleIdText wellFormed.styleId_identifier)
        (spells_styleNameText wellFormed.styleName_quotable)
  | paragraph selector =>
      rw [Selector.text, List.append_assoc, List.append_assoc]
      exact .paragraph ⟨rfl, by decide +kernel⟩
        (spells_styleIdText wellFormed.clauses.styleId_identifier)
        (spells_styleNameText wellFormed.clauses.styleName_quotable)
        (spells_levelText wellFormed.level_fits)

theorem StyleRule.spells_text
    {rule : StyleRule}
    (selectorWellFormed : rule.selector.WellFormed)
    (pathWellFormed : rule.path.WellFormed) :
    SpellsRule .characters rule rule.text := by
  have shape : rule.text = [] ++ (rule.selector.text ++ ([' '] ++ (['-', '>'] ++ ([' '] ++
      (rule.path.text ++ []))))) := by
    simp [StyleRule.text]
  rw [shape]
  exact .intro (.inl rfl) (rule.selector.spells_text selectorWellFormed)
    (.inr blank_space) rfl (.inr blank_space)
    (rule.path.spells_text pathWellFormed) (.inl rfl)

/-! ## One rule, one line -/

namespace Grammar

/-- Does no blank stand in the text? -/
def BlankFree (text : List Char) : Prop :=
  ∀ c ∈ text, Text.isBlank c = false

instance (text : List Char) : Decidable (BlankFree text) :=
  List.decidableBAll _ text

theorem blankFree_nil :
    BlankFree [] :=
  fun _ member => absurd member List.not_mem_nil

theorem BlankFree.append
    {text more : List Char}
    (first : BlankFree text)
    (second : BlankFree more) :
    BlankFree (text ++ more) := by
  intro c member
  rcases List.mem_append.mp member with inText | inMore
  · exact first c inText
  · exact second c inMore

theorem BlankFree.newline_notMem
    {text : List Char}
    (blankFree : BlankFree text) :
    '\n' ∉ text := by
  intro member
  exact absurd (blankFree '\n' member) (by decide)

theorem blankFree_identifier
    {name : String}
    {text : List Char}
    (letter : Alphabet.characters.identifier name text) :
    BlankFree text := by
  obtain ⟨rfl, identifier⟩ := letter
  exact fun _ => isBlank_eq_false_of_identifier identifier

theorem blankFree_className
    {name : String}
    {text : List Char}
    (letter : Alphabet.characters.className name text) :
    BlankFree text := by
  obtain ⟨rfl, identifier⟩ := letter
  have dot : BlankFree ['.'] := by decide
  exact dot.append fun _ => isBlank_eq_false_of_identifier identifier

theorem blankFree_mark
    {kind : TokenKind}
    {text : List Char}
    (letter : Alphabet.characters.mark kind text) :
    BlankFree text := by
  obtain rfl := letter
  cases kind <;> decide

theorem SpellsStyleId.blankFree
    {styleId : Option String}
    {text : List Char}
    (spells : SpellsStyleId .characters styleId text) :
    BlankFree text := by
  cases spells with
  | absent => exact blankFree_nil
  | present name => exact blankFree_className name

theorem SpellsLevel.blankFree
    {level : Option ListLevel}
    {text : List Char}
    (spells : SpellsLevel .characters level text) :
    BlankFree text := by
  cases spells with
  | absent => exact blankFree_nil
  | present colon keyword opening numeral closing =>
      have digits : BlankFree _ := fun c member =>
        Text.isBlank_eq_false_of_isDigit (numeral.2.1 c member)
      exact (blankFree_mark colon).append <| (blankFree_identifier keyword).append <|
        (blankFree_mark opening).append <| digits.append (blankFree_mark closing)

theorem SpellsTagNames.blankFree
    {names : List String}
    {text : List Char}
    (spells : SpellsTagNames .characters names text) :
    BlankFree text := by
  induction spells with
  | single name => exact blankFree_identifier name
  | more name bar _ inductionHypothesis =>
      exact (blankFree_identifier name).append ((blankFree_mark bar).append inductionHypothesis)

theorem SpellsClassNames.blankFree
    {names : List String}
    {text : List Char}
    (spells : SpellsClassNames .characters names text) :
    BlankFree text := by
  induction spells with
  | none => exact blankFree_nil
  | more name _ inductionHypothesis =>
      exact (blankFree_className name).append inductionHypothesis

theorem SpellsElement.blankFree
    {element : PathElement}
    {text : List Char}
    (spells : SpellsElement .characters element text) :
    BlankFree text := by
  cases spells with
  | intro tagNames classNames freshness =>
      apply tagNames.blankFree.append
      apply classNames.blankFree.append
      cases freshness with
      | collapsible => exact blankFree_nil
      | fresh colon keyword => exact (blankFree_mark colon).append (blankFree_identifier keyword)

theorem SpellsStyleName.newline_notMem
    {styleName : Option String}
    {text : List Char}
    (spells : SpellsStyleName .characters styleName text)
    (quotable : ∀ name ∈ styleName, Lexeme.quote ∉ name.toList ∧ '\n' ∉ name.toList) :
    '\n' ∉ text := by
  cases spells with
  | absent => exact List.not_mem_nil
  | @present name _ _ _ _ _ opening keyword equals quoted closing =>
      obtain ⟨rfl, _⟩ := quoted
      have noNewline : '\n' ∉ name.toList := (quotable name rfl).2
      simp only [List.mem_append, not_or]
      refine ⟨(blankFree_mark opening).newline_notMem,
        (blankFree_identifier keyword).newline_notMem, (blankFree_mark equals).newline_notMem,
        ?_, (blankFree_mark closing).newline_notMem⟩
      simp [noNewline, Lexeme.quote]

/-- A selector stays on its line, as the style name in it does. -/
theorem SpellsSelector.newline_notMem
    {selector : Selector}
    {text : List Char}
    (spells : SpellsSelector .characters selector text)
    (wellFormed : selector.WellFormed) :
    '\n' ∉ text := by
  cases spells with
  | toggle keyword => exact (blankFree_identifier keyword).newline_notMem
  | run keyword styleId styleName =>
      simp only [List.mem_append, not_or]
      exact ⟨(blankFree_identifier keyword).newline_notMem, styleId.blankFree.newline_notMem,
        styleName.newline_notMem wellFormed.styleName_quotable⟩
  | paragraph keyword styleId styleName level =>
      simp only [List.mem_append, not_or]
      exact ⟨(blankFree_identifier keyword).newline_notMem, styleId.blankFree.newline_notMem,
        styleName.newline_notMem wellFormed.clauses.styleName_quotable,
        level.blankFree.newline_notMem⟩

end Grammar

/-- The only blanks in the texts of steps, with signs between them, are spaces. -/
theorem eq_space_of_mem_intercalate
    {steps : List PathElement}
    (wellFormed : ∀ step ∈ steps, step.WellFormed)
    {c : Char}
    (member : c ∈ [' ', '>', ' '].intercalate (steps.map elementText))
    (blank : Text.isBlank c = true) :
    c = ' ' := by
  induction steps with
  | nil => exact absurd member List.not_mem_nil
  | cons first others inductionHypothesis =>
      obtain ⟨firstWellFormed, othersWellFormed⟩ := List.forall_mem_cons.mp wellFormed
      have notInFirst : c ∉ elementText first := by
        intro inFirst
        rw [(spells_elementText firstWellFormed).blankFree c inFirst] at blank
        exact absurd blank (by simp)
      cases others with
      | nil =>
          rw [List.map_singleton, List.intercalate_singleton] at member
          exact absurd member notInFirst
      | cons second others =>
          rw [List.map_cons, List.map_cons, List.intercalate_cons_cons, ← List.map_cons,
            List.append_assoc, List.mem_append, List.mem_append] at member
          rcases member with inFirst | inSign | inOthers
          · exact absurd inFirst notInFirst
          · have notSign : c ≠ '>' := by
              rintro rfl
              exact absurd blank (by decide)
            simpa [notSign] using inSign
          · exact inductionHypothesis othersWellFormed inOthers

/-- The only blanks in the text of a path are spaces. -/
theorem HtmlPath.eq_space_of_mem_text
    {path : HtmlPath}
    (wellFormed : path.WellFormed)
    {c : Char}
    (member : c ∈ path.text)
    (blank : Text.isBlank c = true) :
    c = ' ' := by
  cases path with
  | ignore =>
      obtain rfl := List.mem_singleton.mp member
      exact absurd blank (by decide)
  | elements steps => exact eq_space_of_mem_intercalate wellFormed member blank

namespace StyleRule

variable
  {rule : StyleRule}
  (selectorWellFormed : rule.selector.WellFormed)
  (pathWellFormed : rule.path.WellFormed)

include selectorWellFormed pathWellFormed

theorem newline_notMem_text :
    '\n' ∉ rule.text := by
  have notInSelector := (rule.selector.spells_text selectorWellFormed).newline_notMem
    selectorWellFormed
  have notInPath : '\n' ∉ rule.path.text := by
    intro member
    exact absurd (HtmlPath.eq_space_of_mem_text pathWellFormed member (by decide)) (by decide)
  simp only [text, List.mem_append, not_or]
  exact ⟨⟨notInSelector, by decide⟩, notInPath⟩

omit selectorWellFormed in
theorem getLast?_text_ne :
    rule.text.getLast? ≠ some '\r' := by
  intro endsWithReturn
  have splits : rule.text = (rule.selector.text ++ [' ', '-', '>']) ++ (' ' :: rule.path.text) := by
    simp [text]
  rw [splits, List.getLast?_append_of_ne_nil _ (by simp)] at endsWithReturn
  have member := List.mem_of_getLast? endsWithReturn
  rcases List.mem_cons.mp member with isSpace | inPath
  · exact absurd isSpace (by decide)
  · exact absurd (HtmlPath.eq_space_of_mem_text pathWellFormed inPath (by decide)) (by decide)

end StyleRule

/-! ## Reading what is written -/

namespace StyleMap

/-- A line that begins with something else than a blank and a comment sign holds a
rule. -/
theorem holdsRule_of_cons
    {line : Line}
    {c : Char}
    {rest : List Char}
    (begins : line.text.toList = c :: rest)
    (notBlank : Text.isBlank c = false)
    (noComment : c ≠ '#') :
    line.holdsRule = true := by
  have trimmed : ∃ more, Text.trimChars (c :: rest) = c :: more := by
    rw [Text.trimChars, List.dropWhile_cons_of_neg (by simp [notBlank]), List.reverse_cons,
      List.dropWhile_append]
    split
    · exact ⟨[], by simp [notBlank]⟩
    · exact ⟨_, by rw [List.reverse_append, List.reverse_singleton, List.singleton_append]⟩
  obtain ⟨more, trimmed⟩ := trimmed
  rw [Line.holdsRule, begins, trimmed]
  simpa using noComment

theorem exists_selector_text_eq_cons (selector : Selector) :
    ∃ c rest, selector.text = c :: rest ∧ Text.isBlank c = false ∧ c ≠ '#' := by
  cases selector with
  | paragraph selector => exact ⟨'p', _, rfl, by decide, by decide⟩
  | run selector => exact ⟨'r', _, rfl, by decide, by decide⟩
  | toggle formatting =>
      cases formatting with
      | bold => exact ⟨'b', _, rfl, by decide, by decide⟩
      | italic => exact ⟨'i', _, rfl, by decide, by decide⟩
      | underline => exact ⟨'u', _, rfl, by decide, by decide⟩
      | strikethrough => exact ⟨'s', _, rfl, by decide, by decide⟩
      | commentReference => exact ⟨'c', _, rfl, by decide, by decide⟩

theorem holdsRule_text
    (rule : StyleRule)
    (number : Nat) :
    (⟨number, String.ofList rule.text⟩ : Line).holdsRule = true := by
  obtain ⟨c, rest, begins, notBlank, noComment⟩ := exists_selector_text_eq_cons rule.selector
  apply holdsRule_of_cons _ notBlank noComment
  · exact rest ++ ([' ', '-', '>', ' '] ++ rule.path.text)
  · simp [StyleRule.text, begins]

theorem parse_line_text
    {rule : StyleRule}
    (number : Nat)
    (selectorWellFormed : rule.selector.WellFormed)
    (pathWellFormed : rule.path.WellFormed) :
    (⟨number, String.ofList rule.text⟩ : Line).parse = .ok rule := by
  rw [Line.parse_eq_ok_iff]
  apply StyleRule.parse_of_spells
  rw [String.toList_ofList]
  exact rule.spells_text selectorWellFormed pathWellFormed

/-- The written lines are all kept, and each is read as its rule. -/
theorem map_parse_ruleLines
    {rules : List StyleRule}
    (wellFormed : ∀ rule ∈ rules, rule.selector.WellFormed ∧ rule.path.WellFormed) :
    (ruleLines (String.ofList ((rules.map StyleRule.text).flatMap (· ++ ['\n'])))).map Line.parse =
      rules.map .ok := by
  have noNewline : ∀ text ∈ rules.map StyleRule.text, '\n' ∉ text := by
    intro text member
    obtain ⟨rule, ruleMember, rfl⟩ := List.mem_map.mp member
    obtain ⟨selectorWellFormed, pathWellFormed⟩ := wellFormed rule ruleMember
    exact rule.newline_notMem_text selectorWellFormed pathWellFormed
  have noReturn : ∀ text ∈ rules.map StyleRule.text, text.getLast? ≠ some '\r' := by
    intro text member
    obtain ⟨rule, ruleMember, rfl⟩ := List.mem_map.mp member
    exact rule.getLast?_text_ne (wellFormed rule ruleMember).2
  rw [ruleLines, Line.ofSource, String.toList_ofList, Text.lines_flatMap noNewline noReturn]
  clear noNewline noReturn
  generalize 0 = start
  induction rules generalizing start with
  | nil => rfl
  | cons rule rules inductionHypothesis =>
      obtain ⟨headWellFormed, tailWellFormed⟩ := List.forall_mem_cons.mp wellFormed
      rw [List.map_cons, List.zipIdx_cons, List.map_cons,
        List.filter_cons_of_pos (holdsRule_text rule _), List.map_cons,
        parse_line_text _ headWellFormed.1 headWellFormed.2,
        inductionHypothesis tailWellFormed, List.map_cons]

namespace Builder

/-- Lines that are all read as rules are registered one after the other. -/
theorem registerLines_of_parse
    {strictness : Strictness}
    {lines : List Line}
    {rules : List StyleRule}
    (builder : Builder)
    (parsed : lines.map Line.parse = rules.map .ok) :
    registerLines strictness lines builder = .ok (.ofValue (rules.foldl register builder)) := by
  induction rules generalizing lines builder with
  | nil =>
      obtain rfl := List.map_eq_nil_iff.mp parsed
      rfl
  | cons rule rules inductionHypothesis =>
      obtain ⟨line, others, rfl, lineParsed, othersParsed⟩ := List.map_eq_cons_iff.mp parsed
      rw [registerLines, lineParsed]
      exact inductionHypothesis (builder.register rule) othersParsed

theorem foldl_register_paragraphs
    (builder : Builder)
    (rules : List (Rule ParagraphSelector)) :
    (rules.map fun rule => (⟨.paragraph rule.selector, rule.path⟩ : StyleRule)).foldl register
        builder =
      { builder with paragraphRules := builder.paragraphRules ++ rules } := by
  induction rules generalizing builder with
  | nil => simp
  | cons rule rules inductionHypothesis =>
      rw [List.map_cons, List.foldl_cons, inductionHypothesis]
      simp [register, addParagraph]

theorem foldl_register_runs
    (builder : Builder)
    (rules : List (Rule RunSelector)) :
    (rules.map fun rule => (⟨.run rule.selector, rule.path⟩ : StyleRule)).foldl register builder =
      { builder with runRules := builder.runRules ++ rules } := by
  induction rules generalizing builder with
  | nil => simp
  | cons rule rules inductionHypothesis =>
      rw [List.map_cons, List.foldl_cons, inductionHypothesis]
      simp [register, addRun]

/-- The rules of a style map build it. -/
theorem build_foldl_rules (map : StyleMap) :
    (map.rules.foldl register empty).build = map := by
  rw [rules, List.foldl_append, List.foldl_append, foldl_register_paragraphs, foldl_register_runs]
  simp [register, addToggle, empty, Toggles.get, Toggles.set, build, Toggles.zipWith]

end Builder

theorem WellFormed.rules
    {map : StyleMap}
    (wellFormed : map.WellFormed) :
    ∀ rule ∈ map.rules, rule.selector.WellFormed ∧ rule.path.WellFormed := by
  intro rule member
  rw [StyleMap.rules, List.mem_append, List.mem_append] at member
  rcases member with (inParagraphs | inRuns) | inToggles
  · obtain ⟨paragraphRule, paragraphMember, rfl⟩ := List.mem_map.mp inParagraphs
    exact wellFormed.paragraphRules paragraphRule paragraphMember
  · obtain ⟨runRule, runMember, rfl⟩ := List.mem_map.mp inRuns
    exact wellFormed.runRules runRule runMember
  · obtain ⟨formatting, _, rfl⟩ := List.mem_map.mp inToggles
    exact ⟨trivial, wellFormed.toggles formatting⟩

/-- A well-formed style map is read from its text. -/
theorem parse_text
    {map : StyleMap}
    (wellFormed : map.WellFormed) :
    parse map.text = .ok map := by
  have parsed := map_parse_ruleLines wellFormed.rules
  rw [parse, Builder.registerSource, text, Builder.registerLines_of_parse Builder.empty parsed]
  exact congrArg Except.ok (Builder.build_foldl_rules map)

/-- The style maps that texts express are the well-formed ones.  Each of them is
read from its own text, and whatever is compiled is one of them. -/
theorem expressible_iff_wellFormed (map : StyleMap) :
    ((∃ source, parse source = .ok map) ↔ map.WellFormed) ∧
      (map.WellFormed -> parse map.text = .ok map) ∧
      ∀ options source compiled,
        compile options source = .ok compiled -> compiled.value.WellFormed := by
  refine ⟨⟨?_, ?_⟩, parse_text, fun _ _ _ => wellFormed_of_compile⟩
  · rintro ⟨source, parsed⟩
    exact wellFormed_of_parse parsed
  · intro wellFormed
    exact ⟨map.text, parse_text wellFormed⟩

end StyleMap
end StyleRules
