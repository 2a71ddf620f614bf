import StyleRules.Proofs.StyleMap.Trimming

/-!
# Paths on their own

A path is read on its own, where nothing may stand around it, or behind the arrow of a rule,
where blanks may.  Both read the same paths (`parse_path_and_toggleRule`): what stands behind
the arrow of a rule for a toggle is a path between blanks, and trimming takes just these
blanks away, since a path neither begins nor ends with a blank.
-/

namespace StyleRules

/-- The word that a selector begins with. -/
def Selector.keyword : Selector -> String
  | .paragraph _ => "p"
  | .run _ => "r"
  | .toggle formatting => formatting.word

/-- The first letter of its word tells a toggle from all other selectors. -/
theorem Selector.eq_toggle_of_head?_keyword
    {selector : Selector}
    {formatting : Toggle}
    (sameLetter : selector.keyword.toList.head? = formatting.word.toList.head?) :
    selector = .toggle formatting := by
  cases selector with
  | paragraph selector =>
      rw [keyword] at sameLetter
      cases formatting <;> exact absurd sameLetter (by decide)
  | run selector =>
      rw [keyword] at sameLetter
      cases formatting <;> exact absurd sameLetter (by decide)
  | toggle other =>
      cases other <;> cases formatting <;> first
        | rfl
        | exact absurd sameLetter (by decide)

theorem Selector.exists_keyword_eq_cons (selector : Selector) :
    ∃ c rest, selector.keyword.toList = c :: rest ∧ Text.isBlank c = false ∧ c ≠ '#' := by
  cases selector with
  | paragraph selector => exact ⟨'p', [], by rw [keyword]; rfl, by decide, by decide⟩
  | run selector => exact ⟨'r', [], by rw [keyword]; rfl, by decide, by decide⟩
  | toggle formatting => cases formatting <;> exact ⟨_, _, rfl, by decide, by decide⟩

/-! ## What stands behind the arrow -/

namespace Grammar

/-- A selector is its word and then its clauses. -/
theorem SpellsSelector.exists_clauses
    {selector : Selector}
    {text : List Char}
    (spells : SpellsSelector .characters selector text) :
    ∃ clauses, text = selector.keyword.toList ++ clauses := by
  cases spells with
  | toggle keyword =>
      obtain ⟨rfl, _⟩ := keyword
      exact ⟨[], (List.append_nil _).symm⟩
  | run keyword _ _ =>
      obtain ⟨rfl, _⟩ := keyword
      exact ⟨_, rfl⟩
  | paragraph keyword _ _ _ =>
      obtain ⟨rfl, _⟩ := keyword
      exact ⟨_, rfl⟩

/-- A path neither begins nor ends with a blank. -/
theorem SpellsPath.trimChars_of_blanks_around
    {path : HtmlPath}
    {lead text trail : List Char}
    (spells : SpellsPath .characters path text)
    (leadBlank : ∀ c ∈ lead, Text.isBlank c = true)
    (trailBlank : ∀ c ∈ trail, Text.isBlank c = true) :
    Text.trimChars (lead ++ (text ++ trail)) = text := by
  apply Text.trimChars_of_blanks_around leadBlank trailBlank
  · have begins := spells.blankEnds (fun _ => (by simp [BlankEnds] : BlankEnds []))
    rwa [List.append_nil] at begins
  · rcases spells.eq_nil_or_endsUnblank with rfl | ⟨front, last, rfl, notBlank⟩
    · simp
    · simpa using notBlank

/-- A path between blanks stays one when a blank in front of it is taken away. -/
theorem SpellsPath.exists_blanks_behind_space
    {path : HtmlPath}
    {text lead pathText trail : List Char}
    (spells : SpellsPath .characters path pathText)
    (leadBlank : ∀ c ∈ lead, Text.isBlank c = true)
    (trailBlank : ∀ c ∈ trail, Text.isBlank c = true)
    (splits : ' ' :: text = lead ++ (pathText ++ trail)) :
    ∃ front behind, text = front ++ (pathText ++ behind) ∧
      (∀ c ∈ front, Text.isBlank c = true) ∧ (∀ c ∈ behind, Text.isBlank c = true) := by
  cases lead with
  | nil =>
      -- The path cannot begin with the blank, so it is empty and the blank is behind it.
      rcases spells.eq_nil_or_endsUnblank with rfl | endsUnblank
      · obtain rfl : ' ' :: text = trail := splits
        exact ⟨text, [], by simp, fun c member => trailBlank c (List.mem_cons_of_mem _ member),
          by simp⟩
      · have begins : BlankEnds (pathText ++ trail) := by
          apply spells.blankEnds
          intro isEmpty
          obtain ⟨front, last, same, _⟩ := endsUnblank
          simp [isEmpty] at same
        rw [← List.nil_append (pathText ++ trail), ← splits] at begins
        exact absurd (begins ' ' rfl) (by decide)
  | cons space front =>
      exact ⟨front, trail, (List.cons.inj splits).2,
        fun c member => leadBlank c (List.mem_cons_of_mem _ member), trailBlank⟩

/-- Behind the word of a toggle, an arrow and a blank, what completes the rule is a path
between blanks, and the rule is one for the toggle. -/
theorem SpellsRule.exists_path_of_toggle
    {rule : StyleRule}
    {formatting : Toggle}
    {text : List Char}
    (spells : SpellsRule .characters rule
      (formatting.word.toList ++ ' ' :: '-' :: '>' :: ' ' :: text)) :
    rule.selector = .toggle formatting ∧
      ∃ lead pathText trail, text = lead ++ (pathText ++ trail) ∧
        (∀ c ∈ lead, Text.isBlank c = true) ∧ (∀ c ∈ trail, Text.isBlank c = true) ∧
        SpellsPath .characters rule.path pathText := by
  generalize splits : formatting.word.toList ++ ' ' :: '-' :: '>' :: ' ' :: text = whole at spells
  cases spells with
  | @intro selector path lead selectorText before _ behind pathText trail leadSpelled
      selectorSpelled beforeSpelled arrow behindSpelled pathSpelled trailSpelled =>
      obtain rfl := arrow
      rw [spellsGap_characters_iff] at leadSpelled beforeSpelled behindSpelled trailSpelled
      obtain ⟨c, wordRest, wordEquality, notBlank, _⟩ :=
        (Selector.toggle formatting).exists_keyword_eq_cons
      rw [Selector.keyword] at wordEquality
      -- No blank stands in front of the selector, whose first letter is that of the toggle.
      obtain rfl : lead = [] := by
        rw [wordEquality, List.cons_append] at splits
        exact Text.eq_nil_of_blanks_append leadSpelled notBlank splits.symm
      obtain ⟨clauses, selectorEquality⟩ := selectorSpelled.exists_clauses
      obtain ⟨first, keywordRest, keywordEquality, _⟩ := selector.exists_keyword_eq_cons
      obtain rfl : selector = .toggle formatting := by
        apply Selector.eq_toggle_of_head?_keyword
        rw [selectorEquality, keywordEquality, wordEquality] at splits
        rw [keywordEquality, wordEquality, List.head?_cons, List.head?_cons,
          (List.cons.inj splits).1]
      cases selectorSpelled with
      | toggle keyword =>
          obtain ⟨rfl, _⟩ := keyword
          have behindWord : ' ' :: '-' :: '>' :: ' ' :: text =
              before ++ '-' :: '>' :: (behind ++ (pathText ++ trail)) :=
            List.append_cancel_left splits
          -- The blank behind the word is all that stands before the arrow.
          obtain rfl : before = [' '] := by
            cases before with
            | nil => exact absurd (List.cons.inj behindWord).1 (by decide)
            | cons space others =>
                obtain ⟨sameSpace, behindSpace⟩ := List.cons.inj behindWord
                have othersBlank : ∀ c ∈ others, Text.isBlank c = true :=
                  fun c member => beforeSpelled c (List.mem_cons_of_mem _ member)
                rw [← sameSpace, Text.eq_nil_of_blanks_append othersBlank (by decide)
                  behindSpace.symm]
          have behindArrow : ' ' :: text = behind ++ (pathText ++ trail) := by
            simpa using behindWord
          obtain ⟨front, last, textSplits, frontBlank, lastBlank⟩ :=
            pathSpelled.exists_blanks_behind_space behindSpelled trailSpelled behindArrow
          exact ⟨rfl, front, pathText, last, textSplits, frontBlank, lastBlank, pathSpelled⟩

end Grammar

/-! ## Both readings -/

/-- A text is read as a path when it spells the path. -/
theorem HtmlPath.parse_eq_ok_iff_spells
    {source : String}
    {path : HtmlPath} :
    parse source = .ok path ↔ Grammar.SpellsPath .characters path source.toList := by
  constructor
  · exact spells_of_parse
  · intro spells
    obtain ⟨tokens, reached, tokensSpell, read⟩ := spells.readAs Lexeme.breaks_nil .start
    rw [List.append_nil, Lexeme.lexemes_nil, Token.placeWords, List.append_nil] at read
    rw [parse_eq_ok_iff_words, Token.wordsOf, read]
    exact tokensSpell

/-- A text that is a path is read as it behind any toggle and an arrow.  If a text is read
behind a toggle and an arrow, the rule is for the toggle, and the trimmed text is its path. -/
theorem parse_path_and_toggleRule
    (formatting : Toggle)
    (source : String) :
    (∀ path, HtmlPath.parse source = .ok path ->
        StyleRule.parse (formatting.word ++ " -> " ++ source) = .ok ⟨.toggle formatting, path⟩) ∧
      ∀ rule, StyleRule.parse (formatting.word ++ " -> " ++ source) = .ok rule ->
        rule.selector = .toggle formatting ∧
          HtmlPath.parse (Text.trim source) = .ok rule.path := by
  have ruleText : (formatting.word ++ " -> " ++ source).toList =
      formatting.word.toList ++ ' ' :: '-' :: '>' :: ' ' :: source.toList := by
    rw [String.toList_append, String.toList_append, List.append_assoc]
    rfl
  constructor
  · intro path parsed
    rw [StyleRule.parse_eq_ok_iff_splits]
    have selectorSpelled : Grammar.SpellsSelector .characters (.toggle formatting)
        formatting.word.toList :=
      @Selector.spells_text (.toggle formatting) trivial
    refine ⟨[], formatting.word.toList, [' '], [' '], source.toList, [], ?_, ?_, selectorSpelled,
      HtmlPath.parse_eq_ok_iff_spells.mp parsed⟩
    · rw [ruleText]
      simp
    · simp only [List.nil_append, List.append_nil, List.forall_mem_append, List.forall_mem_singleton]
      decide
  · intro rule parsed
    have spells := StyleRule.spells_of_parse parsed
    rw [ruleText] at spells
    obtain ⟨forToggle, lead, pathText, trail, splits, leadBlank, trailBlank, pathSpelled⟩ :=
      spells.exists_path_of_toggle
    refine ⟨forToggle, HtmlPath.parse_eq_ok_iff_spells.mpr ?_⟩
    rw [Text.toList_trim, splits, pathSpelled.trimChars_of_blanks_around leadBlank trailBlank]
    exact pathSpelled

/-- A list and an item in it, which is always a new one. -/
def HtmlPath.freshItem : HtmlPath :=
  .elements [.ofNames ["ul", "ol"] ["a"] true, .ofNames ["li"] [] false]

/-- Behind an arrow, a path is read with blanks around it as well, which it cannot have on its
own. -/
theorem parse_path_and_boldRule_freshItem :
    HtmlPath.parse "ul|ol.a > li:fresh" = .ok .freshItem ∧
      StyleRule.parse "b -> ul|ol.a > li:fresh" = .ok ⟨.toggle .bold, .freshItem⟩ ∧
      StyleRule.parse "b ->  ul|ol.a > li:fresh " = .ok ⟨.toggle .bold, .freshItem⟩ ∧
      (HtmlPath.parse " ul|ol.a > li:fresh ").toOption = none ∧
      HtmlPath.parse (Text.trim " ul|ol.a > li:fresh ") = .ok .freshItem := by
  have onItsOwn : HtmlPath.parse "ul|ol.a > li:fresh" = .ok .freshItem := by decide +kernel
  have betweenBlanks : StyleRule.parse "b ->  ul|ol.a > li:fresh " =
      .ok ⟨.toggle .bold, .freshItem⟩ := by
    decide +kernel
  refine ⟨onItsOwn, ?_, betweenBlanks, by decide +kernel, ?_⟩
  · exact (parse_path_and_toggleRule .bold "ul|ol.a > li:fresh").1 _ onItsOwn
  · exact ((parse_path_and_toggleRule .bold " ul|ol.a > li:fresh ").2 _ betweenBlanks).2

end StyleRules
