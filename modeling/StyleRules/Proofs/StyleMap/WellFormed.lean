import StyleRules.Proofs.Grammar.Reading
import StyleRules.Proofs.Text.Lines
import StyleRules.StyleMap.Compile

/-!
# Well-formed style maps

What a text can say of a style map is limited by the letters of rules: names of
styles, tags and classes are identifiers, a style name has neither a quote nor a
newline, and so on (`StyleMap.WellFormed`).  Every rule that is read from a line
keeps to these limits, every registration keeps them, and so does every style map
that is compiled, with whatever options (`StyleMap.wellFormed_of_compile`).
-/

namespace StyleRules

open Lexeme (IsIdentifier)

/-- Can the element be spelled?  It has a tag name, and its names are identifiers;
of attributes it has classes at most. -/
structure PathElement.WellFormed (element : PathElement) : Prop where
  tagNames_ne_nil : element.tagNames ≠ []
  tagNames_identifiers : ∀ name ∈ element.tagNames, IsIdentifier name.toList
  attributes_classes :
    element.attributes = ∅ ∨
      ∃ classNames : List String, classNames ≠ [] ∧
        (∀ name ∈ classNames, IsIdentifier name.toList) ∧
        element.attributes = (∅ : Attributes).insert "class" (String.intercalate " " classNames)

/-- Can the path be spelled? -/
def HtmlPath.WellFormed (path : HtmlPath) : Prop :=
  ∀ step ∈ path.steps, step.WellFormed

/-- Can the style clauses be spelled, on one line? -/
structure StyleClausesWellFormed (styleId styleName : Option String) : Prop where
  styleId_identifier : ∀ id ∈ styleId, IsIdentifier id.toList
  styleName_quotable : ∀ name ∈ styleName, Lexeme.quote ∉ name.toList ∧ '\n' ∉ name.toList

/-- Can the selector be spelled?  Levels count from one in a text, where they have
to fit 32 bits. -/
structure ParagraphSelector.WellFormed (selector : ParagraphSelector) : Prop where
  clauses : StyleClausesWellFormed selector.styleId selector.styleName
  level_fits : ∀ level ∈ selector.level, level.index.toNat + 1 < UInt32.size

/-- Can the selector be spelled? -/
def RunSelector.WellFormed (selector : RunSelector) : Prop :=
  StyleClausesWellFormed selector.styleId selector.styleName

/-- Can the selector be spelled? -/
def Selector.WellFormed : Selector -> Prop
  | .paragraph selector => selector.WellFormed
  | .run selector => selector.WellFormed
  | .toggle _ => True

/-- Can all of the style map be spelled? -/
structure StyleMap.WellFormed (map : StyleMap) : Prop where
  paragraphRules : ∀ rule ∈ map.paragraphRules, rule.selector.WellFormed ∧ rule.path.WellFormed
  runRules : ∀ rule ∈ map.runRules, rule.selector.WellFormed ∧ rule.path.WellFormed
  toggles : ∀ toggle, (map.toggles.get toggle).WellFormed

/-! ## What is spelled is well-formed -/

theorem PathElement.wellFormed_ofNames
    {tagNames classNames : List String}
    {collapsible : Bool}
    (someTag : tagNames ≠ [])
    (tagsIdentifiers : ∀ name ∈ tagNames, IsIdentifier name.toList)
    (classesIdentifiers : ∀ name ∈ classNames, IsIdentifier name.toList) :
    (PathElement.ofNames tagNames classNames collapsible).WellFormed := by
  refine ⟨someTag, tagsIdentifiers, ?_⟩
  cases classNames with
  | nil => exact .inl rfl
  | cons name names => exact .inr ⟨name :: names, by simp, classesIdentifiers, rfl⟩

namespace Grammar

theorem SpellsTagNames.wellFormed
    {names : List String}
    {text : List Char}
    (spells : SpellsTagNames .characters names text) :
    names ≠ [] ∧ ∀ name ∈ names, IsIdentifier name.toList := by
  refine ⟨by cases spells <;> simp, ?_⟩
  induction spells with
  | single name => simpa using name.2
  | more name _ _ inductionHypothesis =>
      rw [List.forall_mem_cons]
      exact ⟨name.2, inductionHypothesis⟩

theorem SpellsClassNames.wellFormed
    {names : List String}
    {text : List Char}
    (spells : SpellsClassNames .characters names text) :
    ∀ name ∈ names, IsIdentifier name.toList := by
  induction spells with
  | none => simp
  | more name _ inductionHypothesis =>
      rw [List.forall_mem_cons]
      exact ⟨name.2, inductionHypothesis⟩

theorem SpellsElement.wellFormed
    {element : PathElement}
    {text : List Char}
    (spells : SpellsElement .characters element text) :
    element.WellFormed := by
  cases spells with
  | intro tagNames classNames _ =>
      exact PathElement.wellFormed_ofNames tagNames.wellFormed.1 tagNames.wellFormed.2
        classNames.wellFormed

theorem SpellsSteps.wellFormed
    {steps : List PathElement}
    {text : List Char}
    (spells : SpellsSteps .characters steps text) :
    ∀ step ∈ steps, step.WellFormed := by
  induction spells with
  | single element => simpa using element.wellFormed
  | more element _ _ _ _ inductionHypothesis =>
      rw [List.forall_mem_cons]
      exact ⟨element.wellFormed, inductionHypothesis⟩

theorem SpellsPath.wellFormed
    {path : HtmlPath}
    {text : List Char}
    (spells : SpellsPath .characters path text) :
    path.WellFormed := by
  cases spells with
  | ignore _ => simp [HtmlPath.WellFormed, HtmlPath.steps]
  | nothing => simp [HtmlPath.WellFormed, HtmlPath.steps]
  | elements steps => exact steps.wellFormed

/-- The clauses of a selector are well-formed when no newline stands in them. -/
theorem styleClausesWellFormed_of_spells
    {styleId styleName : Option String}
    {idText nameText : List Char}
    (idSpelled : SpellsStyleId .characters styleId idText)
    (nameSpelled : SpellsStyleName .characters styleName nameText)
    (noNewline : '\n' ∉ nameText) :
    StyleClausesWellFormed styleId styleName := by
  constructor
  · cases idSpelled with
    | absent => simp
    | present name => simpa using name.2
  · cases nameSpelled with
    | absent => simp
    | @present name _ _ _ _ _ _ _ _ quoted _ =>
        obtain ⟨rfl, unquoted⟩ := quoted
        simp only [List.mem_append, List.mem_cons, not_or] at noNewline
        simpa using ⟨unquoted, by tauto⟩

theorem SpellsLevel.index_fits
    {level : Option ListLevel}
    {text : List Char}
    (spells : SpellsLevel .characters level text) :
    ∀ held ∈ level, held.index.toNat + 1 < UInt32.size := by
  cases spells with
  | absent => simp
  | @present index _ _ _ _ _ _ _ _ _ numeral _ =>
      obtain ⟨_, _, _, fits⟩ := numeral
      rintro held ⟨⟩
      exact fits

theorem SpellsSelector.wellFormed
    {selector : Selector}
    {text : List Char}
    (spells : SpellsSelector .characters selector text)
    (noNewline : '\n' ∉ text) :
    selector.WellFormed := by
  cases spells with
  | toggle _ => trivial
  | run _ styleId styleName =>
      simp only [List.mem_append, not_or] at noNewline
      exact styleClausesWellFormed_of_spells styleId styleName noNewline.2.2
  | paragraph _ styleId styleName level =>
      simp only [List.mem_append, not_or] at noNewline
      exact ⟨styleClausesWellFormed_of_spells styleId styleName noNewline.2.2.1, level.index_fits⟩

end Grammar

/-- A rule on one line is well-formed. -/
theorem StyleRule.wellFormed_of_parse
    {source : String}
    {rule : StyleRule}
    (noNewline : '\n' ∉ source.toList)
    (parsed : parse source = .ok rule) :
    rule.selector.WellFormed ∧ rule.path.WellFormed := by
  have spells := spells_of_parse parsed
  generalize source.toList = text at spells noNewline
  cases spells with
  | intro _ selector _ _ _ path _ =>
      simp only [List.mem_append, not_or] at noNewline
      exact ⟨selector.wellFormed noNewline.2.1, path.wellFormed⟩

theorem exists_of_bind_eq_ok
    {first : Except ε α}
    {next : α -> Except ε β}
    {result : β}
    (succeeds : (first >>= next) = .ok result) :
    ∃ value, first = .ok value ∧ next value = .ok result := by
  cases first with
  | error error => exact absurd succeeds (by simp [bind, Except.bind])
  | ok value => exact ⟨value, rfl, succeeds⟩

namespace StyleMap

theorem Line.parse_eq_ok_iff
    (line : Line)
    {rule : StyleRule} :
    line.parse = .ok rule ↔ StyleRule.parse line.text = .ok rule := by
  rw [Line.parse]
  cases StyleRule.parse line.text <;> simp

theorem newline_notMem_of_mem_ruleLines
    {source : String}
    {line : Line}
    (member : line ∈ ruleLines source) :
    '\n' ∉ line.text.toList := by
  have lineMember := (List.mem_filter.mp member).1
  obtain ⟨⟨cs, index⟩, numbered, rfl⟩ := List.mem_map.mp lineMember
  rw [String.toList_ofList]
  exact Text.newline_notMem_of_mem_lines (List.fst_mem_of_mem_zipIdx numbered)

/-! ## Registering keeps what is well-formed -/

namespace Builder

/-- Can all that is registered so far be spelled? -/
structure WellFormed (builder : Builder) : Prop where
  paragraphRules :
    ∀ rule ∈ builder.paragraphRules, rule.selector.WellFormed ∧ rule.path.WellFormed
  runRules : ∀ rule ∈ builder.runRules, rule.selector.WellFormed ∧ rule.path.WellFormed
  toggles : ∀ toggle, ∀ path ∈ builder.toggles.get toggle, path.WellFormed

theorem wellFormed_empty :
    empty.WellFormed := by
  refine ⟨by simp [empty], by simp [empty], ?_⟩
  intro toggle
  cases toggle <;> simp [empty, Toggles.get]

theorem WellFormed.addToggle
    {builder : Builder}
    {path : HtmlPath}
    (toggle : Toggle)
    (wellFormed : builder.WellFormed)
    (pathWellFormed : path.WellFormed) :
    (builder.addToggle toggle path).WellFormed := by
  refine ⟨?_, ?_, ?_⟩
  · rw [paragraphRules_addToggle]
    exact wellFormed.paragraphRules
  · rw [runRules_addToggle]
    exact wellFormed.runRules
  · intro other held isHeld
    rw [get_toggles_addToggle] at isHeld
    split at isHeld
    · cases before : builder.toggles.get other with
      | none =>
          rw [before] at isHeld
          cases isHeld
          exact pathWellFormed
      | some path =>
          rw [before] at isHeld
          exact wellFormed.toggles other held (before ▸ isHeld)
    · exact wellFormed.toggles other held isHeld

theorem WellFormed.register
    {builder : Builder}
    {rule : StyleRule}
    (wellFormed : builder.WellFormed)
    (ruleWellFormed : rule.selector.WellFormed ∧ rule.path.WellFormed) :
    (builder.register rule).WellFormed := by
  obtain ⟨selector, path⟩ := rule
  cases selector with
  | paragraph selector =>
      refine ⟨List.forall_mem_append.mpr ⟨wellFormed.paragraphRules, ?_⟩, wellFormed.runRules,
        wellFormed.toggles⟩
      rw [List.forall_mem_singleton]
      exact ruleWellFormed
  | run selector =>
      refine ⟨wellFormed.paragraphRules, List.forall_mem_append.mpr ⟨wellFormed.runRules, ?_⟩,
        wellFormed.toggles⟩
      rw [List.forall_mem_singleton]
      exact ruleWellFormed
  | toggle toggle => exact wellFormed.addToggle toggle ruleWellFormed.2

theorem WellFormed.registerLines
    {strictness : Strictness}
    {lines : List Line}
    {builder : Builder}
    {registered : WithWarnings Builder}
    (noNewline : ∀ line ∈ lines, '\n' ∉ line.text.toList)
    (wellFormed : builder.WellFormed)
    (succeeds : registerLines strictness lines builder = .ok registered) :
    registered.value.WellFormed := by
  induction lines generalizing builder registered with
  | nil =>
      cases succeeds
      exact wellFormed
  | cons line lines inductionHypothesis =>
      obtain ⟨lineNoNewline, othersNoNewline⟩ := List.forall_mem_cons.mp noNewline
      cases parsed : line.parse with
      | ok rule =>
          have ruleWellFormed := StyleRule.wellFormed_of_parse lineNoNewline
            (line.parse_eq_ok_iff.mp parsed)
          rw [Builder.registerLines, parsed] at succeeds
          exact inductionHypothesis othersNoNewline (wellFormed.register ruleWellFormed) succeeds
      | error invalid =>
          rw [Builder.registerLines, parsed] at succeeds
          cases strictness with
          | strict => exact absurd succeeds (by simp)
          | lenient =>
              obtain ⟨others, rest, answers⟩ := exists_of_bind_eq_ok succeeds
              have othersWellFormed := inductionHypothesis othersNoNewline wellFormed rest
              cases answers
              exact othersWellFormed

theorem WellFormed.registerSource
    {strictness : Strictness}
    {source : String}
    {builder : Builder}
    {registered : WithWarnings Builder}
    (wellFormed : builder.WellFormed)
    (succeeds : builder.registerSource strictness source = .ok registered) :
    registered.value.WellFormed :=
  wellFormed.registerLines (fun _ => newline_notMem_of_mem_ruleLines) succeeds

theorem wellFormed_usualToggles
    (toggle : Toggle) :
    (usualToggles.get toggle).WellFormed := by
  have singleTag : ∀ tagName : String, IsIdentifier tagName.toList ->
      (HtmlPath.collapsible tagName).WellFormed := by
    intro tagName identifier step member
    obtain rfl := List.mem_singleton.mp member
    exact PathElement.wellFormed_ofNames (by simp) (by simpa using identifier) (by simp)
  cases toggle with
  | bold => exact singleTag "strong" (by decide +kernel)
  | italic => exact singleTag "em" (by decide +kernel)
  | underline => exact fun _ member => absurd member List.not_mem_nil
  | strikethrough => exact singleTag "s" (by decide +kernel)
  | commentReference => exact fun _ member => absurd member List.not_mem_nil

theorem WellFormed.build
    {builder : Builder}
    (wellFormed : builder.WellFormed) :
    builder.build.WellFormed := by
  refine ⟨wellFormed.paragraphRules, wellFormed.runRules, ?_⟩
  intro toggle
  rw [get_toggles_build]
  cases held : builder.toggles.get toggle with
  | none => exact wellFormed_usualToggles toggle
  | some path => exact wellFormed.toggles toggle path held

end Builder

/-! ## Compiled style maps -/

theorem wellFormed_of_parse
    {source : String}
    {map : StyleMap}
    (parsed : parse source = .ok map) :
    map.WellFormed := by
  obtain ⟨registered, registers, builds⟩ := exists_of_bind_eq_ok parsed
  cases builds
  exact (Builder.wellFormed_empty.registerSource registers).build

/-- Whatever is compiled is well-formed, with the built-in rules or without them,
and with lines passed over or not. -/
theorem wellFormed_of_compile
    {options : Options}
    {source : String}
    {compiled : WithWarnings StyleMap}
    (succeeds : compile options source = .ok compiled) :
    compiled.value.WellFormed := by
  obtain ⟨own, registersOwn, succeeds⟩ := exists_of_bind_eq_ok succeeds
  have ownWellFormed := Builder.wellFormed_empty.registerSource registersOwn
  split at succeeds
  · obtain ⟨all, registersAll, builds⟩ := exists_of_bind_eq_ok succeeds
    cases builds
    exact (ownWellFormed.registerSource registersAll).build
  · cases succeeds
    exact ownWellFormed.build

end StyleMap
end StyleRules
