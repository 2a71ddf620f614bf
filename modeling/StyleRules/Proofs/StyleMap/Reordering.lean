import StyleRules.Proofs.Grammar.StandalonePaths
import StyleRules.Proofs.StyleMap.Concatenation
import StyleRules.Proofs.StyleMap.Location

/-!
# Rules in another order

A builder keeps rules for paragraphs, rules for runs and one path for each toggle, all
apart.  So only the order of rules of the same kind counts: rules that agree kind by kind
register the same builder (`Builder.foldl_register_of_agreeByKind`).  The lines of a text can
therefore be put in any other order that keeps the rules of each kind in theirs; blank lines
and comments can go anywhere (`build_and_parse_of_agreeByKind`).
-/

namespace StyleRules

/-- The kinds of selectors.  Each toggle is a kind of its own. -/
inductive SelectorKind where
  | paragraph
  | run
  | toggle (toggle : Toggle)
  deriving DecidableEq

/-- The kind of a selector. -/
def Selector.kind : Selector -> SelectorKind
  | .paragraph _ => .paragraph
  | .run _ => .run
  | .toggle formatting => .toggle formatting

namespace StyleRule

/-- The kind of the selector of a rule. -/
def kind (rule : StyleRule) : SelectorKind :=
  rule.selector.kind

theorem kind_of_paragraphRule?
    {rule : StyleRule}
    (isRule : rule.paragraphRule?.isSome = true) :
    rule.kind = .paragraph := by
  obtain ⟨selector, path⟩ := rule
  cases selector <;> first
    | rfl
    | exact absurd isRule Bool.false_ne_true

theorem kind_of_runRule?
    {rule : StyleRule}
    (isRule : rule.runRule?.isSome = true) :
    rule.kind = .run := by
  obtain ⟨selector, path⟩ := rule
  cases selector <;> first
    | rfl
    | exact absurd isRule Bool.false_ne_true

theorem kind_of_togglePath?
    {rule : StyleRule}
    {formatting : Toggle}
    (isRule : (rule.togglePath? formatting).isSome = true) :
    rule.kind = .toggle formatting := by
  rw [togglePath?] at isRule
  split at isRule
  · rename_i isToggle
    rw [kind, isToggle, Selector.kind]
  · exact absurd isRule Bool.false_ne_true

end StyleRule

namespace StyleMap

/-- Are the rules of each kind the same in both lists, in the same order? -/
def AgreeByKind (rules others : List StyleRule) : Prop :=
  ∀ kind, rules.filter (fun rule => rule.kind = kind) = others.filter (fun rule => rule.kind = kind)

/-! ## Builders -/

/-- What is taken from rules of one kind only is the same for rules that agree kind by
kind. -/
theorem AgreeByKind.filterMap_eq
    {rules others : List StyleRule}
    {taken? : StyleRule -> Option α}
    {kind : SelectorKind}
    (agree : AgreeByKind rules others)
    (ofKind : ∀ rule, (taken? rule).isSome = true -> rule.kind = kind) :
    rules.filterMap taken? = others.filterMap taken? := by
  have passedOver : ∀ rule,
      (if decide (rule.kind = kind) = true then taken? rule else none) = taken? rule := by
    intro rule
    by_cases isOfKind : rule.kind = kind
    · rw [if_pos (decide_eq_true isOfKind)]
    · rw [if_neg (by simpa using isOfKind), eq_comm, ← Option.not_isSome_iff_eq_none]
      exact mt (ofKind rule) isOfKind
  have onlyKind : ∀ list : List StyleRule,
      (list.filter fun rule => rule.kind = kind).filterMap taken? = list.filterMap taken? := by
    intro list
    rw [List.filterMap_filter]
    exact List.filterMap_congr fun rule _ => passedOver rule
  rw [← onlyKind rules, agree kind, onlyKind others]

namespace Builder

theorem ext_fields
    {builder other : Builder}
    (sameParagraphRules : builder.paragraphRules = other.paragraphRules)
    (sameRunRules : builder.runRules = other.runRules)
    (sameToggles : ∀ formatting, builder.toggles.get formatting = other.toggles.get formatting) :
    builder = other := by
  obtain ⟨paragraphRules, runRules, toggles⟩ := builder
  obtain ⟨_, _, otherToggles⟩ := other
  obtain rfl : toggles = otherToggles := Toggles.ext_get sameToggles
  simp only at sameParagraphRules sameRunRules
  rw [sameParagraphRules, sameRunRules]

/-- Rules that agree kind by kind come to the same builder. -/
theorem foldl_register_of_agreeByKind
    {rules others : List StyleRule}
    (agree : AgreeByKind rules others)
    (builder : Builder) :
    rules.foldl register builder = others.foldl register builder := by
  apply ext_fields
  · rw [paragraphRules_foldl_register, paragraphRules_foldl_register,
      agree.filterMap_eq fun _ => StyleRule.kind_of_paragraphRule?]
  · rw [runRules_foldl_register, runRules_foldl_register,
      agree.filterMap_eq fun _ => StyleRule.kind_of_runRule?]
  · intro formatting
    rw [get_toggles_foldl_register, get_toggles_foldl_register, ← List.head?_filterMap,
      ← List.head?_filterMap, agree.filterMap_eq fun _ => StyleRule.kind_of_togglePath?]

end Builder

/-! ## Lines -/

/-- The rule that is read from the characters of a line, if they are one. -/
def lineRule? (line : List Char) : Option StyleRule :=
  (StyleRule.parse (String.ofList line)).toOption

/-- The kind of the rule on a line, if it holds one. -/
def lineKind? (line : List Char) : Option SelectorKind :=
  (lineRule? line).map StyleRule.kind

/-- Are these the same lines in another order, in which the lines with rules of one kind
are still in order? -/
structure IsReordering (lines others : List (List Char)) : Prop where
  perm : lines.Perm others
  keeps_order : ∀ kind, lines.filter (fun line => lineKind? line = some kind) =
    others.filter (fun line => lineKind? line = some kind)

theorem lineRule?_trimChars
    {line : List Char}
    (noNewline : '\n' ∉ line) :
    lineRule? (Text.trimChars line) = lineRule? line := by
  have sameRules := fun rule => @StyleRule.parse_trimChars_iff rule line noNewline
  rw [lineRule?, lineRule?]
  cases parsed : StyleRule.parse (String.ofList line) with
  | ok rule => rw [(sameRules rule).mp parsed]
  | error error =>
      cases trimmed : StyleRule.parse (String.ofList (Text.trimChars line)) with
      | ok rule =>
          rw [(sameRules rule).mpr trimmed] at parsed
          cases parsed
      | error _ => rfl

/-- A line that is a rule is neither blank nor a comment. -/
theorem Line.holdsRule_of_parse
    {line : Line}
    {rule : StyleRule}
    (parsed : StyleRule.parse line.text = .ok rule) :
    line.holdsRule = true := by
  have spells := StyleRule.spells_of_parse parsed
  generalize textEquality : line.text.toList = text at spells
  cases spells with
  | @intro selector _ lead selectorText before arrow behind pathText trail leadSpelled
      selectorSpelled _ _ _ _ _ =>
      rw [Grammar.spellsGap_characters_iff] at leadSpelled
      obtain ⟨clauses, rfl⟩ := selectorSpelled.exists_clauses
      obtain ⟨c, rest, begins, notBlank, noComment⟩ := selector.exists_keyword_eq_cons
      rw [begins, List.cons_append, List.cons_append] at textEquality
      -- The blanks in front of the selector are not seen.
      have sameWithoutLead := @holdsRule_of_cons
        ⟨line.number, String.ofList (c :: (rest ++ clauses ++
          (before ++ (arrow ++ (behind ++ (pathText ++ trail))))))⟩
        _ _ (String.toList_ofList ..) notBlank noComment
      rw [holdsRule, String.toList_ofList] at sameWithoutLead
      rw [holdsRule, textEquality, Text.trimChars_blanks_append _ leadSpelled]
      exact sameWithoutLead

theorem rulesOf_numberedFrom
    (number : Nat)
    (texts : List (List Char)) :
    rulesOf ((Line.numberedFrom number texts).filter Line.holdsRule) =
      texts.filterMap lineRule? := by
  induction texts generalizing number with
  | nil => rfl
  | cons cs texts inductionHypothesis =>
      rw [Line.numberedFrom, List.filterMap_cons]
      cases isRule : lineRule? cs with
      | none =>
          rw [← inductionHypothesis (number + 1), List.filter_cons]
          split
          · exact List.filterMap_cons_none isRule
          · rfl
      | some rule =>
          have holdsRule : Line.holdsRule ⟨number + 1, String.ofList cs⟩ = true :=
            Line.holdsRule_of_parse (parse_eq_ok_of_toOption isRule)
          rw [List.filter_cons_of_pos holdsRule, ← inductionHypothesis (number + 1)]
          exact List.filterMap_cons_some isRule

/-- Are all lines understood, and do their rules make up the style map? -/
def LinesGive (lines : List (List Char)) (map : StyleMap) : Prop :=
  (∀ line ∈ lines, IsUnderstood (String.ofList line)) ∧
    ((lines.filterMap lineRule?).foldl Builder.register Builder.empty).build = map

theorem rejectionsOf_numberedFrom_eq_nil_iff
    (number : Nat)
    (texts : List (List Char)) :
    rejectionsOf (Line.numberedFrom number texts) = [] ↔
      ∀ line ∈ texts, IsUnderstood (String.ofList line) := by
  induction texts generalizing number with
  | nil => exact ⟨fun _ => List.forall_mem_nil _, fun _ => rfl⟩
  | cons cs texts inductionHypothesis =>
      rw [Line.numberedFrom, List.forall_mem_cons, isUnderstood_iff]
      cases rejected : rejection? (String.ofList cs) with
      | none => rw [rejectionsOf_cons_of_not_rejected rejected, inductionHypothesis]; simp
      | some error => rw [rejectionsOf_cons_of_rejected rejected]; simp

/-- A text is parsed as the style map that its lines give. -/
theorem parse_eq_ok_iff_linesGive
    {source : String}
    {map : StyleMap} :
    parse source = .ok map ↔ LinesGive (Text.lines source.toList) map := by
  rw [parse_eq_ok_iff, LinesGive, ruleLines, Line.ofSource_eq, rulesOf_numberedFrom,
    ← rejectionsOf_numberedFrom_eq_nil_iff 0, ← Line.ofSource_eq]
  rfl

namespace LinesGive

variable {lines others : List (List Char)} {map : StyleMap}

theorem concat_nil_iff :
    LinesGive (lines ++ [[]]) map ↔ LinesGive lines map := by
  have emptyUnderstood : IsUnderstood (String.ofList []) := .inl rfl
  have emptyNoRule : lineRule? [] = none := by decide +kernel
  rw [LinesGive, LinesGive, List.forall_mem_append, List.forall_mem_singleton, List.filterMap_append,
    List.filterMap_cons_none emptyNoRule, List.filterMap_nil, List.append_nil]
  simp [emptyUnderstood]

/-- Whether a line is understood does not depend on the blanks around it. -/
theorem isUnderstood_trimChars_iff
    {line : List Char}
    (noNewline : '\n' ∉ line) :
    IsUnderstood (String.ofList (Text.trimChars line)) ↔ IsUnderstood (String.ofList line) := by
  have sameRules := fun rule => @StyleRule.parse_trimChars_iff rule line noNewline
  simp only [IsUnderstood, Text.trim, String.toList_ofList, Text.trimChars_trimChars, sameRules]

/-- Trimmed lines give the same style map. -/
theorem map_trimChars_iff
    (noNewline : ∀ line ∈ lines, '\n' ∉ line) :
    LinesGive (lines.map Text.trimChars) map ↔ LinesGive lines map := by
  have sameRules : (lines.map Text.trimChars).filterMap lineRule? = lines.filterMap lineRule? := by
    rw [List.filterMap_map]
    exact List.filterMap_congr fun line member => lineRule?_trimChars (noNewline line member)
  rw [LinesGive, LinesGive, sameRules, List.forall_mem_map]
  refine and_congr_left fun _ => forall₂_congr fun line member => ?_
  exact isUnderstood_trimChars_iff (noNewline line member)

/-- In another order that keeps the rules of each kind in theirs, lines give the same style
map. -/
theorem reorder
    (gives : LinesGive lines map)
    (reordered : IsReordering others lines) :
    LinesGive others map := by
  have ofKind : ∀ (texts : List (List Char)) kind,
      (texts.filterMap lineRule?).filter (fun rule => rule.kind = kind) =
        (texts.filter fun line => lineKind? line = some kind).filterMap lineRule? := by
    intro texts kind
    rw [List.filter_filterMap, List.filterMap_filter]
    refine List.filterMap_congr fun line _ => ?_
    rw [lineKind?]
    cases lineRule? line with
    | none => simp
    | some rule => by_cases isOfKind : rule.kind = kind <;> simp [isOfKind]
  have agree : AgreeByKind (others.filterMap lineRule?) (lines.filterMap lineRule?) := by
    intro kind
    rw [ofKind, ofKind, reordered.keeps_order]
  refine ⟨fun line member => gives.1 line (reordered.perm.mem_iff.mp member), ?_⟩
  rw [Builder.foldl_register_of_agreeByKind agree]
  exact gives.2

/-- Lines that are joined by newlines are a text for the style map that they give. -/
theorem parse_joined
    (gives : LinesGive lines map)
    (noNewline : ∀ line ∈ lines, '\n' ∉ line) :
    parse (String.ofList (['\n'].intercalate lines)) = .ok map := by
  rw [parse_eq_ok_iff_linesGive, String.toList_ofList]
  rw [← map_trimChars_iff noNewline] at gives
  rw [← map_trimChars_iff fun _ => Text.newline_notMem_of_mem_lines]
  rcases Text.map_trimChars_lines_intercalate noNewline with same | lastMissing
  · rwa [← same]
  · rwa [lastMissing, concat_nil_iff] at gives

end LinesGive

/-- Two sequences of calls of a builder, each given as the rule that it registers, that agree
kind by kind come to the same number of rules and the same style map.  So a text whose rules
are all accepted gives the same style map as any text with its lines in another order in
which the rules of each kind are still in order; in particular when these lines are joined by
newlines. -/
theorem build_and_parse_of_agreeByKind :
    (∀ calls others : List StyleRule, AgreeByKind calls others ->
        (calls.foldl Builder.register .empty).ruleCount =
            (others.foldl Builder.register .empty).ruleCount ∧
          (calls.foldl Builder.register .empty).build =
            (others.foldl Builder.register .empty).build) ∧
      ∀ (source : String) (map : StyleMap) (lines : List (List Char)),
        parse source = .ok map -> IsReordering lines (Text.lines source.toList) ->
          (∀ other : String, Text.lines other.toList = lines -> parse other = .ok map) ∧
            parse (String.ofList (['\n'].intercalate lines)) = .ok map := by
  constructor
  · intro calls others agree
    rw [Builder.foldl_register_of_agreeByKind agree]
    exact ⟨rfl, rfl⟩
  · intro source map lines parsed reordered
    have gives := (parse_eq_ok_iff_linesGive.mp parsed).reorder reordered
    constructor
    · rintro other rfl
      exact parse_eq_ok_iff_linesGive.mpr gives
    · apply gives.parse_joined
      intro line member
      exact Text.newline_notMem_of_mem_lines (reordered.perm.mem_iff.mp member)

/-- Two rules for paragraphs, the special one in front, and one for bold text. -/
def headingsAndBold : StyleMap :=
  { Builder.empty.build with
    paragraphRules := [
      ⟨⟨some "a", none, none⟩, .collapsible "h1"⟩,
      ⟨⟨none, none, none⟩, .collapsible "h2"⟩]
    toggles.bold := .collapsible "u" }

/-- A toggle may move in front of the paragraphs and a comment behind them. -/
theorem parse_bold_before_paragraphs :
    parse "p.a -> h1\n# heading\nb -> u\np -> h2" = .ok headingsAndBold ∧
      parse "b -> u\np.a -> h1\np -> h2\n# heading" = .ok headingsAndBold := by
  have parsed : parse "p.a -> h1\n# heading\nb -> u\np -> h2" = .ok headingsAndBold := by
    decide +kernel
  have reordered : IsReordering
      ["b -> u".toList, "p.a -> h1".toList, "p -> h2".toList, "# heading".toList]
      (Text.lines "p.a -> h1\n# heading\nb -> u\np -> h2".toList) := by
    refine ⟨by decide +kernel, fun kind => ?_⟩
    rcases kind with _ | _ | formatting
    · decide +kernel
    · decide +kernel
    · cases formatting <;> decide +kernel
  exact ⟨parsed, (build_and_parse_of_agreeByKind.2 _ _ _ parsed reordered).2⟩

end StyleMap
end StyleRules
