import StyleRules.Proofs.StyleMap.Builtin
import StyleRules.Proofs.Text.Endings

/-!
# Strict and lenient compilation

A text is rejected in the lines that are neither blank nor comments nor rules
(`rejections`).  Lenient compilation passes over these lines, with a warning for each of
them, and comes to what strict compilation makes of the text with these lines emptied.
Strict compilation of the text itself fails at the first of them, and agrees with the
lenient one if there is none (`compile_lenient_and_strict`).
-/

namespace StyleRules
namespace StyleMap

/-- What is wrong with the rule of a line that is neither blank nor a comment. -/
def rejection? (text : String) : Option ParseError :=
  if Text.trim text = "" ∨ (Text.trim text).toList.head? = some '#' then none
  else
    match StyleRule.parse text with
    | .ok _ => none
    | .error error => some error

/-- A line that is rejected, and what is wrong with it. -/
structure Rejection where
  line : Line
  error : ParseError
  deriving DecidableEq, Repr

namespace Rejection

/-- The failure at a rejected line, with the error on the line's number. -/
def invalid (rejection : Rejection) : InvalidRule :=
  ⟨rejection.line.number, rejection.error.atLine rejection.line.number⟩

/-- The warning for a rejected line: the line without blanks around it, and on a line of
its own the error on the line's number. -/
def warning (rejection : Rejection) : Warning where
  message :=
    "Did not understand this style mapping, so ignored it: " ++ Text.trim rejection.line.text ++
      "\n" ++ (rejection.error.atLine rejection.line.number).message

end Rejection

/-- The rejected lines of a text, in order. -/
def rejections (source : String) : List Rejection :=
  (Line.ofSource source).filterMap fun line =>
    (rejection? line.text).map fun error => ⟨line, error⟩

/-- Are the characters of a line rejected? -/
def isRejected (cs : List Char) : Bool :=
  (rejection? (String.ofList cs)).isSome

/-- A text with every rejected line emptied; what ends the lines stays. -/
def withoutRejected (source : String) : String :=
  String.ofList <|
    ((Text.endedLines source.toList).map (Text.EndedLine.emptiedIf isRejected)).flatMap
      Text.EndedLine.text

/-! ## Lines -/

theorem Line.holdsRule_eq_false_iff (line : Line) :
    line.holdsRule = false ↔
      Text.trim line.text = "" ∨ (Text.trim line.text).toList.head? = some '#' := by
  rw [← String.toList_inj, Text.toList_trim, holdsRule]
  cases Text.trimChars line.text.toList <;> simp

/-- A line that holds a rule is one that is read or one that is rejected. -/
theorem Line.parse_or_rejection?
    {line : Line}
    (holdsRule : line.holdsRule = true) :
    (∃ rule, StyleRule.parse line.text = .ok rule ∧ rejection? line.text = none) ∨
      ∃ error, StyleRule.parse line.text = .error error ∧ rejection? line.text = some error := by
  have saysSomething :
      ¬ (Text.trim line.text = "" ∨ (Text.trim line.text).toList.head? = some '#') := by
    rw [← line.holdsRule_eq_false_iff, holdsRule]
    simp
  rw [rejection?, if_neg saysSomething]
  cases StyleRule.parse line.text with
  | ok rule => exact .inl ⟨rule, rfl, rfl⟩
  | error error => exact .inr ⟨error, rfl, rfl⟩

theorem Line.rejection?_eq_none
    {line : Line}
    (saysNothing : line.holdsRule = false) :
    rejection? line.text = none := by
  rw [rejection?, if_pos (line.holdsRule_eq_false_iff.mp saysNothing)]

/-- The rules on lines that are rules. -/
def rulesOf (lines : List Line) : List StyleRule :=
  lines.filterMap fun line => (StyleRule.parse line.text).toOption

/-- The rejected ones among lines. -/
def rejectionsOf (lines : List Line) : List Rejection :=
  lines.filterMap fun line => (rejection? line.text).map fun error => ⟨line, error⟩

theorem rejectionsOf_cons_of_rejected
    {text : String}
    {error : ParseError}
    (rejected : rejection? text = some error)
    (number : Nat)
    (lines : List Line) :
    rejectionsOf (⟨number, text⟩ :: lines) = ⟨⟨number, text⟩, error⟩ :: rejectionsOf lines := by
  apply List.filterMap_cons_some
  rw [rejected, Option.map_some]

theorem rejectionsOf_cons_of_not_rejected
    {text : String}
    (notRejected : rejection? text = none)
    (number : Nat)
    (lines : List Line) :
    rejectionsOf (⟨number, text⟩ :: lines) = rejectionsOf lines := by
  apply List.filterMap_cons_none
  rw [notRejected, Option.map_none]

theorem rejections_eq (source : String) :
    rejections source = rejectionsOf (ruleLines source) := by
  rw [rejections, rejectionsOf, ruleLines]
  induction Line.ofSource source with
  | nil => rfl
  | cons line lines inductionHypothesis =>
      cases holdsRule : line.holdsRule with
      | false =>
          rw [List.filter_cons_of_neg (by simp [holdsRule]),
            List.filterMap_cons_none (by simp [Line.rejection?_eq_none holdsRule]),
            inductionHypothesis]
      | true =>
          rw [List.filter_cons_of_pos holdsRule, List.filterMap_cons, List.filterMap_cons,
            inductionHypothesis]

/-! ## Registering lines -/

namespace Builder

/-- Leniently, the rules are registered and the rejected lines give warnings. -/
theorem registerLines_lenient
    {lines : List Line}
    (holdRules : ∀ line ∈ lines, line.holdsRule = true)
    (builder : Builder) :
    registerLines .lenient lines builder =
      .ok ⟨(rulesOf lines).foldl register builder,
        (rejectionsOf lines).map Rejection.warning⟩ := by
  induction lines generalizing builder with
  | nil => rfl
  | cons line lines inductionHypothesis =>
      obtain ⟨holdsRule, othersHoldRules⟩ := List.forall_mem_cons.mp holdRules
      rcases Line.parse_or_rejection? holdsRule with
        ⟨rule, parsed, notRejected⟩ | ⟨error, parsed, rejected⟩
      · simp only [registerLines, Line.parse, rulesOf, rejectionsOf, List.filterMap_cons,
          parsed, notRejected]
        exact inductionHypothesis othersHoldRules (builder.register rule)
      · simp only [registerLines, Line.parse, rulesOf, rejectionsOf, List.filterMap_cons,
          parsed, rejected]
        rw [inductionHypothesis othersHoldRules builder]
        rfl

/-- Strictly, the rules are registered unless a line is rejected; the first such line is
the failure. -/
theorem registerLines_strict
    {lines : List Line}
    (holdRules : ∀ line ∈ lines, line.holdsRule = true)
    (builder : Builder) :
    registerLines .strict lines builder =
      match rejectionsOf lines with
      | [] => .ok (.ofValue ((rulesOf lines).foldl register builder))
      | first :: _ => .error first.invalid := by
  induction lines generalizing builder with
  | nil => rfl
  | cons line lines inductionHypothesis =>
      obtain ⟨holdsRule, othersHoldRules⟩ := List.forall_mem_cons.mp holdRules
      rcases Line.parse_or_rejection? holdsRule with
        ⟨rule, parsed, notRejected⟩ | ⟨error, parsed, rejected⟩
      · simp only [registerLines, Line.parse, rulesOf, rejectionsOf, List.filterMap_cons,
          parsed, notRejected]
        exact inductionHypothesis othersHoldRules (builder.register rule)
      · simp only [registerLines, Line.parse, rulesOf, rejectionsOf, List.filterMap_cons,
          parsed, rejected]
        rfl

end Builder

theorem holdsRule_of_mem_ruleLines
    {source : String} :
    ∀ line ∈ ruleLines source, line.holdsRule = true :=
  fun _ member => (List.mem_filter.mp member).2

/-! ## Emptying the rejected lines -/

/-- An empty line at the end of a text makes no difference. -/
theorem filter_holdsRule_concat_nil
    (number : Nat)
    (texts : List (List Char)) :
    (Line.numberedFrom number (texts ++ [[]])).filter Line.holdsRule =
      (Line.numberedFrom number texts).filter Line.holdsRule := by
  induction texts generalizing number with
  | nil => rfl
  | cons cs texts inductionHypothesis =>
      rw [List.cons_append, Line.numberedFrom, Line.numberedFrom, List.filter_cons,
        List.filter_cons, inductionHypothesis]

/-- Among the lines that hold rules, those that are emptied are left out. -/
theorem filter_holdsRule_numberedFrom_map
    (number : Nat)
    (texts : List (List Char)) :
    (Line.numberedFrom number (texts.map fun cs => if isRejected cs then [] else cs)).filter
        Line.holdsRule =
      ((Line.numberedFrom number texts).filter Line.holdsRule).filter fun line =>
        (rejection? line.text).isNone := by
  induction texts generalizing number with
  | nil => rfl
  | cons cs texts inductionHypothesis =>
      rw [List.map_cons, Line.numberedFrom, Line.numberedFrom, List.filter_cons,
        inductionHypothesis, isRejected]
      cases holdsRule : (⟨number + 1, String.ofList cs⟩ : Line).holdsRule with
      | false =>
          have notRejected := Line.rejection?_eq_none holdsRule
          rw [List.filter_cons_of_neg (by simp [holdsRule])]
          simp [notRejected, holdsRule]
      | true =>
          rw [List.filter_cons_of_pos holdsRule]
          cases rejected : rejection? (String.ofList cs) with
          | none => simp [rejected, holdsRule]
          | some error =>
              -- The line goes on both sides: emptied, it holds no rule any more.
              have emptySaysNothing : (⟨number + 1, String.ofList []⟩ : Line).holdsRule = false :=
                rfl
              simp [rejected, emptySaysNothing]

theorem ruleLines_withoutRejected (source : String) :
    ruleLines (withoutRejected source) =
      (ruleLines source).filter fun line => (rejection? line.text).isNone := by
  have wellEnded := (Text.wellEnded_endedLines source.toList).emptiedIf isRejected
  have contents :
      ((Text.endedLines source.toList).map (Text.EndedLine.emptiedIf isRejected)).map
          Text.EndedLine.content =
        (Text.lines source.toList).map fun cs => if isRejected cs then [] else cs := by
    rw [← Text.map_content_endedLines, List.map_map, List.map_map]
    rfl
  rw [ruleLines, ruleLines, Line.ofSource_eq, Line.ofSource_eq, withoutRejected,
    String.toList_ofList, ← filter_holdsRule_numberedFrom_map, ← contents]
  rcases wellEnded.lines_flatMap_text with same | lastMissing
  · rw [same]
  · rw [lastMissing, filter_holdsRule_concat_nil]

theorem rejectionsOf_withoutRejected (source : String) :
    rejectionsOf (ruleLines (withoutRejected source)) = [] := by
  rw [rejectionsOf, ruleLines_withoutRejected, List.filterMap_eq_nil_iff]
  intro line member
  have notRejected := (List.mem_filter.mp member).2
  rw [Option.isNone_iff_eq_none] at notRejected
  rw [notRejected, Option.map_none]

theorem rulesOf_withoutRejected (source : String) :
    rulesOf (ruleLines (withoutRejected source)) = rulesOf (ruleLines source) := by
  rw [rulesOf, ruleLines_withoutRejected, List.filterMap_filter]
  refine List.filterMap_congr fun line member => ?_
  rcases Line.parse_or_rejection? (holdsRule_of_mem_ruleLines line member) with
    ⟨rule, _, notRejected⟩ | ⟨error, parsed, rejected⟩
  · rw [notRejected]
    rfl
  · rw [rejected, parsed]
    rfl

/-! ## Compiling -/

theorem ok_bind
    (value : α)
    (next : α -> Except ε β) :
    (Except.ok value >>= next) = next value :=
  rfl

/-- A text is parsed when no line is rejected; its rules are registered in order. -/
theorem parse_eq_ok_iff
    {source : String}
    {map : StyleMap} :
    parse source = .ok map ↔
      rejections source = [] ∧
        ((rulesOf (ruleLines source)).foldl Builder.register Builder.empty).build = map := by
  rw [parse, Builder.registerSource, Builder.registerLines_strict holdsRule_of_mem_ruleLines,
    rejections_eq]
  cases rejectionsOf (ruleLines source) with
  | nil => simp [bind, Except.bind, pure, Except.pure]
  | cons first others => simp [bind, Except.bind]

/-- Otherwise the first rejected line is the failure. -/
theorem parse_eq_error_iff
    {source : String}
    {invalid : InvalidRule} :
    parse source = .error invalid ↔
      ∃ first others, rejections source = first :: others ∧ first.invalid = invalid := by
  rw [parse, Builder.registerSource, Builder.registerLines_strict holdsRule_of_mem_ruleLines,
    rejections_eq]
  cases rejectionsOf (ruleLines source) with
  | nil => simp [bind, Except.bind, pure, Except.pure]
  | cons first others => simp [bind, Except.bind]

/-- Without the built-in rules, what is registered from a text is built as it is. -/
theorem compile_withoutBuiltin
    (strictness : Strictness)
    (source : String) :
    compile ⟨false, strictness⟩ source =
      (Builder.empty.registerSource strictness source).map (WithWarnings.map Builder.build) := by
  rw [compile]
  cases Builder.empty.registerSource strictness source <;> rfl

/-- With the built-in rules, they are registered behind it. -/
theorem compile_withBuiltin
    (strictness : Strictness)
    (source : String) :
    compile ⟨true, strictness⟩ source =
      (Builder.empty.registerSource strictness source).map
        (WithWarnings.map fun own => (builtinRules.foldl Builder.register own).build) := by
  rw [compile]
  cases Builder.empty.registerSource strictness source with
  | error invalid => rfl
  | ok own =>
      rw [ok_bind, if_pos rfl, Builder.registerSource_builtinText, ok_bind,
        WithWarnings.warnings_ofValue, List.append_nil]
      rfl

/-- With the built-in rules or without them, what is registered from a text is completed
to a style map in one way. -/
theorem exists_compile_eq (includeBuiltin : Bool) :
    ∃ complete : Builder -> StyleMap, ∀ strictness source,
      compile ⟨includeBuiltin, strictness⟩ source =
        (Builder.empty.registerSource strictness source).map (WithWarnings.map complete) := by
  cases includeBuiltin with
  | false => exact ⟨Builder.build, compile_withoutBuiltin⟩
  | true => exact ⟨_, compile_withBuiltin⟩

/-- Strict compilation is decided by the first rejected line. -/
theorem exists_compile_strict_and_lenient_eq (includeBuiltin : Bool) :
    ∃ complete : List StyleRule -> StyleMap, ∀ source,
      (compile ⟨includeBuiltin, .lenient⟩ source =
          .ok ⟨complete (rulesOf (ruleLines source)),
            (rejections source).map Rejection.warning⟩) ∧
        (rejections source = [] ->
          compile ⟨includeBuiltin, .strict⟩ source =
            .ok (.ofValue (complete (rulesOf (ruleLines source))))) ∧
        ∀ first others, rejections source = first :: others ->
          compile ⟨includeBuiltin, .strict⟩ source = .error first.invalid := by
  obtain ⟨complete, compiles⟩ := exists_compile_eq includeBuiltin
  refine ⟨fun rules => complete (rules.foldl Builder.register Builder.empty), fun source => ?_⟩
  rw [rejections_eq, compiles, compiles, Builder.registerSource, Builder.registerSource,
    Builder.registerLines_lenient holdsRule_of_mem_ruleLines,
    Builder.registerLines_strict holdsRule_of_mem_ruleLines]
  refine ⟨rfl, fun noneRejected => ?_, fun first others rejected => ?_⟩
  · rw [noneRejected]
    rfl
  · rw [rejected]
    rfl

/-- Lenient compilation never fails.  It warns of each rejected line, in order, and gives
the style map that strict compilation gives for the text with these lines emptied.
Strict compilation succeeds when there is no warning, and then gives the same style map;
otherwise it fails with what the first warning tells of. -/
theorem compile_lenient_and_strict
    (includeBuiltin : Bool)
    (source : String) :
    ∃ lenient : WithWarnings StyleMap,
      compile ⟨includeBuiltin, .lenient⟩ source = .ok lenient ∧
        lenient.warnings = (rejections source).map Rejection.warning ∧
        compile ⟨includeBuiltin, .strict⟩ (withoutRejected source) =
          .ok (.ofValue lenient.value) ∧
        ((∃ strict, compile ⟨includeBuiltin, .strict⟩ source = .ok strict) ↔
          lenient.warnings = []) ∧
        (lenient.warnings = [] -> compile ⟨includeBuiltin, .strict⟩ source = .ok lenient) ∧
        ∀ first others, rejections source = first :: others ->
          compile ⟨includeBuiltin, .strict⟩ source = .error first.invalid := by
  obtain ⟨complete, compiles⟩ := exists_compile_strict_and_lenient_eq includeBuiltin
  obtain ⟨leniently, strictly, fails⟩ := compiles source
  obtain ⟨_, emptied, _⟩ := compiles (withoutRejected source)
  rw [rejections_eq, rejectionsOf_withoutRejected, rulesOf_withoutRejected] at emptied
  have noneRejected :
      (rejections source).map Rejection.warning = [] -> rejections source = [] :=
    List.map_eq_nil_iff.mp
  refine ⟨_, leniently, rfl, emptied rfl, ⟨?_, ?_⟩, ?_, fails⟩
  · rintro ⟨strict, succeeds⟩
    cases rejected : rejections source with
    | nil => rfl
    | cons first others =>
        rw [fails first others rejected] at succeeds
        cases succeeds
  · exact fun noWarnings => ⟨_, strictly (noneRejected noWarnings)⟩
  · intro noWarnings
    rw [strictly (noneRejected noWarnings), noneRejected noWarnings]
    rfl

/-- A style map for bold text and for runs, the latter of which leave nothing. -/
def strongAndBareRuns : StyleMap :=
  { Builder.empty.build with
    runRules := [⟨⟨none, none⟩, .elements []⟩]
    toggles.bold := .collapsible "strong" }

/-- The line between two rules is passed over with a warning, or it is the failure. -/
theorem compile_strong_and_bare_runs :
    compile ⟨false, .lenient⟩ "b -> strong\nstrong -> b\nr ->" =
        .ok ⟨strongAndBareRuns,
          [⟨"Did not understand this style mapping, so ignored it: strong -> b\n" ++
            "Unrecognised document element: identifier 'strong' (line 2, column 1)"⟩]⟩ ∧
      compile ⟨false, .strict⟩ "b -> strong\n\nr ->" = .ok ⟨strongAndBareRuns, []⟩ ∧
      compile ⟨false, .strict⟩ "b -> strong\nstrong -> b\nr ->" =
        .error ⟨2, ⟨.unknownElement, ⟨.identifier, "strong", ⟨0, 6, 2, 1⟩⟩⟩⟩ := by
  obtain ⟨⟨map, warnings⟩, leniently, warns, emptied, _, _, fails⟩ :=
    compile_lenient_and_strict false "b -> strong\nstrong -> b\nr ->"
  have rejected : rejections "b -> strong\nstrong -> b\nr ->" =
      [⟨⟨2, "strong -> b"⟩, ⟨.unknownElement, ⟨.identifier, "strong", ⟨0, 6, 1, 1⟩⟩⟩⟩] := by
    decide +kernel
  have withoutLine : withoutRejected "b -> strong\nstrong -> b\nr ->" = "b -> strong\n\nr ->" := by
    decide +kernel
  have builds : compile ⟨false, .strict⟩ "b -> strong\n\nr ->" = .ok ⟨strongAndBareRuns, []⟩ := by
    decide +kernel
  obtain rfl : strongAndBareRuns = map := by
    rw [withoutLine, builds] at emptied
    exact congrArg WithWarnings.value (Except.ok.inj emptied)
  obtain rfl : warnings = _ := warns.trans (congrArg (List.map Rejection.warning) rejected)
  refine ⟨leniently.trans ?_, builds, fails _ _ rejected⟩
  decide +kernel

end StyleMap
end StyleRules
