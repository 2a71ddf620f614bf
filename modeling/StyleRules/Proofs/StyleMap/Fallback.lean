import StyleRules.Proofs.StyleMap.Registering
import StyleRules.Proofs.StyleMap.Strictness

/-!
# The built-in rules fill gaps

Registered behind the rules of a text, the built-in ones are asked only for paragraphs and
runs that no rule of the text selects (`fallsBackOn_build_foldl_register`).  None of them is
for a toggle, so the toggles stay what they are without them.  The text alone decides
whether the compilation fails, and what it warns of (`compile_builtin_fills_gaps`).
-/

namespace StyleRules
namespace StyleMap

/-- Does the first style map answer as the second one where that has an answer, and as
the third one otherwise?  Of the toggles the second one has all. -/
structure FallsBackOn (all own others : StyleMap) : Prop where
  paragraphPath? : ∀ properties,
    all.paragraphPath? properties =
      (own.paragraphPath? properties).or (others.paragraphPath? properties)
  runPath? : ∀ properties,
    all.runPath? properties = (own.runPath? properties).or (others.runPath? properties)
  toggles : all.toggles = own.toggles

theorem findSome?_togglePath?_of_noToggle
    {rules : List StyleRule}
    (noToggle : ∀ rule ∈ rules, rule.selector.isToggle = false)
    (toggle : Toggle) :
    rules.findSome? (StyleRule.togglePath? toggle) = none := by
  rw [List.findSome?_eq_none_iff]
  intro rule member
  refine if_neg fun isForToggle => ?_
  have isNotToggle := noToggle rule member
  rw [isForToggle] at isNotToggle
  cases isNotToggle

/-- Rules that are registered last are asked last. -/
theorem fallsBackOn_build_foldl_register
    {rules : List StyleRule}
    (noToggle : ∀ rule ∈ rules, rule.selector.isToggle = false)
    (builder : Builder) :
    FallsBackOn (rules.foldl Builder.register builder).build builder.build
      (rules.foldl Builder.register Builder.empty).build where
  paragraphPath? properties := by
    have behindEmpty := Builder.paragraphRules_foldl_register rules Builder.empty
    simp only [StyleMap.paragraphPath?, Builder.build, behindEmpty,
      Builder.paragraphRules_foldl_register, List.find?_append, Option.map_or]
    rfl
  runPath? properties := by
    have behindEmpty := Builder.runRules_foldl_register rules Builder.empty
    simp only [StyleMap.runPath?, Builder.build, behindEmpty,
      Builder.runRules_foldl_register, List.find?_append, Option.map_or]
    rfl
  toggles := by
    refine Toggles.ext_get fun toggle => ?_
    rw [Builder.get_toggles_build, Builder.get_toggles_build,
      Builder.get_toggles_foldl_register, findSome?_togglePath?_of_noToggle noToggle,
      Option.or_none]

/-- Rules that are not for toggles, registered behind what comes of a text, decide neither
whether that fails nor what it warns of, and they fill its gaps. -/
theorem registered_behind_fills_gaps
    {rules : List StyleRule}
    (noToggle : ∀ rule ∈ rules, rule.selector.isToggle = false)
    (outcome : Except InvalidRule (WithWarnings Builder)) :
    (∀ invalid, outcome.map (WithWarnings.map Builder.build) = .error invalid ->
        outcome.map (WithWarnings.map fun own => (rules.foldl Builder.register own).build) =
          .error invalid) ∧
      ∀ own, outcome.map (WithWarnings.map Builder.build) = .ok own ->
        ∃ all,
          outcome.map (WithWarnings.map fun own => (rules.foldl Builder.register own).build) =
              .ok all ∧
            all.warnings = own.warnings ∧
            FallsBackOn all.value own.value (rules.foldl Builder.register Builder.empty).build := by
  cases outcome with
  | error rejected =>
      refine ⟨fun _ fails => fails, fun own succeeds => ?_⟩
      cases succeeds
  | ok registered =>
      refine ⟨fun invalid fails => ?_, fun own succeeds => ?_⟩
      · cases fails
      · cases succeeds
        exact ⟨_, rfl, rfl, fallsBackOn_build_foldl_register noToggle registered.value⟩

/-- The built-in rules decide neither whether the compilation fails, nor how, nor what it
warns of.  They are asked for what the rules of the text leave open, and never for a
toggle. -/
theorem compile_builtin_fills_gaps
    (strictness : Strictness)
    (source : String) :
    (∀ invalid, compile ⟨false, strictness⟩ source = .error invalid ->
        compile ⟨true, strictness⟩ source = .error invalid) ∧
      ∀ own, compile ⟨false, strictness⟩ source = .ok own ->
        ∃ all, compile ⟨true, strictness⟩ source = .ok all ∧
          all.warnings = own.warnings ∧ FallsBackOn all.value own.value builtin := by
  rw [compile_withoutBuiltin, compile_withBuiltin, builtin_eq]
  exact registered_behind_fills_gaps isToggle_of_mem_builtinRules _

/-- One rule of a text, for headings that a built-in rule selects as well. -/
def ownHeading : StyleMap :=
  { Builder.empty.build with
    paragraphRules := [⟨⟨some "Heading2", none, none⟩, .collapsible "h5"⟩] }

/-- A rule of the text decides for the headings that it selects, and a built-in one for
others. -/
theorem compile_ownHeading_and_builtin :
    ∃ all, compile ⟨true, .strict⟩ "p.Heading2 -> h5" = .ok all ∧
      all.value.paragraphPath? ⟨some ⟨"Heading2", none⟩, none⟩ = some (.collapsible "h5") ∧
      all.value.paragraphPath? ⟨some ⟨"Heading1", none⟩, none⟩ = some (.fresh "h1") := by
  have succeeds : compile ⟨false, .strict⟩ "p.Heading2 -> h5" = .ok (.ofValue ownHeading) := by
    decide +kernel
  have selected : ownHeading.paragraphPath? ⟨some ⟨"Heading2", none⟩, none⟩ =
      some (.collapsible "h5") := by
    decide +kernel
  have notSelected : ownHeading.paragraphPath? ⟨some ⟨"Heading1", none⟩, none⟩ = none := by
    decide +kernel
  obtain ⟨all, compiled, _, fallsBack⟩ :=
    (compile_builtin_fills_gaps .strict "p.Heading2 -> h5").2 _ succeeds
  refine ⟨all, compiled, ?_, ?_⟩
  · rw [fallsBack.paragraphPath?, WithWarnings.value_ofValue, selected, Option.some_or]
  · rw [fallsBack.paragraphPath?, WithWarnings.value_ofValue, notSelected, Option.none_or]
    obtain ⟨others, builtinHeading⟩ := exists_builtinRules_eq_cons
    have isForParagraphs :
        StyleRule.paragraphRule? ⟨.paragraph ⟨some "Heading1", none, none⟩, .fresh "h1"⟩ =
          some ⟨⟨some "Heading1", none, none⟩, .fresh "h1"⟩ :=
      rfl
    rw [builtin_eq, StyleMap.paragraphPath?, Builder.paragraphRules_build_foldl_register,
      builtinHeading, List.filterMap_cons_some isForParagraphs,
      List.find?_cons_of_pos (by decide +kernel), Option.map_some]

end StyleMap
end StyleRules
