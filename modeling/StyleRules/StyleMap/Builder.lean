import StyleRules.StyleMap.Basic

/-!
# Building style maps

A builder collects rules one at a time.  Rules for paragraphs and for runs are
kept in the order of their registration.  Of several rules for one toggle the
first one counts, as it does for paragraphs and runs, and a toggle without a
rule gets its usual path in the end.
-/

namespace StyleRules
namespace StyleMap

/-- The rules registered so far. -/
structure Builder where
  paragraphRules : List (Rule ParagraphSelector)
  runRules : List (Rule RunSelector)
  toggles : Toggles (Option HtmlPath)
  deriving DecidableEq

/-- The paths of toggles without a rule: strong text, emphasis, nothing for
underlined text, struck text, and comments left out. -/
def usualToggles : Toggles HtmlPath where
  bold := .collapsible "strong"
  italic := .collapsible "em"
  underline := .empty
  strikethrough := .collapsible "s"
  commentReference := .ignore

namespace Builder

/-- No rules. -/
def empty : Builder :=
  ⟨[], [], ⟨none, none, none, none, none⟩⟩

instance : EmptyCollection Builder :=
  ⟨empty⟩

instance : Inhabited Builder :=
  ⟨empty⟩

/-- Adds a rule for paragraphs behind the others. -/
def addParagraph
    (builder : Builder)
    (selector : ParagraphSelector)
    (path : HtmlPath) :
    Builder :=
  { builder with paragraphRules := builder.paragraphRules ++ [⟨selector, path⟩] }

/-- Adds a rule for runs behind the others. -/
def addRun (builder : Builder) (selector : RunSelector) (path : HtmlPath) : Builder :=
  { builder with runRules := builder.runRules ++ [⟨selector, path⟩] }

/-- Gives a toggle its path, unless it has one. -/
def addToggle (builder : Builder) (toggle : Toggle) (path : HtmlPath) : Builder :=
  match builder.toggles.get toggle with
  | none => { builder with toggles := builder.toggles.set toggle (some path) }
  | some _ => builder

/-- Adds a rule. -/
def register (builder : Builder) (rule : StyleRule) : Builder :=
  match rule.selector with
  | .paragraph selector => builder.addParagraph selector rule.path
  | .run selector => builder.addRun selector rule.path
  | .toggle toggle => builder.addToggle toggle rule.path

/-- The number of rules that count. -/
def ruleCount (builder : Builder) : Nat :=
  builder.paragraphRules.length + builder.runRules.length +
    (builder.toggles.toList.filter Option.isSome).length

/-- The style map of the registered rules. -/
def build (builder : Builder) : StyleMap where
  paragraphRules := builder.paragraphRules
  runRules := builder.runRules
  toggles := builder.toggles.zipWith Option.getD usualToggles

/-- The first path given to a toggle stays; the others are not touched. -/
@[simp]
theorem get_toggles_addToggle
    (builder : Builder)
    (toggle other : Toggle)
    (path : HtmlPath) :
    (builder.addToggle toggle path).toggles.get other =
      if toggle = other then (builder.toggles.get other).or (some path)
      else builder.toggles.get other := by
  by_cases sameToggle : toggle = other
  · subst sameToggle
    cases held : builder.toggles.get toggle with
    | none => simp [addToggle, held]
    | some heldPath => simp [addToggle, held]
  · cases held : builder.toggles.get toggle with
    | none => simp [addToggle, held, sameToggle]
    | some heldPath => simp [addToggle, held, sameToggle]

@[simp]
theorem paragraphRules_addToggle
    (builder : Builder)
    (toggle : Toggle)
    (path : HtmlPath) :
    (builder.addToggle toggle path).paragraphRules = builder.paragraphRules := by
  unfold addToggle
  split <;> rfl

@[simp]
theorem runRules_addToggle
    (builder : Builder)
    (toggle : Toggle)
    (path : HtmlPath) :
    (builder.addToggle toggle path).runRules = builder.runRules := by
  unfold addToggle
  split <;> rfl

/-- A toggle without a rule gets its usual path. -/
@[simp]
theorem get_toggles_build (builder : Builder) (toggle : Toggle) :
    builder.build.toggles.get toggle =
      (builder.toggles.get toggle).getD (usualToggles.get toggle) := by
  simp [build]

end Builder

instance : Inhabited StyleMap :=
  ⟨Builder.empty.build⟩

end StyleMap
end StyleRules
