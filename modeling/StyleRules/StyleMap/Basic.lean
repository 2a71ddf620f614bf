import StyleRules.Rule

/-!
# Style maps

A style map holds rules for paragraphs, rules for runs and one path for each
toggle.  Of the rules that select a paragraph or a run, the first one decides.
-/

namespace StyleRules

/-- One value for each toggle. -/
structure Toggles (α : Type) where
  bold : α
  italic : α
  underline : α
  strikethrough : α
  commentReference : α
  deriving DecidableEq

namespace Toggles

/-- The value of a toggle. -/
def get (toggles : Toggles α) : Toggle -> α
  | .bold => toggles.bold
  | .italic => toggles.italic
  | .underline => toggles.underline
  | .strikethrough => toggles.strikethrough
  | .commentReference => toggles.commentReference

/-- Changes the value of a toggle. -/
def set (toggles : Toggles α) (toggle : Toggle) (value : α) : Toggles α :=
  match toggle with
  | .bold => { toggles with bold := value }
  | .italic => { toggles with italic := value }
  | .underline => { toggles with underline := value }
  | .strikethrough => { toggles with strikethrough := value }
  | .commentReference => { toggles with commentReference := value }

/-- The values in the order bold, italic, underline, strikethrough, comment
reference. -/
def toList (toggles : Toggles α) : List α :=
  [toggles.bold, toggles.italic, toggles.underline, toggles.strikethrough,
    toggles.commentReference]

/-- Combines the values of each toggle. -/
def zipWith (f : α -> β -> γ) (toggles : Toggles α) (others : Toggles β) : Toggles γ where
  bold := f toggles.bold others.bold
  italic := f toggles.italic others.italic
  underline := f toggles.underline others.underline
  strikethrough := f toggles.strikethrough others.strikethrough
  commentReference := f toggles.commentReference others.commentReference

@[simp]
theorem get_set (toggles : Toggles α) (toggle other : Toggle) (value : α) :
    (toggles.set toggle value).get other =
      if toggle = other then value else toggles.get other := by
  cases toggle <;> cases other <;> rfl

@[simp]
theorem get_zipWith
    (f : α -> β -> γ)
    (toggles : Toggles α)
    (others : Toggles β)
    (toggle : Toggle) :
    (zipWith f toggles others).get toggle = f (toggles.get toggle) (others.get toggle) := by
  cases toggle <;> rfl

/-- Toggles with the same values are equal. -/
theorem ext_get
    {toggles others : Toggles α}
    (agree : ∀ toggle, toggles.get toggle = others.get toggle) :
    toggles = others := by
  obtain ⟨bold, italic, underline, strikethrough, commentReference⟩ := toggles
  obtain ⟨bold', italic', underline', strikethrough', commentReference'⟩ := others
  have boldEqual := agree .bold
  have italicEqual := agree .italic
  have underlineEqual := agree .underline
  have strikethroughEqual := agree .strikethrough
  have commentReferenceEqual := agree .commentReference
  simp only [get] at *
  simp [*]

end Toggles

/-- Rules for paragraphs and runs, and a path for each toggle. -/
structure StyleMap where
  paragraphRules : List (Rule ParagraphSelector)
  runRules : List (Rule RunSelector)
  toggles : Toggles HtmlPath
  deriving DecidableEq

namespace StyleMap

/-- The path of the first rule that selects a paragraph. -/
def paragraphPath?
    (map : StyleMap)
    (properties : ParagraphProperties) :
    Option HtmlPath :=
  (map.paragraphRules.find? fun rule => rule.selector.selects properties).map Rule.path

/-- The path of the first rule that selects a run. -/
def runPath? (map : StyleMap) (properties : RunProperties) : Option HtmlPath :=
  (map.runRules.find? fun rule => rule.selector.selects properties).map Rule.path

/-- The path of the first rule that selects an element.  Only paragraphs and
runs are selected by rules. -/
def elementPath? (map : StyleMap) : Element -> Option HtmlPath
  | .paragraph properties _ => map.paragraphPath? properties
  | .run properties _ => map.runPath? properties
  | _ => none

end StyleMap
end StyleRules
