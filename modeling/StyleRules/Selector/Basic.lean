import StyleRules.Document.Basic

/-!
# Selectors

A selector chooses elements of a document.  Paragraphs and runs are chosen by
their properties; every clause that is present has to hold.  The toggles stand
for formatting that is on or off.
-/

namespace StyleRules

/-- Formatting that is on or off. -/
inductive Toggle where
  | bold
  | italic
  | underline
  | strikethrough
  | commentReference
  deriving DecidableEq, Repr

/-- Chooses paragraphs by style and list level. -/
structure ParagraphSelector where
  styleId : Option String
  styleName : Option String
  level : Option ListLevel
  deriving DecidableEq, Repr

/-- Chooses runs by style. -/
structure RunSelector where
  styleId : Option String
  styleName : Option String
  deriving DecidableEq, Repr

/-- Chooses elements of a document. -/
inductive Selector where
  | paragraph (selector : ParagraphSelector)
  | run (selector : RunSelector)
  | toggle (toggle : Toggle)
  deriving DecidableEq, Repr

/-- Does a required value agree with the value at hand?  Without a requirement
every value does. -/
def agrees [DecidableEq α] (required : Option α) (value : Option α) : Bool :=
  match required with
  | none => true
  | some required => value == some required

/-- Do the style clauses hold?  An element without a style meets none of
them. -/
def agreesWithStyle
    (styleId styleName : Option String)
    (style : Option Style) :
    Bool :=
  agrees styleId (style.map Style.id) && agrees styleName (style.bind Style.name)

/-- Do all clauses hold of a paragraph? -/
def ParagraphSelector.selects
    (selector : ParagraphSelector)
    (properties : ParagraphProperties) :
    Bool :=
  agreesWithStyle selector.styleId selector.styleName properties.style &&
    agrees selector.level properties.level

/-- Do all clauses hold of a run? -/
def RunSelector.selects
    (selector : RunSelector)
    (properties : RunProperties) :
    Bool :=
  agreesWithStyle selector.styleId selector.styleName properties.style

end StyleRules
