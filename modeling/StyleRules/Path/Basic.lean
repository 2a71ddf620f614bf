import StyleRules.Attributes

/-!
# Paths

A path says how a matched element is written: as nested tags from the outside
in, or not at all.
-/

namespace StyleRules

/-- One step of a path.  The first tag name is the one to write; the others are
tags that may be open already.  A collapsible element joins an open tag, a fresh
one begins a new tag. -/
structure PathElement where
  tagNames : List String
  attributes : Attributes
  collapsible : Bool
  deriving DecidableEq

namespace PathElement

/-- An element with the given tag names and classes.  The classes are joined by
single spaces; no classes leave no attribute. -/
def ofNames
    (tagNames : List String)
    (classNames : List String)
    (collapsible : Bool) :
    PathElement where
  tagNames := tagNames
  attributes :=
    if classNames.isEmpty then ∅
    else (∅ : Attributes).insert "class" (String.intercalate " " classNames)
  collapsible := collapsible

/-- The tag to write. -/
def tagName (element : PathElement) : String :=
  element.tagNames.headD ""

/-- The classes, joined by single spaces. -/
def className? (element : PathElement) : Option String :=
  element.attributes.get? "class"

end PathElement

/-- How a matched element is written. -/
inductive HtmlPath where
  /-- The element and its content are left out. -/
  | ignore
  /-- The element is written as nested tags, possibly none. -/
  | elements (steps : List PathElement)
  deriving DecidableEq

namespace HtmlPath

/-- Writes the content without a tag of its own. -/
def empty : HtmlPath :=
  .elements []

instance : Inhabited HtmlPath :=
  ⟨empty⟩

/-- One tag that joins an open tag of its name. -/
def collapsible (tagName : String) : HtmlPath :=
  .elements [.ofNames [tagName] [] true]

/-- One tag that is always begun anew. -/
def fresh (tagName : String) : HtmlPath :=
  .elements [.ofNames [tagName] [] false]

/-- Is the element left out? -/
def isIgnore : HtmlPath -> Bool
  | ignore => true
  | elements _ => false

/-- The steps of a path. -/
def steps : HtmlPath -> List PathElement
  | ignore => []
  | elements nested => nested

end HtmlPath
end StyleRules
