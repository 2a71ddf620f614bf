/-!
# Documents

A document is a forest of elements.  Rules look only at the properties of
paragraphs and runs, so the properties are kept apart from the children.
-/

namespace StyleRules

/-- A paragraph or character style.  The name is what authors see; the
identifier is what the document refers to. -/
structure Style where
  id : String
  name : Option String
  deriving DecidableEq, Repr

/-- A list nesting depth, counted from zero, in an ordered or an unordered
list. -/
structure ListLevel where
  index : UInt32
  ordered : Bool
  deriving DecidableEq, Repr

/-- What rules can ask about a paragraph. -/
structure ParagraphProperties where
  style : Option Style
  level : Option ListLevel
  deriving DecidableEq, Repr

/-- What is known of a run beside its children. -/
structure RunProperties where
  bold : Bool
  italic : Bool
  underline : Bool
  strikethrough : Bool
  style : Option Style
  deriving DecidableEq, Repr

/-- The elements of a document. -/
inductive Element where
  | paragraph (properties : ParagraphProperties) (children : List Element)
  | run (properties : RunProperties) (children : List Element)
  | text (value : String)
  | tab
  | table (children : List Element)
  | tableRow (children : List Element)
  | tableCell (children : List Element)
  deriving Repr, Inhabited

namespace Element

/-- The elements inside an element. -/
def children : Element -> List Element
  | paragraph _ children => children
  | run _ children => children
  | text _ => []
  | tab => []
  | table children => children
  | tableRow children => children
  | tableCell children => children

end Element
end StyleRules
