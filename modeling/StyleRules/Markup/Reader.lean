import StyleRules.WithWarnings
import StyleRules.Markup.Basic
import StyleRules.Markup.Tables

/-!
# Reading documents from markup

Reading never fails.  Markup that is not known reads as nothing, together with
all that it holds, and text counts only inside text elements.  A reference to a
style that is not defined reads as a style without a name, with a warning.
-/

namespace StyleRules
namespace Markup

/-- What an element of the markup stands for. -/
inductive Role where
  | text
  | run
  | paragraph
  | tab
  | table
  | tableRow
  | tableCell
  deriving DecidableEq, Repr

namespace Role

/-- The role of an element's name. -/
def ofName? (name : String) : Option Role :=
  if name = "w:t" then some text
  else if name = "w:r" then some run
  else if name = "w:p" then some paragraph
  else if name = "w:tab" then some tab
  else if name = "w:tbl" then some table
  else if name = "w:tr" then some tableRow
  else if name = "w:tc" then some tableCell
  else none

end Role

/-- The attribute `w:val` of the first element of a name inside another one. -/
def valueOf? (properties : Option Element) (name : String) : Option String := do
  let child ← (← properties).child? name
  child.attribute? "w:val"

/-- The warning that a style is not defined. -/
def undefinedStyle (owner id : String) : Warning where
  message := owner ++ " style with ID " ++ id ++ " was referenced but not defined in the document"

/-- The style of a reference. -/
def resolveStyle
    (owner : String)
    (definition? : String -> Option Style) :
    Option String -> WithWarnings (Option Style)
  | none => .ofValue none
  | some id =>
      match definition? id with
      | some style => .ofValue (some style)
      | none => .ofWarning (some ⟨id, none⟩) (undefinedStyle owner id)

/-- The list level of a paragraph. -/
def readLevel (numbering : Numbering) (properties : Option Element) : Option ListLevel := do
  let reference := (← properties).child? "w:numPr"
  let id ← valueOf? reference "w:numId"
  let index ← valueOf? reference "w:ilvl"
  numbering.level? id index

/-- The properties of a run with the given children. -/
def readRunProperties (styles : Styles) (children : List Node) : WithWarnings RunProperties :=
  let properties := findIn? children "w:rPr"
  let has (name : String) : Bool := properties.any fun element => element.hasChild name
  (resolveStyle "Run" styles.character? (valueOf? properties "w:rStyle")).map fun style =>
    { bold := has "w:b"
      italic := has "w:i"
      underline := has "w:u"
      strikethrough := has "w:strike"
      style := style }

/-- The properties of a paragraph with the given children. -/
def readParagraphProperties
    (styles : Styles)
    (numbering : Numbering)
    (children : List Node) :
    WithWarnings ParagraphProperties :=
  let properties := findIn? children "w:pPr"
  (resolveStyle "Paragraph" styles.paragraph? (valueOf? properties "w:pStyle")).map fun style =>
    { style := style
      level := readLevel numbering properties }

mutual

/-- The elements of a document that a node reads as. -/
def readNode
    (styles : Styles)
    (numbering : Numbering) :
    Node -> WithWarnings (List StyleRules.Element)
  | .text _ => .ofValue []
  | .element name _ children =>
      match Role.ofName? name with
      | none => .ofValue []
      | some .text => .ofValue [.text (Node.innerTextOf children)]
      | some .tab => .ofValue [.tab]
      | some .run =>
          (readRunProperties styles children).zipWith (readNodes styles numbering children)
            fun properties elements => [.run properties elements]
      | some .paragraph =>
          (readParagraphProperties styles numbering children).zipWith
            (readNodes styles numbering children)
            fun properties elements => [.paragraph properties elements]
      | some .table => (readNodes styles numbering children).map fun elements => [.table elements]
      | some .tableRow =>
          (readNodes styles numbering children).map fun elements => [.tableRow elements]
      | some .tableCell =>
          (readNodes styles numbering children).map fun elements => [.tableCell elements]

/-- The elements of a document that nodes read as, in order. -/
def readNodes
    (styles : Styles)
    (numbering : Numbering) :
    List Node -> WithWarnings (List StyleRules.Element)
  | [] => .ofValue []
  | node :: nodes =>
      (readNode styles numbering node).zipWith (readNodes styles numbering nodes) (· ++ ·)

end

/-- Reads one element. -/
def Element.read
    (styles : Styles)
    (numbering : Numbering)
    (element : Element) :
    WithWarnings (List StyleRules.Element) :=
  readNode styles numbering element.toNode

end Markup
end StyleRules
