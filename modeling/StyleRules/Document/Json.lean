import StyleRules.WithWarnings
import StyleRules.Document.Basic
import StyleRules.Json.Decode
import StyleRules.Json.Reader

/-!
# Documents in JSON

An element is a record whose field `type` names its kind; the other fields are
those of the kind.  The array form of the record has the kind as its first item.

An element is read as a whole before its kind is looked at.  So everything in it
has to be plain, unknown fields included, and where an element is read from text,
the limit on nesting counts all of it.  Inside another element the kind may also
be given by its number.
-/

namespace StyleRules

namespace ListLevel

/-- A list level in JSON. -/
def toJson (level : ListLevel) : Json :=
  .ofMembers
    [("level_index", .natural level.index.toNat), ("is_ordered", .bool level.ordered)]

/-- Reads a list level. -/
def ofJson? (json : Json) : Option ListLevel := do
  match ← json.fields? ["level_index", "is_ordered"] with
  | [index, ordered] =>
      return ⟨← Json.required Json.word? index, ← Json.required Json.bool? ordered⟩
  | _ => none

end ListLevel

namespace Style

/-- A style in JSON. -/
def toJson (style : Style) : Json :=
  .ofMembers [("style_id", .text style.id), ("name", .ofOption .text style.name)]

/-- Reads a style. -/
def ofJson? (json : Json) : Option Style := do
  match ← json.fields? ["style_id", "name"] with
  | [id, name] =>
      return ⟨← Json.required Json.text? id, ← Json.nullable Json.text? name⟩
  | _ => none

end Style

namespace ParagraphProperties

/-- The members of a paragraph beside its children. -/
def members (properties : ParagraphProperties) : List (String × Json) :=
  [("style", .ofOption Style.toJson properties.style),
    ("numbering", .ofOption ListLevel.toJson properties.level)]

end ParagraphProperties

namespace RunProperties

/-- The members of a run beside its children. -/
def members (properties : RunProperties) : List (String × Json) :=
  [("is_bold", .bool properties.bold),
    ("is_italic", .bool properties.italic),
    ("is_underline", .bool properties.underline),
    ("is_strikethrough", .bool properties.strikethrough),
    ("style", .ofOption Style.toJson properties.style)]

end RunProperties

namespace Element

mutual

/-- An element in JSON. -/
def toJson : Element -> Json
  | paragraph properties children =>
      .ofMembers
        (("type", .text "paragraph") :: properties.members ++
          [("children", .array (toJsonItems children))])
  | run properties children =>
      .ofMembers
        (("type", .text "run") :: properties.members ++
          [("children", .array (toJsonItems children))])
  | text value => .ofMembers [("type", .text "text"), ("value", .text value)]
  | tab => .ofMembers [("type", .text "tab")]
  | table children =>
      .ofMembers [("type", .text "table"), ("children", .array (toJsonItems children))]
  | tableRow children =>
      .ofMembers [("type", .text "table_row"), ("children", .array (toJsonItems children))]
  | tableCell children =>
      .ofMembers [("type", .text "table_cell"), ("children", .array (toJsonItems children))]

/-- Elements in JSON. -/
def toJsonItems : List Element -> List Json
  | [] => []
  | element :: elements => toJson element :: toJsonItems elements

end

/-- The kinds of elements in the order of their numbers. -/
def kindNames : List String :=
  ["paragraph", "run", "text", "tab", "table", "table_row", "table_cell"]

/-- The kind that a value names.  Where numbers are allowed, the number of a
kind names it as well. -/
def kindName? (numbersAllowed : Bool) : Json -> Option String
  | .string (some name) => if name ∈ kindNames then some name else none
  | .number (.natural number) => if numbersAllowed then kindNames[number]? else none
  | _ => none

/-- The value that names the kind of a record, and the record without it. -/
def splitKind? : Json -> Option (Json × Json)
  | .object members => do
      let kind ← (← Json.member? members "type")
      return (kind, .object (members.filter fun member => member.1 != some "type"))
  | .array (kind :: fields) => some (kind, .array fields)
  | _ => none

/-- Reads the properties and the children of a paragraph. -/
def paragraphOfJson?
    (child : Json -> Option Element)
    (json : Json) :
    Option (ParagraphProperties × List Element) := do
  match ← json.fields? ["style", "numbering", "children"] with
  | [style, level, children] =>
      let style ← Json.nullable Style.ofJson? style
      let level ← Json.nullable ListLevel.ofJson? level
      let children ← Json.required (Json.items? child) children
      return (⟨style, level⟩, children)
  | _ => none

/-- Reads the properties and the children of a run. -/
def runOfJson?
    (child : Json -> Option Element)
    (json : Json) :
    Option (RunProperties × List Element) := do
  match ← json.fields?
      ["is_bold", "is_italic", "is_underline", "is_strikethrough", "style", "children"] with
  | [bold, italic, underline, strikethrough, style, children] =>
      let bold ← Json.required Json.bool? bold
      let italic ← Json.required Json.bool? italic
      let underline ← Json.required Json.bool? underline
      let strikethrough ← Json.required Json.bool? strikethrough
      let style ← Json.nullable Style.ofJson? style
      let children ← Json.required (Json.items? child) children
      return (⟨bold, italic, underline, strikethrough, style⟩, children)
  | _ => none

/-- Reads the only field of a record. -/
def fieldOfJson? (name : String) (decode : Json -> Option α) (json : Json) : Option α := do
  match ← json.fields? [name] with
  | [field] => Json.required decode field
  | _ => none

/-- Is the record of an element without fields acceptable?  An object may have
any members, an array no items. -/
def isFieldless : Json -> Bool
  | .object _ => true
  | .array items => items.isEmpty
  | _ => false

/-- Reads the fields of an element of a given kind. -/
def fieldsOfJson?
    (child : Json -> Option Element)
    (kind : String)
    (record : Json) :
    Option Element :=
  if kind = "paragraph" then
    (paragraphOfJson? child record).map fun (properties, children) =>
      paragraph properties children
  else if kind = "run" then
    (runOfJson? child record).map fun (properties, children) => run properties children
  else if kind = "text" then
    (fieldOfJson? "value" Json.text? record).map text
  else if kind = "tab" then
    if isFieldless record then some tab else none
  else if kind = "table" then
    (fieldOfJson? "children" (Json.items? child) record).map table
  else if kind = "table_row" then
    (fieldOfJson? "children" (Json.items? child) record).map tableRow
  else if kind = "table_cell" then
    (fieldOfJson? "children" (Json.items? child) record).map tableCell
  else none

/-- Reads an element that lies inside another one, up to some depth. -/
def innerOfJson? : Nat -> Json -> Option Element
  | 0, _ => none
  | depth + 1, json => do
      let (kind, record) ← splitKind? json
      let kind ← kindName? true kind
      fieldsOfJson? (innerOfJson? depth) kind record

/-- Reads an element. -/
def ofJson? (json : Json) : Option Element := do
  if json.isPlain then
    let (kind, record) ← splitKind? json
    let kind ← kindName? false kind
    fieldsOfJson? (innerOfJson? json.depth) kind record
  else none

/-- Reads an element with room for the given number of nested arrays and
objects. -/
def ofJsonWithin? (room : Nat) (json : Json) : Option Element :=
  if json.depth ≤ room then ofJson? json else none

/-- Reads the text of an element. -/
def ofJsonText? : String -> Option Element :=
  Json.readAs? (ofJsonWithin? Json.nestingLimit)

end Element

namespace Warning

/-- A warning in JSON. -/
def toJson (warning : Warning) : Json :=
  .ofMembers [("message", .text warning.message)]

/-- Reads a warning. -/
def ofJson? (json : Json) : Option Warning := do
  match ← json.fields? ["message"] with
  | [message] => return ⟨← Json.required Json.text? message⟩
  | _ => none

end Warning

namespace WithWarnings

/-- Elements and their warnings in JSON. -/
def toJson (read : WithWarnings (List Element)) : Json :=
  .ofMembers
    [("value", .ofList Element.toJson read.value),
      ("warnings", .ofList Warning.toJson read.warnings)]

/-- Reads elements and their warnings with room for the given number of nested
arrays and objects.  The record and the array in it take two of them. -/
def ofJsonWithin? (room : Nat) (json : Json) : Option (WithWarnings (List Element)) := do
  match ← json.fields? ["value", "warnings"] with
  | [value, warnings] =>
      let value ← Json.required (Json.items? (Element.ofJsonWithin? (room - 2))) value
      let warnings ← Json.required (Json.items? Warning.ofJson?) warnings
      return ⟨value, warnings⟩
  | _ => none

/-- Reads the text of elements and their warnings. -/
def ofJsonText? : String -> Option (WithWarnings (List Element)) :=
  Json.readAs? (ofJsonWithin? Json.nestingLimit)

end WithWarnings
end StyleRules
