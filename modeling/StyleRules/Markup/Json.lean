import StyleRules.Json.Decode
import StyleRules.Markup.Basic
import StyleRules.StyleMap.Json

/-!
# Markup in JSON

A node is a choice between an element, which is a record, and a text.  Nesting is
limited as it is for documents; what is not looked at does not count.
-/

namespace StyleRules
namespace Markup
namespace Node

mutual

/-- A node in JSON. -/
def toJson : Node -> Json
  | element name attributes children =>
      .ofMembers
        [("Element", .ofMembers
          [("name", .text name), ("attributes", attributes.toJson),
            ("children", .array (toJsonItems children))])]
  | text value => .ofMembers [("Text", .text value)]

/-- Nodes in JSON. -/
def toJsonItems : List Node -> List Json
  | [] => []
  | node :: nodes => toJson node :: toJsonItems nodes

end

/-- Reads an element, given how its children are read. -/
def elementOfJson? (child : Json -> Option Node) (json : Json) : Option Node := do
  match ← json.fields? ["name", "attributes", "children"] with
  | [name, attributes, children] =>
      let name ← Json.required Json.text? name
      let attributes ← Json.required Attributes.ofJson? attributes
      let children ← Json.required (Json.items? child) children
      return element name attributes children
  | _ => none

/-- Reads a node with room for the given number of nested arrays and objects.
An element takes three of them: the choice, the record, and its children. -/
def ofJsonWithin? : Nat -> Json -> Option Node
  | 0, _ => none
  | room + 1, json =>
      match json.choice? with
      | some ("Text", some content) => (Json.text? content).map text
      | some ("Element", some content) =>
          match room with
          | inner + 2 => elementOfJson? (ofJsonWithin? inner) content
          | _ => none
      | _ => none

/-- Reads the text of a node. -/
def ofJsonText? : String -> Option Node :=
  Json.readAs? (ofJsonWithin? Json.nestingLimit)

end Node

/-- An element in JSON, without the choice around it. -/
def Element.toJson (element : Element) : Json :=
  .ofMembers
    [("name", .text element.name), ("attributes", element.attributes.toJson),
      ("children", .array (Node.toJsonItems element.children))]

end Markup
end StyleRules
