import StyleRules.Attributes

/-!
# Markup

A tree of named elements with attributes, and text between them.
-/

namespace StyleRules
namespace Markup

/-- A node of a markup tree. -/
inductive Node where
  | element (name : String) (attributes : Attributes) (children : List Node)
  | text (value : String)
  deriving Inhabited

/-- An element, taken apart. -/
structure Element where
  name : String
  attributes : Attributes
  children : List Node

namespace Node

/-- The element that a node is. -/
def element? : Node -> Option Element
  | element name attributes children => some ⟨name, attributes, children⟩
  | text _ => none

mutual

/-- The text of a node and of everything in it, in the order of the document. -/
def innerText : Node -> String
  | element _ _ children => innerTextOf children
  | text value => value

/-- The text of nodes and of everything in them. -/
def innerTextOf : List Node -> String
  | [] => ""
  | node :: nodes => innerText node ++ innerTextOf nodes

end

end Node

/-- The elements among nodes. -/
def elementsOf (nodes : List Node) : List Element :=
  nodes.filterMap Node.element?

/-- The first element of a name among nodes. -/
def findIn? (nodes : List Node) (name : String) : Option Element :=
  (elementsOf nodes).find? fun element => element.name == name

@[simp]
theorem findIn?_nil (name : String) :
    findIn? [] name = none :=
  rfl

@[simp]
theorem findIn?_cons_element
    (key : String)
    (attributes : Attributes)
    (children nodes : List Node)
    (name : String) :
    findIn? (.element key attributes children :: nodes) name =
      if key = name then some ⟨key, attributes, children⟩ else findIn? nodes name := by
  simp [findIn?, elementsOf, Node.element?, List.find?_cons]
  split <;> simp_all

theorem findIn?_append (nodes others : List Node) (name : String) :
    findIn? (nodes ++ others) name = (findIn? nodes name).or (findIn? others name) := by
  rw [findIn?, elementsOf, List.filterMap_append, List.find?_append]
  rfl

namespace Element

/-- The node that an element is. -/
def toNode (element : Element) : Node :=
  .element element.name element.attributes element.children

/-- The value of an attribute. -/
def attribute? (element : Element) (name : String) : Option String :=
  element.attributes.get? name

/-- The elements directly inside an element. -/
def childElements (element : Element) : List Element :=
  elementsOf element.children

/-- The first element of a name directly inside an element. -/
def child? (element : Element) (name : String) : Option Element :=
  findIn? element.children name

/-- Is there an element of a name directly inside? -/
def hasChild (element : Element) (name : String) : Bool :=
  (element.child? name).isSome

/-- The text of everything inside an element. -/
def innerText (element : Element) : String :=
  Node.innerTextOf element.children

end Element
end Markup
end StyleRules
