import StyleRules.Proofs.Markup.Readings

/-!
# The outline of what is read

The elements that a forest reads as are its readable elements, in the order of the
document and as deep as these are, each of the kind that its name says; texts have all
the text below them, and runs the four properties that are on or off
(`outline_readNodes`).  No element is lost, comes twice or is moved.
-/

namespace StyleRules

/-- What an element is without its children, its style and its level. -/
inductive Element.Content where
  | paragraph
  | run (bold italic underline strikethrough : Bool)
  | text (value : String)
  | tab
  | table
  | tableRow
  | tableCell
  deriving DecidableEq, Repr

/-- What a label says besides style and level. -/
def Element.Label.content : Element.Label -> Element.Content
  | paragraph _ => .paragraph
  | run properties =>
      .run properties.bold properties.italic properties.underline properties.strikethrough
  | text value => .text value
  | tab => .tab
  | table => .table
  | tableRow => .tableRow
  | tableCell => .tableCell

namespace Markup
namespace Node

mutual

/-- The text nodes in a node, in the order of the document. -/
def texts : Node -> List String
  | element _ _ children => textsOf children
  | text value => [value]

/-- The text nodes in nodes, in the order of the document. -/
def textsOf : List Node -> List String
  | [] => []
  | node :: nodes => texts node ++ textsOf nodes

end

mutual

theorem innerText_eq_join :
    (node : Node) -> node.innerText = String.join node.texts
  | element _ _ children => by
      rw [innerText, texts]
      exact innerTextOf_eq_join children
  | text value => by simp [innerText, texts]

/-- The text of nodes is that of all text nodes below, put together. -/
theorem innerTextOf_eq_join :
    (nodes : List Node) -> innerTextOf nodes = String.join (textsOf nodes)
  | [] => rfl
  | node :: nodes => by
      rw [innerTextOf, textsOf, innerText_eq_join node, innerTextOf_eq_join nodes,
        String.join_append]

end

end Node

namespace Element

/-- Has the first `w:rPr` of an element a child of the given name? -/
def hasRunProperty (element : Element) (name : String) : Bool :=
  (element.childElements.find? fun child => child.name == "w:rPr").any fun properties =>
    properties.childElements.any fun property => property.name == name

/-- What an element of the markup stands for, by its name. -/
def content? (element : Element) : Option StyleRules.Element.Content :=
  match element.name with
  | "w:t" => some (.text (String.join (Node.textsOf element.children)))
  | "w:r" =>
      some (.run (element.hasRunProperty "w:b") (element.hasRunProperty "w:i")
        (element.hasRunProperty "w:u") (element.hasRunProperty "w:strike"))
  | "w:p" => some .paragraph
  | "w:tab" => some .tab
  | "w:tbl" => some .table
  | "w:tr" => some .tableRow
  | "w:tc" => some .tableCell
  | _ => none

theorem hasChild_eq_any (element : Element) (name : String) :
    element.hasChild name = element.childElements.any fun child => child.name == name := by
  rw [hasChild, child?, findIn?, List.isSome_find?]
  rfl

/-- The four flags of a run are those of its first `w:rPr`. -/
theorem content_readRunProperties (styles : Styles) (element : Element) :
    (StyleRules.Element.Label.run (readRunProperties styles element.children).value).content =
      .run (element.hasRunProperty "w:b") (element.hasRunProperty "w:i")
        (element.hasRunProperty "w:u") (element.hasRunProperty "w:strike") := by
  have flag : ∀ name,
      ((findIn? element.children "w:rPr").any fun properties => properties.hasChild name) =
        element.hasRunProperty name := by
    intro name
    simp only [hasChild_eq_any]
    rfl
  simp [readRunProperties, StyleRules.Element.Label.content, flag]

/-- The label that an element reads as has the content that its name says. -/
theorem content?_eq_of_readLabel?
    {styles : Styles}
    {numbering : Numbering}
    {element : Element}
    {own : WithWarnings StyleRules.Element.Label}
    (reads : element.readLabel? styles numbering = some own) :
    element.content? = some own.value.content := by
  obtain ⟨role, hasRole, rfl⟩ := Option.map_eq_some_iff.mp reads
  rw [content?, Role.ofName?_eq_some_iff.mp hasRole]
  cases role with
  | text =>
      exact congrArg (fun value => some (StyleRules.Element.Content.text value))
        (Node.innerTextOf_eq_join element.children).symm
  | run => exact congrArg some (content_readRunProperties styles element).symm
  | paragraph | tab | table | tableRow | tableCell => rfl

end Element

/-- The elements that a forest reads as, in order and with their depths, are its readable
elements with the number of elements around them, each with what it stands for. -/
theorem outline_readNodes
    (styles : Styles)
    (numbering : Numbering)
    (nodes : List Node) :
    ((StyleRules.Element.preorderOf 0 (readNodes styles numbering nodes).value).map fun place =>
        (place.1, some place.2.label.content)) =
      (readable nodes).map fun occurrence =>
        (occurrence.enclosing.length, occurrence.element.content?) := by
  have unfolds := unfolds_readNodes styles numbering (List.forall_mem_nil _) nodes
  calc
    _ = (StyleRules.Element.labelsOf 0 (readNodes styles numbering nodes).value).map
          fun place => (place.1, some place.2.content) := by
      rw [StyleRules.Element.labelsOf, List.map_map]
      rfl
    _ = (readingsOf styles numbering (Node.occurrencesOf [] nodes)).map
          fun reading => (reading.1, some reading.2.value.content) := by
      have labels := unfolds.labels
      rw [List.length_nil] at labels
      rw [labels, List.map_map]
      rfl
    _ = _ :=
      map_readingsOf styles numbering
        (fun _ _ reads => by rw [Element.content?_eq_of_readLabel? reads]) _

end Markup
end StyleRules
