import StyleRules.Markup.Reader
import StyleRules.Proofs.Document.Preorder

/-!
# What is read of a forest

The elements of a forest come in the order of the document, each with the names of the
elements around it (`Node.occurrencesOf`).  Some of them are readable, by their own name
and the names around them, and every readable element reads as one label with warnings
of its own.  The elements that a forest reads as carry these labels, each at the depth
of its place in the markup, and the warnings are those of the labels, both in the order
of the document (`unfolds_readNodes`).
-/

namespace StyleRules
namespace Markup

/-- An element of a forest with the names of the elements around it, the nearest
first. -/
structure Occurrence where
  enclosing : List String
  element : Element

namespace Node

mutual

/-- The elements in a node, in the order of the document. -/
def occurrences : List String -> Node -> List Occurrence
  | enclosing, element name attributes children =>
      ⟨enclosing, name, attributes, children⟩ :: occurrencesOf (name :: enclosing) children
  | _, text _ => []

/-- The elements in nodes, in the order of the document. -/
def occurrencesOf : List String -> List Node -> List Occurrence
  | _, [] => []
  | enclosing, node :: nodes => occurrences enclosing node ++ occurrencesOf enclosing nodes

end

end Node

/-- The names of elements that are read. -/
def readableNames : List String :=
  ["w:t", "w:r", "w:p", "w:tab", "w:tbl", "w:tr", "w:tc"]

/-- The names of elements whose children are read. -/
def containerNames : List String :=
  ["w:r", "w:p", "w:tbl", "w:tr", "w:tc"]

theorem readableNames_of_containerNames :
    containerNames ⊆ readableNames := by
  decide

/-- Is the element read, and are the children of all elements around it? -/
structure Occurrence.Readable (occurrence : Occurrence) : Prop where
  name_mem : occurrence.element.name ∈ readableNames
  enclosing_mem : ∀ name ∈ occurrence.enclosing, name ∈ containerNames

instance : DecidablePred Occurrence.Readable := fun occurrence =>
  decidable_of_iff (occurrence.element.name ∈ readableNames ∧
      ∀ name ∈ occurrence.enclosing, name ∈ containerNames)
    ⟨fun both => ⟨both.1, both.2⟩, fun both => ⟨both.name_mem, both.enclosing_mem⟩⟩

/-- The readable elements of a forest, in the order of the document. -/
def readable (nodes : List Node) : List Occurrence :=
  (Node.occurrencesOf [] nodes).filter fun occurrence => occurrence.Readable

/-! ## Names and roles -/

namespace Role

/-- The name of the elements with a role. -/
def name : Role -> String
  | text => "w:t"
  | run => "w:r"
  | paragraph => "w:p"
  | tab => "w:tab"
  | table => "w:tbl"
  | tableRow => "w:tr"
  | tableCell => "w:tc"

theorem ofName?_eq_some_iff {name : String} {role : Role} :
    ofName? name = some role ↔ name = role.name := by
  constructor
  · intro hasRole
    unfold ofName? at hasRole
    repeat' split at hasRole
    all_goals cases hasRole
    all_goals assumption
  · rintro rfl
    cases role <;> rfl

theorem mem_readableNames_iff {name : String} :
    name ∈ readableNames ↔ ∃ role, ofName? name = some role := by
  simp only [ofName?_eq_some_iff]
  constructor
  · intro member
    simp only [readableNames, List.mem_cons, List.not_mem_nil, or_false] at member
    rcases member with isText | isRun | isParagraph | isTab | isTable | isRow | isCell
    · exact ⟨text, isText⟩
    · exact ⟨run, isRun⟩
    · exact ⟨paragraph, isParagraph⟩
    · exact ⟨tab, isTab⟩
    · exact ⟨table, isTable⟩
    · exact ⟨tableRow, isRow⟩
    · exact ⟨tableCell, isCell⟩
  · rintro ⟨role, rfl⟩
    cases role <;> decide

end Role

namespace Element

variable
  (styles : Styles)
  (numbering : Numbering)

/-- The label that an element with a role reads as, with the warnings of its own. -/
def readAs (element : Element) : Role -> WithWarnings StyleRules.Element.Label
  | .text => .ofValue (.text element.innerText)
  | .run => (readRunProperties styles element.children).map .run
  | .paragraph => (readParagraphProperties styles numbering element.children).map .paragraph
  | .tab => .ofValue .tab
  | .table => .ofValue .table
  | .tableRow => .ofValue .tableRow
  | .tableCell => .ofValue .tableCell

/-- The label that an element reads as, if it is one that is read. -/
def readLabel? (element : Element) : Option (WithWarnings StyleRules.Element.Label) :=
  (Role.ofName? element.name).map (element.readAs styles numbering)

theorem readLabel?_eq_none_iff (element : Element) :
    element.readLabel? styles numbering = none ↔ element.name ∉ readableNames := by
  rw [Role.mem_readableNames_iff, readLabel?]
  cases Role.ofName? element.name <;> simp

/-- Elements whose label holds children are those whose children are read. -/
theorem holdsChildren_iff
    {element : Element}
    {own : WithWarnings StyleRules.Element.Label}
    (reads : element.readLabel? styles numbering = some own) :
    own.value.holdsChildren = true ↔ element.name ∈ containerNames := by
  obtain ⟨role, hasRole, rfl⟩ := Option.map_eq_some_iff.mp reads
  rw [Role.ofName?_eq_some_iff.mp hasRole]
  cases role <;>
    simp [readAs, StyleRules.Element.Label.holdsChildren, Role.name, containerNames]

end Element

/-! ## One element at a time -/

/-- An element reads as its label, with what its children read as inside if the label
holds children. -/
theorem readNode_element
    (styles : Styles)
    (numbering : Numbering)
    (element : Element) :
    readNode styles numbering element.toNode =
      match element.readLabel? styles numbering with
      | none => .ofValue []
      | some own =>
          own.zipWith
            (if own.value.holdsChildren then readNodes styles numbering element.children
              else .ofValue [])
            fun label children => [label.withChildren children] := by
  rw [Element.toNode, readNode, Element.readLabel?]
  cases Role.ofName? element.name with
  | none => rfl
  | some role => cases role <;> rfl

/-- Do elements at a depth, with warnings, carry the labels of some readings, and the
warnings of these? -/
structure Unfolds
    (depth : Nat)
    (result : WithWarnings (List StyleRules.Element))
    (readings : List (Nat × WithWarnings StyleRules.Element.Label)) :
    Prop where
  labels :
    StyleRules.Element.labelsOf depth result.value =
      readings.map fun reading => (reading.1, reading.2.value)
  warnings : result.warnings = readings.flatMap fun reading => reading.2.warnings

namespace Unfolds

theorem nothing (depth : Nat) :
    Unfolds depth (.ofValue []) [] where
  labels := StyleRules.Element.labelsOf_nil depth
  warnings := rfl

theorem append
    {depth : Nat}
    {first second : WithWarnings (List StyleRules.Element)}
    {readings others : List (Nat × WithWarnings StyleRules.Element.Label)}
    (firstUnfolds : Unfolds depth first readings)
    (secondUnfolds : Unfolds depth second others) :
    Unfolds depth (first.zipWith second (· ++ ·)) (readings ++ others) where
  labels := by
    rw [WithWarnings.value_zipWith, StyleRules.Element.labelsOf_append, firstUnfolds.labels,
      secondUnfolds.labels, List.map_append]
  warnings := by
    rw [WithWarnings.warnings_zipWith, firstUnfolds.warnings, secondUnfolds.warnings,
      List.flatMap_append]

/-- A label comes before what is inside, and so do its warnings. -/
theorem label
    {depth : Nat}
    {own : WithWarnings StyleRules.Element.Label}
    {inside : WithWarnings (List StyleRules.Element)}
    {readings : List (Nat × WithWarnings StyleRules.Element.Label)}
    (insideUnfolds :
      Unfolds (depth + 1) (if own.value.holdsChildren then inside else .ofValue []) readings) :
    Unfolds depth
      (own.zipWith (if own.value.holdsChildren then inside else .ofValue [])
        fun label children => [label.withChildren children])
      ((depth, own) :: readings) where
  labels := by
    rw [WithWarnings.value_zipWith, StyleRules.Element.labelsOf_withChildren, List.map_cons,
      ← insideUnfolds.labels]
    split <;> rfl
  warnings := by
    rw [WithWarnings.warnings_zipWith, insideUnfolds.warnings, List.flatMap_cons]

end Unfolds

/-! ## Whole forests -/

/-- The readings of the readable ones among elements, each at its depth. -/
def readingsOf
    (styles : Styles)
    (numbering : Numbering)
    (occurrences : List Occurrence) :
    List (Nat × WithWarnings StyleRules.Element.Label) :=
  (occurrences.filter fun occurrence => occurrence.Readable).filterMap fun occurrence =>
    (occurrence.element.readLabel? styles numbering).map (occurrence.enclosing.length, ·)

mutual

/-- The names around a node are around every element in it. -/
theorem suffix_of_mem_occurrences
    {enclosing : List String}
    {occurrence : Occurrence} :
    (node : Node) -> occurrence ∈ node.occurrences enclosing -> enclosing <:+ occurrence.enclosing
  | .text _, member => absurd member List.not_mem_nil
  | .element name attributes children, member => by
      rw [Node.occurrences] at member
      rcases List.mem_cons.mp member with rfl | inChildren
      · exact List.suffix_rfl
      · exact (List.suffix_cons name enclosing).trans
          (suffix_of_mem_occurrencesOf children inChildren)

/-- The names around nodes are around every element in them. -/
theorem suffix_of_mem_occurrencesOf
    {enclosing : List String}
    {occurrence : Occurrence} :
    (nodes : List Node) -> occurrence ∈ Node.occurrencesOf enclosing nodes ->
      enclosing <:+ occurrence.enclosing
  | [], member => absurd member List.not_mem_nil
  | node :: nodes, member => by
      rw [Node.occurrencesOf] at member
      rcases List.mem_append.mp member with inNode | inNodes
      · exact suffix_of_mem_occurrences node inNode
      · exact suffix_of_mem_occurrencesOf nodes inNodes

end

variable
  (styles : Styles)
  (numbering : Numbering)

/-- Nothing is readable inside an element whose children are not read. -/
theorem readingsOf_eq_nil
    {name : String}
    {enclosing : List String}
    (nodes : List Node)
    (noContainer : name ∉ containerNames) :
    readingsOf styles numbering (Node.occurrencesOf (name :: enclosing) nodes) = [] := by
  have noneReadable :
      (Node.occurrencesOf (name :: enclosing) nodes).filter
        (fun occurrence => occurrence.Readable) = [] := by
    rw [List.filter_eq_nil_iff]
    intro occurrence member readable
    have around := (suffix_of_mem_occurrencesOf nodes member).subset List.mem_cons_self
    exact noContainer ((of_decide_eq_true readable).enclosing_mem name around)
  rw [readingsOf, noneReadable, List.filterMap_nil]

theorem readingsOf_append (first second : List Occurrence) :
    readingsOf styles numbering (first ++ second) =
      readingsOf styles numbering first ++ readingsOf styles numbering second := by
  simp [readingsOf]

/-- Where the children of all elements around are read, an element is read first if it
is one that is read. -/
theorem readingsOf_cons
    {occurrence : Occurrence}
    (containers : ∀ name ∈ occurrence.enclosing, name ∈ containerNames)
    (others : List Occurrence) :
    readingsOf styles numbering (occurrence :: others) =
      match occurrence.element.readLabel? styles numbering with
      | none => readingsOf styles numbering others
      | some own => (occurrence.enclosing.length, own) :: readingsOf styles numbering others := by
  cases reads : occurrence.element.readLabel? styles numbering with
  | none =>
      have notReadable : ¬ occurrence.Readable := fun readable =>
        (occurrence.element.readLabel?_eq_none_iff styles numbering).mp reads readable.name_mem
      simp [readingsOf, notReadable]
  | some own =>
      have readable : occurrence.Readable := by
        refine ⟨Decidable.not_not.mp fun noName => ?_, containers⟩
        rw [(occurrence.element.readLabel?_eq_none_iff styles numbering).mpr noName] at reads
        cases reads
      simp [readingsOf, readable, reads]

/-- Each readable element has its reading. -/
theorem map_readingsOf
    {f : Nat × WithWarnings StyleRules.Element.Label -> β}
    {g : Occurrence -> β}
    (agree :
      ∀ occurrence own, occurrence.element.readLabel? styles numbering = some own ->
        f (occurrence.enclosing.length, own) = g occurrence)
    (occurrences : List Occurrence) :
    (readingsOf styles numbering occurrences).map f =
      (occurrences.filter fun occurrence => occurrence.Readable).map g := by
  induction occurrences with
  | nil => rfl
  | cons occurrence others inductionHypothesis =>
      by_cases readable : occurrence.Readable
      · rw [readingsOf_cons styles numbering readable.enclosing_mem,
          List.filter_cons_of_pos (by simpa using readable)]
        cases reads : occurrence.element.readLabel? styles numbering with
        | none =>
            exact absurd readable.name_mem
              ((occurrence.element.readLabel?_eq_none_iff styles numbering).mp reads)
        | some own =>
            rw [List.map_cons, List.map_cons, agree occurrence own reads, inductionHypothesis]
      · rw [List.filter_cons_of_neg (by simpa using readable), ← inductionHypothesis]
        simp [readingsOf, readable]

mutual

/-- A node reads as the labels of its readable elements. -/
theorem unfolds_readNode
    {enclosing : List String}
    (containers : ∀ name ∈ enclosing, name ∈ containerNames) :
    (node : Node) ->
      Unfolds enclosing.length (readNode styles numbering node)
        (readingsOf styles numbering (node.occurrences enclosing))
  | .text value => by
      rw [readNode]
      exact .nothing _
  | .element name attributes children => by
      have reads := readNode_element styles numbering ⟨name, attributes, children⟩
      rw [Element.toNode] at reads
      rw [reads, Node.occurrences, readingsOf_cons styles numbering containers]
      cases hasLabel : Element.readLabel? styles numbering ⟨name, attributes, children⟩ with
      | none =>
          -- What is not read holds no children that are read, though it may enclose
          -- elements with readable names.
          have noName := (Element.readLabel?_eq_none_iff styles numbering _).mp hasLabel
          have noContainer : name ∉ containerNames :=
            mt (fun container => readableNames_of_containerNames container) noName
          rw [readingsOf_eq_nil styles numbering children noContainer]
          exact .nothing _
      | some own =>
          apply Unfolds.label
          have holds := Element.holdsChildren_iff styles numbering hasLabel
          by_cases container : name ∈ containerNames
          · rw [if_pos (holds.mpr container)]
            have allContainers : ∀ around ∈ name :: enclosing, around ∈ containerNames :=
              List.forall_mem_cons.mpr ⟨container, containers⟩
            exact unfolds_readNodes allContainers children
          · rw [if_neg (mt holds.mp container),
              readingsOf_eq_nil styles numbering children container]
            exact .nothing _

/-- Nodes read as the labels of their readable elements. -/
theorem unfolds_readNodes
    {enclosing : List String}
    (containers : ∀ name ∈ enclosing, name ∈ containerNames) :
    (nodes : List Node) ->
      Unfolds enclosing.length (readNodes styles numbering nodes)
        (readingsOf styles numbering (Node.occurrencesOf enclosing nodes))
  | [] => by
      rw [readNodes]
      exact .nothing _
  | node :: nodes => by
      rw [readNodes, Node.occurrencesOf, readingsOf_append]
      exact (unfolds_readNode containers node).append (unfolds_readNodes containers nodes)

end

end Markup
end StyleRules
