import StyleRules.Document.Basic

/-!
# The elements of a document in order

An element comes before the elements inside it, and these before what follows it;
each has a depth, which counts the elements around it (`Element.preorderOf`).  What an
element is without its children is its label, so a forest is described by its labels
with their depths (`Element.labelsOf`).
-/

namespace StyleRules
namespace Element

/-! ## Induction on the children -/

mutual

/-- What holds of an element when it holds of its children holds of all elements. -/
theorem of_children
    {property : Element -> Prop}
    (step : ∀ element : Element,
      (∀ child ∈ element.children, property child) -> property element) :
    (element : Element) -> property element
  | paragraph _ children => step _ (forall_mem_of_children step children)
  | run _ children => step _ (forall_mem_of_children step children)
  | text _ => step _ (List.forall_mem_nil _)
  | tab => step _ (List.forall_mem_nil _)
  | table children => step _ (forall_mem_of_children step children)
  | tableRow children => step _ (forall_mem_of_children step children)
  | tableCell children => step _ (forall_mem_of_children step children)

/-- What holds of an element when it holds of its children holds of all elements of a
forest. -/
theorem forall_mem_of_children
    {property : Element -> Prop}
    (step : ∀ element : Element,
      (∀ child ∈ element.children, property child) -> property element) :
    (elements : List Element) -> ∀ element ∈ elements, property element
  | [] => List.forall_mem_nil _
  | element :: elements =>
      List.forall_mem_cons.mpr ⟨of_children step element, forall_mem_of_children step elements⟩

end

/-! ## Elements in order -/

mutual

/-- An element at a depth and all that is inside it, in order. -/
def preorder : Nat -> Element -> List (Nat × Element)
  | depth, paragraph properties children =>
      (depth, paragraph properties children) :: preorderOf (depth + 1) children
  | depth, run properties children =>
      (depth, run properties children) :: preorderOf (depth + 1) children
  | depth, text value => [(depth, text value)]
  | depth, tab => [(depth, tab)]
  | depth, table children => (depth, table children) :: preorderOf (depth + 1) children
  | depth, tableRow children => (depth, tableRow children) :: preorderOf (depth + 1) children
  | depth, tableCell children => (depth, tableCell children) :: preorderOf (depth + 1) children

/-- Elements at a depth and all that is inside them, in order. -/
def preorderOf : Nat -> List Element -> List (Nat × Element)
  | _, [] => []
  | depth, element :: elements => preorder depth element ++ preorderOf depth elements

end

@[simp]
theorem preorderOf_nil (depth : Nat) :
    preorderOf depth [] = [] := by
  rw [preorderOf]

@[simp]
theorem preorderOf_cons (depth : Nat) (element : Element) (elements : List Element) :
    preorderOf depth (element :: elements) =
      (depth, element) :: preorderOf (depth + 1) element.children ++ preorderOf depth elements := by
  cases element <;> simp [preorderOf, preorder, children]

theorem preorderOf_append (depth : Nat) (first second : List Element) :
    preorderOf depth (first ++ second) = preorderOf depth first ++ preorderOf depth second := by
  induction first with
  | nil => simp
  | cons element elements inductionHypothesis => simp [inductionHypothesis]

/-- What holds of the elements of a forest and of all that is inside them. -/
theorem forall_mem_preorderOf_iff
    (known : Element -> Prop)
    {depth : Nat}
    {elements : List Element} :
    (∀ place ∈ preorderOf depth elements, known place.2) ↔
      ∀ element ∈ elements,
        known element ∧ ∀ place ∈ preorderOf (depth + 1) element.children, known place.2 := by
  induction elements with
  | nil => simp
  | cons element elements inductionHypothesis =>
      rw [preorderOf_cons, List.forall_mem_append, List.forall_mem_cons, inductionHypothesis,
        List.forall_mem_cons]

/-- Where something is known of all that is in a forest, induction on the children can
use it of each element. -/
theorem forall_mem_of_preorderOf
    {property : Element -> Prop}
    (known : Element -> Prop)
    (step : ∀ element, known element -> (∀ child ∈ element.children, property child) ->
      property element)
    {depth : Nat}
    {elements : List Element}
    (allKnown : ∀ place ∈ preorderOf depth elements, known place.2) :
    ∀ element ∈ elements, property element := by
  -- The depth of an element is not that of its children, so it has to be general.
  have below : ∀ element depth, known element ->
      (∀ place ∈ preorderOf depth element.children, known place.2) -> property element := by
    intro element
    induction element using of_children with
    | step element inductionHypothesis =>
        intro depth isKnown knownInside
        refine step element isKnown fun child isChild => ?_
        obtain ⟨childKnown, knownBelow⟩ :=
          (forall_mem_preorderOf_iff known).mp knownInside child isChild
        exact inductionHypothesis child isChild _ childKnown knownBelow
  intro element member
  obtain ⟨isKnown, knownInside⟩ := (forall_mem_preorderOf_iff known).mp allKnown element member
  exact below element _ isKnown knownInside

/-- What an element is without its children. -/
inductive Label where
  | paragraph (properties : ParagraphProperties)
  | run (properties : RunProperties)
  | text (value : String)
  | tab
  | table
  | tableRow
  | tableCell
  deriving DecidableEq, Repr

/-- The label of an element. -/
def label : Element -> Label
  | paragraph properties _ => .paragraph properties
  | run properties _ => .run properties
  | text value => .text value
  | tab => .tab
  | table _ => .table
  | tableRow _ => .tableRow
  | tableCell _ => .tableCell

namespace Label

/-- Do elements with this label have children? -/
def holdsChildren : Label -> Bool
  | text _ => false
  | tab => false
  | _ => true

/-- The element with a label and children, if it can have children. -/
def withChildren : Label -> List Element -> Element
  | paragraph properties, children => .paragraph properties children
  | run properties, children => .run properties children
  | text value, _ => .text value
  | tab, _ => .tab
  | table, children => .table children
  | tableRow, children => .tableRow children
  | tableCell, children => .tableCell children

@[simp]
theorem label_withChildren (label : Label) (children : List Element) :
    (label.withChildren children).label = label := by
  cases label <;> rfl

theorem children_withChildren (label : Label) (children : List Element) :
    (label.withChildren children).children = if label.holdsChildren then children else [] := by
  cases label <;> rfl

end Label

@[simp]
theorem withChildren_label_children (element : Element) :
    element.label.withChildren element.children = element := by
  cases element <;> rfl

/-- Elements whose label holds no children have none. -/
theorem children_eq_nil
    {element : Element}
    (leaf : element.label.holdsChildren = false) :
    element.children = [] := by
  rw [← element.withChildren_label_children, element.label.children_withChildren, leaf]
  rfl

/-- The labels of elements at a depth and of all that is inside them, in order. -/
def labelsOf (depth : Nat) (elements : List Element) : List (Nat × Label) :=
  (preorderOf depth elements).map fun place => (place.1, place.2.label)

@[simp]
theorem labelsOf_nil (depth : Nat) :
    labelsOf depth [] = [] := by
  simp [labelsOf]

theorem labelsOf_append (depth : Nat) (first second : List Element) :
    labelsOf depth (first ++ second) = labelsOf depth first ++ labelsOf depth second := by
  rw [labelsOf, preorderOf_append, List.map_append]
  rfl

/-- A label comes before the labels of what is inside. -/
theorem labelsOf_withChildren (depth : Nat) (label : Label) (children : List Element) :
    labelsOf depth [label.withChildren children] =
      (depth, label) ::
        labelsOf (depth + 1) (if label.holdsChildren then children else []) := by
  simp [labelsOf, label.children_withChildren]

end Element
end StyleRules
