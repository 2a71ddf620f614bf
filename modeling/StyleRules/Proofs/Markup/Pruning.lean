import StyleRules.Proofs.Markup.Readings

/-!
# Markup that does not count

Of a forest only a few kinds of elements count, of these only the attribute `w:val`, and
of the text only what stands in text elements.  All else is pruned away, at every depth
(`Node.pruneOf`), except that the content of a text element stays whole.  What is left
reads as the forest did, with the same warnings (`isPruned_and_readNodes_pruneOf`):
properties are found by name among the elements beside them, and no name that is looked
for is pruned.
-/

namespace StyleRules

/-- The attributes without all but one. -/
def Attributes.only (attributes : Attributes) (name : String) : Attributes :=
  ⟨attributes.entries.filter fun entry => entry.1 = name, attributes.ascending.filter _⟩

/-- The attribute that is left has the value that it had. -/
theorem Attributes.get?_only (attributes : Attributes) (name : String) :
    (attributes.only name).get? name = attributes.get? name := by
  obtain ⟨entries, ascending⟩ := attributes
  change find? name (entries.filter fun entry => entry.1 = name) = find? name entries
  clear ascending
  induction entries with
  | nil => rfl
  | cons entry entries inductionHypothesis =>
      obtain ⟨key, value⟩ := entry
      by_cases sameName : key = name
      · rw [List.filter_cons_of_pos (by simpa using sameName), find?, find?, if_pos sameName,
          if_pos sameName]
      · rw [List.filter_cons_of_neg (by simpa using sameName), inductionHypothesis, find?,
          if_neg sameName]

namespace Markup

/-- The names of elements that hold properties, or are properties. -/
def propertyNames : List String :=
  ["w:pPr", "w:rPr", "w:pStyle", "w:rStyle", "w:numPr", "w:numId", "w:ilvl", "w:b", "w:i", "w:u",
    "w:strike"]

/-- The names of elements that count. -/
def keptNames : List String :=
  readableNames ++ propertyNames

theorem mem_keptNames_of_mem_propertyNames
    {name : String}
    (isProperty : name ∈ propertyNames) :
    name ∈ keptNames :=
  List.mem_append_right readableNames isProperty

namespace Node

mutual

/-- A node without what does not count; nothing, if the node itself does not.  The
content of a text element stays whole. -/
def prune : Node -> List Node
  | element name attributes children =>
      if name ∈ keptNames then
        [element name (attributes.only "w:val")
          (if name = "w:t" then children else pruneOf children)]
      else []
  | text _ => []

/-- Nodes without what does not count. -/
def pruneOf : List Node -> List Node
  | [] => []
  | node :: nodes => prune node ++ pruneOf nodes

end

/-- Is there nothing in the node that does not count, outside the content of text
elements? -/
inductive IsPruned : Node -> Prop
  | text
      {attributes : Attributes}
      {children : List Node}
      (onlyValue : ∀ entry ∈ attributes.entries, entry.1 = "w:val") :
      IsPruned (.element "w:t" attributes children)
  | element
      {name : String}
      {attributes : Attributes}
      {children : List Node}
      (kept : name ∈ keptNames)
      (onlyValue : ∀ entry ∈ attributes.entries, entry.1 = "w:val")
      (inside : ∀ child ∈ children, IsPruned child) :
      IsPruned (.element name attributes children)

/-- Remarks, bookmarks and attributes that are not looked at go, at every depth, and text
stays where it is a text element's. -/
example :
    pruneOf
        [.text "\n",
          .element "w:p" ((∅ : Attributes).insert "w:rsidR" "00A1")
            [.element "w:bookmarkStart" ∅ [.element "w:r" ∅ []],
              .element "w:pPr" ∅
                [.text " ",
                  .element "w:pStyle" (.ofList [("w:val", "Quote"), ("xml:space", "default")]) []],
              .element "w:t" ((∅ : Attributes).insert "xml:space" "preserve")
                [.element "w:hint" ((∅ : Attributes).insert "w:id" "7") [.text "a"], .text " b"]]] =
      [.element "w:p" ∅
        [.element "w:pPr" ∅ [.element "w:pStyle" ((∅ : Attributes).insert "w:val" "Quote") []],
          .element "w:t" ∅
            [.element "w:hint" ((∅ : Attributes).insert "w:id" "7") [.text "a"], .text " b"]]] := by
  rfl

mutual

theorem isPruned_of_mem_prune :
    (node : Node) -> ∀ part ∈ node.prune, part.IsPruned
  | .text _ => by
      rw [prune]
      exact List.forall_mem_nil _
  | .element name attributes children => by
      have onlyValue : ∀ entry ∈ (attributes.only "w:val").entries, entry.1 = "w:val" :=
        fun entry member => of_decide_eq_true (List.mem_filter.mp member).2
      rw [prune]
      split
      · rename_i kept
        rw [List.forall_mem_singleton]
        by_cases isText : name = "w:t"
        · rw [if_pos isText, isText]
          exact .text onlyValue
        · rw [if_neg isText]
          exact .element kept onlyValue (isPruned_of_mem_pruneOf children)
      · exact List.forall_mem_nil _

/-- After pruning there is only what counts. -/
theorem isPruned_of_mem_pruneOf :
    (nodes : List Node) -> ∀ part ∈ pruneOf nodes, part.IsPruned
  | [] => by
      rw [pruneOf]
      exact List.forall_mem_nil _
  | node :: nodes => by
      rw [pruneOf, List.forall_mem_append]
      exact ⟨isPruned_of_mem_prune node, isPruned_of_mem_pruneOf nodes⟩

end

end Node

/-! ## Finding properties -/

namespace Element

/-- An element that counts, without what does not count in it. -/
def pruned (element : Element) : Element where
  name := element.name
  attributes := element.attributes.only "w:val"
  children := if element.name = "w:t" then element.children else Node.pruneOf element.children

theorem prune_toNode
    (element : Element)
    (kept : element.name ∈ keptNames) :
    element.toNode.prune = [element.pruned.toNode] := by
  rw [toNode, Node.prune, if_pos kept]
  rfl

theorem prune_toNode_of_notMem
    (element : Element)
    (notKept : element.name ∉ keptNames) :
    element.toNode.prune = [] := by
  rw [toNode, Node.prune, if_neg notKept]

end Element

theorem name_of_findIn?
    {nodes : List Node}
    {name : String}
    {element : Element}
    (found : findIn? nodes name = some element) :
    element.name = name := by
  simpa using List.find?_some found

theorem findIn?_prune
    {name : String}
    (kept : name ∈ keptNames)
    (node : Node) :
    findIn? node.prune name = (findIn? [node] name).map Element.pruned := by
  cases node with
  | text value =>
      rw [Node.prune]
      rfl
  | element key attributes children =>
      rw [Node.prune, findIn?_cons_element, findIn?_nil]
      by_cases sameName : key = name
      · rw [if_pos (sameName ▸ kept), findIn?_cons_element, if_pos sameName, if_pos sameName]
        rfl
      · rw [if_neg sameName]
        split
        · rw [findIn?_cons_element, if_neg sameName]
          rfl
        · rfl

/-- What is found under a name that counts is found after pruning, pruned itself. -/
theorem findIn?_pruneOf
    {name : String}
    (kept : name ∈ keptNames)
    (nodes : List Node) :
    findIn? (Node.pruneOf nodes) name = (findIn? nodes name).map Element.pruned := by
  induction nodes with
  | nil => rfl
  | cons node nodes inductionHypothesis =>
      have splits : findIn? (node :: nodes) name = (findIn? [node] name).or (findIn? nodes name) :=
        findIn?_append [node] nodes name
      rw [Node.pruneOf, findIn?_append, findIn?_prune kept, inductionHypothesis, splits,
        Option.map_or]

namespace Element

theorem attribute?_pruned (element : Element) :
    element.pruned.attribute? "w:val" = element.attribute? "w:val" :=
  element.attributes.get?_only "w:val"

/-- Outside text elements, what is found in an element is found in the pruned one. -/
theorem child?_pruned
    {element : Element}
    {name : String}
    (notText : element.name ≠ "w:t")
    (isProperty : name ∈ propertyNames) :
    element.pruned.child? name = (element.child? name).map pruned := by
  rw [child?, pruned, if_neg notText]
  exact findIn?_pruneOf (mem_keptNames_of_mem_propertyNames isProperty) element.children

theorem hasChild_pruned
    {element : Element}
    {name : String}
    (notText : element.name ≠ "w:t")
    (isProperty : name ∈ propertyNames) :
    element.pruned.hasChild name = element.hasChild name := by
  rw [hasChild, child?_pruned notText isProperty, Option.isSome_map, hasChild]

end Element

theorem valueOf?_pruned
    {properties : Option Element}
    {name : String}
    (notText : ∀ element ∈ properties, element.name ≠ "w:t")
    (isProperty : name ∈ propertyNames) :
    valueOf? (properties.map Element.pruned) name = valueOf? properties name := by
  cases properties with
  | none => rfl
  | some element =>
      simp only [valueOf?, Option.map_some, Option.bind_eq_bind, Option.bind_some,
        Element.child?_pruned (notText element rfl) isProperty, Option.bind_map]
      congr 1
      funext child
      exact child.attribute?_pruned

/-- Properties that are found under their name are no text element. -/
theorem name_ne_of_findIn?
    {nodes : List Node}
    {name : String}
    (notText : name ≠ "w:t") :
    ∀ element ∈ findIn? nodes name, element.name ≠ "w:t" := by
  intro element found
  rw [name_of_findIn? found]
  exact notText

theorem readLevel_pruned
    {properties : Option Element}
    (notText : ∀ element ∈ properties, element.name ≠ "w:t")
    (numbering : Numbering) :
    readLevel numbering (properties.map Element.pruned) = readLevel numbering properties := by
  cases properties with
  | none => rfl
  | some element =>
      have referenceNotText : ∀ reference ∈ element.child? "w:numPr", reference.name ≠ "w:t" :=
        name_ne_of_findIn? (by decide)
      simp only [readLevel, Option.map_some, Option.bind_eq_bind, Option.bind_some,
        Element.child?_pruned (notText element rfl) (by decide : "w:numPr" ∈ propertyNames),
        valueOf?_pruned referenceNotText (by decide : "w:numId" ∈ propertyNames),
        valueOf?_pruned referenceNotText (by decide : "w:ilvl" ∈ propertyNames)]

theorem readRunProperties_pruneOf (styles : Styles) (nodes : List Node) :
    readRunProperties styles (Node.pruneOf nodes) = readRunProperties styles nodes := by
  have notText : ∀ element ∈ findIn? nodes "w:rPr", element.name ≠ "w:t" :=
    name_ne_of_findIn? (by decide)
  have flag : ∀ name ∈ propertyNames,
      (((findIn? nodes "w:rPr").map Element.pruned).any fun element => element.hasChild name) =
        (findIn? nodes "w:rPr").any fun element => element.hasChild name := by
    intro name isProperty
    cases found : findIn? nodes "w:rPr" with
    | none => rfl
    | some element => exact Element.hasChild_pruned (notText element found) isProperty
  simp only [readRunProperties, findIn?_pruneOf (by decide : "w:rPr" ∈ keptNames),
    valueOf?_pruned notText (by decide : "w:rStyle" ∈ propertyNames),
    flag "w:b" (by decide), flag "w:i" (by decide), flag "w:u" (by decide),
    flag "w:strike" (by decide)]

theorem readParagraphProperties_pruneOf
    (styles : Styles)
    (numbering : Numbering)
    (nodes : List Node) :
    readParagraphProperties styles numbering (Node.pruneOf nodes) =
      readParagraphProperties styles numbering nodes := by
  have notText : ∀ element ∈ findIn? nodes "w:pPr", element.name ≠ "w:t" :=
    name_ne_of_findIn? (by decide)
  simp only [readParagraphProperties, findIn?_pruneOf (by decide : "w:pPr" ∈ keptNames),
    valueOf?_pruned notText (by decide : "w:pStyle" ∈ propertyNames),
    readLevel_pruned notText]

/-! ## Reading elements -/

variable
  (styles : Styles)
  (numbering : Numbering)

/-- A pruned element reads as the same label, with the same warnings of its own. -/
theorem readLabel?_pruned (element : Element) :
    element.pruned.readLabel? styles numbering = element.readLabel? styles numbering := by
  obtain ⟨name, attributes, children⟩ := element
  rw [Element.readLabel?, Element.readLabel?]
  refine Option.map_congr fun role hasRole => ?_
  obtain rfl := Role.ofName?_eq_some_iff.mp hasRole
  cases role with
  | run =>
      exact congrArg (WithWarnings.map StyleRules.Element.Label.run)
        (readRunProperties_pruneOf styles children)
  | paragraph =>
      exact congrArg (WithWarnings.map StyleRules.Element.Label.paragraph)
        (readParagraphProperties_pruneOf styles numbering children)
  | text | tab | table | tableRow | tableCell => rfl

theorem readNodes_append (nodes others : List Node) :
    readNodes styles numbering (nodes ++ others) =
      (readNodes styles numbering nodes).zipWith (readNodes styles numbering others)
        (· ++ ·) := by
  induction nodes with
  | nil =>
      rw [List.nil_append, readNodes]
      rfl
  | cons node nodes inductionHypothesis =>
      rw [List.cons_append, readNodes, readNodes, inductionHypothesis]
      simp [WithWarnings.zipWith]

theorem readNodes_singleton (node : Node) :
    readNodes styles numbering [node] = readNode styles numbering node := by
  rw [readNodes, readNodes]
  simp [WithWarnings.zipWith, WithWarnings.ofValue]

mutual

/-- What is left of a node reads as the node. -/
theorem readNodes_prune :
    (node : Node) -> readNodes styles numbering node.prune = readNode styles numbering node
  | .text value => by
      rw [Node.prune, readNodes, readNode]
  | .element name attributes children => by
      have reads := readNode_element styles numbering ⟨name, attributes, children⟩
      have prunedReads :=
        readNode_element styles numbering (Element.pruned ⟨name, attributes, children⟩)
      rw [readLabel?_pruned] at prunedReads
      change readNodes styles numbering
          (Element.toNode ⟨name, attributes, children⟩).prune =
        readNode styles numbering (Element.toNode ⟨name, attributes, children⟩)
      by_cases kept : name ∈ keptNames
      · rw [Element.prune_toNode ⟨name, attributes, children⟩ kept,
          readNodes_singleton, prunedReads, reads]
        cases hasLabel : Element.readLabel? styles numbering ⟨name, attributes, children⟩ with
        | none => rfl
        | some own =>
            -- Only where the children are read at all does it matter what is left of them.
            dsimp only
            split
            · rename_i holdsChildren
              have container :=
                (Element.holdsChildren_iff styles numbering hasLabel).mp holdsChildren
              have notText : name ≠ "w:t" := by
                rintro rfl
                exact (by decide : "w:t" ∉ containerNames) container
              rw [Element.pruned, if_neg notText, readNodes_pruneOf children]
            · rfl
      · rw [Element.prune_toNode_of_notMem ⟨name, attributes, children⟩ kept, reads]
        have noName : name ∉ readableNames :=
          fun readable => kept (List.mem_append_left propertyNames readable)
        rw [(Element.readLabel?_eq_none_iff styles numbering ⟨name, attributes, children⟩).mpr
          noName, readNodes]

/-- What is left of nodes reads as the nodes. -/
theorem readNodes_pruneOf :
    (nodes : List Node) ->
      readNodes styles numbering (Node.pruneOf nodes) = readNodes styles numbering nodes
  | [] => rfl
  | node :: nodes => by
      rw [Node.pruneOf, readNodes_append, readNodes_prune node, readNodes_pruneOf nodes,
        readNodes]

end

/-- Markup can be reduced to what counts, and then reads as the same elements with the same
warnings. -/
theorem isPruned_and_readNodes_pruneOf (nodes : List Node) :
    (∀ part ∈ Node.pruneOf nodes, part.IsPruned) ∧
      readNodes styles numbering (Node.pruneOf nodes) = readNodes styles numbering nodes :=
  ⟨Node.isPruned_of_mem_pruneOf nodes, readNodes_pruneOf styles numbering nodes⟩

end Markup
end StyleRules
