import Mathlib.Data.List.Find
import Mathlib.Data.List.Forall2
import Mathlib.Data.List.Nodup
import StyleRules.Proofs.Markup.Readings

/-!
# Documents written as markup

A document is written element by element, each before its children; a paragraph or a run
holds an element with its properties first, and these may come in any order
(`WrittenAs`).  A document whose styles and levels are known to the tables is written in
some way, and is read from whatever it is written as (`exists_written_and_readNodes`):
properties are found where they are, and an element has none of those around it.
-/

namespace StyleRules
namespace Markup

open StyleRules.Element (Label)

/-! ## Writing -/

/-- An element of a name that holds nothing but a value. -/
def valued (name value : String) : Node :=
  .element name ((∅ : Attributes).insert "w:val" value) []

/-- An empty element of a name where a property is on. -/
def flag (isOn : Bool) (name : String) : List Node :=
  if isOn then [.element name ∅ []] else []

/-- An element of a name with the identifier of a style, if there is one. -/
def styleReference (style : Option Style) (name : String) : List Node :=
  (style.map fun style => valued name style.id).toList

/-- The elements for the properties of a run. -/
def runPropertyNodes (properties : RunProperties) : List Node :=
  flag properties.bold "w:b" ++ flag properties.italic "w:i" ++
    flag properties.underline "w:u" ++ flag properties.strikethrough "w:strike" ++
    styleReference properties.style "w:rStyle"

/-- Are these the elements for a list level, if there is one?  The numbering is one that
has the level at its index. -/
inductive LevelWrittenAs (numbering : Numbering) : Option ListLevel -> List Node -> Prop
  | absent : LevelWrittenAs numbering none []
  | present
      {level : ListLevel}
      {id : String}
      {nodes : List Node}
      (found : numbering.level? id (toString level.index) = some level)
      (permuted : nodes.Perm [valued "w:numId" id, valued "w:ilvl" (toString level.index)]) :
      LevelWrittenAs numbering (some level) [.element "w:numPr" ∅ nodes]

/-- Are these the nodes that an element with the label has in front of its children? -/
inductive LabelWrittenAs (numbering : Numbering) : Label -> List Node -> Prop
  | text {value : String} : LabelWrittenAs numbering (.text value) [.text value]
  | run
      {properties : RunProperties}
      {nodes : List Node}
      (permuted : nodes.Perm (runPropertyNodes properties)) :
      LabelWrittenAs numbering (.run properties) [.element "w:rPr" ∅ nodes]
  | paragraph
      {properties : ParagraphProperties}
      {levelNodes nodes : List Node}
      (level : LevelWrittenAs numbering properties.level levelNodes)
      (permuted : nodes.Perm (styleReference properties.style "w:pStyle" ++ levelNodes)) :
      LabelWrittenAs numbering (.paragraph properties) [.element "w:pPr" ∅ nodes]
  | tab : LabelWrittenAs numbering .tab []
  | table : LabelWrittenAs numbering .table []
  | tableRow : LabelWrittenAs numbering .tableRow []
  | tableCell : LabelWrittenAs numbering .tableCell []

/-- The role of the elements that a label is written as. -/
def roleOf : Label -> Role
  | .text _ => .text
  | .run _ => .run
  | .paragraph _ => .paragraph
  | .tab => .tab
  | .table => .table
  | .tableRow => .tableRow
  | .tableCell => .tableCell

/-- Is the element written as the node? -/
inductive WrittenAs (numbering : Numbering) : StyleRules.Element -> Node -> Prop
  | intro
      {element : StyleRules.Element}
      {own inner : List Node}
      (label : LabelWrittenAs numbering element.label own)
      (children : List.Forall₂ (WrittenAs numbering) element.children inner) :
      WrittenAs numbering element (.element (roleOf element.label).name ∅ (own ++ inner))

/-! ## What the tables know -/

/-- Is the style the one that its identifier stands for, or without a name if the
identifier stands for none? -/
def IsKnownStyle (definition? : String -> Option Style) (style : Style) : Prop :=
  definition? style.id = some style ∨ definition? style.id = none ∧ style.name = none

/-- Are the style and the level of a label known to the tables? -/
def IsKnown (styles : Styles) (numbering : Numbering) : Label -> Prop
  | .paragraph properties =>
      (∀ style ∈ properties.style, IsKnownStyle styles.paragraph? style) ∧
        ∀ level ∈ properties.level, ∃ id, numbering.level? id (toString level.index) = some level
  | .run properties => ∀ style ∈ properties.style, IsKnownStyle styles.character? style
  | _ => True

/-! ## Finding properties -/

/-- The names of the elements among nodes. -/
def namesOf (nodes : List Node) : List String :=
  (elementsOf nodes).map Element.name

theorem namesOf_append (nodes others : List Node) :
    namesOf (nodes ++ others) = namesOf nodes ++ namesOf others := by
  simp [namesOf, elementsOf]

theorem namesOf_flag_sublist (isOn : Bool) (key : String) :
    (namesOf (flag isOn key)).Sublist [key] := by
  cases isOn <;> simp [namesOf, elementsOf, flag, Node.element?]

theorem namesOf_styleReference_sublist (style : Option Style) (key : String) :
    (namesOf (styleReference style key)).Sublist [key] := by
  cases style <;> simp [namesOf, elementsOf, styleReference, valued, Node.element?]

/-- Where no name comes twice, it does not matter in which order elements are searched. -/
theorem findIn?_of_perm
    {nodes others : List Node}
    (permuted : nodes.Perm others)
    (distinct : (namesOf others).Nodup)
    (name : String) :
    findIn? nodes name = findIn? others name := by
  refine (List.find?_eq_find?_of_perm (permuted.symm.filterMap _) ?_).symm
  rintro first ⟨firstMember, firstNamed⟩ second ⟨secondMember, secondNamed⟩
  refine List.inj_on_of_nodup_map distinct firstMember secondMember ?_
  rw [beq_iff_eq.mp firstNamed, beq_iff_eq.mp secondNamed]

theorem findIn?_flag (isOn : Bool) (key name : String) :
    findIn? (flag isOn key) name = if isOn ∧ key = name then some ⟨key, ∅, []⟩ else none := by
  cases isOn <;> simp [flag]

theorem isSome_findIn?_flag (isOn : Bool) (key name : String) :
    (findIn? (flag isOn key) name).isSome = (isOn && key == name) := by
  cases isOn <;> by_cases sameName : key = name <;> simp [flag, sameName]

theorem findIn?_styleReference (style : Option Style) (key name : String) :
    findIn? (styleReference style key) name =
      if key = name then
        style.map fun style => ⟨key, (∅ : Attributes).insert "w:val" style.id, []⟩
      else none := by
  cases style <;> simp [styleReference, valued]

/-! ## Reading properties -/

/-- A style that is known is the one its identifier is resolved to. -/
theorem value_resolveStyle
    {definition? : String -> Option Style}
    {reference : Option Style}
    (known : ∀ style ∈ reference, IsKnownStyle definition? style)
    (owner : String) :
    (resolveStyle owner definition? (reference.map Style.id)).value = reference := by
  cases reference with
  | none => rfl
  | some style =>
      rw [Option.map_some, resolveStyle]
      rcases known style rfl with defined | ⟨undefined, noName⟩
      · rw [defined]
        rfl
      · rw [undefined]
        exact congrArg (fun name => some (Style.mk style.id name)) noName.symm

/-- The names of the properties of a run are distinct. -/
theorem nodup_runPropertyNodes (properties : RunProperties) :
    (namesOf (runPropertyNodes properties)).Nodup := by
  have names : (namesOf (runPropertyNodes properties)).Sublist
      ["w:b", "w:i", "w:u", "w:strike", "w:rStyle"] := by
    simp only [runPropertyNodes, namesOf_append]
    exact ((((namesOf_flag_sublist _ _).append (namesOf_flag_sublist _ _)).append
      (namesOf_flag_sublist _ _)).append (namesOf_flag_sublist _ _)).append
        (namesOf_styleReference_sublist _ _)
  exact names.nodup (by decide)

/-- The properties of a run are read from their elements in any order, whatever comes
behind these. -/
theorem value_readRunProperties
    {styles : Styles}
    {properties : RunProperties}
    {nodes : List Node}
    (permuted : nodes.Perm (runPropertyNodes properties))
    (known : ∀ style ∈ properties.style, IsKnownStyle styles.character? style)
    (inner : List Node) :
    (readRunProperties styles (.element "w:rPr" ∅ nodes :: inner)).value = properties := by
  have found := findIn?_of_perm permuted (nodup_runPropertyNodes properties)
  obtain ⟨bold, italic, underline, strikethrough, style⟩ := properties
  have reference :
      valueOf? (some ⟨"w:rPr", ∅, nodes⟩) "w:rStyle" = style.map Style.id := by
    cases style <;>
      simp [valueOf?, Element.child?, found, runPropertyNodes, findIn?_append, findIn?_flag,
        findIn?_styleReference, Element.attribute?]
  simp [readRunProperties, reference, value_resolveStyle known, Element.hasChild, Element.child?,
    found, runPropertyNodes, findIn?_append, isSome_findIn?_flag, findIn?_styleReference]

namespace LevelWrittenAs

variable
  {numbering : Numbering}
  {level : Option ListLevel}
  {levelNodes : List Node}

theorem names_sublist (written : LevelWrittenAs numbering level levelNodes) :
    (namesOf levelNodes).Sublist ["w:numPr"] := by
  cases written <;> simp [namesOf, elementsOf, Node.element?]

/-- Levels are written without a style. -/
theorem findIn?_style (written : LevelWrittenAs numbering level levelNodes) :
    findIn? levelNodes "w:pStyle" = none := by
  cases written <;> simp

/-- The level is read from properties that hold what it is written as. -/
theorem readLevel_eq
    {properties : Element}
    (written : LevelWrittenAs numbering level levelNodes)
    (held : properties.child? "w:numPr" = findIn? levelNodes "w:numPr") :
    readLevel numbering (some properties) = level := by
  rw [readLevel, Option.bind_eq_bind, Option.bind_some, held]
  cases written with
  | absent => rfl
  | @present level id nodes isLevel permuted =>
      have distinct :
          (namesOf [valued "w:numId" id, valued "w:ilvl" (toString level.index)]).Nodup := by
        simp [namesOf, elementsOf, valued, Node.element?]
      have found := findIn?_of_perm permuted distinct
      simp [valueOf?, Element.child?, found, valued, Element.attribute?, isLevel]

end LevelWrittenAs

/-- The properties of a paragraph are read from their elements in any order, whatever
comes behind these. -/
theorem value_readParagraphProperties
    {styles : Styles}
    {numbering : Numbering}
    {properties : ParagraphProperties}
    {levelNodes nodes : List Node}
    (level : LevelWrittenAs numbering properties.level levelNodes)
    (permuted : nodes.Perm (styleReference properties.style "w:pStyle" ++ levelNodes))
    (known : ∀ style ∈ properties.style, IsKnownStyle styles.paragraph? style)
    (inner : List Node) :
    (readParagraphProperties styles numbering (.element "w:pPr" ∅ nodes :: inner)).value =
      properties := by
  obtain ⟨style, listLevel⟩ := properties
  have names : (namesOf (styleReference style "w:pStyle" ++ levelNodes)).Sublist
      ["w:pStyle", "w:numPr"] := by
    rw [namesOf_append]
    exact (namesOf_styleReference_sublist _ _).append level.names_sublist
  have found := findIn?_of_perm permuted (names.nodup (by decide))
  have reference :
      valueOf? (some ⟨"w:pPr", ∅, nodes⟩) "w:pStyle" = style.map Style.id := by
    cases style <;>
      simp [valueOf?, Element.child?, found, findIn?_append, findIn?_styleReference,
        level.findIn?_style, Element.attribute?]
  have levelRead : readLevel numbering (some ⟨"w:pPr", ∅, nodes⟩) = listLevel :=
    level.readLevel_eq (by simp [Element.child?, found, findIn?_append, findIn?_styleReference])
  simp [readParagraphProperties, reference, levelRead, value_resolveStyle known]

/-! ## Reading elements -/

namespace LabelWrittenAs

variable
  {numbering : Numbering}
  {label : Label}
  {own : List Node}

/-- A label that is known is read from what it is written as. -/
theorem value_readAs
    {styles : Styles}
    (written : LabelWrittenAs numbering label own)
    (known : IsKnown styles numbering label)
    {inner : List Node}
    (leaf : label.holdsChildren = false -> inner = [])
    (name : String) :
    ((⟨name, ∅, own ++ inner⟩ : Element).readAs styles numbering (roleOf label)).value =
      label := by
  cases written with
  | @text value =>
      -- All text inside counts, so nothing may stand behind the text itself.
      rw [leaf rfl]
      simp [roleOf, Element.readAs, Element.innerText, Node.innerTextOf, Node.innerText]
  | run permuted =>
      exact congrArg Label.run (value_readRunProperties permuted known inner)
  | paragraph level permuted =>
      exact congrArg Label.paragraph (value_readParagraphProperties level permuted known.1 inner)
  | tab | table | tableRow | tableCell => rfl

/-- What a label is written as is not read as an element. -/
theorem value_readNodes
    (written : LabelWrittenAs numbering label own)
    (styles : Styles)
    (inner : List Node) :
    (readNodes styles numbering (own ++ inner)).value =
      (readNodes styles numbering inner).value := by
  cases written <;> simp [readNodes, readNode, Role.ofName?]

/-- Every label is written in some way, a level with a numbering that has it. -/
theorem exists_own
    {styles : Styles}
    (known : IsKnown styles numbering label) :
    ∃ own, LabelWrittenAs numbering label own := by
  cases label with
  | paragraph properties =>
      obtain ⟨style, listLevel⟩ := properties
      cases listLevel with
      | none => exact ⟨_, .paragraph .absent (.refl _)⟩
      | some level =>
          obtain ⟨id, isLevel⟩ := known.2 level rfl
          exact ⟨_, .paragraph (.present isLevel (.refl _)) (.refl _)⟩
  | run properties => exact ⟨_, .run (.refl _)⟩
  | text value => exact ⟨_, .text⟩
  | tab => exact ⟨_, .tab⟩
  | table => exact ⟨_, .table⟩
  | tableRow => exact ⟨_, .tableRow⟩
  | tableCell => exact ⟨_, .tableCell⟩

end LabelWrittenAs

section Forests

variable
  {styles : Styles}
  {numbering : Numbering}

/-- Where every element is read from the node it is written as, all of them are. -/
theorem value_readNodes_of_forall₂
    {elements : List StyleRules.Element}
    {nodes : List Node}
    (written : List.Forall₂ (WrittenAs numbering) elements nodes)
    (read : ∀ element ∈ elements, ∀ node, WrittenAs numbering element node ->
      (readNode styles numbering node).value = [element]) :
    (readNodes styles numbering nodes).value = elements := by
  induction written with
  | nil => rw [readNodes, WithWarnings.value_ofValue]
  | @cons element node elements nodes headWritten _ inductionHypothesis =>
      obtain ⟨headRead, tailRead⟩ := List.forall_mem_cons.mp read
      rw [readNodes, WithWarnings.value_zipWith, headRead node headWritten,
        inductionHypothesis tailRead, List.singleton_append]

/-- An element is read from whatever it is written as if its label is known and its
children are read from whatever they are written as. -/
theorem value_readNode_of_children
    {element : StyleRules.Element}
    (known : IsKnown styles numbering element.label)
    (childrenRead : ∀ child ∈ element.children, ∀ node, WrittenAs numbering child node ->
      (readNode styles numbering node).value = [child]) :
    ∀ node, WrittenAs numbering element node ->
      (readNode styles numbering node).value = [element] := by
  rintro _ (@⟨_, own, inner, label, children⟩)
  have inside : (readNodes styles numbering (own ++ inner)).value = element.children := by
    rw [label.value_readNodes]
    exact value_readNodes_of_forall₂ children childrenRead
  have leaf : element.label.holdsChildren = false -> inner = [] := by
    intro leaf
    rw [StyleRules.Element.children_eq_nil leaf] at children
    exact List.forall₂_nil_left_iff.mp children
  have read := readNode_element styles numbering ⟨(roleOf element.label).name, ∅, own ++ inner⟩
  rw [Element.toNode, Element.readLabel?, Role.ofName?_eq_some_iff.mpr rfl] at read
  rw [read, Option.map_some, WithWarnings.value_zipWith, label.value_readAs known leaf]
  -- A label without children is read on its own, whatever is inside the element.
  cases holds : element.label.holdsChildren with
  | true => rw [if_pos rfl, inside, StyleRules.Element.withChildren_label_children]
  | false =>
      rw [if_neg Bool.false_ne_true, WithWarnings.value_ofValue,
        ← StyleRules.Element.children_eq_nil holds,
        StyleRules.Element.withChildren_label_children]

/-- Where every element is written in some way, all of them are. -/
theorem exists_nodes_of_forall
    {elements : List StyleRules.Element}
    (each : ∀ element ∈ elements, ∃ node, WrittenAs numbering element node) :
    ∃ nodes, List.Forall₂ (WrittenAs numbering) elements nodes := by
  choose! nodeOf written using each
  exact ⟨elements.map nodeOf, List.forall₂_map_right_iff.mpr (List.forall₂_same.mpr written)⟩

/-- An element is written in some way if its label is known and its children are. -/
theorem exists_writtenAs_of_children
    {element : StyleRules.Element}
    (known : IsKnown styles numbering element.label)
    (childrenWritten : ∀ child ∈ element.children, ∃ node, WrittenAs numbering child node) :
    ∃ node, WrittenAs numbering element node := by
  obtain ⟨own, label⟩ := LabelWrittenAs.exists_own known
  obtain ⟨inner, children⟩ := exists_nodes_of_forall childrenWritten
  exact ⟨_, .intro label children⟩

end Forests

/-- A forest whose styles and levels are known to the tables is written as markup in
some way, and is read again from every markup that it is written as. -/
theorem exists_written_and_readNodes
    (styles : Styles)
    (numbering : Numbering)
    (elements : List StyleRules.Element)
    (known : ∀ place ∈ StyleRules.Element.preorderOf 0 elements,
      IsKnown styles numbering place.2.label) :
    (∃ nodes, List.Forall₂ (WrittenAs numbering) elements nodes) ∧
      ∀ nodes, List.Forall₂ (WrittenAs numbering) elements nodes ->
        (readNodes styles numbering nodes).value = elements := by
  let labelKnown (element : StyleRules.Element) : Prop := IsKnown styles numbering element.label
  constructor
  · exact exists_nodes_of_forall <| StyleRules.Element.forall_mem_of_preorderOf labelKnown
      (fun _ => exists_writtenAs_of_children) known
  · intro nodes written
    exact value_readNodes_of_forall₂ written <|
      StyleRules.Element.forall_mem_of_preorderOf labelKnown
        (fun _ => value_readNode_of_children) known

/-- A run in a run has no properties of the outer one.  The paragraph around them has a
style that is defined, and the outer run one that is not. -/
theorem readNodes_run_in_run :
    let styles : Styles := ⟨[⟨"List", some "List Item"⟩], []⟩
    let numbering : Numbering := ⟨[⟨"7", ⟨1, true⟩⟩]⟩
    let innerRun : StyleRules.Element := .run ⟨false, false, false, false, none⟩ [.tab]
    let outerRun : StyleRules.Element :=
      .run ⟨true, false, false, false, some ⟨"Loud", none⟩⟩ [.text "a", innerRun]
    let paragraph : StyleRules.Element :=
      .paragraph ⟨some ⟨"List", some "List Item"⟩, some ⟨1, true⟩⟩ [outerRun]
    let nodes : List Node :=
      [.element "w:p" ∅
        [.element "w:pPr" ∅
          [.element "w:numPr" ∅ [valued "w:ilvl" "1", valued "w:numId" "7"],
            valued "w:pStyle" "List"],
        .element "w:r" ∅
          [.element "w:rPr" ∅ [valued "w:rStyle" "Loud", .element "w:b" ∅ []],
          .element "w:t" ∅ [.text "a"],
          .element "w:r" ∅ [.element "w:rPr" ∅ [], .element "w:tab" ∅ []]]]]
    (∀ place ∈ StyleRules.Element.preorderOf 0 [paragraph],
        IsKnown styles numbering place.2.label) ∧
      List.Forall₂ (WrittenAs numbering) [paragraph] nodes ∧
      (readNodes styles numbering nodes).value = [paragraph] := by
  intro styles numbering innerRun outerRun paragraph nodes
  have paragraphStyle : IsKnownStyle styles.paragraph? ⟨"List", some "List Item"⟩ :=
    .inl (by decide)
  have runStyle : IsKnownStyle styles.character? ⟨"Loud", none⟩ := .inr (by decide)
  have isLevel : numbering.level? "7" (toString (1 : UInt32)) = some ⟨1, true⟩ := by decide
  have known : ∀ place ∈ StyleRules.Element.preorderOf 0 [paragraph],
      IsKnown styles numbering place.2.label := by
    simpa [innerRun, outerRun, paragraph, StyleRules.Element.children, StyleRules.Element.label,
      IsKnown] using And.intro (And.intro paragraphStyle ⟨_, isLevel⟩) runStyle
  have level : LevelWrittenAs numbering (some ⟨1, true⟩)
      [.element "w:numPr" ∅ [valued "w:ilvl" "1", valued "w:numId" "7"]] :=
    .present isLevel (.swap _ _ [])
  have tabWritten : WrittenAs numbering .tab _ := .intro .tab .nil
  have textWritten : WrittenAs numbering (.text "a") _ := .intro .text .nil
  have innerWritten : WrittenAs numbering innerRun _ :=
    .intro (.run (.refl _)) (.cons tabWritten .nil)
  have outerWritten : WrittenAs numbering outerRun _ :=
    .intro (.run (.swap _ _ [])) (.cons textWritten (.cons innerWritten .nil))
  have paragraphWritten : WrittenAs numbering paragraph _ :=
    .intro (.paragraph level (.swap _ _ [])) (.cons outerWritten .nil)
  have written : List.Forall₂ (WrittenAs numbering) [paragraph] nodes :=
    .cons paragraphWritten .nil
  exact ⟨known, written,
    (exists_written_and_readNodes styles numbering [paragraph] known).2 nodes written⟩

end Markup
end StyleRules
