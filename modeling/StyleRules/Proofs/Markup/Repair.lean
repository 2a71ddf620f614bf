import StyleRules.Proofs.Markup.References

/-!
# Defining a style that was missing

A style that is referred to but not defined reads as a style without a name, with a
warning.  When it is defined, all references to it, at any depth, read as the new
definition and their warnings go; nothing else changes, in particular not the references
to a style of the same identifier but of the other kind
(`value_and_warnings_readNodes_define`).  The warnings can be told by their wording, since
that names the kind and the identifier (`undefinedStyle_inj`).
-/

namespace StyleRules

open Markup (StyleKind)

/-! ## Changing styles in a document -/

namespace Element

mutual

/-- The element with a change made to the style of every paragraph and of every run in it,
whatever the depth. -/
def mapStyles (change : StyleKind -> Style -> Style) : Element -> Element
  | paragraph properties children =>
      paragraph { properties with style := properties.style.map (change .paragraph) }
        (mapStylesOf change children)
  | run properties children =>
      run { properties with style := properties.style.map (change .character) }
        (mapStylesOf change children)
  | text value => text value
  | tab => tab
  | table children => table (mapStylesOf change children)
  | tableRow children => tableRow (mapStylesOf change children)
  | tableCell children => tableCell (mapStylesOf change children)

/-- The elements with a change made to the style of every paragraph and of every run. -/
def mapStylesOf (change : StyleKind -> Style -> Style) : List Element -> List Element
  | [] => []
  | element :: elements => mapStyles change element :: mapStylesOf change elements

end

/-- The label with a change made to its style. -/
def Label.mapStyle (change : StyleKind -> Style -> Style) : Label -> Label
  | paragraph properties =>
      paragraph { properties with style := properties.style.map (change .paragraph) }
  | run properties => run { properties with style := properties.style.map (change .character) }
  | label => label

variable (change : StyleKind -> Style -> Style)

theorem mapStylesOf_append (elements others : List Element) :
    mapStylesOf change (elements ++ others) =
      mapStylesOf change elements ++ mapStylesOf change others := by
  induction elements with
  | nil => rw [List.nil_append, mapStylesOf, List.nil_append]
  | cons element elements inductionHypothesis =>
      rw [List.cons_append, mapStylesOf, mapStylesOf, inductionHypothesis, List.cons_append]

/-- The change is made to the label and to the children. -/
theorem mapStylesOf_withChildren (label : Label) (children : List Element) :
    mapStylesOf change [label.withChildren children] =
      [(label.mapStyle change).withChildren (mapStylesOf change children)] := by
  rw [mapStylesOf, mapStylesOf]
  cases label <;> simp only [Label.withChildren, mapStyles, Label.mapStyle]

theorem Label.holdsChildren_mapStyle (label : Label) :
    (label.mapStyle change).holdsChildren = label.holdsChildren := by
  cases label <;> rfl

end Element

namespace Markup

/-! ## Warnings -/

/-- The wording of the warning tells the kind and the identifier of the style. -/
theorem undefinedStyle_inj
    {kind other : StyleKind}
    {id otherId : String} :
    undefinedStyle kind.owner id = undefinedStyle other.owner otherId ↔
      kind = other ∧ id = otherId := by
  constructor
  · intro same
    have sameText := congrArg (fun warning => warning.message.toList) same
    simp only [undefinedStyle, String.toList_append, List.append_assoc] at sameText
    have sameKind : kind = other := by
      have sameInitial := congrArg List.head? sameText
      cases kind <;> cases other <;> first | rfl | simp [StyleKind.owner] at sameInitial
    subst sameKind
    have sameRest := List.append_cancel_left (List.append_cancel_left sameText)
    exact ⟨rfl, String.toList_inj.mp (List.append_cancel_right sameRest)⟩
  · rintro ⟨rfl, rfl⟩
    rfl

namespace StyleEntry

/-- The style that is defined, in place of one of its kind with its identifier; any other
style as it is. -/
def replace (entry : StyleEntry) (kind : StyleKind) (style : Style) : Style :=
  if entry.kind = kind ∧ entry.style.id = style.id then entry.style else style

/-- A change made to what was read, without the warnings that the style is missing. -/
def repair (entry : StyleEntry) (change : α -> α) (read : WithWarnings α) : WithWarnings α where
  value := change read.value
  warnings := read.warnings.filter fun warning =>
    warning ≠ undefinedStyle entry.kind.owner entry.style.id

variable (entry : StyleEntry)

theorem repair_ofValue (change : α -> α) (value : α) :
    entry.repair change (.ofValue value) = .ofValue (change value) :=
  rfl

/-- What is combined from two parts is repaired part by part. -/
theorem repair_zipWith
    {change : α -> α}
    {changeOther : β -> β}
    {changeBoth : γ -> γ}
    {f : α -> β -> γ}
    (commutes : ∀ value other, changeBoth (f value other) = f (change value) (changeOther other))
    (first : WithWarnings α)
    (second : WithWarnings β) :
    entry.repair changeBoth (first.zipWith second f) =
      (entry.repair change first).zipWith (entry.repair changeOther second) f := by
  simp only [repair, WithWarnings.zipWith, commutes, List.filter_append]

end StyleEntry

/-! ## References -/

theorem Styles.id_of_find?
    {styles : Styles}
    {kind : StyleKind}
    {id : String}
    {style : Style}
    (found : styles.find? kind id = some style) :
    style.id = id := by
  cases kind with
  | paragraph => simpa using List.find?_some found
  | character => simpa using List.find?_some found

section Defining

variable
  {styles : Styles}
  {entry : StyleEntry}

/-- A reference is resolved as before, unless it is to the style that was missing. -/
theorem resolveStyle_define
    (missing : styles.find? entry.kind entry.style.id = none)
    (kind : StyleKind)
    (reference : Option String) :
    resolveStyle kind.owner ((styles.define entry).find? kind) reference =
      entry.repair (Option.map (entry.replace kind))
        (resolveStyle kind.owner (styles.find? kind) reference) := by
  cases reference with
  | none => rfl
  | some id =>
      rw [resolveStyle, resolveStyle, Styles.find?_define]
      by_cases defines : entry.kind = kind ∧ entry.style.id = id
      · rw [if_pos defines]
        obtain ⟨rfl, rfl⟩ := defines
        rw [missing]
        simp [StyleEntry.repair, StyleEntry.replace, WithWarnings.ofValue, WithWarnings.ofWarning]
      · rw [if_neg defines]
        cases found : styles.find? kind id with
        | some style =>
            have sameId := Styles.id_of_find? found
            simp [StyleEntry.repair, StyleEntry.replace, WithWarnings.ofValue, sameId, defines]
        | none =>
            have otherWarning : undefinedStyle kind.owner id ≠
                undefinedStyle entry.kind.owner entry.style.id := by
              rw [ne_eq, undefinedStyle_inj]
              rintro ⟨rfl, rfl⟩
              exact defines ⟨rfl, rfl⟩
            simp [StyleEntry.repair, StyleEntry.replace, WithWarnings.ofWarning, defines,
              otherWarning]

/-- What is made of a style in one way, for a paragraph and for a run alike, changes with
the style. -/
theorem map_resolveStyle_define
    (missing : styles.find? entry.kind entry.style.id = none)
    {kind : StyleKind}
    {labelOf : Option Style -> StyleRules.Element.Label}
    (changes : ∀ style,
      (labelOf style).mapStyle entry.replace = labelOf (style.map (entry.replace kind)))
    (reference : Option String) :
    (resolveStyle kind.owner ((styles.define entry).find? kind) reference).map labelOf =
      entry.repair (StyleRules.Element.Label.mapStyle entry.replace)
        ((resolveStyle kind.owner (styles.find? kind) reference).map labelOf) := by
  rw [resolveStyle_define missing]
  simp only [StyleEntry.repair, WithWarnings.map, changes]

/-- The label of an element changes in its style at most. -/
theorem readLabel?_define
    (missing : styles.find? entry.kind entry.style.id = none)
    (numbering : Numbering)
    (element : Element) :
    element.readLabel? (styles.define entry) numbering =
      (element.readLabel? styles numbering).map
        (entry.repair (StyleRules.Element.Label.mapStyle entry.replace)) := by
  rw [Element.readLabel?, Element.readLabel?, Option.map_map]
  refine Option.map_congr fun role _ => ?_
  cases role with
  | paragraph =>
      let properties := findIn? element.children "w:pPr"
      let labelOf (style : Option Style) : StyleRules.Element.Label :=
        .paragraph ⟨style, readLevel numbering properties⟩
      have changes : ∀ style, (labelOf style).mapStyle entry.replace =
          labelOf (style.map (entry.replace .paragraph)) := fun _ => rfl
      exact map_resolveStyle_define missing changes _
  | run =>
      let has (name : String) : Bool :=
        (findIn? element.children "w:rPr").any fun properties => properties.hasChild name
      let labelOf (style : Option Style) : StyleRules.Element.Label :=
        .run ⟨has "w:b", has "w:i", has "w:u", has "w:strike", style⟩
      have changes : ∀ style, (labelOf style).mapStyle entry.replace =
          labelOf (style.map (entry.replace .character)) := fun _ => rfl
      exact map_resolveStyle_define missing changes _
  | text | tab | table | tableRow | tableCell => rfl

mutual

/-- A node reads as before, repaired. -/
theorem readNode_define
    (missing : styles.find? entry.kind entry.style.id = none)
    (numbering : Numbering) :
    (node : Node) ->
      readNode (styles.define entry) numbering node =
        entry.repair (StyleRules.Element.mapStylesOf entry.replace)
          (readNode styles numbering node)
  | .text value => by
      rw [readNode, readNode, StyleEntry.repair_ofValue, StyleRules.Element.mapStylesOf]
  | .element name attributes children => by
      change readNode (styles.define entry) numbering
          (Element.toNode ⟨name, attributes, children⟩) =
        entry.repair _ (readNode styles numbering (Element.toNode ⟨name, attributes, children⟩))
      rw [readNode_element, readNode_element, readLabel?_define missing]
      cases Element.readLabel? styles numbering ⟨name, attributes, children⟩ with
      | none =>
          rw [Option.map_none, StyleEntry.repair_ofValue, StyleRules.Element.mapStylesOf]
      | some own =>
          rw [Option.map_some]
          dsimp only
          rw [entry.repair_zipWith
            (StyleRules.Element.mapStylesOf_withChildren entry.replace), StyleEntry.repair,
            StyleRules.Element.Label.holdsChildren_mapStyle]
          congr 1
          split
          · exact readNodes_define missing numbering children
          · rw [StyleEntry.repair_ofValue, StyleRules.Element.mapStylesOf]

/-- Nodes read as before, repaired. -/
theorem readNodes_define
    (missing : styles.find? entry.kind entry.style.id = none)
    (numbering : Numbering) :
    (nodes : List Node) ->
      readNodes (styles.define entry) numbering nodes =
        entry.repair (StyleRules.Element.mapStylesOf entry.replace)
          (readNodes styles numbering nodes)
  | [] => by
      rw [readNodes, readNodes, StyleEntry.repair_ofValue, StyleRules.Element.mapStylesOf]
  | node :: nodes => by
      rw [readNodes, readNodes, readNode_define missing numbering node,
        readNodes_define missing numbering nodes,
        entry.repair_zipWith (StyleRules.Element.mapStylesOf_append entry.replace)]

end

/-- When a style is defined that was not, the paragraphs or runs that refer to it have it as
their style, wherever they are, the warnings that it is missing go, and all else stays as it
was. -/
theorem value_and_warnings_readNodes_define
    (missing : styles.find? entry.kind entry.style.id = none)
    (numbering : Numbering)
    (nodes : List Node) :
    (readNodes (styles.define entry) numbering nodes).value =
        StyleRules.Element.mapStylesOf
          (fun kind style =>
            if entry.kind = kind ∧ entry.style.id = style.id then entry.style else style)
          (readNodes styles numbering nodes).value ∧
      (readNodes (styles.define entry) numbering nodes).warnings =
        (readNodes styles numbering nodes).warnings.filter fun warning =>
          warning ≠
            ⟨entry.kind.owner ++ " style with ID " ++ entry.style.id ++
              " was referenced but not defined in the document"⟩ := by
  rw [readNodes_define missing]
  exact ⟨rfl, rfl⟩

end Defining

/-- A paragraph and a run in it refer to styles of one identifier.  The definition of the
paragraph's leaves the run's missing. -/
theorem readNodes_define_quote :
    let quote : Style := ⟨"Quote", some "Block Quote"⟩
    let reference (name : String) : Node :=
      .element name ((∅ : Attributes).insert "w:val" "Quote") []
    let nodes : List Node :=
      [.element "w:tbl" ∅
        [.element "w:p" ∅
          [.element "w:pPr" ∅ [reference "w:pStyle"],
            .element "w:r" ∅ [.element "w:rPr" ∅ [reference "w:rStyle"]]]]]
    (∅ : Styles).find? .paragraph "Quote" = none ∧
      (readNodes (Styles.define ∅ ⟨.paragraph, quote⟩) ∅ nodes).value =
          [.table
            [.paragraph ⟨some quote, none⟩
              [.run ⟨false, false, false, false, some ⟨"Quote", none⟩⟩ []]]] ∧
        (readNodes (Styles.define ∅ ⟨.paragraph, quote⟩) ∅ nodes).warnings =
          [⟨"Run style with ID Quote was referenced but not defined in the document"⟩] := by
  intro quote reference nodes
  have missing : (∅ : Styles).find? .paragraph "Quote" = none := rfl
  obtain ⟨value, warnings⟩ :=
    @value_and_warnings_readNodes_define ∅ ⟨.paragraph, quote⟩ missing ∅ nodes
  refine ⟨missing, value.trans ?_, warnings.trans ?_⟩
  · rfl
  · decide +kernel

end Markup
end StyleRules
