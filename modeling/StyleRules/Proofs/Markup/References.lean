import Mathlib.Data.List.Basic
import Mathlib.Data.List.Induction
import StyleRules.Proofs.Markup.Readings

/-!
# References to styles

Paragraphs and runs refer to styles, which are defined one after the other; the last
definition of an identifier counts (`Styles.isLastDefinition_of_find?`).  In what a
forest reads as, a style that is defined is the last definition of its identifier, and
one that is not defined has no name.  The warnings are those of the second kind, in the
order of the document (`warnings_readNodes`).
-/

namespace StyleRules
namespace Markup

/-- What a style is for. -/
inductive StyleKind where
  | paragraph
  | character
  deriving DecidableEq, Repr

/-- The elements that refer to styles of a kind. -/
def StyleKind.owner : StyleKind -> String
  | paragraph => "Paragraph"
  | character => "Run"

/-- A style and what it is for. -/
structure StyleEntry where
  kind : StyleKind
  style : Style
  deriving DecidableEq, Repr

/-- Is there a definition of the kind for the identifier? -/
def IsDefined (definitions : List StyleEntry) (kind : StyleKind) (id : String) : Prop :=
  ∃ definition ∈ definitions, definition.kind = kind ∧ definition.style.id = id

instance (definitions : List StyleEntry) (kind : StyleKind) (id : String) :
    Decidable (IsDefined definitions kind id) :=
  inferInstanceAs (Decidable (∃ definition ∈ definitions, _))

/-- Is the entry among the definitions, and none of its kind for its identifier behind
it? -/
def IsLastDefinition (definitions : List StyleEntry) (entry : StyleEntry) : Prop :=
  ∃ before after, definitions = before ++ entry :: after ∧
    ¬ IsDefined after entry.kind entry.style.id

theorem isDefined_concat_iff
    {definitions : List StyleEntry}
    {entry : StyleEntry}
    {kind : StyleKind}
    {id : String} :
    IsDefined (definitions ++ [entry]) kind id ↔
      IsDefined definitions kind id ∨ entry.kind = kind ∧ entry.style.id = id := by
  simp [IsDefined, or_and_right, exists_or]

/-! ## Defining styles -/

namespace Styles

/-- Defines a style for what it is for. -/
def define (styles : Styles) (entry : StyleEntry) : Styles :=
  match entry.kind with
  | .paragraph => styles.defineParagraph entry.style
  | .character => styles.defineCharacter entry.style

/-- The styles that are defined one after the other. -/
def ofDefinitions (definitions : List StyleEntry) : Styles :=
  definitions.foldl define ∅

/-- The style of a kind for an identifier. -/
def find? (styles : Styles) (kind : StyleKind) (id : String) : Option Style :=
  match kind with
  | .paragraph => styles.paragraph? id
  | .character => styles.character? id

theorem ofDefinitions_concat (definitions : List StyleEntry) (entry : StyleEntry) :
    ofDefinitions (definitions ++ [entry]) = (ofDefinitions definitions).define entry := by
  simp [ofDefinitions]

/-- A definition is found for its kind and its identifier, and no other changes. -/
theorem find?_define (styles : Styles) (entry : StyleEntry) (kind : StyleKind) (id : String) :
    (styles.define entry).find? kind id =
      if entry.kind = kind ∧ entry.style.id = id then some entry.style
      else styles.find? kind id := by
  obtain ⟨entryKind, style⟩ := entry
  cases entryKind <;> cases kind <;>
    simp [define, find?, defineParagraph, defineCharacter, paragraph?, character?,
      List.find?_cons]
  all_goals split <;> simp_all

theorem find?_ofDefinitions_eq_none_iff
    {definitions : List StyleEntry}
    {kind : StyleKind}
    {id : String} :
    (ofDefinitions definitions).find? kind id = none ↔ ¬ IsDefined definitions kind id := by
  induction definitions using List.reverseRecOn with
  | nil => cases kind <;> simp [ofDefinitions, find?, IsDefined, EmptyCollection.emptyCollection,
      empty, paragraph?, character?]
  | append_singleton definitions entry inductionHypothesis =>
      rw [ofDefinitions_concat, find?_define, isDefined_concat_iff, not_or, ← inductionHypothesis]
      split
      · rename_i defines
        simp [defines]
      · rename_i others
        simp [others]

/-- What is found is the last definition of its identifier. -/
theorem isLastDefinition_of_find?
    {definitions : List StyleEntry}
    {kind : StyleKind}
    {id : String}
    {style : Style}
    (found : (ofDefinitions definitions).find? kind id = some style) :
    style.id = id ∧ IsLastDefinition definitions ⟨kind, style⟩ := by
  induction definitions using List.reverseRecOn with
  | nil => cases kind <;> cases found
  | append_singleton definitions entry inductionHypothesis =>
      rw [ofDefinitions_concat, find?_define] at found
      split at found
      · rename_i defines
        obtain ⟨sameKind, sameId⟩ := defines
        cases found
        exact ⟨sameId, definitions, [], by rw [← sameKind], by simp [IsDefined]⟩
      · rename_i others
        obtain ⟨sameId, before, after, splits, noneBehind⟩ := inductionHypothesis found
        refine ⟨sameId, before, after ++ [entry], by simp [splits], ?_⟩
        rw [isDefined_concat_iff, not_or]
        exact ⟨noneBehind, sameId ▸ others⟩

end Styles

/-! ## References in labels -/

/-- The style that an element with this label refers to. -/
def reference? : StyleRules.Element.Label -> Option StyleEntry
  | .paragraph properties => properties.style.map (⟨.paragraph, ·⟩)
  | .run properties => properties.style.map (⟨.character, ·⟩)
  | _ => none

/-- The warning for a label that refers to a style without a definition. -/
def undefinedWarnings
    (definitions : List StyleEntry)
    (label : StyleRules.Element.Label) :
    List Warning :=
  match reference? label with
  | none => []
  | some ⟨kind, style⟩ =>
      if IsDefined definitions kind style.id then []
      else
        [⟨kind.owner ++ " style with ID " ++ style.id ++
          " was referenced but not defined in the document"⟩]

/-- Is the style the last definition of its identifier, or without a name if there is
none? -/
structure IsResolved (definitions : List StyleEntry) (reference : StyleEntry) : Prop where
  last_of_defined :
    IsDefined definitions reference.kind reference.style.id ->
      IsLastDefinition definitions reference
  name_of_undefined :
    ¬ IsDefined definitions reference.kind reference.style.id -> reference.style.name = none

/-- Is the style of a label resolved, with the warning that belongs to it? -/
structure ResolvesStyle
    (definitions : List StyleEntry)
    (own : WithWarnings StyleRules.Element.Label) :
    Prop where
  warnings : own.warnings = undefinedWarnings definitions own.value
  resolved : ∀ reference ∈ reference? own.value, IsResolved definitions reference

theorem resolvesStyle_of_reference?_eq_none
    {definitions : List StyleEntry}
    {label : StyleRules.Element.Label}
    (noReference : reference? label = none) :
    ResolvesStyle definitions (.ofValue label) where
  warnings := by simp [undefinedWarnings, noReference]
  resolved reference isReference := by simp [noReference] at isReference

/-- A style is looked up among the definitions of its kind, for a paragraph and for a
run alike. -/
theorem resolvesStyle_resolveStyle
    {definitions : List StyleEntry}
    (kind : StyleKind)
    (labelOf : Option Style -> StyleRules.Element.Label)
    (refers : ∀ style, reference? (labelOf style) = style.map (⟨kind, ·⟩))
    (id : Option String) :
    ResolvesStyle definitions
      ((resolveStyle kind.owner ((Styles.ofDefinitions definitions).find? kind) id).map
        labelOf) := by
  cases id with
  | none => exact resolvesStyle_of_reference?_eq_none (refers none)
  | some id =>
      rw [resolveStyle]
      cases found : (Styles.ofDefinitions definitions).find? kind id with
      | some style =>
          obtain ⟨rfl, isLast⟩ := Styles.isLastDefinition_of_find? found
          have defined : IsDefined definitions kind style.id := by
            rw [← Decidable.not_not (p := IsDefined definitions kind style.id),
              ← Styles.find?_ofDefinitions_eq_none_iff, found]
            simp
          constructor
          · simp [undefinedWarnings, refers, defined]
          · intro reference isReference
            obtain rfl : ⟨kind, style⟩ = reference := by simpa [refers] using isReference
            exact ⟨fun _ => isLast, absurd defined⟩
      | none =>
          have undefined := Styles.find?_ofDefinitions_eq_none_iff.mp found
          constructor
          · simp [undefinedWarnings, refers, undefined, undefinedStyle, WithWarnings.ofWarning,
              WithWarnings.map]
          · intro reference isReference
            obtain rfl : ⟨kind, id, none⟩ = reference := by
              simpa [refers, WithWarnings.ofWarning] using isReference
            exact ⟨fun defined => absurd defined undefined, fun _ => rfl⟩

theorem resolvesStyle_of_readLabel?
    {definitions : List StyleEntry}
    {numbering : Numbering}
    {element : Element}
    {own : WithWarnings StyleRules.Element.Label}
    (reads : element.readLabel? (.ofDefinitions definitions) numbering = some own) :
    ResolvesStyle definitions own := by
  obtain ⟨role, _, rfl⟩ := Option.map_eq_some_iff.mp reads
  cases role with
  | paragraph =>
      let properties := findIn? element.children "w:pPr"
      exact resolvesStyle_resolveStyle .paragraph
        (fun style => .paragraph ⟨style, readLevel numbering properties⟩) (fun _ => rfl) _
  | run =>
      let has (name : String) : Bool :=
        (findIn? element.children "w:rPr").any fun properties => properties.hasChild name
      exact resolvesStyle_resolveStyle .character
        (fun style => .run ⟨has "w:b", has "w:i", has "w:u", has "w:strike", style⟩)
        (fun _ => rfl) _
  | text | tab | table | tableRow | tableCell =>
      exact resolvesStyle_of_reference?_eq_none rfl

/-! ## References in what is read -/

/-- The warnings are those for the styles without a definition, in the order of the
document.  Such a style has no name, and every other one is the last definition of its
identifier. -/
theorem warnings_readNodes
    (definitions : List StyleEntry)
    (numbering : Numbering)
    (nodes : List Node) :
    (readNodes (.ofDefinitions definitions) numbering nodes).warnings =
        ((StyleRules.Element.preorderOf 0
          (readNodes (.ofDefinitions definitions) numbering nodes).value).flatMap
            fun place => undefinedWarnings definitions place.2.label) ∧
      ∀ place ∈ StyleRules.Element.preorderOf 0
          (readNodes (.ofDefinitions definitions) numbering nodes).value,
        ∀ reference ∈ reference? place.2.label, IsResolved definitions reference := by
  have unfolds := unfolds_readNodes (.ofDefinitions definitions) numbering
    (List.forall_mem_nil _) nodes
  have resolves :
      ∀ reading ∈ readingsOf (.ofDefinitions definitions) numbering
          (Node.occurrencesOf [] nodes),
        ResolvesStyle definitions reading.2 := by
    intro reading member
    obtain ⟨occurrence, _, reads⟩ := List.mem_filterMap.mp member
    obtain ⟨own, readsOwn, rfl⟩ := Option.map_eq_some_iff.mp reads
    exact resolvesStyle_of_readLabel? readsOwn
  have labels := unfolds.labels
  rw [List.length_nil, StyleRules.Element.labelsOf] at labels
  constructor
  · calc
      _ = (readingsOf (.ofDefinitions definitions) numbering
            (Node.occurrencesOf [] nodes)).flatMap
              fun reading => undefinedWarnings definitions reading.2.value := by
        rw [unfolds.warnings]
        exact List.flatMap_congr fun reading member => (resolves reading member).warnings
      _ = (((StyleRules.Element.preorderOf 0
            (readNodes (.ofDefinitions definitions) numbering nodes).value).map
              fun place => (place.1, place.2.label)).flatMap
                fun place => undefinedWarnings definitions place.2) := by
        rw [labels, List.flatMap_map]
      _ = _ := by rw [List.flatMap_map]
  · intro place member reference isReference
    have labelMember := List.mem_map_of_mem
      (f := fun place : Nat × StyleRules.Element => (place.1, place.2.label)) member
    rw [labels] at labelMember
    obtain ⟨reading, readingMember, same⟩ := List.mem_map.mp labelMember
    have sameLabel : reading.2.value = place.2.label := congrArg Prod.snd same
    exact (resolves reading readingMember).resolved reference (sameLabel ▸ isReference)

/-- A style that is defined twice, for paragraphs only, is missing for a run, and another one
is missing for the paragraph around it. -/
theorem warnings_readNodes_quote_in_note :
    let definitions : List StyleEntry :=
      [⟨.paragraph, ⟨"Quote", some "Quote"⟩⟩, ⟨.paragraph, ⟨"Quote", some "Block Quote"⟩⟩]
    let reference (name id : String) : Node :=
      .element name ((∅ : Attributes).insert "w:val" id) []
    let nodes : List Node :=
      [.element "w:p" ∅
          [.element "w:pPr" ∅ [reference "w:pStyle" "Note"],
            .element "w:r" ∅ [.element "w:rPr" ∅ [reference "w:rStyle" "Quote"]]],
        .element "w:p" ∅ [.element "w:pPr" ∅ [reference "w:pStyle" "Quote"]]]
    let read := readNodes (.ofDefinitions definitions) ∅ nodes
    read.value =
        [.paragraph ⟨some ⟨"Note", none⟩, none⟩
            [.run ⟨false, false, false, false, some ⟨"Quote", none⟩⟩ []],
          .paragraph ⟨some ⟨"Quote", some "Block Quote"⟩, none⟩ []] ∧
      read.warnings =
        [⟨"Paragraph style with ID Note was referenced but not defined in the document"⟩,
          ⟨"Run style with ID Quote was referenced but not defined in the document"⟩] ∧
      IsLastDefinition definitions ⟨.paragraph, ⟨"Quote", some "Block Quote"⟩⟩ := by
  intro definitions reference nodes read
  have value : read.value =
      [.paragraph ⟨some ⟨"Note", none⟩, none⟩
          [.run ⟨false, false, false, false, some ⟨"Quote", none⟩⟩ []],
        .paragraph ⟨some ⟨"Quote", some "Block Quote"⟩, none⟩ []] :=
    rfl
  obtain ⟨warnings, resolved⟩ := warnings_readNodes definitions ∅ nodes
  rw [value] at warnings resolved
  refine ⟨value, warnings.trans (by decide +kernel), ?_⟩
  have isThere : (0, .paragraph ⟨some ⟨"Quote", some "Block Quote"⟩, none⟩ []) ∈
      StyleRules.Element.preorderOf 0
        [.paragraph ⟨some ⟨"Note", none⟩, none⟩
            [.run ⟨false, false, false, false, some ⟨"Quote", none⟩⟩ []],
          .paragraph ⟨some ⟨"Quote", some "Block Quote"⟩, none⟩ []] := by
    simp [StyleRules.Element.preorderOf, StyleRules.Element.preorder]
  exact (resolved _ isThere _ rfl).last_of_defined (by decide +kernel)

end Markup
end StyleRules
