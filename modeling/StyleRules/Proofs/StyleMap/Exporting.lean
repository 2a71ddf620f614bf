import StyleRules.Proofs.Attributes.Order
import StyleRules.Proofs.Document.Exporting
import StyleRules.StyleMap.Builder
import StyleRules.StyleMap.Json

/-!
# Exporting style maps

The export of a style map is determined by it, but for the order in which the attributes of
an element are written: `StyleMap.WrittenAsJson` holds of a style map and its record with
the attributes in any such order.  Whatever the order, the style map is read from the text
of its record (`StyleMap.ofJsonText?_print`).
-/

namespace StyleRules

open Json

/-! ## Records with the attributes in any order -/

/-- Is this the object of the attributes in some order? -/
inductive Attributes.WrittenAsJson (attributes : Attributes) : Json -> Prop
  | intro
      {order : List (String × String)}
      (permuted : order.Perm attributes.entries) :
      WrittenAsJson attributes (.ofMembers (order.map fun (name, value) => (name, .text value)))

/-- Is this the record of the element, with its attributes in some order? -/
inductive PathElement.WrittenAsJson (element : PathElement) : Json -> Prop
  | intro
      {attributesJson : Json}
      (attributes : element.attributes.WrittenAsJson attributesJson) :
      WrittenAsJson element
        (.ofMembers
          [("tag_names", .ofList .text element.tagNames),
            ("attributes", attributesJson),
            ("collapsible", .bool element.collapsible)])

/-- Is this the choice of the path, with attributes in some order? -/
inductive HtmlPath.WrittenAsJson : HtmlPath -> Json -> Prop
  | ignore : WrittenAsJson .ignore (.text "Ignore")
  | elements
      {steps : List PathElement}
      {items : List Json}
      (written : List.Forall₂ PathElement.WrittenAsJson steps items) :
      WrittenAsJson (.elements steps) (.ofMembers [("Elements", .array items)])

/-- Is this the record of the rule, with attributes in some order? -/
inductive Rule.WrittenAsJson (selectorToJson : σ -> Json) (rule : Rule σ) : Json -> Prop
  | intro
      {pathJson : Json}
      (path : rule.path.WrittenAsJson pathJson) :
      WrittenAsJson selectorToJson rule
        (.ofMembers [("matcher", selectorToJson rule.selector), ("path", pathJson)])

/-- Is this the record of the style map, with attributes in some order? -/
inductive StyleMap.WrittenAsJson (map : StyleMap) : Json -> Prop
  | intro
      {paragraphItems runItems : List Json}
      {bold italic underline strikethrough commentReference : Json}
      (paragraphRules :
        List.Forall₂ (Rule.WrittenAsJson ParagraphSelector.toJson) map.paragraphRules
          paragraphItems)
      (runRules : List.Forall₂ (Rule.WrittenAsJson RunSelector.toJson) map.runRules runItems)
      (boldWritten : map.toggles.bold.WrittenAsJson bold)
      (italicWritten : map.toggles.italic.WrittenAsJson italic)
      (underlineWritten : map.toggles.underline.WrittenAsJson underline)
      (strikethroughWritten : map.toggles.strikethrough.WrittenAsJson strikethrough)
      (commentReferenceWritten : map.toggles.commentReference.WrittenAsJson commentReference) :
      WrittenAsJson map
        (.ofMembers
          [("paragraph_rules", .array paragraphItems),
            ("run_rules", .array runItems),
            ("bold", bold),
            ("italic", italic),
            ("underline", underline),
            ("strikethrough", strikethrough),
            ("comment_reference", commentReference)])

/-! ## The export is written in one of these ways -/

theorem PathElement.writtenAsJson_toJson (element : PathElement) :
    element.WrittenAsJson element.toJson :=
  .intro (.intro (.refl _))

theorem HtmlPath.writtenAsJson_toJson (path : HtmlPath) :
    path.WrittenAsJson path.toJson := by
  cases path with
  | ignore => exact .ignore
  | elements steps =>
      apply WrittenAsJson.elements
      rw [List.forall₂_map_right_iff, List.forall₂_same]
      exact fun element _ => element.writtenAsJson_toJson

theorem Rule.forall₂_writtenAsJson_toJson
    (selectorToJson : σ -> Json)
    (rules : List (Rule σ)) :
    List.Forall₂ (Rule.WrittenAsJson selectorToJson) rules
      (rules.map (Rule.toJson selectorToJson)) := by
  rw [List.forall₂_map_right_iff, List.forall₂_same]
  exact fun rule _ => .intro rule.path.writtenAsJson_toJson

theorem StyleMap.writtenAsJson_toJson (map : StyleMap) :
    map.WrittenAsJson map.toJson :=
  .intro (Rule.forall₂_writtenAsJson_toJson _ _) (Rule.forall₂_writtenAsJson_toJson _ _)
    (HtmlPath.writtenAsJson_toJson _) (HtmlPath.writtenAsJson_toJson _)
    (HtmlPath.writtenAsJson_toJson _) (HtmlPath.writtenAsJson_toJson _)
    (HtmlPath.writtenAsJson_toJson _)

/-! ## Reading the records -/

theorem ParagraphSelector.ofJson?_toJson (selector : ParagraphSelector) :
    ofJson? selector.toJson = some selector := by
  simp [ofJson?, toJson, fields?_ofMembers, nullable_text, ListLevel.nullable_toJson]

theorem RunSelector.ofJson?_toJson (selector : RunSelector) :
    ofJson? selector.toJson = some selector := by
  simp [ofJson?, toJson, fields?_ofMembers, nullable_text]

theorem Attributes.ofJson?_of_writtenAsJson
    {attributes : Attributes}
    {json : Json}
    (written : attributes.WrittenAsJson json) :
    ofJson? json = some attributes := by
  obtain ⟨permuted⟩ := written
  rw [ofJson?, texts?_ofMembers, Option.map_some, ofList_of_perm permuted]

theorem PathElement.ofJson?_of_writtenAsJson
    {element : PathElement}
    {json : Json}
    (written : element.WrittenAsJson json) :
    ofJson? json = some element := by
  obtain ⟨attributes⟩ := written
  have tagNames : items? text? (.ofList .text element.tagNames) = some element.tagNames :=
    items?_ofList text?_text element.tagNames
  simp [ofJson?, fields?_ofMembers, required, tagNames,
    Attributes.ofJson?_of_writtenAsJson attributes, bool?]

theorem HtmlPath.ofJson?_of_writtenAsJson
    {path : HtmlPath}
    {json : Json}
    (written : path.WrittenAsJson json) :
    ofJson? json = some path := by
  cases written with
  | ignore => rfl
  | elements written =>
      have steps := items?_of_forall₂ (written.imp fun _ _ => PathElement.ofJson?_of_writtenAsJson)
      simp [ofJson?, ofMembers, choice?, steps]

theorem Rule.ofJson?_of_writtenAsJson
    {selectorToJson : σ -> Json}
    {selectorOfJson? : Json -> Option σ}
    (decodes : ∀ selector, selectorOfJson? (selectorToJson selector) = some selector)
    {rule : Rule σ}
    {json : Json}
    (written : rule.WrittenAsJson selectorToJson json) :
    ofJson? selectorOfJson? json = some rule := by
  obtain ⟨path⟩ := written
  simp [ofJson?, fields?_ofMembers, required, decodes, HtmlPath.ofJson?_of_writtenAsJson path]

theorem StyleMap.ofJson?_of_writtenAsJson
    {map : StyleMap}
    {json : Json}
    (written : map.WrittenAsJson json) :
    ofJson? json = some map := by
  obtain ⟨paragraphRules, runRules, bold, italic, underline, strikethrough, commentReference⟩ :=
    written
  have paragraphs := items?_of_forall₂ <| paragraphRules.imp fun _ _ =>
    Rule.ofJson?_of_writtenAsJson ParagraphSelector.ofJson?_toJson
  have runs := items?_of_forall₂ <| runRules.imp fun _ _ =>
    Rule.ofJson?_of_writtenAsJson RunSelector.ofJson?_toJson
  simp [ofJson?, fields?_ofMembers, required, paragraphs, runs,
    HtmlPath.ofJson?_of_writtenAsJson bold, HtmlPath.ofJson?_of_writtenAsJson italic,
    HtmlPath.ofJson?_of_writtenAsJson underline, HtmlPath.ofJson?_of_writtenAsJson strikethrough,
    HtmlPath.ofJson?_of_writtenAsJson commentReference]

/-- A style map is read from the text of its export, in whatever order attributes are
written. -/
theorem StyleMap.ofJsonText?_print (map : StyleMap) :
    map.WrittenAsJson map.toJson ∧ ofJsonText? map.jsonText = some map ∧
      ∀ json, map.WrittenAsJson json -> ofJsonText? json.print = some map := by
  have reads : ∀ json, map.WrittenAsJson json -> ofJsonText? json.print = some map := by
    intro json written
    rw [ofJsonText?, readAs?, read?_print, Option.bind_eq_bind, Option.bind_some]
    exact ofJson?_of_writtenAsJson written
  exact ⟨map.writtenAsJson_toJson, reads _ map.writtenAsJson_toJson, reads⟩

/-- Two attributes, one of them with characters that a string literal escapes. -/
def Attributes.quotingEntries : List (String × String) :=
  [("class", "tip"), ("title", "\"größer\"\n\\\x01")]

/-- A style map without rules, which gives bold text these attributes. -/
def StyleMap.quoting : StyleMap where
  paragraphRules := []
  runRules := []
  toggles := { usualToggles with
    bold := .elements [⟨["strong"], .ofList Attributes.quotingEntries, true⟩] }

/-- The attributes may come in another order than the one they are exported in. -/
theorem StyleMap.ofJsonText?_quoting_reversed :
    ∃ json : Json, json.print ≠ quoting.jsonText ∧ quoting.WrittenAsJson json ∧
      ofJsonText? json.print = some quoting := by
  have reversed :
      Attributes.quotingEntries.reverse.Perm
        (Attributes.ofList Attributes.quotingEntries).entries := by
    decide +kernel
  have written : quoting.WrittenAsJson _ :=
    .intro .nil .nil (.elements (.cons (.intro (.intro reversed)) .nil))
      (HtmlPath.writtenAsJson_toJson _) (HtmlPath.writtenAsJson_toJson _)
      (HtmlPath.writtenAsJson_toJson _) (HtmlPath.writtenAsJson_toJson _)
  refine ⟨_, fun same => ?_, written, (ofJsonText?_print quoting).2.2 _ written⟩
  exact absurd (String.ofList_injective same) (by decide +kernel)

end StyleRules
