import StyleRules.Document.Json
import StyleRules.Proofs.Document.Preorder
import StyleRules.Proofs.Json.Layout
import StyleRules.Proofs.Json.Records

/-!
# Exporting documents

An element is exported as a record of its kind, its fields and its children
(`Element.toJson_eq`).  The record is plain, since the index of a list level fits 32 bits, and
each child is less deep than it (`Element.depth_lt_of_mem_children`).  So the element is read
from the record, and from its text while it is not nested too deeply
(`Element.ofJsonText?_print_toJson`).
-/

namespace StyleRules

open Json

/-! ## Plain values and depths -/

namespace Json

theorem areItemsPlain_iff
    {items : List Json} :
    areItemsPlain items = true ↔ ∀ item ∈ items, item.isPlain = true := by
  induction items with
  | nil => simp [areItemsPlain]
  | cons item items inductionHypothesis => simp [areItemsPlain, inductionHypothesis]

theorem isPlain_ofMembers_iff
    {members : List (String × Json)} :
    (ofMembers members).isPlain = true ↔ ∀ member ∈ members, member.2.isPlain = true := by
  rw [ofMembers, isPlain]
  induction members with
  | nil => simp [areMembersPlain]
  | cons member members inductionHypothesis =>
      rw [List.map_cons, areMembersPlain, Option.isSome_some, Bool.true_and, Bool.and_eq_true,
        inductionHypothesis, List.forall_mem_cons]

theorem isPlain_ofOption
    {encode : α -> Json}
    (plain : ∀ value, (encode value).isPlain = true)
    (value : Option α) :
    (ofOption encode value).isPlain = true := by
  cases value with
  | none => rfl
  | some value => exact plain value

theorem depth_le_of_mem_items
    {items : List Json}
    {item : Json}
    (member : item ∈ items) :
    item.depth ≤ depthOfItems items := by
  induction items with
  | nil => exact absurd member List.not_mem_nil
  | cons first items inductionHypothesis =>
      rw [depthOfItems]
      rcases List.mem_cons.mp member with rfl | isOther
      · exact Nat.le_max_left _ _
      · exact Nat.le_trans (inductionHypothesis isOther) (Nat.le_max_right _ _)

theorem depth_lt_of_mem_members
    {members : List (String × Json)}
    {member : String × Json}
    (isMember : member ∈ members) :
    member.2.depth < (ofMembers members).depth := by
  rw [ofMembers, depth, Nat.lt_succ_iff]
  induction members with
  | nil => exact absurd isMember List.not_mem_nil
  | cons first members inductionHypothesis =>
      rw [List.map_cons, depthOfMembers]
      rcases List.mem_cons.mp isMember with rfl | isOther
      · exact Nat.le_max_left _ _
      · exact Nat.le_trans (inductionHypothesis isOther) (Nat.le_max_right _ _)

end Json

/-! ## Styles and list levels -/

theorem ListLevel.ofJson?_toJson (level : ListLevel) :
    ofJson? level.toJson = some level := by
  simp [ofJson?, toJson, fields?_ofMembers, required, word?_natural, bool?]

theorem ListLevel.nullable_toJson (level : Option ListLevel) :
    nullable ofJson? (some (ofOption toJson level)) = some level :=
  nullable_ofOption ofJson?_toJson (fun _ isNull => Json.noConfusion isNull) level

theorem ListLevel.isPlain_toJson (level : ListLevel) :
    level.toJson.isPlain = true := by
  have fits : level.index.toNat < UInt64.size :=
    Nat.lt_trans level.index.toNat_lt (by decide)
  simp [toJson, isPlain_ofMembers_iff, natural, isPlain, JsonNumber.isFinite_natural fits]

theorem Style.ofJson?_toJson (style : Style) :
    ofJson? style.toJson = some style := by
  simp [ofJson?, toJson, fields?_ofMembers, required, text?_text, nullable_text]

theorem Style.nullable_toJson (style : Option Style) :
    nullable ofJson? (some (ofOption toJson style)) = some style :=
  nullable_ofOption ofJson?_toJson (fun _ isNull => Json.noConfusion isNull) style

theorem Style.isPlain_toJson (style : Style) :
    style.toJson.isPlain = true := by
  have name : (ofOption Json.text style.name).isPlain = true :=
    isPlain_ofOption (fun _ => rfl) style.name
  simp [toJson, isPlain_ofMembers_iff, name, Json.text, isPlain]

namespace Element

/-! ## Records of elements -/

/-- The name of the element's kind. -/
def kind : Element -> String
  | paragraph _ _ => "paragraph"
  | run _ _ => "run"
  | text _ => "text"
  | tab => "tab"
  | table _ => "table"
  | tableRow _ => "table_row"
  | tableCell _ => "table_cell"

/-- The children of the element as a field. -/
def childrenField (element : Element) : String × Json :=
  ("children", .array (element.children.map toJson))

/-- The fields of the element. -/
def fields (element : Element) : List (String × Json) :=
  match element with
  | paragraph properties _ => properties.members ++ [element.childrenField]
  | run properties _ => properties.members ++ [element.childrenField]
  | text value => [("value", .text value)]
  | tab => []
  | table _ | tableRow _ | tableCell _ => [element.childrenField]

theorem toJsonItems_eq (elements : List Element) :
    toJsonItems elements = elements.map toJson := by
  induction elements with
  | nil => rfl
  | cons element elements inductionHypothesis =>
      rw [toJsonItems, inductionHypothesis, List.map_cons]

/-- An element is exported as its kind and its fields. -/
theorem toJson_eq (element : Element) :
    element.toJson = .ofMembers (("type", .text element.kind) :: element.fields) := by
  cases element <;> simp [toJson, toJsonItems_eq, kind, fields, childrenField, children]

theorem childrenField_mem_fields
    {element child : Element}
    (member : child ∈ element.children) :
    element.childrenField ∈ element.fields := by
  cases element with
  | text | tab => exact absurd member List.not_mem_nil
  | _ => simp [fields]

theorem depth_lt_of_mem_children
    {element child : Element}
    (member : child ∈ element.children) :
    child.toJson.depth < element.toJson.depth := by
  have inChildren : child.toJson.depth ≤ element.childrenField.2.depth := by
    rw [childrenField, depth]
    exact Nat.le_succ_of_le (depth_le_of_mem_items (List.mem_map_of_mem member))
  rw [toJson_eq element]
  exact Nat.lt_of_le_of_lt inChildren
    (depth_lt_of_mem_members (List.mem_cons_of_mem _ (childrenField_mem_fields member)))

theorem isPlain_toJson (element : Element) :
    element.toJson.isPlain = true := by
  induction element using of_children with
  | step element inductionHypothesis =>
      have childrenPlain : element.childrenField.2.isPlain = true := by
        rw [childrenField, isPlain, areItemsPlain_iff, List.forall_mem_map]
        exact inductionHypothesis
      rw [toJson_eq, isPlain_ofMembers_iff, List.forall_mem_cons]
      refine ⟨rfl, ?_⟩
      cases element with
      | paragraph properties children =>
          simp [fields, ParagraphProperties.members, childrenPlain,
            isPlain_ofOption Style.isPlain_toJson, isPlain_ofOption ListLevel.isPlain_toJson]
      | run properties children =>
          simp [fields, RunProperties.members, childrenPlain,
            isPlain_ofOption Style.isPlain_toJson, isPlain]
      | text value => simp [fields, Json.text, isPlain]
      | tab => exact List.forall_mem_nil _
      | table children | tableRow children | tableCell children =>
          exact List.forall_mem_singleton.mpr childrenPlain

/-! ## Reading the records -/

theorem nodup_names (element : Element) :
    ((("type", Json.text element.kind) :: element.fields).map Prod.fst).Nodup := by
  cases element <;>
    simp [fields, childrenField, ParagraphProperties.members, RunProperties.members]

theorem splitKind?_toJson (element : Element) :
    splitKind? element.toJson = some (.text element.kind, .ofMembers element.fields) := by
  have isKind := @member?_ofMembers (("type", .text element.kind) :: element.fields)
    element.nodup_names ("type", .text element.kind) List.mem_cons_self
  have noOtherKind : "type" ∉ element.fields.map Prod.fst :=
    (List.nodup_cons.mp element.nodup_names).1
  rw [toJson_eq, ofMembers, splitKind?, isKind, List.map_cons, List.filter_cons_of_neg (by simp),
    List.filter_eq_self.mpr]
  · rfl
  · rw [List.forall_mem_map]
    intro field isField
    have differs : field.1 ≠ "type" := fun same =>
      noOtherKind (List.mem_map.mpr ⟨field, isField, same⟩)
    simpa using differs

theorem kindName?_kind
    (numbersAllowed : Bool)
    (element : Element) :
    kindName? numbersAllowed (.text element.kind) = some element.kind := by
  have isKind : element.kind ∈ kindNames := by
    cases element <;> simp [kind, kindNames]
  rw [Json.text, kindName?, if_pos isKind]

/-- An element is read from its fields if its children are. -/
theorem fieldsOfJson?_fields
    {element : Element}
    {child : Json -> Option Element}
    (childrenRead : ∀ inner ∈ element.children, child inner.toJson = some inner) :
    fieldsOfJson? child element.kind (.ofMembers element.fields) = some element := by
  have items : items? child (.array (element.children.map toJson)) = some element.children := by
    apply items?_of_forall₂
    rw [List.forall₂_map_right_iff, List.forall₂_same]
    exact childrenRead
  cases element with
  | paragraph properties inner =>
      rw [children] at items
      simp [fieldsOfJson?, kind, paragraphOfJson?, fields, ParagraphProperties.members,
        childrenField, children, fields?_ofMembers, Style.nullable_toJson,
        ListLevel.nullable_toJson, required, items]
  | run properties inner =>
      rw [children] at items
      simp [fieldsOfJson?, kind, runOfJson?, fields, RunProperties.members, childrenField, children,
        fields?_ofMembers, Style.nullable_toJson, required, bool?, items]
  | text value =>
      simp [fieldsOfJson?, kind, fieldOfJson?, fields, fields?_ofMembers, required, text?_text]
  | tab => rfl
  | table inner | tableRow inner | tableCell inner =>
      rw [children] at items
      simp [fieldsOfJson?, kind, fieldOfJson?, fields, childrenField, children, fields?_ofMembers,
        required, items]

/-- Inside another element, an element is read if there is room for it. -/
theorem innerOfJson?_toJson (element : Element) :
    ∀ room, element.toJson.depth ≤ room -> innerOfJson? room element.toJson = some element := by
  induction element using of_children with
  | step element inductionHypothesis =>
      intro room enough
      have childrenRead : ∀ inner ∈ element.children,
          innerOfJson? (room - 1) inner.toJson = some inner := by
        intro inner member
        have lessDeep := depth_lt_of_mem_children member
        exact inductionHypothesis inner member _ (by omega)
      cases room with
      | zero =>
          rw [toJson_eq, ofMembers, depth] at enough
          exact absurd enough (Nat.not_succ_le_zero _)
      | succ room =>
          rw [innerOfJson?, splitKind?_toJson]
          simp only [Option.bind_eq_bind, Option.bind_some, kindName?_kind]
          exact fieldsOfJson?_fields childrenRead

theorem ofJson?_toJson (element : Element) :
    ofJson? element.toJson = some element := by
  rw [ofJson?, if_pos element.isPlain_toJson, splitKind?_toJson]
  simp only [Option.bind_eq_bind, Option.bind_some, kindName?_kind]
  apply fieldsOfJson?_fields
  intro inner member
  exact inner.innerOfJson?_toJson _ (Nat.le_of_lt (depth_lt_of_mem_children member))

/-- An element is read from its export.  From the text it is read just when the text is not
nested more deeply than a text may be. -/
theorem ofJsonText?_print_toJson (element : Element) :
    ofJson? element.toJson = some element ∧
      ofJsonText? element.toJson.print =
        if element.toJson.depth ≤ nestingLimit then some element else none := by
  refine ⟨element.ofJson?_toJson, ?_⟩
  rw [ofJsonText?, readAs?, read?_print, Option.bind_eq_bind, Option.bind_some, ofJsonWithin?,
    element.ofJson?_toJson]

end Element
end StyleRules
