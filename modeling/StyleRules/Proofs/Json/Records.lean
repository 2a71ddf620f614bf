import Mathlib.Data.List.Forall2
import StyleRules.Json.Decode

/-!
# Records, lists and options taken apart

What is put into a value is what is taken out of it again, if the parts are: the fields of
a record whose names differ (`fields?_ofMembers`), the items of a list
(`items?_of_forall₂`), the texts of an object (`texts?_ofMembers`) and a value that may be
absent (`nullable_ofOption`).
-/

namespace StyleRules
namespace Json

theorem mapM_eq_some_of_forall₂
    {decode : α -> Option β}
    {encoded : List α}
    {values : List β}
    (decodes : List.Forall₂ (fun json value => decode json = some value) encoded values) :
    encoded.mapM decode = some values := by
  induction decodes with
  | nil => rfl
  | cons first _ inductionHypothesis =>
      rw [List.mapM_cons, first, inductionHypothesis]
      rfl

theorem text?_text (value : String) :
    text? (text value) = some value :=
  rfl

theorem word?_natural (value : UInt32) :
    word? (natural value.toNat) = some value := by
  have fits : value.toNat < UInt32.size := value.toNat_lt
  have reads : natural? (natural value.toNat) = some value.toNat := rfl
  rw [word?, reads, Option.bind_eq_bind, Option.bind_some, if_pos fits, UInt32.ofNat_toNat]

theorem texts?_ofMembers (entries : List (String × String)) :
    texts? (ofMembers (entries.map fun (name, value) => (name, .text value))) = some entries := by
  rw [ofMembers, texts?, List.map_map]
  apply mapM_eq_some_of_forall₂
  rw [List.forall₂_map_left_iff, List.forall₂_same]
  exact fun _ _ => rfl

theorem items?_of_forall₂
    {decode : Json -> Option α}
    {values : List α}
    {items : List Json}
    (decodes : List.Forall₂ (fun value item => decode item = some value) values items) :
    items? decode (.array items) = some values :=
  mapM_eq_some_of_forall₂ decodes.flip

section

variable
  {encode : α -> Json}
  {decode : Json -> Option α}
  (decodes : ∀ value, decode (encode value) = some value)

include decodes

theorem items?_ofList (values : List α) :
    items? decode (ofList encode values) = some values := by
  apply items?_of_forall₂
  rw [List.forall₂_map_right_iff, List.forall₂_same]
  exact fun value _ => decodes value

/-- A value that is not written as null is taken out as itself, and null as its absence. -/
theorem nullable_ofOption
    (notNull : ∀ value, encode value ≠ .null)
    (value : Option α) :
    nullable decode (some (ofOption encode value)) = some value := by
  cases value with
  | none => rfl
  | some value =>
      rw [nullable, ofOption, optional?]
      · rw [decodes]
        rfl
      · exact notNull value

end

theorem nullable_text (value : Option String) :
    nullable text? (some (ofOption text value)) = some value :=
  nullable_ofOption text?_text (fun _ isNull => Json.noConfusion isNull) value

/-! ## Fields -/

theorem filter_name_eq_singleton
    {members : List (String × Json)}
    (distinct : (members.map Prod.fst).Nodup)
    {member : String × Json}
    (isMember : member ∈ members) :
    members.filter (fun other => other.1 == member.1) = [member] := by
  induction members with
  | nil => exact absurd isMember List.not_mem_nil
  | cons head members inductionHypothesis =>
      obtain ⟨headDiffers, distinct⟩ := List.nodup_cons.mp distinct
      rcases List.mem_cons.mp isMember with rfl | isMember
      · have noOther : members.filter (fun other => other.1 == member.1) = [] := by
          refine List.filter_eq_nil_iff.mpr fun other isOther same => headDiffers ?_
          exact beq_iff_eq.mp same ▸ List.mem_map_of_mem isOther
        rw [List.filter_cons, if_pos (beq_self_eq_true member.1), noOther]
      · have isOther : ¬ (head.1 == member.1) = true := fun same =>
          headDiffers (beq_iff_eq.mp same ▸ List.mem_map_of_mem isMember)
        rw [List.filter_cons, if_neg isOther, inductionHypothesis distinct isMember]

/-- A name that comes once has its value. -/
theorem member?_ofMembers
    {members : List (String × Json)}
    (distinct : (members.map Prod.fst).Nodup)
    {member : String × Json}
    (isMember : member ∈ members) :
    member? (members.map fun (name, value) => (some name, value)) member.1 =
      some (some member.2) := by
  have sameName :
      ((fun other => other.1 == some member.1) ∘ fun (name, value) => (some name, value)) =
        fun other : String × Json => other.1 == member.1 :=
    funext fun _ => rfl
  rw [member?, List.filter_map, sameName, filter_name_eq_singleton distinct isMember]
  rfl

/-- The fields of a record are taken out in its order. -/
theorem fields?_ofMembers
    {names : List String}
    {members : List (String × Json)}
    (inOrder : members.map Prod.fst = names)
    (distinct : names.Nodup) :
    fields? names (ofMembers members) = some (members.map fun member => some member.2) := by
  subst inOrder
  have named : (members.map fun (name, value) => (some name, value)).all
      (fun member => member.1.isSome) = true := by
    simp
  rw [ofMembers, fields?, memberValues?, if_pos named]
  apply mapM_eq_some_of_forall₂
  rw [List.forall₂_map_left_iff, List.forall₂_map_right_iff, List.forall₂_same]
  exact fun member isMember => member?_ofMembers distinct isMember

end Json
end StyleRules
