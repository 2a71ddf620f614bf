import Mathlib.Data.List.Induction
import Mathlib.Data.List.Nodup
import StyleRules.Attributes

/-!
# The order in which attributes are set

Setting attributes one after the other gives every name its last value
(`get?_ofList`).  When no name comes twice the order does not matter, and the entries
of some attributes in any order give these attributes again (`ofList_of_perm`).
-/

namespace StyleRules
namespace Attributes

theorem get?_foldl_insert
    (attributes : Attributes)
    (entries : List (String × String))
    (name : String) :
    (entries.foldl (fun held entry => held.insert entry.1 entry.2) attributes).get? name =
      (find? name entries.reverse).or (attributes.get? name) := by
  induction entries using List.reverseRecOn with
  | nil => rfl
  | append_singleton entries entry inductionHypothesis =>
      rw [List.foldl_append, List.foldl_cons, List.foldl_nil, get?_insert, inductionHypothesis,
        List.reverse_append, List.reverse_singleton, List.singleton_append, find?]
      split <;> rfl

/-- The last of several values for a name counts. -/
theorem get?_ofList (entries : List (String × String)) (name : String) :
    (ofList entries).get? name = find? name entries.reverse := by
  rw [ofList, get?_foldl_insert, get?_empty, Option.or_none]

/-- Where no name comes twice, every entry gives its name's value. -/
theorem find?_eq_some_iff
    {entries : List (String × String)}
    (distinct : (entries.map Prod.fst).Nodup)
    {name value : String} :
    find? name entries = some value ↔ (name, value) ∈ entries := by
  induction entries with
  | nil => simp [find?]
  | cons entry entries inductionHypothesis =>
      obtain ⟨key, held⟩ := entry
      obtain ⟨keyNew, distinctOthers⟩ := List.nodup_cons.mp distinct
      by_cases sameName : key = name
      · subst sameName
        have notBehind : (key, value) ∉ entries := fun member =>
          keyNew (List.mem_map.mpr ⟨(key, value), member, rfl⟩)
        simp [find?, notBehind, eq_comm]
      · simp [find?, sameName, Ne.symm sameName, inductionHypothesis distinctOthers]

theorem nodup_names (attributes : Attributes) :
    (attributes.entries.map Prod.fst).Nodup := by
  refine List.pairwise_map.mpr (attributes.ascending.imp ?_)
  intro one next below same
  rw [same] at below
  exact String.lt_irrefl _ below

/-- The entries of attributes, set in any order, give the attributes. -/
theorem ofList_of_perm
    {attributes : Attributes}
    {order : List (String × String)}
    (permuted : order.Perm attributes.entries) :
    ofList order = attributes := by
  have reversed : order.reverse.Perm attributes.entries := (List.reverse_perm order).trans permuted
  have distinct : (order.reverse.map Prod.fst).Nodup :=
    (reversed.map Prod.fst).nodup_iff.mpr attributes.nodup_names
  refine ext_get? fun name => Option.ext fun value => ?_
  rw [get?_ofList, find?_eq_some_iff distinct, get?, find?_eq_some_iff attributes.nodup_names]
  exact reversed.mem_iff

end Attributes
end StyleRules
