/-!
# Attributes

Attributes give values to names, each name at most one.  They are kept as a list
in ascending order of names, so two collections that answer every name alike are
equal (`ext_get?`).
-/

namespace StyleRules

/-- Values by name, in ascending order of names. -/
structure Attributes where
  entries : List (String × String)
  ascending : entries.Pairwise fun one next => one.1 < next.1
  deriving DecidableEq

namespace Attributes

/-- No attributes. -/
def empty : Attributes :=
  ⟨[], .nil⟩

instance : EmptyCollection Attributes :=
  ⟨empty⟩

instance : Inhabited Attributes :=
  ⟨empty⟩

/-- The value of a name in a list of entries. -/
def find? (name : String) : List (String × String) -> Option String
  | [] => none
  | (key, value) :: entries => if key = name then some value else find? name entries

/-- The value of a name. -/
def get? (attributes : Attributes) (name : String) : Option String :=
  find? name attributes.entries

/-- Ascending entries with one more value, which replaces an earlier one. -/
def insertEntry (name value : String) : List (String × String) -> List (String × String)
  | [] => [(name, value)]
  | (key, held) :: entries =>
      if name < key then (name, value) :: (key, held) :: entries
      else if name = key then (name, value) :: entries
      else (key, held) :: insertEntry name value entries

/-- The names after an insertion are the inserted one and those before. -/
theorem mem_insertEntry
    {name value : String}
    {entries : List (String × String)}
    {entry : String × String}
    (member : entry ∈ insertEntry name value entries) :
    entry = (name, value) ∨ entry ∈ entries := by
  induction entries with
  | nil =>
      simp only [insertEntry, List.mem_singleton] at member
      exact .inl member
  | cons head entries inductionHypothesis =>
      obtain ⟨key, held⟩ := head
      simp only [insertEntry] at member
      split at member
      · rcases List.mem_cons.mp member with rfl | memberRest
        · exact .inl rfl
        · exact .inr memberRest
      · split at member
        · rcases List.mem_cons.mp member with rfl | memberRest
          · exact .inl rfl
          · exact .inr (List.mem_cons_of_mem _ memberRest)
        · rcases List.mem_cons.mp member with rfl | memberRest
          · exact .inr List.mem_cons_self
          · rcases inductionHypothesis memberRest with rfl | memberTail
            · exact .inl rfl
            · exact .inr (List.mem_cons_of_mem _ memberTail)

/-- An insertion keeps the order of names. -/
theorem insertEntry_ascending
    {name value : String}
    {entries : List (String × String)}
    (ascending : entries.Pairwise fun one next => one.1 < next.1) :
    (insertEntry name value entries).Pairwise fun one next => one.1 < next.1 := by
  induction entries with
  | nil => simp [insertEntry]
  | cons head entries inductionHypothesis =>
      obtain ⟨key, held⟩ := head
      obtain ⟨headBelow, tailAscending⟩ := List.pairwise_cons.mp ascending
      simp only [insertEntry]
      split
      · rename_i nameBelow
        refine List.pairwise_cons.mpr ⟨?_, ascending⟩
        intro entry entryMember
        rcases List.mem_cons.mp entryMember with rfl | entryMember
        · exact nameBelow
        · exact String.lt_trans nameBelow (headBelow entry entryMember)
      · split
        · rename_i sameName
          subst sameName
          exact List.pairwise_cons.mpr ⟨headBelow, tailAscending⟩
        · rename_i notBelow notSame
          have keyBelow : key < name := by
            rcases Std.lt_trichotomy key name with below | same | above
            · exact below
            · exact absurd same.symm notSame
            · exact absurd above notBelow
          refine List.pairwise_cons.mpr ⟨?_, inductionHypothesis tailAscending⟩
          intro entry entryMember
          rcases mem_insertEntry entryMember with rfl | entryMember
          · exact keyBelow
          · exact headBelow entry entryMember

/-- The attributes with one more value, which replaces an earlier one of its
name. -/
def insert (attributes : Attributes) (name value : String) : Attributes :=
  ⟨insertEntry name value attributes.entries, insertEntry_ascending attributes.ascending⟩

/-- The attributes set one after the other; later values replace earlier
ones. -/
def ofList (entries : List (String × String)) : Attributes :=
  entries.foldl (fun attributes entry => attributes.insert entry.1 entry.2) ∅

/-- An inserted value is found, and no other value changes. -/
theorem find?_insertEntry
    (name value other : String)
    (entries : List (String × String)) :
    find? other (insertEntry name value entries) =
      if name = other then some value else find? other entries := by
  induction entries with
  | nil => simp [insertEntry, find?]
  | cons head entries inductionHypothesis =>
      obtain ⟨key, held⟩ := head
      simp only [insertEntry]
      split
      · simp [find?]
      · split
        · rename_i sameName
          subst sameName
          simp only [find?]
          split <;> rfl
        · rename_i notSame
          simp only [find?, inductionHypothesis]
          split
          · rename_i keyIsOther
            rw [if_neg (by rw [← keyIsOther]; exact notSame)]
          · rfl

/-- An inserted value is found, and no other value changes. -/
@[simp]
theorem get?_insert
    (attributes : Attributes)
    (name value other : String) :
    (attributes.insert name value).get? other =
      if name = other then some value else attributes.get? other :=
  find?_insertEntry name value other attributes.entries

/-- No name has a value in the empty collection. -/
@[simp]
theorem get?_empty (name : String) :
    (∅ : Attributes).get? name = none :=
  rfl

/-- A name below all others has no value. -/
theorem find?_eq_none_of_lt
    {name : String}
    {entries : List (String × String)}
    (below : ∀ entry ∈ entries, name < entry.1) :
    find? name entries = none := by
  induction entries with
  | nil => rfl
  | cons head entries inductionHypothesis =>
      obtain ⟨key, held⟩ := head
      have keyAbove : name < key := below (key, held) List.mem_cons_self
      have notName : key ≠ name := by
        rintro rfl
        exact String.lt_irrefl key keyAbove
      rw [find?, if_neg notName]
      exact inductionHypothesis fun entry entryMember =>
        below entry (List.mem_cons_of_mem _ entryMember)

/-- Where the first name of some entries has a value among ascending entries, it
is not below the first of theirs. -/
theorem eq_or_lt_of_find?_eq
    {key held name value : String}
    {entries others : List (String × String)}
    (othersBelow : ∀ entry ∈ others, name < entry.1)
    (agree :
      find? key ((key, held) :: entries) = find? key ((name, value) :: others)) :
    name = key ∨ name < key := by
  rcases Std.lt_trichotomy name key with below | same | above
  · exact .inr below
  · exact .inl same
  · have absent : find? key ((name, value) :: others) = none := by
      refine find?_eq_none_of_lt fun entry entryMember => ?_
      rcases List.mem_cons.mp entryMember with rfl | otherMember
      · exact above
      · exact String.lt_trans above (othersBelow entry otherMember)
    rw [absent] at agree
    simp [find?] at agree

/-- Ascending entries are determined by the values of all names. -/
theorem eq_of_find?_eq
    {entries others : List (String × String)}
    (ascending : entries.Pairwise fun one next => one.1 < next.1)
    (othersAscending : others.Pairwise fun one next => one.1 < next.1)
    (agree : ∀ name, find? name entries = find? name others) :
    entries = others := by
  induction entries generalizing others with
  | nil =>
      cases others with
      | nil => rfl
      | cons head others => simpa [find?] using agree head.1
  | cons head entries inductionHypothesis =>
      obtain ⟨key, held⟩ := head
      cases others with
      | nil => simpa [find?] using agree key
      | cons otherHead others =>
          obtain ⟨name, value⟩ := otherHead
          obtain ⟨entriesAbove, entriesAscending⟩ := List.pairwise_cons.mp ascending
          obtain ⟨othersAbove, restAscending⟩ := List.pairwise_cons.mp othersAscending
          have sameName : name = key := by
            rcases eq_or_lt_of_find?_eq othersAbove (agree key) with same | nameBelow
            · exact same
            · rcases eq_or_lt_of_find?_eq entriesAbove (agree name).symm with same | keyBelow
              · exact same.symm
              · exact absurd (String.lt_trans nameBelow keyBelow) (String.lt_irrefl name)
          subst sameName
          have sameValue : held = value := by simpa [find?] using agree name
          subst sameValue
          have sameRest : entries = others := by
            refine inductionHypothesis entriesAscending restAscending fun other => ?_
            by_cases isName : name = other
            · subst isName
              rw [find?_eq_none_of_lt entriesAbove, find?_eq_none_of_lt othersAbove]
            · simpa [find?, isName] using agree other
          rw [sameRest]

/-- Attributes that answer every name alike are equal. -/
theorem ext_get?
    {attributes others : Attributes}
    (agree : ∀ name, attributes.get? name = others.get? name) :
    attributes = others := by
  obtain ⟨entries, ascending⟩ := attributes
  obtain ⟨otherEntries, othersAscending⟩ := others
  obtain rfl : entries = otherEntries := eq_of_find?_eq ascending othersAscending agree
  rfl

end Attributes
end StyleRules
