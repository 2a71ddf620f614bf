import StyleRules.Proofs.Json.Literals

/-!
# Printed values are read back

What is read at the beginning of a text follows from what is read behind its first token,
one rule for each way to go on.  By these rules the layout of a value at any level is read
as the value, items and members up to the bracket that closes them
(`readValue?_layout`, `readItems?_layout`, `readMembers?_layout`).  So is the text of a
value as a whole (`read?_print`); it is long enough to bound the nested calls.
-/

namespace StyleRules
namespace Json

/-! ## Blanks and first characters -/

theorem skipSpaces_cons
    {c : Char}
    (notSpace : isSpace c = false)
    (rest : List Char) :
    skipSpaces (c :: rest) = c :: rest := by
  simp [skipSpaces, notSpace]

theorem skipSpaces_newline
    (level : Nat)
    (rest : List Char) :
    skipSpaces (newline level ++ rest) = skipSpaces rest := by
  have areSpaces : ∀ c ∈ newline level, isSpace c = true := by
    intro c member
    rcases List.mem_cons.mp member with rfl | member
    · rfl
    · rw [List.eq_of_mem_replicate member]
      rfl
  exact List.dropWhile_append_of_pos areSpaces

/-- Does the text begin with a character that is no blank and closes no array? -/
inductive Begins : List Char -> Prop
  | intro
      {c : Char}
      (notSpace : isSpace c = false)
      (notBracket : c ≠ ']')
      (rest : List Char) :
      Begins (c :: rest)

theorem Begins.append
    {cs : List Char}
    (begins : Begins cs)
    (rest : List Char) :
    Begins (cs ++ rest) := by
  obtain ⟨notSpace, notBracket, inner⟩ := begins
  exact .intro notSpace notBracket (inner ++ rest)

theorem Begins.skipSpaces_eq
    {cs : List Char}
    (begins : Begins cs) :
    skipSpaces cs = cs := by
  obtain ⟨notSpace, _, rest⟩ := begins
  exact skipSpaces_cons notSpace rest

theorem Begins.ne_bracket
    {cs : List Char}
    (begins : Begins cs)
    (rest : List Char) :
    cs ≠ ']' :: rest := by
  obtain ⟨_, notBracket, inner⟩ := begins
  exact fun isBracket => notBracket (List.cons.inj isBracket).1

theorem Begins.ne_nil
    {cs : List Char}
    (begins : Begins cs) :
    cs ≠ [] := by
  obtain ⟨_, _, rest⟩ := begins
  exact List.cons_ne_nil _ rest

/-! ## Rules of the reader -/

theorem number?_nil :
    number? [] = none :=
  rfl

/-- A numeral begins with a minus sign or a digit, so with nothing else. -/
theorem ne_of_number?
    {c : Char}
    {rest : List Char}
    {result : JsonNumber × List Char}
    (reads : number? (c :: rest) = some result)
    (other : Char)
    (beginsNone : (other == '-' || other.isDigit) = false) :
    c ≠ other := by
  rintro rfl
  obtain ⟨notMinus, notDigit⟩ := Bool.or_eq_false_iff.mp beginsNone
  have noMinus : minus (c :: rest) = (false, c :: rest) := by
    rw [minus]
    exact fun others isMinus => ne_of_beq_false notMinus (List.cons.inj isMinus).1
  rw [number?, noMinus] at reads
  simp [digits?, notDigit] at reads

theorem readValue?_number
    (bound : Nat)
    {cs after : List Char}
    {number : JsonNumber}
    (reads : number? cs = some (number, after)) :
    readValue? (bound + 1) cs = some (.number number, after) := by
  cases cs with
  | nil =>
      rw [number?_nil] at reads
      cases reads
  | cons c rest =>
      rw [readValue?, if_neg (ne_of_number? reads quote rfl),
        if_neg (ne_of_number? reads '[' rfl), if_neg (ne_of_number? reads openBrace rfl),
        if_neg (ne_of_number? reads 'n' rfl), if_neg (ne_of_number? reads 't' rfl),
        if_neg (ne_of_number? reads 'f' rfl), reads]
      rfl

theorem readValue?_string
    (bound : Nat)
    (text : Option String)
    (after : List Char) :
    readValue? (bound + 1) (stringLiteral text ++ after) = some (.string text, after) := by
  obtain ⟨inner, spelled, reads⟩ := stringLiteral?_stringLiteral text after
  rw [spelled, readValue?, if_pos rfl, reads]
  rfl

theorem readValue?_array
    {bound : Nat}
    {inner after : List Char}
    {items : List Json}
    (notEmpty : ∀ others, skipSpaces inner ≠ ']' :: others)
    (reads : readItems? bound (skipSpaces inner) = some (items, after)) :
    readValue? (bound + 1) ('[' :: inner) = some (.array items, after) := by
  rw [readValue?, if_neg (by decide), if_pos rfl]
  split
  · rename_i others isEmpty
    exact absurd isEmpty (notEmpty others)
  · rw [reads]
    rfl

theorem readValue?_object
    {bound : Nat}
    {inner after : List Char}
    {members : List (Option String × Json)}
    (notEmpty : ∀ others, skipSpaces inner ≠ closeBrace :: others)
    (reads : readMembers? bound (skipSpaces inner) = some (members, after)) :
    readValue? (bound + 1) (openBrace :: inner) = some (.object members, after) := by
  rw [readValue?, if_neg (by decide), if_neg (by decide), if_pos rfl]
  split
  · rename_i others isEmpty
    exact absurd isEmpty (notEmpty others)
  · rw [reads]
    rfl

theorem readItems?_last
    {bound : Nat}
    {cs rest after : List Char}
    {item : Json}
    (reads : readValue? bound cs = some (item, rest))
    (closes : skipSpaces rest = ']' :: after) :
    readItems? (bound + 1) cs = some ([item], after) := by
  rw [readItems?, reads]
  simp [closes]

theorem readItems?_comma
    {bound : Nat}
    {cs rest more after : List Char}
    {item : Json}
    {items : List Json}
    (reads : readValue? bound cs = some (item, rest))
    (continues : skipSpaces rest = ',' :: more)
    (readsMore : readItems? bound (skipSpaces more) = some (items, after)) :
    readItems? (bound + 1) cs = some (item :: items, after) := by
  rw [readItems?, reads]
  simp [continues, readsMore]

theorem readMembers?_last
    {bound : Nat}
    {afterName cs rest after : List Char}
    {value : Json}
    (name : Option String)
    (colon : afterColon? afterName = some cs)
    (reads : readValue? bound cs = some (value, rest))
    (closes : skipSpaces rest = closeBrace :: after) :
    readMembers? (bound + 1) (stringLiteral name ++ afterName) =
      some ([(name, value)], after) := by
  obtain ⟨inner, spelled, readsName⟩ := stringLiteral?_stringLiteral name afterName
  rw [spelled, quote, readMembers?, readsName]
  simp [colon, reads, closes, closeBrace]

theorem readMembers?_comma
    {bound : Nat}
    {afterName cs rest more after : List Char}
    {value : Json}
    {members : List (Option String × Json)}
    (name : Option String)
    (colon : afterColon? afterName = some cs)
    (reads : readValue? bound cs = some (value, rest))
    (continues : skipSpaces rest = ',' :: more)
    (readsMore : readMembers? bound (skipSpaces more) = some (members, after)) :
    readMembers? (bound + 1) (stringLiteral name ++ afterName) =
      some ((name, value) :: members, after) := by
  obtain ⟨inner, spelled, readsName⟩ := stringLiteral?_stringLiteral name afterName
  rw [spelled, quote, readMembers?, readsName]
  simp [colon, reads, continues, readsMore]

/-! ## Layouts -/

theorem endsValue_nil : EndsValue [] := by
  simp [EndsValue]

theorem endsValue_newline
    (level : Nat)
    (rest : List Char) :
    EndsValue (newline level ++ rest) := by
  simp [EndsValue, newline]

theorem endsValue_layoutItems
    (level outer : Nat)
    (items : List Json)
    (rest : List Char) :
    EndsValue (layoutItems level items ++ (newline outer ++ rest)) := by
  cases items with
  | nil => exact endsValue_newline outer rest
  | cons item items => simp [layoutItems, EndsValue]

theorem endsValue_layoutMembers
    (level outer : Nat)
    (members : List (Option String × Json))
    (rest : List Char) :
    EndsValue (layoutMembers level members ++ (newline outer ++ rest)) := by
  cases members with
  | nil => exact endsValue_newline outer rest
  | cons member members => simp [layoutMembers, EndsValue]

theorem begins_layout
    (level : Nat)
    (value : Json) :
    Begins (layout level value) := by
  cases value with
  | null => exact .intro rfl (by decide) _
  | bool value => cases value <;> exact .intro rfl (by decide) _
  | number number =>
      -- A literal that is read as a number begins as numbers do.
      have reads := number?_numberLiteral number endsValue_nil
      rw [List.append_nil] at reads
      rw [layout]
      cases spelled : numberLiteral number with
      | nil =>
          rw [spelled, number?_nil] at reads
          cases reads
      | cons c rest =>
          rw [spelled] at reads
          have notSpace : isSpace c = false := by
            simp [isSpace, ne_of_number? reads ' ' rfl, ne_of_number? reads '\x09' rfl,
              ne_of_number? reads '\x0a' rfl, ne_of_number? reads '\x0d' rfl]
          exact .intro notSpace (ne_of_number? reads ']' rfl) rest
  | string text => cases text <;> exact .intro rfl (by decide) _
  | array items => cases items <;> exact .intro rfl (by decide) _
  | object members => cases members <;> exact .intro rfl (by decide) _

theorem length_layout_pos
    (level : Nat)
    (value : Json) :
    0 < (layout level value).length :=
  List.length_pos_iff.mpr (begins_layout level value).ne_nil

theorem skipSpaces_newline_layout
    (outer level : Nat)
    (value : Json)
    (rest : List Char) :
    skipSpaces (newline outer ++ (layout level value ++ rest)) = layout level value ++ rest := by
  rw [skipSpaces_newline]
  exact ((begins_layout level value).append rest).skipSpaces_eq

theorem skipSpaces_newline_stringLiteral
    (level : Nat)
    (text : Option String)
    (rest : List Char) :
    skipSpaces (newline level ++ (stringLiteral text ++ rest)) = stringLiteral text ++ rest := by
  rw [skipSpaces_newline]
  exact ((begins_layout level (.string text)).append rest).skipSpaces_eq

theorem stringLiteral_append_ne_closeBrace
    (text : Option String)
    (rest others : List Char) :
    stringLiteral text ++ rest ≠ closeBrace :: others := by
  cases text <;> exact fun isBrace => absurd (List.cons.inj isBrace).1 (by decide)

theorem afterColon?_layout
    (level : Nat)
    (value : Json)
    (rest : List Char) :
    afterColon? (':' :: ' ' :: (layout level value ++ rest)) = some (layout level value ++ rest) := by
  have skips : skipSpaces (' ' :: (layout level value ++ rest)) = layout level value ++ rest :=
    ((begins_layout level value).append rest).skipSpaces_eq
  rw [afterColon?, skipSpaces_cons (by rfl)]
  exact congrArg some skips

theorem layout_array_append
    (level : Nat)
    (item : Json)
    (items : List Json)
    (rest : List Char) :
    layout level (.array (item :: items)) ++ rest =
      '[' :: (newline (level + 1) ++ (layout (level + 1) item ++
        (layoutItems (level + 1) items ++ (newline level ++ ']' :: rest)))) := by
  simp [layout]

theorem layoutItems_cons_append
    (level : Nat)
    (item : Json)
    (items : List Json)
    (rest : List Char) :
    layoutItems level (item :: items) ++ rest =
      ',' :: (newline level ++ (layout level item ++ (layoutItems level items ++ rest))) := by
  simp [layoutItems]

theorem layout_object_append
    (level : Nat)
    (name : Option String)
    (value : Json)
    (members : List (Option String × Json))
    (rest : List Char) :
    layout level (.object ((name, value) :: members)) ++ rest =
      openBrace :: (newline (level + 1) ++ (stringLiteral name ++ (':' :: ' ' ::
        (layout (level + 1) value ++
          (layoutMembers (level + 1) members ++ (newline level ++ closeBrace :: rest)))))) := by
  simp [layout]

theorem layoutMembers_cons_append
    (level : Nat)
    (name : Option String)
    (value : Json)
    (members : List (Option String × Json))
    (rest : List Char) :
    layoutMembers level ((name, value) :: members) ++ rest =
      ',' :: (newline level ++ (stringLiteral name ++ (':' :: ' ' ::
        (layout level value ++ (layoutMembers level members ++ rest))))) := by
  simp [layoutMembers]

-- The recursion is that of the reader, which lowers the bound by one with each call.  Two
-- calls lead from a list to its next item or member, and a comma and a newline stand between
-- them, so twice the length of the text is enough.
mutual

/-- The layout of a value is read as the value. -/
theorem readValue?_layout
    (level : Nat)
    (value : Json)
    {bound : Nat}
    {rest : List Char}
    (enough : 2 * (layout level value).length ≤ bound)
    (ends : EndsValue rest) :
    readValue? bound (layout level value ++ rest) = some (value, rest) := by
  cases bound with
  | zero => exact absurd (length_layout_pos level value) (by omega)
  | succ bound =>
      match value with
      | .null => rfl
      | .bool true => rfl
      | .bool false => rfl
      | .number numeral => exact readValue?_number bound (number?_numberLiteral numeral ends)
      | .string content => exact readValue?_string bound content rest
      | .array [] => rfl
      | .object [] => rfl
      | .array (item :: items) =>
          simp only [layout, List.length_cons, List.length_append] at enough
          rw [layout_array_append]
          apply readValue?_array
          · rw [skipSpaces_newline_layout]
            exact ((begins_layout (level + 1) item).append _).ne_bracket
          · rw [skipSpaces_newline_layout]
            exact readItems?_layout (level + 1) level item items rest (by omega)
      | .object ((name, value) :: members) =>
          simp only [layout, List.length_cons, List.length_append] at enough
          rw [layout_object_append]
          apply readValue?_object
          · rw [skipSpaces_newline_stringLiteral]
            exact stringLiteral_append_ne_closeBrace name _
          · rw [skipSpaces_newline_stringLiteral]
            exact readMembers?_layout (level + 1) level name value members rest (by omega)
termination_by bound

/-- The layout of items is read as the items. -/
theorem readItems?_layout
    (level outer : Nat)
    (item : Json)
    (items : List Json)
    {bound : Nat}
    (rest : List Char)
    (enough : 2 * ((layout level item).length + (layoutItems level items).length) < bound) :
    readItems? bound
        (layout level item ++ (layoutItems level items ++ (newline outer ++ ']' :: rest))) =
      some (item :: items, rest) := by
  cases bound with
  | zero => omega
  | succ bound =>
      have ends := endsValue_layoutItems level outer items (']' :: rest)
      have enoughForItem : 2 * (layout level item).length ≤ bound := by omega
      have reads := readValue?_layout level item enoughForItem ends
      cases items with
      | nil => exact readItems?_last reads (skipSpaces_newline outer (']' :: rest))
      | cons next items =>
          simp only [layoutItems, List.length_cons, List.length_append] at enough
          rw [layoutItems_cons_append] at reads ⊢
          apply readItems?_comma reads (skipSpaces_cons rfl _)
          rw [skipSpaces_newline_layout]
          exact readItems?_layout level outer next items rest (by omega)
termination_by bound

/-- The layout of members is read as the members. -/
theorem readMembers?_layout
    (level outer : Nat)
    (name : Option String)
    (value : Json)
    (members : List (Option String × Json))
    {bound : Nat}
    (rest : List Char)
    (enough : 2 * ((layout level value).length + (layoutMembers level members).length) < bound) :
    readMembers? bound
        (stringLiteral name ++ (':' :: ' ' :: (layout level value ++
          (layoutMembers level members ++ (newline outer ++ closeBrace :: rest))))) =
      some ((name, value) :: members, rest) := by
  cases bound with
  | zero => omega
  | succ bound =>
      have ends := endsValue_layoutMembers level outer members (closeBrace :: rest)
      have enoughForValue : 2 * (layout level value).length ≤ bound := by omega
      have reads := readValue?_layout level value enoughForValue ends
      have colon := afterColon?_layout level value
        (layoutMembers level members ++ (newline outer ++ closeBrace :: rest))
      cases members with
      | nil =>
          exact readMembers?_last name colon reads
            (skipSpaces_newline outer (closeBrace :: rest))
      | cons next members =>
          obtain ⟨nextName, nextValue⟩ := next
          simp only [layoutMembers, List.length_cons, List.length_append] at enough
          apply readMembers?_comma name colon reads
          · rw [layoutMembers_cons_append]
            exact skipSpaces_cons rfl _
          · rw [skipSpaces_newline_stringLiteral]
            exact readMembers?_layout level outer nextName nextValue members rest (by omega)
termination_by bound

end

/-- The text of a value is read as the value. -/
theorem read?_print (value : Json) :
    read? value.print = some value := by
  have enough : 2 * (layout 0 value).length ≤ 2 * (layout 0 value).length + 1 := Nat.le_succ _
  have reads := readValue?_layout 0 value enough endsValue_nil
  rw [List.append_nil] at reads
  rw [read?, print, String.toList_ofList, (begins_layout 0 value).skipSpaces_eq, reads]
  rfl

end Json
end StyleRules
