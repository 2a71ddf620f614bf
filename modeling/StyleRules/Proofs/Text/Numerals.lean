import StyleRules.Text.Numeral

/-!
# Numerals and what they are worth

Digits that do not exceed 32 bits are read as their value, leading zeros or not
(`word?_of_digits`), and a plus sign may stand in front of them
(`word?_eq_some_iff`).  A list level counts from one in a text and from zero in a
selector (`exists_level_iff`).
-/

namespace StyleRules
namespace Text

/-- Do the characters spell a number: one or more digits that are worth it, with at most
one plus sign in front? -/
def SpellsNumber (text : List Char) (value : Nat) : Prop :=
  ∃ sign digits, text = sign ++ digits ∧ (sign = [] ∨ sign = ['+']) ∧
    digits ≠ [] ∧ (∀ c ∈ digits, c.isDigit = true) ∧ digitsValue digits = value

theorem numeral?_eq_some_iff
    {cs : List Char}
    {value : Nat} :
    numeral? cs = some value ↔
      cs ≠ [] ∧ (∀ c ∈ cs, c.isDigit = true) ∧ digitsValue cs = value := by
  cases cs <;> simp [numeral?]

theorem dropPlus_of_digits
    {digits : List Char}
    (areDigits : ∀ c ∈ digits, c.isDigit = true) :
    dropPlus digits = digits := by
  unfold dropPlus
  split
  · rename_i rest
    exact absurd (areDigits '+' List.mem_cons_self) (by decide)
  · rfl

/-- A plus sign in front of a numeral, and no other, is dropped. -/
theorem numeral?_dropPlus_eq_some_iff
    {cs : List Char}
    {value : Nat} :
    numeral? (dropPlus cs) = some value ↔ SpellsNumber cs value := by
  rw [numeral?_eq_some_iff]
  constructor
  · intro spelled
    unfold dropPlus at spelled
    split at spelled
    · exact ⟨['+'], _, rfl, .inr rfl, spelled⟩
    · exact ⟨[], _, rfl, .inl rfl, spelled⟩
  · rintro ⟨sign, digits, rfl, rfl | rfl, spelled⟩
    · rwa [List.nil_append, dropPlus_of_digits spelled.2.1]
    · exact spelled

/-- A text is read as a number of 32 bits exactly when it spells that number. -/
theorem word?_eq_some_iff
    {text : String}
    {word : UInt32} :
    word? text = some word ↔ SpellsNumber text.toList word.toNat := by
  rw [← numeral?_dropPlus_eq_some_iff, word?]
  cases numeral? (dropPlus text.toList) with
  | none => simp
  | some value =>
      have valueEquality : value < UInt32.size -> (UInt32.ofNat value).toNat = value :=
        UInt32.toNat_ofNat_of_lt'
      have wordBound : word.toNat < UInt32.size := word.toNat_lt
      simp only [Option.bind_eq_bind, Option.bind_some, Option.some.injEq]
      split
      · rename_i fits
        rw [Option.some.injEq, ← UInt32.toNat_inj, valueEquality fits]
      · rename_i tooLarge
        simp only [reduceCtorEq, false_iff]
        rintro rfl
        exact tooLarge wordBound

theorem word?_of_digits
    {digits : List Char}
    (nonempty : digits ≠ [])
    (areDigits : ∀ c ∈ digits, c.isDigit = true) :
    word? (String.ofList digits) =
      if digitsValue digits < UInt32.size then some (UInt32.ofNat (digitsValue digits))
      else none := by
  have notEmpty : digits.isEmpty = false := by simpa using nonempty
  have reads : numeral? digits = some (digitsValue digits) := by
    rw [numeral?, notEmpty, if_neg Bool.false_ne_true, if_pos (List.all_eq_true.mpr areDigits)]
  simp only [word?, String.toList_ofList, dropPlus_of_digits areDigits, reads, Option.bind_eq_bind,
    Option.bind_some]

/-- A numeral names a level when its value fits 32 bits and is not zero; the
level is one more than its index. -/
theorem exists_level_iff
    {digits : List Char}
    {index : UInt32}
    (nonempty : digits ≠ [])
    (areDigits : ∀ c ∈ digits, c.isDigit = true) :
    (∃ level, word? (String.ofList digits) = some level ∧ level ≠ 0 ∧ level - 1 = index) ↔
      digitsValue digits = index.toNat + 1 ∧ index.toNat + 1 < UInt32.size := by
  rw [word?_of_digits nonempty areDigits]
  have indexBound : index.toNat < UInt32.size := index.toNat_lt
  constructor
  · rintro ⟨level, reads, notZero, rfl⟩
    split at reads
    · rename_i fits
      obtain rfl := Option.some.inj reads
      have valueEquality : (UInt32.ofNat (digitsValue digits)).toNat = digitsValue digits :=
        UInt32.toNat_ofNat_of_lt' fits
      have valuePos : digitsValue digits ≠ 0 := by
        intro isZero
        rw [isZero] at notZero
        exact notZero rfl
      have atLeastOne : 1 ≤ UInt32.ofNat (digitsValue digits) := by
        rw [UInt32.le_iff_toNat_le, valueEquality]
        exact Nat.pos_of_ne_zero valuePos
      rw [UInt32.toNat_sub_of_le _ _ atLeastOne, valueEquality]
      have oneEquality : (1 : UInt32).toNat = 1 := rfl
      omega
    · exact absurd reads (by simp)
  · rintro ⟨valueEquality, fits⟩
    have levelEquality : (index + 1).toNat = index.toNat + 1 := by
      rw [UInt32.toNat_add]
      exact Nat.mod_eq_of_lt fits
    have sameWord : UInt32.ofNat (digitsValue digits) = index + 1 := by
      rw [← UInt32.toNat_inj, levelEquality, valueEquality]
      exact UInt32.toNat_ofNat_of_lt' fits
    refine ⟨index + 1, ?_, ?_, ?_⟩
    · rw [if_pos (by rw [valueEquality]; exact fits), sameWord]
    · intro isZero
      rw [isZero] at levelEquality
      exact absurd levelEquality (by simp)
    · exact UInt32.add_sub_cancel index 1

end Text
end StyleRules
