/-!
# Whole numbers in double precision

A double has 53 significant bits.  A whole number between two neighbouring
doubles is rounded to the nearer one, and halfway between them to the one whose
last bit is zero.  So rounding moves a number by half the distance between its
neighbours at most (`round_near`).  It does not bound the magnitude; a rounded
number is finite as a double when it is below the power of two at which the
exponents end.
-/

namespace StyleRules
namespace Double

/-- The distance between the neighbouring doubles around a whole number, and one
where every whole number is a double. -/
def spacing (value : Nat) : Nat :=
  Nat.pow 2 (value.log2 - 52)

/-- The double nearest to a whole number. -/
def round (value : Nat) : Nat :=
  let below := value / spacing value
  let rest := value % spacing value
  if 2 * rest < spacing value then below * spacing value
  else if spacing value < 2 * rest then (below + 1) * spacing value
  else if below % 2 = 0 then below * spacing value
  else (below + 1) * spacing value

/-- Is the double nearest to a whole number finite? -/
def isFinite (value : Nat) : Bool :=
  round value < Nat.pow 2 1024

/-- The distance between neighbouring doubles is positive. -/
theorem spacing_pos (value : Nat) :
    0 < spacing value :=
  Nat.two_pow_pos _

/-- Below two to the 53 every whole number is a double. -/
theorem spacing_of_lt
    {value : Nat}
    (small : value < Nat.pow 2 53) :
    spacing value = 1 := by
  have logSmall : value.log2 ≤ 52 := by
    by_cases isZero : value = 0
    · simp [isZero]
    · have := (Nat.log2_lt isZero).mpr small
      omega
  rw [spacing, show value.log2 - 52 = 0 by omega]

/-- A whole number below two to the 53 is not changed. -/
theorem round_of_lt
    {value : Nat}
    (small : value < Nat.pow 2 53) :
    round value = value := by
  simp [round, spacing_of_lt small, Nat.mod_one]

/-- Rounding moves a number by half the distance between neighbours at most. -/
theorem round_near (value : Nat) :
    2 * round value ≤ 2 * value + spacing value ∧
      2 * value ≤ 2 * round value + spacing value := by
  have division : spacing value * (value / spacing value) + value % spacing value = value :=
    Nat.div_add_mod value (spacing value)
  have restBelow : value % spacing value < spacing value :=
    Nat.mod_lt value (spacing_pos value)
  simp only [round, Nat.add_mul, Nat.one_mul, Nat.mul_comm (value / spacing value)]
  generalize spacing value * (value / spacing value) = floor at *
  generalize value % spacing value = rest at *
  generalize spacing value = unit at *
  split
  · omega
  · split
    · omega
    · split <;> omega

theorem spacing_le
    {value : Nat}
    (positive : value ≠ 0) :
    spacing value ≤ value :=
  calc
    spacing value ≤ 2 ^ value.log2 := Nat.pow_le_pow_right (by decide) (Nat.sub_le _ _)
    _ ≤ value := Nat.log2_self_le positive

/-- Rounding at most doubles a number. -/
theorem round_le (value : Nat) :
    round value ≤ 2 * value := by
  by_cases isZero : value = 0
  · rw [isZero]
    decide
  · have near := (round_near value).1
    have spacingSmall := spacing_le isZero
    omega

theorem isFinite_of_lt
    {value bits : Nat}
    (small : value < Nat.pow 2 bits)
    (room : bits < 1024) :
    isFinite value = true := by
  have rounded : round value < Nat.pow 2 (bits + 1) := by
    have doubled : Nat.pow 2 (bits + 1) = 2 * Nat.pow 2 bits := Nat.pow_succ'
    have atMostTwice := round_le value
    omega
  rw [isFinite, decide_eq_true_iff]
  -- The power is not to be computed.
  generalize 1024 = limit at room ⊢
  exact Nat.lt_of_lt_of_le rounded (Nat.pow_le_pow_right (by decide) room)

end Double
end StyleRules
