import StyleRules.Double

/-!
# JSON values

A JSON value as a text spells it.  Members of an object keep their order and may
repeat a name.  A string literal can name half of a surrogate pair; it is then
well-formed but denotes no text, and the value holds `none` in its place.
Numbers keep the difference between a plain natural number and any other
numeral, since only the former counts as one.
-/

namespace StyleRules

/-- A JSON number. -/
inductive JsonNumber where
  /-- A numeral without sign, fraction and exponent. -/
  | natural (value : Nat)
  /-- Any other numeral: its sign, its digits, and the power of ten by which
  they are scaled. -/
  | decimal (negative : Bool) (digits : Nat) (exponent : Int)
  deriving DecidableEq, Repr

/-- A JSON value. -/
inductive Json where
  | null
  | bool (value : Bool)
  | number (value : JsonNumber)
  | string (text : Option String)
  | array (items : List Json)
  | object (members : List (Option String × Json))
  deriving Repr, Inhabited

namespace JsonNumber

/-- The leading digits of a numeral as far as their value fits 64 bits, and how
many digits follow them. -/
def leadingDigits (digits : Nat) : Nat × Nat :=
  if digits < UInt64.size then (digits, 0)
  else
    let (leading, following) := leadingDigits (digits / 10)
    (leading, following + 1)
termination_by digits
decreasing_by
  simp only [UInt64.size] at *
  omega

/-- Are digits, scaled by a power of ten, finite as a double?  Only the leading
digits count.  They and the power of ten are rounded to doubles, and their
product is rounded once more; so the last few digits next to the greatest double
may tip the answer either way.  Powers of ten above the 308th are no doubles. -/
def isFiniteScaled (digits : Nat) (exponent : Int) : Bool :=
  let (leading, following) := leadingDigits digits
  if leading = 0 then true
  else
    match exponent + following with
    | .negSucc _ => true
    | .ofNat power =>
        if 308 < power then false
        else Double.isFinite (Double.round leading * Double.round (Nat.pow 10 power))

/-- Is the number finite as a double? -/
def isFinite : JsonNumber -> Bool
  | natural value => isFiniteScaled value 0
  | decimal _ digits exponent => isFiniteScaled digits exponent

/-- All digits count while their value fits 64 bits. -/
theorem leadingDigits_of_lt
    {digits : Nat}
    (fits : digits < UInt64.size) :
    leadingDigits digits = (digits, 0) := by
  rw [leadingDigits, if_pos fits]

/-- A natural number is finite while it fits 64 bits. -/
theorem isFinite_natural
    {value : Nat}
    (fits : value < UInt64.size) :
    (natural value).isFinite = true := by
  have isOne : Double.round (Nat.pow 10 0) = 1 := Double.round_of_lt (by decide)
  have rounded : Double.round value * Double.round (Nat.pow 10 0) < Nat.pow 2 65 := by
    have doubled := Double.round_le value
    have fits : value < Nat.pow 2 64 := fits
    have larger : Nat.pow 2 65 = 2 * Nat.pow 2 64 := rfl
    rw [isOne, Nat.mul_one]
    omega
  have unscaled : (0 : Int) + (0 : Nat) = .ofNat 0 := rfl
  rw [isFinite, isFiniteScaled, leadingDigits_of_lt fits]
  dsimp only
  rw [unscaled]
  split
  · rfl
  · exact (if_neg (by decide)).trans (Double.isFinite_of_lt rounded (by decide))

end JsonNumber

namespace Json

/-- A string that denotes the given text. -/
def text (value : String) : Json :=
  .string (some value)

/-- An object with the given members. -/
def ofMembers (members : List (String × Json)) : Json :=
  .object (members.map fun (name, value) => (some name, value))

/-- A natural number. -/
def natural (value : Nat) : Json :=
  .number (.natural value)

/-- A value, or null in its absence. -/
def ofOption (encode : α -> Json) : Option α -> Json
  | none => .null
  | some value => encode value

/-- A list of values. -/
def ofList (encode : α -> Json) (values : List α) : Json :=
  .array (values.map encode)

mutual

/-- The number of arrays and objects that enclose the innermost value. -/
def depth : Json -> Nat
  | .array items => depthOfItems items + 1
  | .object members => depthOfMembers members + 1
  | _ => 0

/-- The greatest depth among values. -/
def depthOfItems : List Json -> Nat
  | [] => 0
  | item :: items => max (depth item) (depthOfItems items)

/-- The greatest depth among the values of members. -/
def depthOfMembers : List (Option String × Json) -> Nat
  | [] => 0
  | (_, value) :: members => max (depth value) (depthOfMembers members)

end

mutual

/-- Does every string denote a text, and is every number finite? -/
def isPlain : Json -> Bool
  | .number value => value.isFinite
  | .string text => text.isSome
  | .array items => areItemsPlain items
  | .object members => areMembersPlain members
  | _ => true

/-- Are all values plain? -/
def areItemsPlain : List Json -> Bool
  | [] => true
  | item :: items => isPlain item && areItemsPlain items

/-- Are all names texts and all values plain? -/
def areMembersPlain : List (Option String × Json) -> Bool
  | [] => true
  | (name, value) :: members => name.isSome && isPlain value && areMembersPlain members

end

end Json
end StyleRules
