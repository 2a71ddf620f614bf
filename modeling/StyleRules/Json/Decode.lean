import StyleRules.Json.Basic

/-!
# Taking JSON values apart

Records are written as objects, or as arrays that hold the values of all fields
in order.  An object may have further members, but no field twice and no name
that denotes no text.  A choice is written as its name, or as an object with the
name as its only member.
-/

namespace StyleRules
namespace Json

/-- The text that a string denotes. -/
def text? : Json -> Option String
  | .string text => text
  | _ => none

/-- The truth value. -/
def bool? : Json -> Option Bool
  | .bool value => some value
  | _ => none

/-- The natural number. -/
def natural? : Json -> Option Nat
  | .number (.natural value) => some value
  | _ => none

/-- The number of 32 bits. -/
def word? (json : Json) : Option UInt32 := do
  let value ← natural? json
  if value < UInt32.size then some (UInt32.ofNat value) else none

/-- A value, or nothing for null. -/
def optional? (decode : Json -> Option α) : Json -> Option (Option α)
  | .null => some none
  | json => (decode json).map some

/-- The items of an array. -/
def items? (decode : Json -> Option α) : Json -> Option (List α)
  | .array items => items.mapM decode
  | _ => none

/-- The texts by name in an object. -/
def texts? : Json -> Option (List (String × String))
  | .object members => members.mapM fun (name, value) => do
      return (← name, ← text? value)
  | _ => none

/-- The value of a member, if the object has it, provided it does not have it
twice. -/
def member?
    (members : List (Option String × Json))
    (name : String) :
    Option (Option Json) :=
  match members.filter fun member => member.1 == some name with
  | [] => some none
  | [(_, value)] => some (some value)
  | _ => none

/-- The values of the named fields of an object, absent ones left out. -/
def memberValues?
    (names : List String)
    (members : List (Option String × Json)) :
    Option (List (Option Json)) :=
  if members.all fun member => member.1.isSome then names.mapM (member? members) else none

/-- The values of the named fields of a record.  An array has all of them. -/
def fields? (names : List String) : Json -> Option (List (Option Json))
  | .object members => memberValues? names members
  | .array items => if items.length = names.length then some (items.map some) else none
  | _ => none

/-- The values of the named fields of a record in which every field may be
absent.  An array lacks the last ones. -/
def looseFields? (names : List String) : Json -> Option (List (Option Json))
  | .object members => memberValues? names members
  | .array items =>
      if items.length ≤ names.length then
        some (items.map some ++ List.replicate (names.length - items.length) none)
      else none
  | _ => none

/-- The value of a field that has to be there. -/
def required (decode : Json -> Option α) (field : Option Json) : Option α :=
  field.bind decode

/-- The value of a field that may be absent or null. -/
def nullable (decode : Json -> Option α) : Option Json -> Option (Option α)
  | none => some none
  | some json => optional? decode json

/-- The value of a field that has a standard value. -/
def withDefault (standard : α) (decode : Json -> Option α) : Option Json -> Option α
  | none => some standard
  | some json => decode json

/-- The name of a choice, and its content if it is written as an object. -/
def choice? : Json -> Option (String × Option Json)
  | .string (some name) => some (name, none)
  | .object [(some name, content)] => some (name, some content)
  | _ => none

/-- Has the choice no content?  An object gives it as null. -/
def isBare : Option Json -> Bool
  | none => true
  | some .null => true
  | some _ => false

end Json
end StyleRules
