import StyleRules.Json.Printer
import StyleRules.Text.Numeral

/-!
# Reading JSON

Strict JSON: blanks are the space, the tab, the newline and the carriage return;
numerals have no leading zeros; strings hold no bare control characters and only
the standard escapes.  A text is one value with nothing but blanks around it.

The bound in the readers of values counts nested calls.  It is taken from the
length of the text, which every two calls shorten by at least one character.
-/

namespace StyleRules
namespace Json

/-- Is the character a blank between tokens? -/
def isSpace (c : Char) : Bool :=
  c = ' ' || c = '\x09' || c = '\x0a' || c = '\x0d'

/-- The text behind leading blanks. -/
def skipSpaces (cs : List Char) : List Char :=
  cs.dropWhile isSpace

/-- The value of a hexadecimal digit. -/
def hexValue? (c : Char) : Option Nat :=
  if c.isDigit then some (c.toNat - 48)
  else if 'a' ≤ c ∧ c ≤ 'f' then some (c.toNat - 87)
  else if 'A' ≤ c ∧ c ≤ 'F' then some (c.toNat - 55)
  else none

/-- The value of four hexadecimal digits. -/
def codeUnit? (first second third fourth : Char) : Option Nat := do
  let first ← hexValue? first
  let second ← hexValue? second
  let third ← hexValue? third
  let fourth ← hexValue? fourth
  return ((first * 16 + second) * 16 + third) * 16 + fourth

/-- The character of a one-letter escape. -/
def escaped? (c : Char) : Option Char :=
  if c = quote then some quote
  else if c = backslash then some backslash
  else if c = '/' then some '/'
  else if c = 'b' then some '\x08'
  else if c = 't' then some '\x09'
  else if c = 'n' then some '\x0a'
  else if c = 'f' then some '\x0c'
  else if c = 'r' then some '\x0d'
  else none

/-- A part of a string literal: a character, or a code unit by its number. -/
inductive StringPart where
  | char (c : Char)
  | unit (value : Nat)
  deriving DecidableEq, Repr

/-- The parts of a string literal behind its opening quote, and the text behind
its closing quote. -/
def stringParts : List Char -> Option (List StringPart × List Char)
  | [] => none
  | '\x5c' :: 'u' :: first :: second :: third :: fourth :: rest => do
      let value ← codeUnit? first second third fourth
      let (parts, after) ← stringParts rest
      return (.unit value :: parts, after)
  | '\x5c' :: letter :: rest => do
      let c ← escaped? letter
      let (parts, after) ← stringParts rest
      return (.char c :: parts, after)
  | c :: rest =>
      if c = quote then some ([], rest)
      else if c = backslash ∨ c.toNat < 0x20 then none
      else do
        let (parts, after) ← stringParts rest
        return (.char c :: parts, after)

/-- Is the code unit the first half of a surrogate pair? -/
def isHighSurrogate (value : Nat) : Bool :=
  0xD800 ≤ value && value < 0xDC00

/-- Is the code unit the second half of a surrogate pair? -/
def isLowSurrogate (value : Nat) : Bool :=
  0xDC00 ≤ value && value < 0xE000

/-- The characters that the parts denote, if all surrogates are paired. -/
def denote? : List StringPart -> Option (List Char)
  | [] => some []
  | .char c :: parts => (denote? parts).map (c :: ·)
  | .unit high :: .unit low :: parts =>
      if isHighSurrogate high then
        if isLowSurrogate low then
          (denote? parts).map
            (Char.ofNat (0x10000 + (high - 0xD800) * 0x400 + (low - 0xDC00)) :: ·)
        else none
      else if isLowSurrogate high then none
      else (denote? (.unit low :: parts)).map (Char.ofNat high :: ·)
  | .unit value :: parts =>
      if isHighSurrogate value || isLowSurrogate value then none
      else (denote? parts).map (Char.ofNat value :: ·)

/-- A string literal behind its opening quote. -/
def stringLiteral? (cs : List Char) : Option (Option String × List Char) := do
  let (parts, rest) ← stringParts cs
  return ((denote? parts).map String.ofList, rest)

/-- One or more leading digits. -/
def digits? (cs : List Char) : Option (List Char × List Char) :=
  match cs.takeWhile Char.isDigit with
  | [] => none
  | digits => some (digits, cs.dropWhile Char.isDigit)

/-- The digits of a fraction, possibly none. -/
def fraction? : List Char -> Option (List Char × List Char)
  | '.' :: rest => digits? rest
  | cs => some ([], cs)

/-- The digits of an exponent with their sign. -/
def signedDigits? : List Char -> Option (Int × List Char)
  | '-' :: rest => do
      let (digits, after) ← digits? rest
      return (-Int.ofNat (Text.digitsValue digits), after)
  | '+' :: rest => do
      let (digits, after) ← digits? rest
      return (Int.ofNat (Text.digitsValue digits), after)
  | cs => do
      let (digits, after) ← digits? cs
      return (Int.ofNat (Text.digitsValue digits), after)

/-- An exponent, if there is one. -/
def exponent? : List Char -> Option (Option Int × List Char)
  | [] => some (none, [])
  | c :: rest =>
      if c = 'e' ∨ c = 'E' then do
        let (value, after) ← signedDigits? rest
        return (some value, after)
      else some (none, c :: rest)

/-- Drops a minus sign.  Answers whether there was one. -/
def minus : List Char -> Bool × List Char
  | '-' :: rest => (true, rest)
  | cs => (false, cs)

/-- A numeral. -/
def number? (cs : List Char) : Option (JsonNumber × List Char) := do
  let (negative, unsigned) := minus cs
  let (whole, afterWhole) ← digits? unsigned
  if whole.head? = some '0' ∧ whole ≠ ['0'] then none
  else
    let (fraction, afterFraction) ← fraction? afterWhole
    let (exponent, rest) ← exponent? afterFraction
    if negative = false ∧ fraction = [] ∧ exponent = none then
      return (.natural (Text.digitsValue whole), rest)
    else
      return (.decimal negative (Text.digitsValue (whole ++ fraction))
        (exponent.getD 0 - fraction.length), rest)

/-- The text behind a colon and the blanks around it. -/
def afterColon? (cs : List Char) : Option (List Char) :=
  match skipSpaces cs with
  | ':' :: rest => some (skipSpaces rest)
  | _ => none

/-- The value of a word, if the text begins with the word. -/
def wordValue? (word : List Char) (value : Json) (cs : List Char) :
    Option (Json × List Char) :=
  if word.isPrefixOf cs then some (value, cs.drop word.length) else none

mutual

/-- The value at the beginning of a text, and the text behind it. -/
def readValue? : Nat -> List Char -> Option (Json × List Char)
  | 0, _ => none
  | _, [] => none
  | bound + 1, c :: rest =>
      if c = quote then do
        let (text, after) ← stringLiteral? rest
        return (.string text, after)
      else if c = '[' then
        match skipSpaces rest with
        | ']' :: after => some (.array [], after)
        | inner => do
            let (items, after) ← readItems? bound inner
            return (.array items, after)
      else if c = openBrace then
        match skipSpaces rest with
        | '\x7d' :: after => some (.object [], after)
        | inner => do
            let (members, after) ← readMembers? bound inner
            return (.object members, after)
      else if c = 'n' then wordValue? ['u', 'l', 'l'] .null rest
      else if c = 't' then wordValue? ['r', 'u', 'e'] (.bool true) rest
      else if c = 'f' then wordValue? ['a', 'l', 's', 'e'] (.bool false) rest
      else do
        let (value, after) ← number? (c :: rest)
        return (.number value, after)

/-- One or more values up to a closing bracket. -/
def readItems? : Nat -> List Char -> Option (List Json × List Char)
  | 0, _ => none
  | bound + 1, cs => do
      let (item, rest) ← readValue? bound cs
      match skipSpaces rest with
      | ']' :: after => return ([item], after)
      | ',' :: more => do
          let (items, after) ← readItems? bound (skipSpaces more)
          return (item :: items, after)
      | _ => none

/-- One or more members up to a closing brace. -/
def readMembers? : Nat -> List Char -> Option (List (Option String × Json) × List Char)
  | 0, _ => none
  | bound + 1, '\x22' :: rest => do
      let (name, afterName) ← stringLiteral? rest
      let valueText ← afterColon? afterName
      let (value, rest) ← readValue? bound valueText
      match skipSpaces rest with
      | '\x7d' :: after => return ([(name, value)], after)
      | ',' :: more => do
          let (members, after) ← readMembers? bound (skipSpaces more)
          return ((name, value) :: members, after)
      | _ => none
  | _ + 1, _ => none

end

/-- The value that a text spells. -/
def read? (text : String) : Option Json := do
  let (value, rest) ← readValue? (2 * text.toList.length + 1) (skipSpaces text.toList)
  if skipSpaces rest = [] then some value else none

/-- What a text spells, read by the given reader of values. -/
def readAs? (decode : Json -> Option α) (text : String) : Option α := do
  decode (← read? text)

/-- How deeply arrays and objects may be nested in a text, as far as they are
looked at. -/
def nestingLimit : Nat := 127

end Json
end StyleRules
