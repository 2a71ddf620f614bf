import StyleRules.Text.Ranges

/-!
# Blank characters

The characters with the property White_Space, and the trimming of text at both
ends by that property.
-/

namespace StyleRules
namespace Text

/-- The ranges of the property White_Space. -/
def blankRanges : CodeRanges :=
  [(0x9, 0xD), (0x20, 0x20), (0x85, 0x85), (0xA0, 0xA0), (0x1680, 0x1680), (0x2000, 0x200A),
    (0x2028, 0x2029), (0x202F, 0x202F), (0x205F, 0x205F), (0x3000, 0x3000)]

/-- Has the character the property White_Space? -/
def isBlank (c : Char) : Bool :=
  blankRanges.contains c.toNat

/-- The ranges of blanks ascend, so that the lookup stops at the right place. -/
theorem blankRanges_ascending :
    blankRanges.ascendingAbove 0 = true := by
  decide +kernel

/-- The characters without the blanks before the first and after the last
character that is not blank. -/
def trimChars (cs : List Char) : List Char :=
  ((cs.dropWhile isBlank).reverse.dropWhile isBlank).reverse

/-- The text without the blanks at both ends. -/
def trim (text : String) : String :=
  String.ofList (trimChars text.toList)

@[simp]
theorem toList_trim (text : String) :
    (trim text).toList = trimChars text.toList := by
  simp [trim]

@[simp]
theorem trimChars_nil :
    trimChars [] = [] :=
  rfl

end Text
end StyleRules
