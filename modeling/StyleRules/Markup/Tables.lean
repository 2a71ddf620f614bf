import StyleRules.Document.Basic
import StyleRules.Text.Blank
import StyleRules.Text.Numeral

/-!
# Definitions that markup refers to

The styles of a document, for paragraphs and for characters apart, and the
levels of its lists.  A later definition of the same thing replaces an earlier
one; so definitions are kept with the latest first, and the first that fits is
found.
-/

namespace StyleRules
namespace Markup

/-- The styles of a document, the latest definitions first. -/
structure Styles where
  paragraphStyles : List Style
  characterStyles : List Style
  deriving DecidableEq

namespace Styles

/-- No styles. -/
def empty : Styles :=
  ⟨[], []⟩

instance : EmptyCollection Styles :=
  ⟨empty⟩

/-- Defines a style for paragraphs. -/
def defineParagraph (styles : Styles) (style : Style) : Styles :=
  { styles with paragraphStyles := style :: styles.paragraphStyles }

/-- Defines a style for characters. -/
def defineCharacter (styles : Styles) (style : Style) : Styles :=
  { styles with characterStyles := style :: styles.characterStyles }

/-- The style for paragraphs of an identifier. -/
def paragraph? (styles : Styles) (id : String) : Option Style :=
  styles.paragraphStyles.find? fun style => style.id == id

/-- The style for characters of an identifier. -/
def character? (styles : Styles) (id : String) : Option Style :=
  styles.characterStyles.find? fun style => style.id == id

end Styles

/-- A list level of a numbering. -/
structure LevelDefinition where
  numbering : String
  level : ListLevel
  deriving DecidableEq

/-- The list levels of a document, the latest definitions first. -/
structure Numbering where
  definitions : List LevelDefinition
  deriving DecidableEq

namespace Numbering

/-- No list levels. -/
def empty : Numbering :=
  ⟨[]⟩

instance : EmptyCollection Numbering :=
  ⟨empty⟩

/-- Defines a level of a numbering. -/
def define (numbering : Numbering) (id : String) (level : ListLevel) : Numbering :=
  ⟨⟨id, level⟩ :: numbering.definitions⟩

/-- The level of a numbering with the given index. -/
def find? (numbering : Numbering) (id : String) (index : UInt32) : Option ListLevel :=
  (numbering.definitions.find? fun definition =>
    definition.numbering == id && definition.level.index == index).map LevelDefinition.level

/-- The level of a numbering whose index is given as text.  Blanks around the
index do not matter; a text that is no index finds nothing. -/
def level? (numbering : Numbering) (id : String) (index : String) : Option ListLevel := do
  numbering.find? id (← Text.word? (Text.trim index))

end Numbering
end Markup
end StyleRules
