import StyleRules.Binary.Decoder
import StyleRules.StyleMap.Basic

/-!
# Style maps in binary

The binary form of a style map holds the values of its fields one behind the
other.  What follows the last one is not looked at.  Attributes are pairs of
texts; of several values for one name the last one counts.
-/

namespace StyleRules

open Binary

namespace ListLevel

/-- The bytes of a list level. -/
def encode (level : ListLevel) : List UInt8 :=
  encodeWord level.index ++ encodeBool level.ordered

/-- Reads a list level. -/
def decode : Decoder ListLevel := do
  return ⟨← word, ← bool⟩

end ListLevel

namespace ParagraphSelector

/-- The bytes of the clauses for paragraphs. -/
def encode (selector : ParagraphSelector) : List UInt8 :=
  encodeOption encodeText selector.styleId ++
    encodeOption encodeText selector.styleName ++
      encodeOption ListLevel.encode selector.level

/-- Reads the clauses for paragraphs. -/
def decode : Decoder ParagraphSelector := do
  return ⟨← option text, ← option text, ← option ListLevel.decode⟩

end ParagraphSelector

namespace RunSelector

/-- The bytes of the clauses for runs. -/
def encode (selector : RunSelector) : List UInt8 :=
  encodeOption encodeText selector.styleId ++ encodeOption encodeText selector.styleName

/-- Reads the clauses for runs. -/
def decode : Decoder RunSelector := do
  return ⟨← option text, ← option text⟩

end RunSelector

namespace Attributes

/-- The bytes of an entry. -/
def encodeEntry (entry : String × String) : List UInt8 :=
  encodeText entry.1 ++ encodeText entry.2

/-- The bytes of attributes. -/
def encode (attributes : Attributes) : List UInt8 :=
  encodeList encodeEntry attributes.entries

/-- Reads an entry. -/
def decodeEntry : Decoder (String × String) := do
  return (← text, ← text)

/-- Reads attributes. -/
def decode : Decoder Attributes := do
  return ofList (← list decodeEntry)

end Attributes

namespace PathElement

/-- The bytes of an element of a path. -/
def encode (element : PathElement) : List UInt8 :=
  encodeList encodeText element.tagNames ++ element.attributes.encode ++
    encodeBool element.collapsible

/-- Reads an element of a path. -/
def decode : Decoder PathElement := do
  return ⟨← list text, ← Attributes.decode, ← bool⟩

end PathElement

namespace HtmlPath

/-- The bytes of a path. -/
def encode : HtmlPath -> List UInt8
  | ignore => encodeNatural 4 0
  | elements steps => encodeNatural 4 1 ++ encodeList PathElement.encode steps

/-- Reads a path. -/
def decode : Decoder HtmlPath := do
  match ← natural 4 with
  | 0 => return ignore
  | 1 => return elements (← list PathElement.decode)
  | number => throw (.badChoice number 2)

end HtmlPath

namespace Rule

/-- The bytes of a rule. -/
def encode (encodeSelector : σ -> List UInt8) (rule : Rule σ) : List UInt8 :=
  encodeSelector rule.selector ++ rule.path.encode

/-- Reads a rule. -/
def decode (decodeSelector : Decoder σ) : Decoder (Rule σ) := do
  return ⟨← decodeSelector, ← HtmlPath.decode⟩

end Rule

namespace Toggles

/-- The bytes of a path for each toggle. -/
def encode (toggles : Toggles HtmlPath) : List UInt8 :=
  toggles.toList.flatMap HtmlPath.encode

/-- Reads a path for each toggle. -/
def decode : Decoder (Toggles HtmlPath) := do
  return ⟨← HtmlPath.decode, ← HtmlPath.decode, ← HtmlPath.decode, ← HtmlPath.decode,
    ← HtmlPath.decode⟩

end Toggles

namespace StyleMap

/-- The bytes of a style map. -/
def toBytes (map : StyleMap) : List UInt8 :=
  encodeList (Rule.encode ParagraphSelector.encode) map.paragraphRules ++
    encodeList (Rule.encode RunSelector.encode) map.runRules ++
      map.toggles.encode

/-- Reads a style map. -/
def decode : Decoder StyleMap := do
  return ⟨← list (Rule.decode ParagraphSelector.decode),
    ← list (Rule.decode RunSelector.decode), ← Toggles.decode⟩

/-- The style map at the front of bytes. -/
def ofBytes (bytes : List UInt8) : Except Fault StyleMap := do
  let (map, _) ← decode bytes
  return map

/-- The wording of bytes that hold no style map. -/
def serializationMessage (fault : Fault) : String :=
  "Serialization error: " ++ fault.message

end StyleMap
end StyleRules
