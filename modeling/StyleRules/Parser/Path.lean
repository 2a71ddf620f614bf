import StyleRules.Parser.Basic
import StyleRules.Path.Basic

/-!
# Parsing paths

A path is an exclamation mark, or elements that are separated by `>` with a blank
run on both sides, or nothing.  An element is a choice of tag names, classes and
an optional `:fresh`, without gaps.
-/

namespace StyleRules
namespace Parser

/-- One or more tag names, separated by bars. -/
def tagNames : Parser (List String) := do
  let first ← expectValue .identifier
  let others ← many (fun cursor => cursor.kind = .bar) do
    let _ ← advance
    expectValue .identifier
  return first :: others

/-- Class names, possibly none. -/
def classNames : Parser (List String) :=
  many (fun cursor => cursor.kind = .className) do
    return (← advance).value

/-- The word that makes an element fresh, if there is one. -/
def isFresh : Parser Bool := do
  if (← kind) = .colon then
    let _ ← advance
    expectLiteral .identifier "fresh"
    return true
  else
    return false

/-- One element of a path. -/
def pathElement : Parser PathElement := do
  let tagNames ← tagNames
  let classNames ← classNames
  let fresh ← isFresh
  return .ofNames tagNames classNames (!fresh)

/-- The sign between two elements and the element behind it. -/
def descendant : Parser PathElement := do
  let _ ← advance
  let _ ← advance
  let _ ← expect .blank
  pathElement

/-- Does the sign between two elements begin at the cursor? -/
def atDescendant (cursor : Cursor) : Bool :=
  cursor.kind = .blank && cursor.kindAt 1 = .greaterThan

/-- A path. -/
def path : Parser HtmlPath := do
  let kind ← kind
  if kind = .bang then
    let _ ← advance
    return .ignore
  else if kind = .identifier then
    let first ← pathElement
    let others ← many atDescendant descendant
    return .elements (first :: others)
  else
    return .elements []

end Parser

namespace HtmlPath

/-- Reads a text that is a path and nothing else. -/
def parse (source : String) : Except ParseError HtmlPath :=
  Parser.runOn source do
    let path ← Parser.path
    Parser.expectEnd
    return path

end HtmlPath
end StyleRules
