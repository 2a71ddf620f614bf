import StyleRules.Parser.Basic
import StyleRules.Selector.Basic
import StyleRules.Text.Numeral

/-!
# Parsing selectors

A selector is a word for a toggle, or `p` or `r` followed by its clauses without
gaps: a style identifier as a class name, a style name in brackets and, for
paragraphs, a list level.  Levels are written from one and kept from zero.
-/

namespace StyleRules
namespace Parser

/-- The text between the quotes of a quoted string. -/
def unquoted (value : String) : String :=
  String.ofList value.toList.tail.dropLast

/-- A style identifier, if there is one. -/
def styleId : Parser (Option String) := do
  if (← kind) = .className then
    return some (← advance).value
  else
    return none

/-- A style name in brackets, if there is one. -/
def styleName : Parser (Option String) := do
  if (← kind) = .openBracket then
    let _ ← advance
    expectLiteral .identifier "style-name"
    let _ ← expect .equals
    let value ← expectValue .quoted
    let _ ← expect .closeBracket
    return some (unquoted value)
  else
    return none

/-- A word for a type of list.  Answers whether the list is ordered. -/
def listType : Parser Bool := do
  let word ← expect .identifier
  if word.value = "ordered-list" then
    return true
  else if word.value = "unordered-list" then
    return false
  else
    failAt word .unknownListType

/-- The index of a list level from its numeral, which counts from one. -/
def levelIndex (numeral : Token) : Parser UInt32 :=
  match Text.word? numeral.value with
  | none => failAt numeral .levelTooLarge
  | some level =>
      if level = 0 then failAt numeral .levelZero else pure (level - 1)

/-- A list level, if there is one. -/
def listLevel : Parser (Option ListLevel) := do
  if (← kind) = .colon then
    let _ ← advance
    let ordered ← listType
    let _ ← expect .openParen
    let numeral ← expect .integer
    let index ← levelIndex numeral
    let _ ← expect .closeParen
    return some ⟨index, ordered⟩
  else
    return none

/-- The clauses of a selector for paragraphs. -/
def paragraphSelector : Parser ParagraphSelector := do
  let styleId ← styleId
  let styleName ← styleName
  let level ← listLevel
  return ⟨styleId, styleName, level⟩

/-- The clauses of a selector for runs. -/
def runSelector : Parser RunSelector := do
  let styleId ← styleId
  let styleName ← styleName
  return ⟨styleId, styleName⟩

/-- The toggle that a word stands for. -/
def toggle? (word : String) : Option Toggle :=
  if word = "b" then some .bold
  else if word = "i" then some .italic
  else if word = "u" then some .underline
  else if word = "strike" then some .strikethrough
  else if word = "comment-reference" then some .commentReference
  else none

/-- A selector. -/
def selector : Parser Selector := do
  let word ← expect .identifier
  if word.value = "p" then
    return .paragraph (← paragraphSelector)
  else if word.value = "r" then
    return .run (← runSelector)
  else
    match toggle? word.value with
    | some toggle => return .toggle toggle
    | none => failAt word .unknownElement

end Parser
end StyleRules
