import StyleRules.Parser.Path
import StyleRules.Parser.Selector
import StyleRules.Rule

/-!
# Parsing rules

A rule is a selector, an arrow and a path.  Blank runs may stand before the
selector, around the arrow and behind the path.
-/

namespace StyleRules
namespace Parser

/-- A rule, up to the end of the input. -/
def rule : Parser StyleRule := do
  skipBlank
  let selector ← selector
  skipBlank
  let _ ← expect .arrow
  skipBlank
  let path ← path
  skipBlank
  expectEnd
  return ⟨selector, path⟩

end Parser

/-- Reads the text of one rule. -/
def StyleRule.parse (source : String) : Except ParseError StyleRule :=
  Parser.runOn source Parser.rule

end StyleRules
