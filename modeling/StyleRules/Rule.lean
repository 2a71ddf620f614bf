import StyleRules.Path.Basic
import StyleRules.Selector.Basic

/-!
# Rules

A rule sends what a selector chooses to a path.
-/

namespace StyleRules

/-- A selector of some kind and the path for what it chooses. -/
structure Rule (σ : Type) where
  selector : σ
  path : HtmlPath
  deriving DecidableEq

/-- A rule as it is written on one line. -/
abbrev StyleRule := Rule Selector

end StyleRules
