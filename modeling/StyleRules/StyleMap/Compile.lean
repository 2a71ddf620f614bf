import StyleRules.WithWarnings
import StyleRules.Parser.Rule
import StyleRules.StyleMap.Builder
import StyleRules.StyleMap.Builtin
import StyleRules.Text.Blank
import StyleRules.Text.Lines

/-!
# Compiling style maps

The text of a style map has one rule on a line.  Blank lines and lines whose
first character that is not blank is `#` say nothing.  A line that is no rule
either stops the compilation or is passed over with a warning.

The built-in rules, if they are wanted, come after those of the text.
-/

namespace StyleRules
namespace StyleMap

/-- What becomes of a line that is no rule. -/
inductive Strictness where
  /-- The compilation fails. -/
  | strict
  /-- The line is passed over with a warning. -/
  | lenient
  deriving DecidableEq, Repr

/-- How a text is compiled. -/
structure Options where
  includeBuiltin : Bool
  strictness : Strictness
  deriving DecidableEq, Repr

namespace Options

/-- The built-in rules are included, and a line that is no rule stops the
compilation. -/
def standard : Options :=
  ⟨true, .strict⟩

instance : Inhabited Options :=
  ⟨standard⟩

/-- The same options without the built-in rules. -/
def withoutBuiltin (options : Options) : Options :=
  { options with includeBuiltin := false }

/-- The same options, with lines that are no rules passed over. -/
def leniently (options : Options) : Options :=
  { options with strictness := .lenient }

end Options

/-- A line that is no rule: its number, counted from one, and what is wrong with
it. -/
structure InvalidRule where
  line : Nat
  error : ParseError
  deriving DecidableEq, Repr

/-- The wording of a line that is no rule. -/
def InvalidRule.message (invalid : InvalidRule) : String :=
  "Invalid style mapping: " ++ invalid.error.message

/-- A line of a text and its number, counted from one. -/
structure Line where
  number : Nat
  text : String
  deriving DecidableEq, Repr

namespace Line

/-- The lines of a text with their numbers. -/
def ofSource (source : String) : List Line :=
  (Text.lines source.toList).zipIdx.map fun (cs, index) => ⟨index + 1, String.ofList cs⟩

/-- Does the line hold a rule, rather than a comment or nothing? -/
def holdsRule (line : Line) : Bool :=
  match Text.trimChars line.text.toList with
  | [] => false
  | c :: _ => c != '#'

/-- Reads the rule on a line.  An error is reported for the line's number. -/
def parse (line : Line) : Except InvalidRule StyleRule :=
  match StyleRule.parse line.text with
  | .ok rule => .ok rule
  | .error error => .error ⟨line.number, error.atLine line.number⟩

/-- The warning that a line was passed over. -/
def warning (line : Line) (invalid : InvalidRule) : Warning where
  message :=
    "Did not understand this style mapping, so ignored it: " ++ Text.trim line.text ++
      "\n" ++ invalid.error.message

end Line

/-- The lines of a text that hold rules. -/
def ruleLines (source : String) : List Line :=
  (Line.ofSource source).filter Line.holdsRule

namespace Builder

/-- Registers the rules on the given lines. -/
def registerLines
    (strictness : Strictness) :
    List Line -> Builder -> Except InvalidRule (WithWarnings Builder)
  | [], builder => .ok (.ofValue builder)
  | line :: lines, builder =>
      match line.parse with
      | .ok rule => registerLines strictness lines (builder.register rule)
      | .error invalid =>
          match strictness with
          | .strict => .error invalid
          | .lenient => do
              let rest ← registerLines strictness lines builder
              return ⟨rest.value, line.warning invalid :: rest.warnings⟩

/-- Registers the rules of a text. -/
def registerSource
    (builder : Builder)
    (strictness : Strictness)
    (source : String) :
    Except InvalidRule (WithWarnings Builder) :=
  registerLines strictness (ruleLines source) builder

end Builder

/-- The style map of a text alone, in which every line has to be understood. -/
def parse (source : String) : Except InvalidRule StyleMap := do
  let registered ← Builder.empty.registerSource .strict source
  return registered.value.build

/-- The style map of a text. -/
def compile (options : Options) (source : String) : Except InvalidRule (WithWarnings StyleMap) := do
  let own ← Builder.empty.registerSource options.strictness source
  if options.includeBuiltin then
    let all ← own.value.registerSource .strict builtinText
    return ⟨all.value.build, own.warnings ++ all.warnings⟩
  else
    return own.map Builder.build

/-- The style map of a text alone, in which lines that are no rules are passed over. -/
def parseLeniently (source : String) : StyleMap :=
  match Builder.empty.registerSource .lenient source with
  | .ok registered => registered.value.build
  | .error _ => Builder.empty.build

/-- The style map of the built-in rules.  A line of them that were no rule would
be passed over. -/
def builtin : StyleMap :=
  parseLeniently builtinText

/-- Is every line of a text understood? -/
def validate (source : String) : Except InvalidRule Unit := do
  let _ ← parse source

end StyleMap
end StyleRules
