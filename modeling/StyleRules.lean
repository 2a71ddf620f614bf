import StyleRules.Markup.Json
import StyleRules.Markup.Reader
import StyleRules.Proofs.Grammar.Basic
import StyleRules.Proofs.Parser.Runs
import StyleRules.Proofs.Token.Coverage
import StyleRules.Proofs.Token.Separation
import StyleRules.StyleMap.Binary
import StyleRules.Proofs.Grammar.Paths
import StyleRules.Proofs.Grammar.Selectors
import StyleRules.Proofs.Grammar.Rules
import StyleRules.Proofs.Grammar.Writing
import StyleRules.Proofs.Grammar.Reading
import StyleRules.Proofs.Grammar.Due
import StyleRules.Proofs.Parser.Errors
import StyleRules.Proofs.StyleMap.WellFormed
import StyleRules.Proofs.StyleMap.Spelling
import StyleRules.Proofs.Attributes.Order
import StyleRules.Proofs.Binary.Exactness
import StyleRules.Proofs.StyleMap.Saving
import StyleRules.Proofs.Document.Preorder
import StyleRules.Proofs.Markup.Readings
import StyleRules.Proofs.Markup.Outline
import StyleRules.Proofs.Markup.References
import StyleRules.Proofs.StyleMap.Builtin
import StyleRules.Proofs.StyleMap.Strictness
import StyleRules.Proofs.StyleMap.Registering
import StyleRules.Proofs.StyleMap.Concatenation
import StyleRules.Proofs.StyleMap.Fallback
import StyleRules.Proofs.StyleMap.Location
import StyleRules.Proofs.Json.Layout
import StyleRules.Proofs.Json.Records
import StyleRules.Proofs.StyleMap.Exporting
import StyleRules.Proofs.StyleMap.Precedence
import StyleRules.Proofs.Token.LexicalGrammar
import StyleRules.Proofs.Markup.Writing
import StyleRules.Proofs.Grammar.Levels
import StyleRules.Proofs.Markup.Levels
import StyleRules.Proofs.Markup.Pruning
import StyleRules.Proofs.Markup.Repair
import StyleRules.Proofs.Binary.Canonicity
import StyleRules.Proofs.StyleMap.Loading
import StyleRules.Proofs.Parser.Places
import StyleRules.Proofs.Text.Trimming
import StyleRules.Proofs.Grammar.Indentation
import StyleRules.Proofs.StyleMap.Trimming
import StyleRules.Proofs.Grammar.StandalonePaths
import StyleRules.Proofs.StyleMap.Reordering
import StyleRules.Proofs.Token.Closing
import StyleRules.Proofs.Parser.Steps
import StyleRules.Proofs.StyleMap.Tags
import StyleRules.Proofs.Grammar.LongestSpellings
import StyleRules.Proofs.Document.Exporting
