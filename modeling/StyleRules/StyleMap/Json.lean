import StyleRules.Document.Json
import StyleRules.Json.Reader
import StyleRules.StyleMap.Compile

/-!
# Style maps in JSON

The export of a style map is a record of its rules and toggles, and of their
parts in turn.  Options are read from JSON as well; a field that is absent has
its standard value.
-/

namespace StyleRules

namespace Attributes

/-- Attributes in JSON. -/
def toJson (attributes : Attributes) : Json :=
  .ofMembers (attributes.entries.map fun (name, value) => (name, .text value))

/-- Reads attributes.  The last value of a name counts. -/
def ofJson? (json : Json) : Option Attributes :=
  json.texts?.map ofList

end Attributes

namespace PathElement

/-- An element of a path in JSON. -/
def toJson (element : PathElement) : Json :=
  .ofMembers
    [("tag_names", .ofList .text element.tagNames),
      ("attributes", element.attributes.toJson),
      ("collapsible", .bool element.collapsible)]

/-- Reads an element of a path. -/
def ofJson? (json : Json) : Option PathElement := do
  match ← json.fields? ["tag_names", "attributes", "collapsible"] with
  | [tagNames, attributes, collapsible] =>
      let tagNames ← Json.required (Json.items? Json.text?) tagNames
      let attributes ← Json.required Attributes.ofJson? attributes
      let collapsible ← Json.required Json.bool? collapsible
      return ⟨tagNames, attributes, collapsible⟩
  | _ => none

end PathElement

namespace HtmlPath

/-- A path in JSON. -/
def toJson : HtmlPath -> Json
  | ignore => .text "Ignore"
  | elements steps => .ofMembers [("Elements", .ofList PathElement.toJson steps)]

/-- Reads a path. -/
def ofJson? (json : Json) : Option HtmlPath := do
  let (name, content) ← json.choice?
  if name = "Ignore" then
    if Json.isBare content then some ignore else none
  else if name = "Elements" then
    return elements (← Json.items? PathElement.ofJson? (← content))
  else none

end HtmlPath

namespace ParagraphSelector

/-- The clauses for paragraphs in JSON. -/
def toJson (selector : ParagraphSelector) : Json :=
  .ofMembers
    [("style_id", .ofOption .text selector.styleId),
      ("style_name", .ofOption .text selector.styleName),
      ("numbering", .ofOption ListLevel.toJson selector.level)]

/-- Reads the clauses for paragraphs. -/
def ofJson? (json : Json) : Option ParagraphSelector := do
  match ← json.fields? ["style_id", "style_name", "numbering"] with
  | [styleId, styleName, level] =>
      let styleId ← Json.nullable Json.text? styleId
      let styleName ← Json.nullable Json.text? styleName
      let level ← Json.nullable ListLevel.ofJson? level
      return ⟨styleId, styleName, level⟩
  | _ => none

end ParagraphSelector

namespace RunSelector

/-- The clauses for runs in JSON. -/
def toJson (selector : RunSelector) : Json :=
  .ofMembers
    [("style_id", .ofOption .text selector.styleId),
      ("style_name", .ofOption .text selector.styleName)]

/-- Reads the clauses for runs. -/
def ofJson? (json : Json) : Option RunSelector := do
  match ← json.fields? ["style_id", "style_name"] with
  | [styleId, styleName] =>
      let styleId ← Json.nullable Json.text? styleId
      let styleName ← Json.nullable Json.text? styleName
      return ⟨styleId, styleName⟩
  | _ => none

end RunSelector

namespace Toggle

/-- The name of a toggle in a selector. -/
def selectorName : Toggle -> String
  | bold => "Bold"
  | italic => "Italic"
  | underline => "Underline"
  | strikethrough => "Strikethrough"
  | commentReference => "CommentReference"

/-- The toggle of a name in a selector. -/
def ofSelectorName? (name : String) : Option Toggle :=
  [bold, italic, underline, strikethrough, commentReference].find? fun toggle =>
    toggle.selectorName == name

end Toggle

namespace Selector

/-- A selector in JSON. -/
def toJson : Selector -> Json
  | paragraph selector => .ofMembers [("Paragraph", selector.toJson)]
  | run selector => .ofMembers [("Run", selector.toJson)]
  | toggle formatting => .text formatting.selectorName

/-- Reads a selector. -/
def ofJson? (json : Json) : Option Selector := do
  let (name, content) ← json.choice?
  if name = "Paragraph" then
    return paragraph (← ParagraphSelector.ofJson? (← content))
  else if name = "Run" then
    return run (← RunSelector.ofJson? (← content))
  else
    let toggle ← Toggle.ofSelectorName? name
    if Json.isBare content then some (.toggle toggle) else none

end Selector

namespace Rule

/-- A rule in JSON. -/
def toJson (selectorToJson : σ -> Json) (rule : Rule σ) : Json :=
  .ofMembers [("matcher", selectorToJson rule.selector), ("path", rule.path.toJson)]

/-- Reads a rule. -/
def ofJson? (selectorOfJson? : Json -> Option σ) (json : Json) : Option (Rule σ) := do
  match ← json.fields? ["matcher", "path"] with
  | [selector, path] =>
      return ⟨← Json.required selectorOfJson? selector, ← Json.required HtmlPath.ofJson? path⟩
  | _ => none

end Rule

namespace StyleMap

/-- A style map in JSON. -/
def toJson (map : StyleMap) : Json :=
  .ofMembers
    [("paragraph_rules", .ofList (Rule.toJson ParagraphSelector.toJson) map.paragraphRules),
      ("run_rules", .ofList (Rule.toJson RunSelector.toJson) map.runRules),
      ("bold", map.toggles.bold.toJson),
      ("italic", map.toggles.italic.toJson),
      ("underline", map.toggles.underline.toJson),
      ("strikethrough", map.toggles.strikethrough.toJson),
      ("comment_reference", map.toggles.commentReference.toJson)]

/-- Reads a style map. -/
def ofJson? (json : Json) : Option StyleMap := do
  match ← json.fields? ["paragraph_rules", "run_rules", "bold", "italic", "underline",
      "strikethrough", "comment_reference"] with
  | [paragraphRules, runRules, bold, italic, underline, strikethrough, commentReference] =>
      let paragraphRules ←
        Json.required (Json.items? (Rule.ofJson? ParagraphSelector.ofJson?)) paragraphRules
      let runRules ← Json.required (Json.items? (Rule.ofJson? RunSelector.ofJson?)) runRules
      let bold ← Json.required HtmlPath.ofJson? bold
      let italic ← Json.required HtmlPath.ofJson? italic
      let underline ← Json.required HtmlPath.ofJson? underline
      let strikethrough ← Json.required HtmlPath.ofJson? strikethrough
      let commentReference ← Json.required HtmlPath.ofJson? commentReference
      return ⟨paragraphRules, runRules,
        ⟨bold, italic, underline, strikethrough, commentReference⟩⟩
  | _ => none

/-- The text of the export of a style map. -/
def jsonText (map : StyleMap) : String :=
  map.toJson.print

/-- Reads the text of an export. -/
def ofJsonText? : String -> Option StyleMap :=
  Json.readAs? ofJson?

namespace Strictness

/-- The name of a strictness. -/
def name : Strictness -> String
  | strict => "abort"
  | lenient => "skip"

/-- Reads a strictness. -/
def ofJson? (json : Json) : Option Strictness := do
  let (name, content) ← json.choice?
  if Json.isBare content then
    if name = "abort" then some strict
    else if name = "skip" then some lenient
    else none
  else none

end Strictness

namespace Options

/-- Options in JSON. -/
def toJson (options : Options) : Json :=
  .ofMembers
    [("include_default_style_map", .bool options.includeBuiltin),
      ("on_invalid_rule", .text options.strictness.name)]

/-- Reads options.  A field that is absent has its standard value. -/
def ofJson? (json : Json) : Option Options := do
  match ← json.looseFields? ["include_default_style_map", "on_invalid_rule"] with
  | [includeBuiltin, strictness] =>
      let includeBuiltin ← Json.withDefault standard.includeBuiltin Json.bool? includeBuiltin
      let strictness ←
        Json.withDefault standard.strictness Strictness.ofJson? strictness
      return ⟨includeBuiltin, strictness⟩
  | _ => none

/-- Reads the text of options. -/
def ofJsonText? : String -> Option Options :=
  Json.readAs? ofJson?

end Options
end StyleMap
end StyleRules
