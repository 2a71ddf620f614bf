import StyleRules.Proofs.Token.Shape
import StyleRules.Rule
import StyleRules.Text.Numeral
import StyleRules.Token.Basic

/-!
# The grammar of rules

The grammar says which sequences spell a rule, a selector or a path, and what
they spell.  It is stated once, over an alphabet that says how the letters of the
grammar (identifiers, marks, blank runs and so on) are written.  There are two
alphabets: in one a letter is a single token, whatever its place, and in the
other one it is a run of characters.

A spelling in one alphabet carries over to another one when its letters do
(`SpellsRule.carry`).
-/

namespace StyleRules

/-- The word in a rule that stands for a toggle. -/
def Toggle.word : Toggle -> String
  | .bold => "b"
  | .italic => "i"
  | .underline => "u"
  | .strikethrough => "strike"
  | .commentReference => "comment-reference"

/-- The word in a rule that stands for a type of list. -/
def listWord (ordered : Bool) : String :=
  if ordered then "ordered-list" else "unordered-list"

theorem isIdentifier_listWord (ordered : Bool) :
    Lexeme.IsIdentifier (listWord ordered).toList := by
  cases ordered <;> decide +kernel

/-- How the letters of the grammar are written. -/
structure Alphabet (σ : Type) where
  /-- An identifier, which names a tag or is a keyword. -/
  identifier : String -> List σ -> Prop
  /-- A dot and an identifier. -/
  className : String -> List σ -> Prop
  /-- A text between quotes. -/
  quoted : String -> List σ -> Prop
  /-- The numeral of a list level, which counts from one. -/
  level : UInt32 -> List σ -> Prop
  /-- A token that is always written in the same way. -/
  mark : TokenKind -> List σ -> Prop
  /-- A run of blanks. -/
  blank : List σ -> Prop

namespace Grammar

variable (letters : Alphabet σ)

/-- A blank run or nothing. -/
def SpellsGap (text : List σ) : Prop :=
  text = [] ∨ letters.blank text

/-- A style identifier, if there is one. -/
inductive SpellsStyleId : Option String -> List σ -> Prop
  | absent : SpellsStyleId none []
  | present {name text} : letters.className name text -> SpellsStyleId (some name) text

/-- A style name in brackets, if there is one. -/
inductive SpellsStyleName : Option String -> List σ -> Prop
  | absent : SpellsStyleName none []
  | present {name opening keyword equals quoted closing} :
      letters.mark .openBracket opening ->
      letters.identifier "style-name" keyword ->
      letters.mark .equals equals ->
      letters.quoted name quoted ->
      letters.mark .closeBracket closing ->
      SpellsStyleName (some name) (opening ++ (keyword ++ (equals ++ (quoted ++ closing))))

/-- A list level, if there is one. -/
inductive SpellsLevel : Option ListLevel -> List σ -> Prop
  | absent : SpellsLevel none []
  | present {index ordered colon keyword opening numeral closing} :
      letters.mark .colon colon ->
      letters.identifier (listWord ordered) keyword ->
      letters.mark .openParen opening ->
      letters.level index numeral ->
      letters.mark .closeParen closing ->
      SpellsLevel (some ⟨index, ordered⟩)
        (colon ++ (keyword ++ (opening ++ (numeral ++ closing))))

/-- A selector. -/
inductive SpellsSelector : Selector -> List σ -> Prop
  | toggle {toggle text} :
      letters.identifier toggle.word text -> SpellsSelector (.toggle toggle) text
  | run {styleId styleName keyword idText nameText} :
      letters.identifier "r" keyword ->
      SpellsStyleId letters styleId idText ->
      SpellsStyleName letters styleName nameText ->
      SpellsSelector (.run ⟨styleId, styleName⟩) (keyword ++ (idText ++ nameText))
  | paragraph {styleId styleName level keyword idText nameText levelText} :
      letters.identifier "p" keyword ->
      SpellsStyleId letters styleId idText ->
      SpellsStyleName letters styleName nameText ->
      SpellsLevel letters level levelText ->
      SpellsSelector (.paragraph ⟨styleId, styleName, level⟩)
        (keyword ++ (idText ++ (nameText ++ levelText)))

/-- One or more tag names, separated by bars. -/
inductive SpellsTagNames : List String -> List σ -> Prop
  | single {name text} : letters.identifier name text -> SpellsTagNames [name] text
  | more {name names text bar rest} :
      letters.identifier name text ->
      letters.mark .bar bar ->
      SpellsTagNames names rest ->
      SpellsTagNames (name :: names) (text ++ (bar ++ rest))

/-- Class names, possibly none. -/
inductive SpellsClassNames : List String -> List σ -> Prop
  | none : SpellsClassNames [] []
  | more {name names text rest} :
      letters.className name text ->
      SpellsClassNames names rest ->
      SpellsClassNames (name :: names) (text ++ rest)

/-- The end of an element: nothing for a collapsible one, `:fresh` for others. -/
inductive SpellsFreshness : Bool -> List σ -> Prop
  | collapsible : SpellsFreshness true []
  | fresh {colon keyword} :
      letters.mark .colon colon ->
      letters.identifier "fresh" keyword ->
      SpellsFreshness false (colon ++ keyword)

/-- One element of a path. -/
inductive SpellsElement : PathElement -> List σ -> Prop
  | intro {tagNames classNames collapsible tagText classText freshText} :
      SpellsTagNames letters tagNames tagText ->
      SpellsClassNames letters classNames classText ->
      SpellsFreshness letters collapsible freshText ->
      SpellsElement (.ofNames tagNames classNames collapsible)
        (tagText ++ (classText ++ freshText))

/-- One or more elements, separated by `>` with a blank run on both sides. -/
inductive SpellsSteps : List PathElement -> List σ -> Prop
  | single {element text} : SpellsElement letters element text -> SpellsSteps [element] text
  | more {element steps text before sign behind rest} :
      SpellsElement letters element text ->
      letters.blank before ->
      letters.mark .greaterThan sign ->
      letters.blank behind ->
      SpellsSteps steps rest ->
      SpellsSteps (element :: steps) (text ++ (before ++ (sign ++ (behind ++ rest))))

/-- A path. -/
inductive SpellsPath : HtmlPath -> List σ -> Prop
  | ignore {text} : letters.mark .bang text -> SpellsPath .ignore text
  | nothing : SpellsPath (.elements []) []
  | elements {steps text} : SpellsSteps letters steps text -> SpellsPath (.elements steps) text

/-- A rule. -/
inductive SpellsRule : StyleRule -> List σ -> Prop
  | intro {selector path lead selectorText before arrow behind pathText trail} :
      SpellsGap letters lead ->
      SpellsSelector letters selector selectorText ->
      SpellsGap letters before ->
      letters.mark .arrow arrow ->
      SpellsGap letters behind ->
      SpellsPath letters path pathText ->
      SpellsGap letters trail ->
      SpellsRule ⟨selector, path⟩
        (lead ++ (selectorText ++ (before ++ (arrow ++ (behind ++ (pathText ++ trail))))))

end Grammar

namespace Alphabet

/-- Letters as single tokens.  Of a mark and of a blank run only the kind
counts. -/
def tokens : Alphabet Token where
  identifier name text := ∃ token, text = [token] ∧ token.kind = .identifier ∧ token.value = name
  className name text := ∃ token, text = [token] ∧ token.kind = .className ∧ token.value = name
  quoted name text := ∃ token,
    text = [token] ∧ token.kind = .quoted ∧ token.value.toList.tail.dropLast = name.toList
  level index text := ∃ token level,
    text = [token] ∧ token.kind = .integer ∧ Text.word? token.value = some level ∧
      level ≠ 0 ∧ level - 1 = index
  mark kind text := ∃ token, text = [token] ∧ token.kind = kind
  blank text := ∃ token, text = [token] ∧ token.kind = .blank

/-- Letters as runs of characters. -/
def characters : Alphabet Char where
  identifier name text := text = name.toList ∧ Lexeme.IsIdentifier name.toList
  className name text := text = '.' :: name.toList ∧ Lexeme.IsIdentifier name.toList
  quoted name text :=
    text = Lexeme.quote :: (name.toList ++ [Lexeme.quote]) ∧ Lexeme.quote ∉ name.toList
  level index text :=
    text ≠ [] ∧ (∀ c ∈ text, c.isDigit = true) ∧
      Text.digitsValue text = index.toNat + 1 ∧ index.toNat + 1 < UInt32.size
  mark kind text := text = kind.mark
  blank text := text ≠ [] ∧ ∀ c ∈ text, Text.isBlank c = true

/-- Every letter of the first alphabet that is written with genuine signs only
is, sign by sign, a letter of the second one. -/
structure Carries
    (letters : Alphabet σ)
    (others : Alphabet τ)
    (genuine : σ -> Prop)
    (write : σ -> List τ) :
    Prop where
  identifier {name text} :
    (∀ sign ∈ text, genuine sign) -> letters.identifier name text ->
      others.identifier name (text.flatMap write)
  className {name text} :
    (∀ sign ∈ text, genuine sign) -> letters.className name text ->
      others.className name (text.flatMap write)
  quoted {name text} :
    (∀ sign ∈ text, genuine sign) -> letters.quoted name text ->
      others.quoted name (text.flatMap write)
  level {index text} :
    (∀ sign ∈ text, genuine sign) -> letters.level index text ->
      others.level index (text.flatMap write)
  mark {kind text} :
    (∀ sign ∈ text, genuine sign) -> kind.mark ≠ [] -> letters.mark kind text ->
      others.mark kind (text.flatMap write)
  blank {text} :
    (∀ sign ∈ text, genuine sign) -> letters.blank text -> others.blank (text.flatMap write)

end Alphabet

namespace Grammar

variable
  {letters : Alphabet σ}
  {others : Alphabet τ}
  {genuine : σ -> Prop}
  {write : σ -> List τ}

theorem SpellsGap.carry
    (carries : letters.Carries others genuine write)
    {text : List σ}
    (allGenuine : ∀ sign ∈ text, genuine sign)
    (spells : SpellsGap letters text) :
    SpellsGap others (text.flatMap write) := by
  rcases spells with rfl | blank
  · exact .inl rfl
  · exact .inr (carries.blank allGenuine blank)

theorem SpellsStyleId.carry
    (carries : letters.Carries others genuine write)
    {styleId : Option String}
    {text : List σ}
    (allGenuine : ∀ sign ∈ text, genuine sign)
    (spells : SpellsStyleId letters styleId text) :
    SpellsStyleId others styleId (text.flatMap write) := by
  cases spells with
  | absent => exact .absent
  | present name => exact .present (carries.className allGenuine name)

theorem SpellsStyleName.carry
    (carries : letters.Carries others genuine write)
    {styleName : Option String}
    {text : List σ}
    (allGenuine : ∀ sign ∈ text, genuine sign)
    (spells : SpellsStyleName letters styleName text) :
    SpellsStyleName others styleName (text.flatMap write) := by
  cases spells with
  | absent => exact .absent
  | present opening keyword equals quoted closing =>
      simp only [List.forall_mem_append] at allGenuine
      obtain ⟨inOpening, inKeyword, inEquals, inQuoted, inClosing⟩ := allGenuine
      simp only [List.flatMap_append]
      exact .present (carries.mark inOpening (by decide) opening)
        (carries.identifier inKeyword keyword)
        (carries.mark inEquals (by decide) equals)
        (carries.quoted inQuoted quoted)
        (carries.mark inClosing (by decide) closing)

theorem SpellsLevel.carry
    (carries : letters.Carries others genuine write)
    {level : Option ListLevel}
    {text : List σ}
    (allGenuine : ∀ sign ∈ text, genuine sign)
    (spells : SpellsLevel letters level text) :
    SpellsLevel others level (text.flatMap write) := by
  cases spells with
  | absent => exact .absent
  | present colon keyword opening numeral closing =>
      simp only [List.forall_mem_append] at allGenuine
      obtain ⟨inColon, inKeyword, inOpening, inNumeral, inClosing⟩ := allGenuine
      simp only [List.flatMap_append]
      exact .present (carries.mark inColon (by decide) colon)
        (carries.identifier inKeyword keyword)
        (carries.mark inOpening (by decide) opening)
        (carries.level inNumeral numeral)
        (carries.mark inClosing (by decide) closing)

theorem SpellsSelector.carry
    (carries : letters.Carries others genuine write)
    {selector : Selector}
    {text : List σ}
    (allGenuine : ∀ sign ∈ text, genuine sign)
    (spells : SpellsSelector letters selector text) :
    SpellsSelector others selector (text.flatMap write) := by
  cases spells with
  | toggle keyword => exact .toggle (carries.identifier allGenuine keyword)
  | run keyword styleId styleName =>
      simp only [List.forall_mem_append] at allGenuine
      obtain ⟨inKeyword, inId, inName⟩ := allGenuine
      simp only [List.flatMap_append]
      exact .run (carries.identifier inKeyword keyword) (styleId.carry carries inId)
        (styleName.carry carries inName)
  | paragraph keyword styleId styleName level =>
      simp only [List.forall_mem_append] at allGenuine
      obtain ⟨inKeyword, inId, inName, inLevel⟩ := allGenuine
      simp only [List.flatMap_append]
      exact .paragraph (carries.identifier inKeyword keyword) (styleId.carry carries inId)
        (styleName.carry carries inName) (level.carry carries inLevel)

theorem SpellsTagNames.carry
    (carries : letters.Carries others genuine write)
    {names : List String}
    {text : List σ}
    (allGenuine : ∀ sign ∈ text, genuine sign)
    (spells : SpellsTagNames letters names text) :
    SpellsTagNames others names (text.flatMap write) := by
  induction spells with
  | single name => exact .single (carries.identifier allGenuine name)
  | more name bar _ inductionHypothesis =>
      simp only [List.forall_mem_append] at allGenuine
      obtain ⟨inName, inBar, inRest⟩ := allGenuine
      simp only [List.flatMap_append]
      exact .more (carries.identifier inName name) (carries.mark inBar (by decide) bar)
        (inductionHypothesis inRest)

theorem SpellsClassNames.carry
    (carries : letters.Carries others genuine write)
    {names : List String}
    {text : List σ}
    (allGenuine : ∀ sign ∈ text, genuine sign)
    (spells : SpellsClassNames letters names text) :
    SpellsClassNames others names (text.flatMap write) := by
  induction spells with
  | none => exact .none
  | more name _ inductionHypothesis =>
      simp only [List.forall_mem_append] at allGenuine
      obtain ⟨inName, inRest⟩ := allGenuine
      simp only [List.flatMap_append]
      exact .more (carries.className inName name) (inductionHypothesis inRest)

theorem SpellsFreshness.carry
    (carries : letters.Carries others genuine write)
    {collapsible : Bool}
    {text : List σ}
    (allGenuine : ∀ sign ∈ text, genuine sign)
    (spells : SpellsFreshness letters collapsible text) :
    SpellsFreshness others collapsible (text.flatMap write) := by
  cases spells with
  | collapsible => exact .collapsible
  | fresh colon keyword =>
      simp only [List.forall_mem_append] at allGenuine
      obtain ⟨inColon, inKeyword⟩ := allGenuine
      simp only [List.flatMap_append]
      exact .fresh (carries.mark inColon (by decide) colon) (carries.identifier inKeyword keyword)

theorem SpellsElement.carry
    (carries : letters.Carries others genuine write)
    {element : PathElement}
    {text : List σ}
    (allGenuine : ∀ sign ∈ text, genuine sign)
    (spells : SpellsElement letters element text) :
    SpellsElement others element (text.flatMap write) := by
  cases spells with
  | intro tagNames classNames freshness =>
      simp only [List.forall_mem_append] at allGenuine
      obtain ⟨inTags, inClasses, inFreshness⟩ := allGenuine
      simp only [List.flatMap_append]
      exact .intro (tagNames.carry carries inTags) (classNames.carry carries inClasses)
        (freshness.carry carries inFreshness)

theorem SpellsSteps.carry
    (carries : letters.Carries others genuine write)
    {steps : List PathElement}
    {text : List σ}
    (allGenuine : ∀ sign ∈ text, genuine sign)
    (spells : SpellsSteps letters steps text) :
    SpellsSteps others steps (text.flatMap write) := by
  induction spells with
  | single element => exact .single (element.carry carries allGenuine)
  | more element before sign behind _ inductionHypothesis =>
      simp only [List.forall_mem_append] at allGenuine
      obtain ⟨inElement, inBefore, inSign, inBehind, inRest⟩ := allGenuine
      simp only [List.flatMap_append]
      exact .more (element.carry carries inElement) (carries.blank inBefore before)
        (carries.mark inSign (by decide) sign) (carries.blank inBehind behind)
        (inductionHypothesis inRest)

theorem SpellsPath.carry
    (carries : letters.Carries others genuine write)
    {path : HtmlPath}
    {text : List σ}
    (allGenuine : ∀ sign ∈ text, genuine sign)
    (spells : SpellsPath letters path text) :
    SpellsPath others path (text.flatMap write) := by
  cases spells with
  | ignore bang => exact .ignore (carries.mark allGenuine (by decide) bang)
  | nothing => exact .nothing
  | elements steps => exact .elements (steps.carry carries allGenuine)

/-- A rule that is spelled with genuine signs is spelled by what they write. -/
theorem SpellsRule.carry
    (carries : letters.Carries others genuine write)
    {rule : StyleRule}
    {text : List σ}
    (allGenuine : ∀ sign ∈ text, genuine sign)
    (spells : SpellsRule letters rule text) :
    SpellsRule others rule (text.flatMap write) := by
  cases spells with
  | intro lead selector before arrow behind path trail =>
      simp only [List.forall_mem_append] at allGenuine
      obtain ⟨inLead, inSelector, inBefore, inArrow, inBehind, inPath, inTrail⟩ := allGenuine
      simp only [List.flatMap_append]
      exact .intro (lead.carry carries inLead) (selector.carry carries inSelector)
        (before.carry carries inBefore) (carries.mark inArrow (by decide) arrow)
        (behind.carry carries inBehind) (path.carry carries inPath)
        (trail.carry carries inTrail)

end Grammar
end StyleRules
