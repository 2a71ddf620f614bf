import StyleRules.Parser.Rule

/-!
# Parsers over positions

The same parsers once more, over one sequence of tokens in which a position counts the tokens
that are left behind.  Nothing holds the position inside the sequence: the current token is
looked up, and a parser gets stuck where that finds none.  It also gets stuck at a quoted
string that has no text between two bytes, at a level that is too small to count from zero,
at an element without tag names and at a loop that does not end.
-/

namespace StyleRules

/-- What a parser over positions comes to. -/
inductive Outcome (α : Type) where
  | ok (value : α) (reached : Nat)
  | error (error : ParseError) (reached : Nat)
  /-- Something was taken for granted that does not hold. -/
  | stuck

/-- The position that was reached, if the parser did not get stuck. -/
def Outcome.reached? : Outcome α -> Option Nat
  | .ok _ reached | .error _ reached => some reached
  | .stuck => none

/-- A computation that moves a position in a sequence of tokens and may fail or get stuck. -/
abbrev Indexed (α : Type) :=
  List Token -> Nat -> Outcome α

namespace Indexed

/-! ## Basic parsers -/

instance : Monad Indexed where
  pure value := fun _ position => .ok value position
  bind first next := fun tokens position =>
    match first tokens position with
    | .ok value reached => next value tokens reached
    | .error error reached => .error error reached
    | .stuck => .stuck

/-- The value, which is taken for granted. -/
def checked : Option α -> Indexed α
  | some value => pure value
  | none => fun _ _ => .stuck

/-- The kind of the token some places ahead.  Behind the last token there is only the end of
the input. -/
def kindAt (places : Nat) (tokens : List Token) (position : Nat) : TokenKind :=
  match tokens[position + places]? with
  | some token => token.kind
  | none => .endOfInput

/-- Looks at the kind of the token some places ahead. -/
def peekAt (places : Nat) : Indexed TokenKind :=
  fun tokens position => .ok (kindAt places tokens position) position

/-- Looks at the kind of the current token. -/
def peek : Indexed TokenKind :=
  peekAt 0

/-- The current token. -/
def current : Indexed Token :=
  fun tokens position => checked tokens[position]? tokens position

/-- Counts one more token. -/
def forward : Indexed Unit :=
  fun _ position => .ok () (position + 1)

/-- Moves on from the current token, unless it is an end of the input, and answers it. -/
def advance : Indexed Token := do
  let token ← current
  if token.kind = .endOfInput then
    return token
  else
    forward
    return token

/-- The error that something else was due at the position. -/
def unexpected (what : String) : Indexed ParseError := do
  return ⟨.expected what, ← current⟩

/-- Fails with an error. -/
def fail (error : ParseError) : Indexed α :=
  fun _ position => .error error position

/-- Fails at the current token since something else was due. -/
def failExpecting (what : String) : Indexed α := do
  fail (← unexpected what)

/-- Moves on from a token of the given kind. -/
def expect (kind : TokenKind) : Indexed Token := do
  if (← peek) = kind then advance else failExpecting kind.describe

/-- Moves on from a token of the given kind and answers its value. -/
def expectValue (kind : TokenKind) : Indexed String := do
  return (← expect kind).value

/-- Moves on from a token of the given kind and value. -/
def expectLiteral (kind : TokenKind) (value : String) : Indexed Unit := do
  let token ← current
  if token.kind = kind ∧ token.value = value then
    let _ ← advance
  else
    failExpecting (kind.describe ++ " '" ++ value ++ "'")

/-- Moves on from a blank run, if there is one. -/
def skipBlank : Indexed Unit := do
  if (← peek) = .blank then
    let _ ← advance

/-- Succeeds at the end of the input. -/
def expectEnd : Indexed Unit := do
  let _ ← expect .endOfInput

/-- Repeats a parser while a test of the position holds, and gets stuck when more than `bound`
tests are made. -/
def repeatWhile
    (test : List Token -> Nat -> Bool)
    (item : Indexed α) :
    Nat -> Indexed (List α)
  | 0 => fun _ _ => .stuck
  | bound + 1 => fun tokens position =>
      if test tokens position then
        (do
          let first ← item
          let others ← repeatWhile test item bound
          return first :: others : Indexed (List α)) tokens position
      else
        .ok [] position

/-- One round of a repetition. -/
theorem repeatWhile_succ
    (test : List Token -> Nat -> Bool)
    (item : Indexed α)
    (bound : Nat)
    (tokens : List Token)
    (position : Nat) :
    repeatWhile test item (bound + 1) tokens position =
      if test tokens position = true then
        (item >>= fun first => repeatWhile test item bound >>= fun others =>
          pure (first :: others) : Indexed (List α)) tokens position
      else
        .ok [] position :=
  rfl

/-- Repeats a parser while a test of the position holds. -/
def many (test : List Token -> Nat -> Bool) (item : Indexed α) : Indexed (List α) :=
  fun tokens position => repeatWhile test item (tokens.length - position) tokens position

/-! ## Selectors -/

/-- A style identifier, if there is one. -/
def styleId : Indexed (Option String) := do
  if (← peek) = .className then
    return some (← advance).value
  else
    return none

/-- The text between the first and the last byte, if there are two bytes and the text falls
between characters. -/
def unquoted? (value : String) : Option String :=
  if 2 ≤ value.utf8ByteSize then
    Text.slice? value 1 (value.utf8ByteSize - 1)
  else
    none

/-- A style name in brackets, if there is one. -/
def styleName : Indexed (Option String) := do
  if (← peek) = .openBracket then
    let _ ← advance
    expectLiteral .identifier "style-name"
    let _ ← expect .equals
    let value ← expectValue .quoted
    let _ ← expect .closeBracket
    return some (← checked (unquoted? value))
  else
    return none

/-- A word for a type of list.  Answers whether the list is ordered. -/
def listType : Indexed Bool := do
  let word ← expect .identifier
  if word.value = "ordered-list" then
    return true
  else if word.value = "unordered-list" then
    return false
  else
    fail ⟨.unknownListType, word⟩

/-- One less, if that is a number. -/
def oneLess? (level : UInt32) : Option UInt32 :=
  if 1 ≤ level then some (level - 1) else none

/-- The index of a list level from its numeral, which counts from one. -/
def levelIndex (numeral : Token) : Indexed UInt32 :=
  match Text.word? numeral.value with
  | none => fail ⟨.levelTooLarge, numeral⟩
  | some level =>
      if level = 0 then fail ⟨.levelZero, numeral⟩ else checked (oneLess? level)

/-- A list level, if there is one. -/
def listLevel : Indexed (Option ListLevel) := do
  if (← peek) = .colon then
    let _ ← advance
    let ordered ← listType
    let _ ← expect .openParen
    let numeral ← expect .integer
    let index ← levelIndex numeral
    let _ ← expect .closeParen
    return some ⟨index, ordered⟩
  else
    return none

/-- The clauses of a selector for paragraphs. -/
def paragraphSelector : Indexed ParagraphSelector := do
  let styleId ← styleId
  let styleName ← styleName
  let level ← listLevel
  return ⟨styleId, styleName, level⟩

/-- The clauses of a selector for runs. -/
def runSelector : Indexed RunSelector := do
  let styleId ← styleId
  let styleName ← styleName
  return ⟨styleId, styleName⟩

/-- A selector. -/
def selector : Indexed Selector := do
  let word ← expect .identifier
  if word.value = "p" then
    return .paragraph (← paragraphSelector)
  else if word.value = "r" then
    return .run (← runSelector)
  else
    match Parser.toggle? word.value with
    | some toggle => return .toggle toggle
    | none => fail ⟨.unknownElement, word⟩

/-! ## Paths -/

/-- One or more tag names, separated by bars. -/
def tagNames : Indexed (List String) := do
  let first ← expectValue .identifier
  let others ← many (fun tokens position => kindAt 0 tokens position = .bar) do
    let _ ← advance
    expectValue .identifier
  return first :: others

/-- Class names, possibly none. -/
def classNames : Indexed (List String) :=
  many (fun tokens position => kindAt 0 tokens position = .className) do
    return (← advance).value

/-- The word that makes an element fresh, if there is one. -/
def isFresh : Indexed Bool := do
  if (← peek) = .colon then
    let _ ← advance
    expectLiteral .identifier "fresh"
    return true
  else
    return false

/-- The element, which has a tag name. -/
def elementOfNames? (tagNames classNames : List String) (collapsible : Bool) :
    Option PathElement :=
  if tagNames.isEmpty then none else some (.ofNames tagNames classNames collapsible)

/-- One element of a path. -/
def pathElement : Indexed PathElement := do
  let tagNames ← tagNames
  let classNames ← classNames
  let fresh ← isFresh
  checked (elementOfNames? tagNames classNames (!fresh))

/-- The sign between two elements and the element behind it. -/
def descendant : Indexed PathElement := do
  let _ ← advance
  let _ ← advance
  let _ ← expect .blank
  pathElement

/-- Does the sign between two elements begin at the position? -/
def atDescendant (tokens : List Token) (position : Nat) : Bool :=
  kindAt 0 tokens position = .blank && kindAt 1 tokens position = .greaterThan

/-- A path. -/
def path : Indexed HtmlPath := do
  let kind ← peek
  if kind = .bang then
    let _ ← advance
    return .ignore
  else if kind = .identifier then
    let first ← pathElement
    let others ← many atDescendant descendant
    return .elements (first :: others)
  else
    return .elements []

/-! ## Rules -/

/-- A rule, up to the end of the input. -/
def rule : Indexed StyleRule := do
  skipBlank
  let selector ← selector
  skipBlank
  let _ ← expect .arrow
  skipBlank
  let path ← path
  skipBlank
  expectEnd
  return ⟨selector, path⟩

end Indexed
end StyleRules
