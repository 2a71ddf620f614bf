import StyleRules.Text.Blank
import StyleRules.Text.Letter
import StyleRules.Text.Number
import StyleRules.Token.Basic

/-!
# Lexemes

A lexeme is a kind together with the characters it was read from.  The lexemes
of a text concatenate to the text (`flatMap_text_lexemes`): nothing is skipped
and nothing is read twice.

The first character of a lexeme decides its class, with one character of
lookahead in two places: a hyphen before `>` is an arrow, also inside what would
otherwise be an identifier, and a dot begins a class name only before a
character that can begin an identifier.
-/

namespace StyleRules

/-- A kind and the characters that were read for it. -/
structure Lexeme where
  kind : TokenKind
  text : List Char
  deriving DecidableEq, Repr

namespace Lexeme

/-- The single quote, which encloses quoted strings. -/
def quote : Char := '\x27'

/-- Can the character begin an identifier? -/
def startsIdentifier (c : Char) : Bool :=
  Text.isLetter c || c == '_'

/-- Can the character continue an identifier? -/
def continuesIdentifier (c : Char) : Bool :=
  Text.isLetter c || Text.isNumberSign c || c == '-' || c == '_'

/-- The kind of a character that is a token by itself. -/
def punctuation? : Char -> Option TokenKind
  | ':' => some .colon
  | '=' => some .equals
  | '!' => some .bang
  | '|' => some .bar
  | '>' => some .greaterThan
  | '[' => some .openBracket
  | ']' => some .closeBracket
  | '(' => some .openParen
  | ')' => some .closeParen
  | _ => none

/-- The leading characters that continue an identifier.  A hyphen before `>`
belongs to an arrow and ends the run. -/
def identifierRun : List Char -> List Char
  | [] => []
  | c :: rest =>
      if c == '-' && rest.head? == some '>' then []
      else if continuesIdentifier c then c :: identifierRun rest
      else []

/-- The kind of the lexeme that begins with a character, and the characters
after the first one that belong to it. -/
def scan (c : Char) (rest : List Char) : TokenKind × List Char :=
  match punctuation? c with
  | some kind => (kind, [])
  | none =>
      if c == '-' && rest.head? == some '>' then
        (.arrow, ['>'])
      else if Text.isBlank c then
        (.blank, rest.takeWhile Text.isBlank)
      else if c == quote then
        if quote ∈ rest then
          (.quoted, rest.takeWhile (· != quote) ++ [quote])
        else
          (.unrecognised, rest)
      else if c == '.' && rest.head?.any startsIdentifier then
        (.className, identifierRun rest)
      else if c.isDigit then
        (.integer, rest.takeWhile Char.isDigit)
      else if startsIdentifier c then
        (.identifier, identifierRun rest)
      else
        (.unrecognised, [])

/-- The lexemes of a text, in order. -/
def lexemes : List Char -> List Lexeme
  | [] => []
  | c :: rest =>
      let (kind, more) := scan c rest
      ⟨kind, c :: more⟩ :: lexemes (rest.drop more.length)
termination_by cs => cs.length
decreasing_by
  simp only [List.length_drop, List.length_cons]
  omega

@[simp]
theorem lexemes_nil :
    lexemes [] = [] := by
  rw [lexemes]

theorem lexemes_cons (c : Char) (rest : List Char) :
    lexemes (c :: rest) =
      ⟨(scan c rest).1, c :: (scan c rest).2⟩ ::
        lexemes (rest.drop (scan c rest).2.length) := by
  rw [lexemes]

/-- A run of identifier characters is read from the front. -/
theorem identifierRun_prefix (cs : List Char) :
    identifierRun cs <+: cs := by
  induction cs with
  | nil => exact List.prefix_rfl
  | cons c rest inductionHypothesis =>
      rw [identifierRun]
      split
      · exact List.nil_prefix
      · split
        · exact (List.prefix_cons_inj c).mpr inductionHypothesis
        · exact List.nil_prefix

/-- Up to and including the first quote is read from the front. -/
theorem takeWhile_quote_prefix
    {cs : List Char}
    (closed : quote ∈ cs) :
    cs.takeWhile (· != quote) ++ [quote] <+: cs := by
  induction cs with
  | nil => simp at closed
  | cons c rest inductionHypothesis =>
      by_cases isQuote : c = quote
      · subst isQuote
        simp
      · have closedRest : quote ∈ rest := by
          rcases List.mem_cons.mp closed with equal | member
          · exact absurd equal.symm isQuote
          · exact member
        rw [List.takeWhile_cons_of_pos (by simpa using isQuote), List.cons_append]
        exact (List.prefix_cons_inj c).mpr (inductionHypothesis closedRest)

/-- A lexeme is read from the front. -/
theorem scan_prefix (c : Char) (rest : List Char) :
    (scan c rest).2 <+: rest := by
  unfold scan
  split
  · exact List.nil_prefix
  · split
    · rename_i arrowAhead
      cases rest with
      | nil => simp at arrowAhead
      | cons next rest =>
          simp only [List.head?_cons, Bool.and_eq_true, beq_iff_eq,
            Option.some.injEq] at arrowAhead
          rw [arrowAhead.2]
          simp
    · split
      · exact List.takeWhile_prefix _
      · split
        · split
          · rename_i closed
            exact takeWhile_quote_prefix closed
          · exact List.prefix_rfl
        · split
          · exact identifierRun_prefix rest
          · split
            · exact List.takeWhile_prefix _
            · split
              · exact identifierRun_prefix rest
              · exact List.nil_prefix

/-- The lexemes of a text concatenate to the text. -/
theorem flatMap_text_lexemes (cs : List Char) :
    (lexemes cs).flatMap text = cs := by
  induction hlength : cs.length using Nat.strongRecOn generalizing cs with
  | ind length inductionHypothesis =>
      cases cs with
      | nil => simp
      | cons c rest =>
          obtain ⟨remainder, remainderEquality⟩ := scan_prefix c rest
          have dropEquality : rest.drop (scan c rest).2.length = remainder := by
            have dropped := congrArg (List.drop (scan c rest).2.length) remainderEquality
            rw [List.drop_left] at dropped
            exact dropped.symm
          rw [lexemes_cons, List.flatMap_cons]
          rw [inductionHypothesis (rest.drop (scan c rest).2.length).length
            (by simp only [← hlength, List.length_drop, List.length_cons]; omega) _ rfl]
          simp only [List.cons_append]
          rw [dropEquality, remainderEquality]

/-- The value of the token read from a lexeme: a class name leaves its dot
out. -/
def value (lexeme : Lexeme) : List Char :=
  match lexeme.kind with
  | .className => lexeme.text.tail
  | _ => lexeme.text

end Lexeme
end StyleRules
