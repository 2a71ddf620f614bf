import StyleRules.Token.Lexeme
import Mathlib.Data.List.TakeWhile

/-!
# The shape of lexemes

Each kind of lexeme has a shape of its own: an identifier is a letter or an
underscore followed by characters that continue it, a quoted string has quotes
at its two ends only, and so on.  Every lexeme of every text has the shape of its
kind (`wellFormed_of_mem_lexemes`).

The classes of characters that the scanner tests one after the other are
disjoint where it matters, which is checked on the tables of their ranges.
-/

namespace StyleRules

namespace Text
namespace CodeRanges

/-- Does no range of the first list meet a range of the second one? -/
def apart (ranges others : CodeRanges) : Bool :=
  ranges.all fun range =>
    others.all fun other => decide (range.2 < other.1) || decide (other.2 < range.1)

/-- A code point lies in at most one of two lists of ranges that are apart. -/
theorem contains_eq_false_of_apart
    {bound otherBound : Nat}
    {ranges others : CodeRanges}
    (ascending : ascendingAbove bound ranges = true)
    (othersAscending : ascendingAbove otherBound others = true)
    (rangesApart : apart ranges others = true)
    {code : Nat}
    (inRanges : contains ranges code = true) :
    contains others code = false := by
  rw [Bool.eq_false_iff]
  intro inOthers
  obtain ⟨range, rangeMember, atLeast, atMost⟩ :=
    (contains_eq_true_iff ascending code).mp inRanges
  obtain ⟨other, otherMember, otherAtLeast, otherAtMost⟩ :=
    (contains_eq_true_iff othersAscending code).mp inOthers
  simp only [apart, List.all_eq_true, Bool.or_eq_true, decide_eq_true_eq] at rangesApart
  rcases rangesApart range rangeMember other otherMember with below | above
  · omega
  · omega

end CodeRanges

/-- The ranges of the decimal digits in ASCII. -/
def digitRanges : CodeRanges :=
  [(0x30, 0x39)]

theorem contains_digitRanges_of_isDigit
    {c : Char}
    (digit : c.isDigit = true) :
    digitRanges.contains c.toNat = true := by
  simp only [Char.isDigit, Bool.and_eq_true, decide_eq_true_eq, ge_iff_le,
    UInt32.le_iff_toNat_le] at digit
  have atLeast : 0x30 ≤ c.toNat := digit.1
  have atMost : c.toNat ≤ 0x39 := digit.2
  simp only [digitRanges, CodeRanges.contains]
  rw [if_neg (by omega), if_pos (by omega)]

theorem isLetter_eq_false_of_isBlank
    {c : Char}
    (blank : isBlank c = true) :
    isLetter c = false :=
  CodeRanges.contains_eq_false_of_apart blankRanges_ascending letterRanges_ascending
    (by decide +kernel) blank

theorem isNumberSign_eq_false_of_isBlank
    {c : Char}
    (blank : isBlank c = true) :
    isNumberSign c = false :=
  CodeRanges.contains_eq_false_of_apart blankRanges_ascending numberRanges_ascending
    (by decide +kernel) blank

theorem isLetter_eq_false_of_isDigit
    {c : Char}
    (digit : c.isDigit = true) :
    isLetter c = false :=
  CodeRanges.contains_eq_false_of_apart (by decide : digitRanges.ascendingAbove 0 = true)
    letterRanges_ascending (by decide +kernel) (contains_digitRanges_of_isDigit digit)

theorem isBlank_eq_false_of_isDigit
    {c : Char}
    (digit : c.isDigit = true) :
    isBlank c = false :=
  CodeRanges.contains_eq_false_of_apart (by decide : digitRanges.ascendingAbove 0 = true)
    blankRanges_ascending (by decide +kernel) (contains_digitRanges_of_isDigit digit)

end Text

/-- The text of a kind that is always written in the same way. -/
def TokenKind.mark : TokenKind -> List Char
  | .colon => [':']
  | .equals => ['=']
  | .bang => ['!']
  | .bar => ['|']
  | .greaterThan => ['>']
  | .openBracket => ['[']
  | .closeBracket => [']']
  | .openParen => ['(']
  | .closeParen => [')']
  | .arrow => ['-', '>']
  | _ => []

namespace Lexeme

/-- Can the characters be read as one identifier? -/
def IsIdentifier : List Char -> Prop
  | [] => False
  | c :: rest => startsIdentifier c = true ∧ ∀ next ∈ rest, continuesIdentifier next = true

instance (cs : List Char) : Decidable (IsIdentifier cs) :=
  match cs with
  | [] => inferInstanceAs (Decidable False)
  | _ :: rest =>
      -- named: with the characters seen as a finite type, the search would try them all
      have : Decidable (∀ next ∈ rest, continuesIdentifier next = true) :=
        List.decidableBAll _ rest
      instDecidableAnd

/-- Does the text have the shape of its kind? -/
def WellFormed (lexeme : Lexeme) : Prop :=
  match lexeme.kind with
  | .identifier => IsIdentifier lexeme.text
  | .className => ∃ name, lexeme.text = '.' :: name ∧ IsIdentifier name
  | .quoted => ∃ name, lexeme.text = quote :: (name ++ [quote]) ∧ quote ∉ name
  | .integer => lexeme.text ≠ [] ∧ ∀ c ∈ lexeme.text, c.isDigit = true
  | .blank => lexeme.text ≠ [] ∧ ∀ c ∈ lexeme.text, Text.isBlank c = true
  | .unrecognised => lexeme.text ≠ []
  | .endOfInput => False
  | kind => lexeme.text = kind.mark

theorem continuesIdentifier_of_startsIdentifier
    {c : Char}
    (starts : startsIdentifier c = true) :
    continuesIdentifier c = true := by
  simp only [startsIdentifier, continuesIdentifier, Bool.or_eq_true] at starts ⊢
  rcases starts with letter | underscore
  · exact .inl (.inl (.inl letter))
  · exact .inr underscore

theorem IsIdentifier.ne_nil
    {cs : List Char}
    (identifier : IsIdentifier cs) :
    cs ≠ [] := by
  rintro rfl
  exact identifier

theorem IsIdentifier.continues
    {cs : List Char}
    (identifier : IsIdentifier cs) :
    ∀ c ∈ cs, continuesIdentifier c = true := by
  cases cs with
  | nil => exact absurd identifier id
  | cons first rest =>
      intro c member
      rcases List.mem_cons.mp member with rfl | inRest
      · exact continuesIdentifier_of_startsIdentifier identifier.1
      · exact identifier.2 c inRest

theorem continuesIdentifier_eq_false_of_isBlank
    {c : Char}
    (blank : Text.isBlank c = true) :
    continuesIdentifier c = false := by
  have noHyphen : c ≠ '-' := by
    rintro rfl
    exact absurd blank (by decide)
  have noUnderscore : c ≠ '_' := by
    rintro rfl
    exact absurd blank (by decide)
  simp [continuesIdentifier, Text.isLetter_eq_false_of_isBlank blank,
    Text.isNumberSign_eq_false_of_isBlank blank, noHyphen, noUnderscore]

/-- No punctuation belongs to an identifier. -/
theorem continuesIdentifier_eq_false_of_punctuation
    {c : Char}
    (punctuation : (punctuation? c).isSome = true) :
    continuesIdentifier c = false := by
  unfold punctuation? at punctuation
  split at punctuation
  all_goals first | decide +kernel | simp at punctuation

theorem continues_of_mem_identifierRun
    (cs : List Char) :
    ∀ c ∈ identifierRun cs, continuesIdentifier c = true := by
  induction cs with
  | nil => simp [identifierRun]
  | cons first rest inductionHypothesis =>
      rw [identifierRun]
      split
      · simp
      · split
        · rename_i continues
          intro c member
          rcases List.mem_cons.mp member with rfl | inRest
          · exact continues
          · exact inductionHypothesis c inRest
        · simp

theorem identifierRun_cons_of_starts
    {c : Char}
    (rest : List Char)
    (starts : startsIdentifier c = true) :
    identifierRun (c :: rest) = c :: identifierRun rest := by
  have noHyphen : c ≠ '-' := by
    rintro rfl
    exact absurd starts (by decide)
  rw [identifierRun, if_neg (by simp [noHyphen]),
    if_pos (continuesIdentifier_of_startsIdentifier starts)]

theorem mark_of_punctuation
    {c : Char}
    {kind : TokenKind}
    (punctuation : punctuation? c = some kind) :
    WellFormed ⟨kind, [c]⟩ := by
  unfold punctuation? at punctuation
  split at punctuation
  all_goals first
    | (obtain rfl := Option.some.inj punctuation; rfl)
    | simp at punctuation

/-- The lexeme at the front of a text has the shape of its kind. -/
theorem wellFormed_scan
    (c : Char)
    (rest : List Char) :
    WellFormed ⟨(scan c rest).1, c :: (scan c rest).2⟩ := by
  unfold scan
  split
  · rename_i kind punctuation
    exact mark_of_punctuation punctuation
  · split
    · rename_i arrowAhead
      simp only [Bool.and_eq_true, beq_iff_eq] at arrowAhead
      rw [arrowAhead.1]
      rfl
    · split
      · rename_i blank
        refine ⟨by simp, ?_⟩
        intro next member
        rcases List.mem_cons.mp member with rfl | inRun
        · exact blank
        · exact List.mem_takeWhile_imp inRun
      · split
        · rename_i isQuote
          rw [beq_iff_eq] at isQuote
          subst isQuote
          split
          · refine ⟨rest.takeWhile (· != quote), rfl, ?_⟩
            intro quoteInside
            simpa using List.mem_takeWhile_imp quoteInside
          · simp [WellFormed]
        · split
          · rename_i dotAhead
            simp only [Bool.and_eq_true, beq_iff_eq] at dotAhead
            obtain ⟨rfl, nameAhead⟩ := dotAhead
            cases rest with
            | nil => simp at nameAhead
            | cons first rest =>
                have starts : startsIdentifier first = true := by simpa using nameAhead
                rw [identifierRun_cons_of_starts rest starts]
                exact ⟨_, rfl, starts, continues_of_mem_identifierRun rest⟩
          · split
            · rename_i digit
              refine ⟨by simp, ?_⟩
              intro next member
              rcases List.mem_cons.mp member with rfl | inRun
              · exact digit
              · exact List.mem_takeWhile_imp inRun
            · split
              · rename_i starts
                exact ⟨starts, continues_of_mem_identifierRun rest⟩
              · simp [WellFormed]

/-- Every lexeme of a text has the shape of its kind. -/
theorem wellFormed_of_mem_lexemes
    {cs : List Char}
    {lexeme : Lexeme}
    (member : lexeme ∈ lexemes cs) :
    lexeme.WellFormed := by
  induction hlength : cs.length using Nat.strongRecOn generalizing cs with
  | ind length inductionHypothesis =>
      cases cs with
      | nil => simp at member
      | cons c rest =>
          rw [lexemes_cons] at member
          rcases List.mem_cons.mp member with rfl | inRest
          · exact wellFormed_scan c rest
          · refine inductionHypothesis _ ?_ inRest rfl
            simp only [← hlength, List.length_drop, List.length_cons]
            omega

theorem WellFormed.text_ne_nil
    {lexeme : Lexeme}
    (wellFormed : lexeme.WellFormed) :
    lexeme.text ≠ [] := by
  obtain ⟨kind, text⟩ := lexeme
  rintro rfl
  cases kind <;> simp [WellFormed, TokenKind.mark, IsIdentifier] at wellFormed

theorem WellFormed.kind_ne_endOfInput
    {lexeme : Lexeme}
    (wellFormed : lexeme.WellFormed) :
    lexeme.kind ≠ .endOfInput := by
  intro isEnd
  rw [WellFormed, isEnd] at wellFormed
  exact wellFormed

end Lexeme
end StyleRules
