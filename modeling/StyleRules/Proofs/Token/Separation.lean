import StyleRules.Proofs.Token.Shape

/-!
# Reading lexemes off a text

A text of the shape of some kind is read as one lexeme of that kind, whatever
follows, provided that what follows does not extend it.  For identifiers this
means that the rest does not go on with a character of an identifier, where a
hyphen that begins an arrow is none, and does not begin with the second half of
an arrow (`Breaks`).
-/

namespace StyleRules
namespace Lexeme

/-- Does an identifier end before the rest of a text? -/
def Breaks (rest : List Char) : Prop :=
  identifierRun rest = [] ∧ rest.head? ≠ some '>'

theorem breaks_nil :
    Breaks [] :=
  ⟨rfl, by simp⟩

theorem breaks_cons
    {c : Char}
    (rest : List Char)
    (ends : continuesIdentifier c = false)
    (noArrow : c ≠ '>') :
    Breaks (c :: rest) := by
  refine ⟨?_, by simpa using noArrow⟩
  rw [identifierRun]
  split
  · rfl
  · simp [ends]

theorem breaks_arrow (rest : List Char) :
    Breaks ('-' :: '>' :: rest) :=
  ⟨by simp [identifierRun], by simp⟩

theorem breaks_of_isBlank
    {c : Char}
    (rest : List Char)
    (blank : Text.isBlank c = true) :
    Breaks (c :: rest) := by
  refine breaks_cons rest (continuesIdentifier_eq_false_of_isBlank blank) ?_
  rintro rfl
  exact absurd blank (by decide)

/-- What begins an identifier is in none of the classes that are tried before
identifiers. -/
theorem startsIdentifier_cases
    {c : Char}
    (starts : startsIdentifier c = true) :
    punctuation? c = none ∧ c ≠ '-' ∧ Text.isBlank c = false ∧ c ≠ quote ∧ c ≠ '.' ∧
      c.isDigit = false := by
  have continues := continuesIdentifier_of_startsIdentifier starts
  refine ⟨?_, ?_, ?_, ?_, ?_, ?_⟩
  · cases punctuation : punctuation? c with
    | none => rfl
    | some kind =>
        rw [continuesIdentifier_eq_false_of_punctuation (by simp [punctuation])] at continues
        exact absurd continues (by simp)
  · rintro rfl
    exact absurd starts (by decide)
  · cases blank : Text.isBlank c with
    | false => rfl
    | true =>
        rw [continuesIdentifier_eq_false_of_isBlank blank] at continues
        exact absurd continues (by simp)
  · rintro rfl
    exact absurd starts (by decide)
  · rintro rfl
    exact absurd starts (by decide)
  · cases digit : c.isDigit with
    | false => rfl
    | true =>
        have noUnderscore : c ≠ '_' := by
          rintro rfl
          exact absurd digit (by decide)
        simp [startsIdentifier, Text.isLetter_eq_false_of_isDigit digit, noUnderscore] at starts

/-- A blank is in none of the classes that are tried before blanks. -/
theorem isBlank_cases
    {c : Char}
    (blank : Text.isBlank c = true) :
    punctuation? c = none ∧ c ≠ '-' := by
  constructor
  · unfold punctuation?
    split
    all_goals first | rfl | exact absurd blank (by decide)
  · rintro rfl
    exact absurd blank (by decide)

theorem scan_of_startsIdentifier
    {c : Char}
    (rest : List Char)
    (starts : startsIdentifier c = true) :
    scan c rest = (.identifier, identifierRun rest) := by
  obtain ⟨noMark, noHyphen, noBlank, noQuote, noDot, noDigit⟩ := startsIdentifier_cases starts
  simp [scan, noMark, noHyphen, noBlank, noQuote, noDot, noDigit, starts]

theorem scan_dot_of_startsIdentifier
    {first : Char}
    (rest : List Char)
    (starts : startsIdentifier first = true) :
    scan '.' (first :: rest) = (.className, first :: identifierRun rest) := by
  have noBlank : Text.isBlank '.' = false := by decide
  simp [scan, punctuation?, noBlank, quote, starts, identifierRun_cons_of_starts rest starts]

theorem scan_of_isBlank
    {c : Char}
    (rest : List Char)
    (blank : Text.isBlank c = true) :
    scan c rest = (.blank, rest.takeWhile Text.isBlank) := by
  obtain ⟨noMark, noHyphen⟩ := isBlank_cases blank
  simp [scan, noMark, noHyphen, blank]

theorem scan_of_isDigit
    {c : Char}
    (rest : List Char)
    (digit : c.isDigit = true) :
    scan c rest = (.integer, rest.takeWhile Char.isDigit) := by
  have noMark : punctuation? c = none := by
    unfold punctuation?
    split
    all_goals first | rfl | exact absurd digit (by decide)
  have noHyphen : c ≠ '-' := by
    rintro rfl
    exact absurd digit (by decide)
  have noQuote : c ≠ quote := by
    rintro rfl
    exact absurd digit (by decide)
  have noDot : c ≠ '.' := by
    rintro rfl
    exact absurd digit (by decide)
  simp [scan, noMark, noHyphen, Text.isBlank_eq_false_of_isDigit digit, noQuote, noDot, digit]

theorem scan_quote
    (name rest : List Char)
    (unquoted : quote ∉ name) :
    scan quote (name ++ quote :: rest) = (.quoted, name ++ [quote]) := by
  have noBlank : Text.isBlank quote = false := by decide
  have run : (name ++ quote :: rest).takeWhile (· != quote) = name := by
    rw [List.takeWhile_append_of_pos]
    · simp
    · intro c member
      simpa using fun isQuote : c = quote => unquoted (isQuote ▸ member)
  simp [scan, show punctuation? quote = none from rfl, noBlank, run,
    show quote ≠ '-' by decide]

/-- A lexeme is read off a text when the scanner reads its characters. -/
theorem lexemes_of_scan
    {kind : TokenKind}
    {c : Char}
    {more rest : List Char}
    (scanned : scan c (more ++ rest) = (kind, more)) :
    lexemes (c :: more ++ rest) = ⟨kind, c :: more⟩ :: lexemes rest := by
  rw [List.cons_append, lexemes_cons, scanned, List.drop_left]

/-- Does an identifier end before the rest of a text?  A hyphen at the end of it would
begin an arrow if `>` came next. -/
def IdentifierEnds (cs rest : List Char) : Prop :=
  (rest = [] ∨ (∃ c ∈ rest.head?, continuesIdentifier c = false) ∨ ['-', '>'] <+: rest) ∧
    ¬(cs.getLast? = some '-' ∧ rest.head? = some '>')

theorem identifierRun_eq_nil_iff
    {rest : List Char} :
    identifierRun rest = [] ↔
      rest = [] ∨ (∃ c ∈ rest.head?, continuesIdentifier c = false) ∨ ['-', '>'] <+: rest := by
  cases rest with
  | nil => simp [identifierRun]
  | cons c rest =>
      have arrowAhead : ['-', '>'] <+: c :: rest ↔ c = '-' ∧ rest.head? = some '>' := by
        rw [List.cons_prefix_cons, List.singleton_prefix_iff_head?_eq_some, eq_comm]
      rw [identifierRun, arrowAhead]
      split
      · rename_i isArrow
        simp_all
      · rename_i noArrow
        split
        · simp_all
        · simp_all

/-- Characters of identifiers are read up to the rest of a text exactly when an identifier
ends there. -/
theorem identifierRun_append_eq_iff
    {cs rest : List Char}
    (allContinue : ∀ c ∈ cs, continuesIdentifier c = true) :
    identifierRun (cs ++ rest) = cs ↔ IdentifierEnds cs rest := by
  induction cs with
  | nil => simp [IdentifierEnds, identifierRun_eq_nil_iff]
  | cons c cs inductionHypothesis =>
      obtain ⟨continues, othersContinue⟩ := List.forall_mem_cons.mp allContinue
      cases cs with
      | nil =>
          rw [List.singleton_append, identifierRun, IdentifierEnds, ← identifierRun_eq_nil_iff]
          by_cases arrow : c = '-' ∧ rest.head? = some '>'
          · simp [arrow]
          · simp [arrow, continues]
      | cons next cs =>
          have noArrow : next ≠ '>' := by
            rintro rfl
            exact absurd (othersContinue _ List.mem_cons_self) (by decide +kernel)
          have sameEnds :
              IdentifierEnds (c :: next :: cs) rest ↔ IdentifierEnds (next :: cs) rest := by
            rw [IdentifierEnds, List.getLast?_cons_cons]
            rfl
          rw [sameEnds, ← inductionHypothesis othersContinue, List.cons_append, identifierRun]
          simp [continues, noArrow]

theorem Breaks.identifierEnds
    {rest : List Char}
    (breaks : Breaks rest)
    (cs : List Char) :
    IdentifierEnds cs rest :=
  ⟨identifierRun_eq_nil_iff.mp breaks.1, fun hyphen => breaks.2 hyphen.2⟩

theorem lexemes_identifier_of_ends
    {cs rest : List Char}
    (identifier : IsIdentifier cs)
    (ends : IdentifierEnds cs rest) :
    lexemes (cs ++ rest) = ⟨.identifier, cs⟩ :: lexemes rest := by
  have run := (identifierRun_append_eq_iff identifier.continues).mpr ends
  cases cs with
  | nil => exact absurd identifier id
  | cons c cs =>
      rw [List.cons_append, identifierRun_cons_of_starts _ identifier.1] at run
      apply lexemes_of_scan
      rw [scan_of_startsIdentifier _ identifier.1, List.tail_eq_of_cons_eq run]

theorem lexemes_className_of_ends
    {cs rest : List Char}
    (identifier : IsIdentifier cs)
    (ends : IdentifierEnds cs rest) :
    lexemes ('.' :: cs ++ rest) = ⟨.className, '.' :: cs⟩ :: lexemes rest := by
  have run := (identifierRun_append_eq_iff identifier.continues).mpr ends
  apply lexemes_of_scan
  cases cs with
  | nil => exact absurd identifier id
  | cons c cs =>
      rw [List.cons_append, identifierRun_cons_of_starts _ identifier.1] at run
      rw [List.cons_append, scan_dot_of_startsIdentifier _ identifier.1, run]

theorem lexemes_identifier
    {cs rest : List Char}
    (identifier : IsIdentifier cs)
    (breaks : Breaks rest) :
    lexemes (cs ++ rest) = ⟨.identifier, cs⟩ :: lexemes rest :=
  lexemes_identifier_of_ends identifier (breaks.identifierEnds cs)

theorem lexemes_className
    {cs rest : List Char}
    (identifier : IsIdentifier cs)
    (breaks : Breaks rest) :
    lexemes ('.' :: cs ++ rest) = ⟨.className, '.' :: cs⟩ :: lexemes rest :=
  lexemes_className_of_ends identifier (breaks.identifierEnds cs)

theorem lexemes_quoted
    {name : List Char}
    (rest : List Char)
    (unquoted : quote ∉ name) :
    lexemes (quote :: (name ++ [quote]) ++ rest) =
      ⟨.quoted, quote :: (name ++ [quote])⟩ :: lexemes rest := by
  apply lexemes_of_scan
  rw [List.append_assoc, List.singleton_append, scan_quote name rest unquoted]

/-- A run is read up to the first character that is not in its class. -/
theorem takeWhile_append_of_ends
    {inClass : Char -> Bool}
    {run rest : List Char}
    (inside : ∀ c ∈ run, inClass c = true)
    (ends : ∀ c ∈ rest.head?, inClass c = false) :
    (run ++ rest).takeWhile inClass = run := by
  rw [List.takeWhile_append_of_pos inside]
  cases rest with
  | nil => simp
  | cons next rest => simp [ends next rfl]

theorem lexemes_integer
    {digits rest : List Char}
    (nonempty : digits ≠ [])
    (areDigits : ∀ c ∈ digits, c.isDigit = true)
    (ends : ∀ c ∈ rest.head?, c.isDigit = false) :
    lexemes (digits ++ rest) = ⟨.integer, digits⟩ :: lexemes rest := by
  cases digits with
  | nil => exact absurd rfl nonempty
  | cons c digits =>
      obtain ⟨digit, othersDigits⟩ := List.forall_mem_cons.mp areDigits
      apply lexemes_of_scan
      rw [scan_of_isDigit _ digit, takeWhile_append_of_ends othersDigits ends]

theorem lexemes_blank
    {blanks rest : List Char}
    (nonempty : blanks ≠ [])
    (areBlank : ∀ c ∈ blanks, Text.isBlank c = true)
    (ends : ∀ c ∈ rest.head?, Text.isBlank c = false) :
    lexemes (blanks ++ rest) = ⟨.blank, blanks⟩ :: lexemes rest := by
  cases blanks with
  | nil => exact absurd rfl nonempty
  | cons c blanks =>
      obtain ⟨blank, othersBlank⟩ := List.forall_mem_cons.mp areBlank
      apply lexemes_of_scan
      rw [scan_of_isBlank _ blank, takeWhile_append_of_ends othersBlank ends]

/-- The marks are read off any text. -/
theorem lexemes_mark
    {kind : TokenKind}
    (rest : List Char)
    (marked : kind.mark ≠ []) :
    lexemes (kind.mark ++ rest) = ⟨kind, kind.mark⟩ :: lexemes rest := by
  cases kind <;> first
    | exact absurd rfl marked
    | exact lexemes_of_scan rfl

end Lexeme
end StyleRules
