import StyleRules.Proofs.Token.Coverage
import StyleRules.Proofs.Token.Separation

/-!
# The lexical grammar

Each kind of lexeme has its shape and a condition on what may follow it: a run of blanks
or digits goes on as far as it can, an identifier stops before an arrow only, and a
character is unrecognised where nothing else begins with it.  A text is made up of
lexemes that fit in this way in exactly one manner, and these are the ones that are read
off it (`Token.tokenize_realises_grammar`).
-/

namespace StyleRules
namespace Lexeme

/-! ## The grammar -/

/-- Does no lexeme of another kind begin with the character, before the rest of a
text? -/
structure BeginsNothing (c : Char) (rest : List Char) : Prop where
  no_punctuation : punctuation? c = none
  no_arrow : ¬(c = '-' ∧ rest.head? = some '>')
  no_blank : Text.isBlank c = false
  no_quote : c ≠ quote
  no_className : ¬(c = '.' ∧ rest.head?.any startsIdentifier = true)
  no_digit : c.isDigit = false
  no_identifier : startsIdentifier c = false

/-- Does the lexeme end before the rest of a text? -/
def EndsBefore (lexeme : Lexeme) (rest : List Char) : Prop :=
  match lexeme.kind with
  | .identifier | .className => IdentifierEnds lexeme.text rest
  | .integer => ∀ c ∈ rest.head?, c.isDigit = false
  | .blank => ∀ c ∈ rest.head?, Text.isBlank c = false
  | .unrecognised =>
      (∃ name, lexeme.text = quote :: name ∧ quote ∉ name ∧ rest = []) ∨
        ∃ c, lexeme.text = [c] ∧ BeginsNothing c rest
  | _ => True

/-- Has the lexeme the shape of its kind, and does it end before the rest of a text? -/
structure Fits (lexeme : Lexeme) (rest : List Char) : Prop where
  wellFormed : lexeme.WellFormed
  endsBefore : lexeme.EndsBefore rest

/-- Do lexemes make up a text, each of them fitting before the texts of those behind
it? -/
structure MakeUp (words : List Lexeme) (cs : List Char) : Prop where
  text_eq : words.flatMap text = cs
  fits : ∀ before word after, words = before ++ word :: after -> word.Fits (after.flatMap text)

theorem makeUp_nil_iff
    {cs : List Char} :
    MakeUp [] cs ↔ cs = [] := by
  constructor
  · rintro ⟨rfl, _⟩
    rfl
  · rintro rfl
    exact ⟨rfl, by simp⟩

theorem makeUp_cons_iff
    {word : Lexeme}
    {words : List Lexeme}
    {cs : List Char} :
    MakeUp (word :: words) cs ↔
      ∃ rest, cs = word.text ++ rest ∧ word.Fits rest ∧ MakeUp words rest := by
  constructor
  · rintro ⟨rfl, fits⟩
    refine ⟨words.flatMap text, List.flatMap_cons, fits [] word words rfl, rfl, ?_⟩
    intro before next after splits
    exact fits (word :: before) next after (by rw [splits, List.cons_append])
  · rintro ⟨_, rfl, wordFits, rfl, fits⟩
    refine ⟨List.flatMap_cons, ?_⟩
    intro before next after splits
    cases before with
    | nil =>
        obtain ⟨rfl, rfl⟩ := List.cons.inj splits
        exact wordFits
    | cons first before => exact fits before next after (List.cons.inj splits).2

/-! ## What is read fits -/

theorem head?_of_takeWhile_append_eq
    {inClass : Char -> Bool}
    {run rest : List Char}
    (isRun : (run ++ rest).takeWhile inClass = run) :
    ∀ c ∈ rest.head?, inClass c = false := by
  have inside : ∀ c ∈ run, inClass c = true := by
    intro c member
    rw [← isRun] at member
    exact List.mem_takeWhile_imp member
  rw [List.takeWhile_append_of_pos inside, List.append_right_eq_self] at isRun
  intro c isHead
  cases rest with
  | nil => simp at isHead
  | cons next rest =>
      obtain rfl : next = c := by simpa using isHead
      simpa [List.takeWhile_cons] using isRun

/-- What begins with a character that is no hyphen ends where the run behind that
character does. -/
theorem identifierEnds_cons
    {c : Char}
    {more rest : List Char}
    (noHyphen : c ≠ '-')
    (run : identifierRun (more ++ rest) = more) :
    IdentifierEnds (c :: more) rest := by
  have inside : ∀ next ∈ more, continuesIdentifier next = true := by
    intro next member
    rw [← run] at member
    exact continues_of_mem_identifierRun _ next member
  obtain ⟨ends, noArrow⟩ := (identifierRun_append_eq_iff inside).mp run
  refine ⟨ends, ?_⟩
  cases more with
  | nil => simp [noHyphen]
  | cons next more =>
      rw [List.getLast?_cons_cons]
      exact noArrow

/-- A lexeme that is read ends before what is left of the text. -/
theorem endsBefore_of_scan
    {c : Char}
    {kind : TokenKind}
    {more rest : List Char}
    (scanned : scan c (more ++ rest) = (kind, more)) :
    EndsBefore ⟨kind, c :: more⟩ rest := by
  unfold scan at scanned
  split at scanned
  · rename_i found punctuation
    obtain ⟨rfl, rfl⟩ := Prod.mk.inj scanned
    unfold punctuation? at punctuation
    split at punctuation
    all_goals first
      | (obtain rfl := Option.some.inj punctuation; trivial)
      | simp at punctuation
  · rename_i noPunctuation
    split at scanned
    · obtain ⟨rfl, rfl⟩ := Prod.mk.inj scanned
      trivial
    · rename_i noArrow
      split at scanned
      · obtain ⟨rfl, isRun⟩ := Prod.mk.inj scanned
        exact head?_of_takeWhile_append_eq isRun
      · rename_i noBlank
        split at scanned
        · rename_i isQuote
          split at scanned
          · obtain ⟨rfl, _⟩ := Prod.mk.inj scanned
            trivial
          · rename_i unclosed
            obtain ⟨rfl, all⟩ := Prod.mk.inj scanned
            rw [List.append_right_eq_self] at all
            subst all
            rw [List.append_nil] at unclosed
            exact .inl ⟨more, by rw [eq_of_beq isQuote], unclosed, rfl⟩
        · rename_i noQuote
          split at scanned
          · rename_i dotAhead
            obtain ⟨rfl, run⟩ := Prod.mk.inj scanned
            refine identifierEnds_cons ?_ run
            rintro rfl
            simp at dotAhead
          · rename_i noDot
            split at scanned
            · obtain ⟨rfl, isRun⟩ := Prod.mk.inj scanned
              exact head?_of_takeWhile_append_eq isRun
            · rename_i noDigit
              split at scanned
              · rename_i starts
                obtain ⟨rfl, run⟩ := Prod.mk.inj scanned
                exact identifierEnds_cons (startsIdentifier_cases starts).2.1 run
              · rename_i noIdentifier
                obtain ⟨rfl, rfl⟩ := Prod.mk.inj scanned
                refine .inr ⟨c, rfl, noPunctuation, ?_, ?_, ?_, ?_, ?_, ?_⟩
                · simpa using noArrow
                · simpa using noBlank
                · simpa using noQuote
                · simpa using noDot
                · simpa using noDigit
                · simpa using noIdentifier

/-- The lexemes of a text make it up. -/
theorem makeUp_lexemes (cs : List Char) :
    MakeUp (lexemes cs) cs := by
  induction hlength : cs.length using Nat.strongRecOn generalizing cs with
  | ind length inductionHypothesis =>
      cases cs with
      | nil =>
          rw [lexemes_nil]
          exact makeUp_nil_iff.mpr rfl
      | cons c rest =>
          obtain ⟨remainder, splits⟩ := scan_prefix c rest
          have scanned : scan c ((scan c rest).2 ++ remainder) = scan c rest := by rw [splits]
          have fits : Fits ⟨(scan c rest).1, c :: (scan c rest).2⟩ remainder :=
            ⟨wellFormed_scan c rest, endsBefore_of_scan scanned⟩
          have shorter : remainder.length < length := by
            rw [← hlength, ← splits, List.length_cons, List.length_append]
            omega
          have read := lexemes_of_scan scanned
          rw [List.cons_append, splits] at read
          rw [read]
          exact makeUp_cons_iff.mpr
            ⟨remainder, by rw [List.cons_append, splits], fits,
              inductionHypothesis _ shorter remainder rfl⟩

/-! ## What fits is read -/

theorem scan_of_beginsNothing
    {c : Char}
    {rest : List Char}
    (nothing : BeginsNothing c rest) :
    scan c rest = (.unrecognised, []) := by
  have noArrow : (c == '-' && rest.head? == some '>') = false := by
    simpa using nothing.no_arrow
  have noClassName : (c == '.' && rest.head?.any startsIdentifier) = false := by
    simpa using nothing.no_className
  simp [scan, nothing.no_punctuation, noArrow, nothing.no_blank, nothing.no_quote, noClassName,
    nothing.no_digit, nothing.no_identifier]

theorem lexemes_unclosed
    {name : List Char}
    (unclosed : quote ∉ name) :
    lexemes (quote :: name) = [⟨.unrecognised, quote :: name⟩] := by
  have noBlank : Text.isBlank quote = false := by decide
  have scanned : scan quote (name ++ []) = (.unrecognised, name) := by
    simp [scan, show punctuation? quote = none from rfl, noBlank, unclosed,
      show quote ≠ '-' by decide]
  have read := lexemes_of_scan scanned
  rw [List.append_nil, lexemes_nil] at read
  exact read

/-- A lexeme that fits is read off the text. -/
theorem Fits.lexemes_append
    {lexeme : Lexeme}
    {rest : List Char}
    (fits : lexeme.Fits rest) :
    lexemes (lexeme.text ++ rest) = lexeme :: lexemes rest := by
  obtain ⟨kind, text⟩ := lexeme
  obtain ⟨wellFormed, endsBefore⟩ := fits
  have marks : kind.mark ≠ [] -> text = kind.mark ->
      lexemes (text ++ rest) = ⟨kind, text⟩ :: lexemes rest := by
    rintro marked rfl
    exact lexemes_mark rest marked
  cases kind with
  | identifier => exact lexemes_identifier_of_ends wellFormed endsBefore
  | className =>
      obtain ⟨name, rfl, identifier⟩ := wellFormed
      refine lexemes_className_of_ends identifier ⟨endsBefore.1, fun hyphen => endsBefore.2 ?_⟩
      exact ⟨by rw [List.getLast?_cons, hyphen.1, Option.getD_some], hyphen.2⟩
  | quoted =>
      obtain ⟨name, rfl, unquoted⟩ := wellFormed
      exact lexemes_quoted rest unquoted
  | integer => exact lexemes_integer wellFormed.1 wellFormed.2 endsBefore
  | blank => exact lexemes_blank wellFormed.1 wellFormed.2 endsBefore
  | unrecognised =>
      rcases endsBefore with ⟨name, rfl, unclosed, rfl⟩ | ⟨c, rfl, nothing⟩
      · rw [List.append_nil, lexemes_nil]
        exact lexemes_unclosed unclosed
      · exact lexemes_of_scan (scan_of_beginsNothing nothing)
  | endOfInput => exact absurd wellFormed id
  | _ => exact marks (by decide) wellFormed

/-- The lexemes of a text are the only ones that make it up. -/
theorem lexemes_eq_iff_makeUp
    {words : List Lexeme}
    {cs : List Char} :
    lexemes cs = words ↔ MakeUp words cs := by
  constructor
  · rintro rfl
    exact makeUp_lexemes cs
  · intro makeUp
    induction words generalizing cs with
    | nil => rw [makeUp_nil_iff.mp makeUp, lexemes_nil]
    | cons word words inductionHypothesis =>
        obtain ⟨rest, rfl, fits, rest_makeUp⟩ := makeUp_cons_iff.mp makeUp
        rw [fits.lexemes_append, inductionHypothesis rest_makeUp]

end Lexeme

/-! ## Tokens -/

namespace Token

/-- The words of a text, each with its kind and what it was read from, are a sequence of
lexemes exactly when these make up the text; and only one sequence of lexemes does. -/
theorem tokenize_realises_grammar (source : String) :
    (∀ words : List Lexeme,
      ((tokenize source).filter fun token => token.kind ≠ .endOfInput).map
            (fun token => (token.kind, token.sourceText? source)) =
          words.map (fun word => (word.kind, some (String.ofList word.text))) ↔
        Lexeme.MakeUp words source.toList) ∧
      ∃! words, Lexeme.MakeUp words source.toList := by
  have wordsKept :
      (tokenize source).filter (fun token => token.kind ≠ .endOfInput) = wordsOf source := by
    rw [tokenize_eq_append, List.filter_append, List.filter_eq_self.mpr]
    · simp [endOf, endAt]
    · intro token member
      simpa using kind_ne_endOfInput_of_mem_wordsOf member
  have read := map_kind_sourceText?_placeWords []
    (fun _ => Lexeme.wellFormed_of_mem_lexemes)
    (Lexeme.flatMap_text_lexemes source.toList).symm
  have injective : Function.Injective fun word : Lexeme =>
      (word.kind, some (String.ofList word.text)) := by
    rintro ⟨kind, text⟩ ⟨otherKind, otherText⟩ same
    have sameKind : kind = otherKind := congrArg Prod.fst same
    have sameText : String.ofList text = String.ofList otherText :=
      Option.some.inj (congrArg Prod.snd same)
    rw [sameKind, String.ofList_injective sameText]
  constructor
  · intro words
    rw [wordsKept, ← Lexeme.lexemes_eq_iff_makeUp]
    exact read ▸ (List.map_injective_iff.mpr injective).eq_iff
  · refine ⟨Lexeme.lexemes source.toList, Lexeme.makeUp_lexemes _, ?_⟩
    intro words makeUp
    exact (Lexeme.lexemes_eq_iff_makeUp.mpr makeUp).symm

end Token
end StyleRules
