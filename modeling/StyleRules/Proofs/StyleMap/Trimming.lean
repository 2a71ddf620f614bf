import StyleRules.Proofs.Grammar.Indentation
import StyleRules.Proofs.StyleMap.Strictness

/-!
# Trimmed lines

Whether a line holds a rule is asked of the trimmed line, but the rule is read from the line
as it stands.  This makes no difference: the blanks around a rule are gaps of its grammar.
So the same rules are read from a text whose lines are trimmed, and where one of them cannot
be read, neither can the line that it is trimmed from.  Blanks in front of a rule that cannot
be read only push the place of the error along (`parse_raw_and_trimmed`).
-/

namespace StyleRules

/-! ## Blanks behind a rule -/

namespace Grammar

/-- Does the text end with a character that is not blank? -/
def EndsUnblank (text : List Char) : Prop :=
  ∃ front c, text = front ++ [c] ∧ Text.isBlank c = false

theorem EndsUnblank.append
    {text : List Char}
    (front : List Char)
    (ends : EndsUnblank text) :
    EndsUnblank (front ++ text) := by
  obtain ⟨more, c, rfl, notBlank⟩ := ends
  exact ⟨front ++ more, c, (List.append_assoc front more [c]).symm, notBlank⟩

/-- Blanks behind a text that ends with another character do not belong to its end. -/
theorem EndsUnblank.eq_nil_of_append
    {text blanks : List Char}
    (ends : EndsUnblank (text ++ blanks))
    (areBlank : ∀ c ∈ blanks, Text.isBlank c = true) :
    blanks = [] := by
  obtain ⟨front, last, same, notBlank⟩ := ends
  rcases List.eq_nil_or_concat blanks with isEmpty | ⟨others, c, rfl⟩
  · exact isEmpty
  · rw [List.concat_eq_append, ← List.append_assoc] at same
    obtain rfl : c = last := List.singleton_inj.mp (List.append_inj' same rfl).2
    rw [areBlank c (by simp)] at notBlank
    exact absurd notBlank (by simp)

theorem BlankFree.endsUnblank
    {text : List Char}
    (blankFree : BlankFree text)
    (nonempty : text ≠ []) :
    EndsUnblank text :=
  ⟨text.dropLast, text.getLast nonempty, (List.dropLast_append_getLast nonempty).symm,
    blankFree _ (List.getLast_mem nonempty)⟩

theorem SpellsTagNames.ne_nil
    {names : List String}
    {text : List Char}
    (spells : SpellsTagNames .characters names text) :
    text ≠ [] := by
  cases spells with
  | single name =>
      obtain ⟨rfl, identifier⟩ := name
      exact identifier.ne_nil
  | more name _ _ =>
      obtain ⟨rfl, identifier⟩ := name
      exact List.append_ne_nil_of_left_ne_nil identifier.ne_nil _

theorem SpellsElement.endsUnblank
    {element : PathElement}
    {text : List Char}
    (spells : SpellsElement .characters element text) :
    EndsUnblank text := by
  apply spells.blankFree.endsUnblank
  cases spells with
  | intro tagNames _ _ => exact List.append_ne_nil_of_left_ne_nil tagNames.ne_nil _

theorem SpellsSteps.endsUnblank
    {steps : List PathElement}
    {text : List Char}
    (spells : SpellsSteps .characters steps text) :
    EndsUnblank text := by
  induction spells with
  | single element => exact element.endsUnblank
  | more _ _ _ _ _ inductionHypothesis =>
      exact (((inductionHypothesis.append _).append _).append _).append _

theorem SpellsPath.eq_nil_or_endsUnblank
    {path : HtmlPath}
    {text : List Char}
    (spells : SpellsPath .characters path text) :
    text = [] ∨ EndsUnblank text := by
  cases spells with
  | ignore bang =>
      obtain rfl := bang
      exact .inr ⟨[], '!', rfl, by decide⟩
  | nothing => exact .inl rfl
  | elements steps => exact .inr steps.endsUnblank

/-- Without the blanks behind it, a rule ends with the last character of its path, or with
the arrow if the path is empty. -/
theorem SpellsRule.exists_front
    {rule : StyleRule}
    {text : List Char}
    (spells : SpellsRule .characters rule text) :
    ∃ front blanks,
      text = front ++ blanks ∧ (∀ c ∈ blanks, Text.isBlank c = true) ∧
        EndsUnblank front ∧ SpellsRule .characters rule front := by
  cases spells with
  | @intro _ _ _ _ _ _ behindText pathText trailText lead selector before arrow behind path
      trail =>
      obtain rfl := arrow
      rcases path.eq_nil_or_endsUnblank with rfl | pathEnds
      · refine ⟨_, behindText ++ trailText, ?_,
          spellsGap_characters_iff.mp (behind.append trail), ?_,
          .intro lead selector before rfl (.inl rfl) path (.inl rfl)⟩
        · simp
        · have arrowEnds : EndsUnblank ['-', '>'] := ⟨['-'], '>', rfl, by decide⟩
          exact ((arrowEnds.append _).append _).append _
      · refine ⟨_, trailText, ?_, spellsGap_characters_iff.mp trail, ?_,
          .intro lead selector before rfl behind path (.inl rfl)⟩
        · simp
        · rw [List.append_nil]
          exact ((((pathEnds.append _).append _).append _).append _).append _

theorem SpellsRule.append_blanks
    {rule : StyleRule}
    {text blanks : List Char}
    (spells : SpellsRule .characters rule text)
    (areBlank : ∀ c ∈ blanks, Text.isBlank c = true) :
    SpellsRule .characters rule (text ++ blanks) := by
  cases spells with
  | intro lead selector before arrow behind path trail =>
      simp only [List.append_assoc]
      exact .intro lead selector before arrow behind path
        (trail.append (spellsGap_characters_iff.mpr areBlank))

/-- A text spells a rule when it does with blanks behind it. -/
theorem spellsRule_append_blanks_iff
    {rule : StyleRule}
    {text blanks : List Char}
    (areBlank : ∀ c ∈ blanks, Text.isBlank c = true) :
    SpellsRule .characters rule (text ++ blanks) ↔ SpellsRule .characters rule text := by
  constructor
  · intro spells
    obtain ⟨front, others, splits, othersBlank, frontEnds, frontSpells⟩ := spells.exists_front
    rcases List.append_eq_append_iff.mp splits with
      ⟨between, rfl, blanksSplit⟩ | ⟨between, rfl, othersSplit⟩
    · -- The rule cannot end within the blanks, so it ends before them.
      rw [blanksSplit, List.forall_mem_append] at areBlank
      rw [frontEnds.eq_nil_of_append areBlank.1, List.append_nil] at frontSpells
      exact frontSpells
    · rw [othersSplit, List.forall_mem_append] at othersBlank
      exact frontSpells.append_blanks othersBlank.1
  · exact fun spells => spells.append_blanks areBlank

end Grammar

namespace StyleRule

/-- Characters are read as a rule when they spell it. -/
theorem parse_ofList_eq_ok_iff
    {rule : StyleRule}
    {text : List Char} :
    parse (String.ofList text) = .ok rule ↔ Grammar.SpellsRule .characters rule text := by
  constructor
  · intro parsed
    have spells := spells_of_parse parsed
    rwa [String.toList_ofList] at spells
  · intro spells
    apply parse_of_spells
    rwa [String.toList_ofList]

/-- Blanks behind a text make no difference to the rule that is read from it. -/
theorem parse_append_blanks_iff
    {rule : StyleRule}
    {text blanks : List Char}
    (areBlank : ∀ c ∈ blanks, Text.isBlank c = true) :
    parse (String.ofList (text ++ blanks)) = .ok rule ↔ parse (String.ofList text) = .ok rule := by
  rw [parse_ofList_eq_ok_iff, Grammar.spellsRule_append_blanks_iff areBlank,
    parse_ofList_eq_ok_iff]

/-- Nor do blanks in front of it, if the text is a single line. -/
theorem parse_blanks_append_iff
    {rule : StyleRule}
    {text blanks : List Char}
    (areBlank : ∀ c ∈ blanks, Text.isBlank c = true)
    (blanksNoNewline : '\n' ∉ blanks)
    (textNoNewline : '\n' ∉ text) :
    parse (String.ofList (blanks ++ text)) = .ok rule ↔ parse (String.ofList text) = .ok rule := by
  rw [parse_indented areBlank blanksNoNewline textNoNewline]
  cases parse (String.ofList text) <;> simp [Except.mapError]

/-- The same rules are read from a line and from the trimmed line. -/
theorem parse_trimChars_iff
    {rule : StyleRule}
    {text : List Char}
    (noNewline : '\n' ∉ text) :
    parse (String.ofList text) = .ok rule ↔
      parse (String.ofList (Text.trimChars text)) = .ok rule := by
  obtain ⟨lead, trail, splits, leadBlank, trailBlank⟩ := Text.exists_blanks_around text
  generalize Text.trimChars text = core at splits ⊢
  subst splits
  rw [List.mem_append, not_or] at noNewline
  rw [parse_blanks_append_iff leadBlank noNewline.1 noNewline.2,
    parse_append_blanks_iff trailBlank]

end StyleRule

namespace StyleMap

/-! ## Trimming every line -/

/-- The line without the blanks at both ends. -/
def Line.trimmed (line : Line) : Line :=
  { line with text := Text.trim line.text }

/-- A text with every line trimmed.  The lines are joined by newlines. -/
def trimmedLines (source : String) : String :=
  String.ofList (['\n'].intercalate ((Text.lines source.toList).map Text.trimChars))

theorem Line.holdsRule_trimmed (line : Line) :
    line.trimmed.holdsRule = line.holdsRule := by
  rw [holdsRule, holdsRule, trimmed, Text.toList_trim, Text.trimChars_trimChars]

theorem Line.numberedFrom_map_trimChars
    (number : Nat)
    (texts : List (List Char)) :
    numberedFrom number (texts.map Text.trimChars) = (numberedFrom number texts).map trimmed := by
  induction texts generalizing number with
  | nil => rfl
  | cons cs texts inductionHypothesis =>
      rw [List.map_cons, numberedFrom, numberedFrom, List.map_cons, inductionHypothesis, trimmed,
        Text.trim, String.toList_ofList]

/-- Texts without ends of lines, joined by newlines, hold rules on these lines. -/
theorem ruleLines_intercalate
    {texts : List (List Char)}
    (noNewline : ∀ text ∈ texts, '\n' ∉ text)
    (noReturn : ∀ text ∈ texts, text.getLast? ≠ some '\r') :
    ruleLines (String.ofList (['\n'].intercalate texts)) =
      (Line.numberedFrom 0 texts).filter Line.holdsRule := by
  rw [ruleLines, Line.ofSource_eq, String.toList_ofList]
  rcases Text.lines_intercalate noNewline noReturn with same | lastMissing
  · rw [← same]
  · rw [← filter_holdsRule_concat_nil, ← lastMissing]

/-- The rules of a text with trimmed lines are on the trimmed lines of the text, under the
same numbers. -/
theorem ruleLines_trimmedLines (source : String) :
    ruleLines (trimmedLines source) = (ruleLines source).map Line.trimmed := by
  have noNewline : ∀ text ∈ (Text.lines source.toList).map Text.trimChars, '\n' ∉ text := by
    rw [List.forall_mem_map]
    intro line member inTrimmed
    exact Text.newline_notMem_of_mem_lines member (Text.mem_of_mem_trimChars inTrimmed)
  have noReturn :
      ∀ text ∈ (Text.lines source.toList).map Text.trimChars, text.getLast? ≠ some '\r' := by
    rw [List.forall_mem_map]
    intro line _ isLast
    exact absurd (Text.isBlank_eq_false_of_getLast?_trimChars isLast) (by decide)
  have sameLines : Line.holdsRule ∘ Line.trimmed = Line.holdsRule := by
    funext line
    rw [Function.comp_apply, line.holdsRule_trimmed]
  rw [trimmedLines, ruleLines_intercalate noNewline noReturn, Line.numberedFrom_map_trimChars,
    List.filter_map, sameLines, ruleLines, Line.ofSource_eq]

/-! ## Lines that fail -/

/-- Of a line that is no rule, only its number is kept. -/
theorem Line.mapError_parse (line : Line) :
    line.parse.mapError InvalidRule.line =
      (StyleRule.parse line.text).mapError fun _ => line.number := by
  rw [parse]
  cases StyleRule.parse line.text <;> rfl

/-- Two outcomes with the same value, if any, differ in their errors only. -/
theorem mapError_const_eq
    {outcome : Except ε α}
    {other : Except δ α}
    (sameValues : ∀ value, outcome = .ok value ↔ other = .ok value)
    (fault : γ) :
    (outcome.mapError fun _ => fault) = other.mapError fun _ => fault := by
  cases outcome with
  | ok value =>
      rw [(sameValues value).mp rfl]
      rfl
  | error _ =>
      cases other with
      | ok value => cases (sameValues value).mpr rfl
      | error _ => rfl

/-- A line and the trimmed line are read as the same rule, or neither of them is. -/
theorem Line.mapError_parse_trimmed
    {line : Line}
    (noNewline : '\n' ∉ line.text.toList) :
    line.trimmed.parse.mapError InvalidRule.line = line.parse.mapError InvalidRule.line := by
  rw [mapError_parse, mapError_parse]
  refine mapError_const_eq (fun rule => ?_) line.number
  have sameRules := @StyleRule.parse_trimChars_iff rule _ noNewline
  rw [String.ofList_toList] at sameRules
  exact sameRules.symm

/-- Strict registration goes on to the next line with the rule of this one. -/
theorem Builder.mapError_registerLines_cons
    (line : Line)
    (lines : List Line)
    (builder : Builder) :
    (registerLines .strict (line :: lines) builder).mapError InvalidRule.line =
      line.parse.mapError InvalidRule.line >>= fun rule =>
        (registerLines .strict lines (builder.register rule)).mapError InvalidRule.line := by
  rw [registerLines]
  cases line.parse <;> rfl

/-- Trimmed lines register the same rules, or fail at the same line. -/
theorem Builder.mapError_registerLines_trimmed
    {lines : List Line}
    (noNewline : ∀ line ∈ lines, '\n' ∉ line.text.toList)
    (builder : Builder) :
    (registerLines .strict (lines.map Line.trimmed) builder).mapError InvalidRule.line =
      (registerLines .strict lines builder).mapError InvalidRule.line := by
  induction lines generalizing builder with
  | nil => rfl
  | cons line lines inductionHypothesis =>
      obtain ⟨lineNoNewline, othersNoNewline⟩ := List.forall_mem_cons.mp noNewline
      rw [List.map_cons, mapError_registerLines_cons, mapError_registerLines_cons,
        Line.mapError_parse_trimmed lineNoNewline]
      simp only [inductionHypothesis othersNoNewline]

theorem mapError_parse (source : String) :
    (parse source).mapError InvalidRule.line =
      ((Builder.registerLines .strict (ruleLines source) .empty).mapError InvalidRule.line).map
        fun registered => registered.value.build := by
  rw [parse, Builder.registerSource]
  cases Builder.registerLines .strict (ruleLines source) .empty <;> rfl

/-- A text with trimmed lines is the same style map, or it fails at the same line. -/
theorem mapError_parse_trimmedLines (source : String) :
    (parse (trimmedLines source)).mapError InvalidRule.line =
      (parse source).mapError InvalidRule.line := by
  rw [mapError_parse, mapError_parse, ruleLines_trimmedLines,
    Builder.mapError_registerLines_trimmed fun _ => newline_notMem_of_mem_ruleLines]

/-- A rule is read from a line as from the trimmed line.  Blanks in front of the line change
at most the place of an error: its token stands behind their bytes, and its column is as many
characters further.  So a text whose lines are trimmed gives the same style map, or fails at
the same line. -/
theorem parse_raw_and_trimmed
    {text gap : String}
    (textOnLine : '\n' ∉ text.toList)
    (gapOnLine : '\n' ∉ gap.toList)
    (gapBlank : ∀ c ∈ gap.toList, Text.isBlank c = true)
    (source : String) :
    (∀ rule, StyleRule.parse text = .ok rule ↔ StyleRule.parse (Text.trim text) = .ok rule) ∧
      StyleRule.parse (gap ++ text) =
        (StyleRule.parse text).mapError (ParseError.behind gap.toList) ∧
      (∀ error : ParseError,
        (error.behind gap.toList).text = error.text ∧
          (error.behind gap.toList).token =
            { error.token with
              span :=
                { error.token.span with
                  start := error.token.span.start + gap.utf8ByteSize
                  stop := error.token.span.stop + gap.utf8ByteSize
                  column := error.token.span.column + gap.length } }) ∧
      (parse (trimmedLines source)).mapError InvalidRule.line =
        (parse source).mapError InvalidRule.line := by
  refine ⟨fun rule => ?_, ?_, fun error => ⟨error.text_moved _, ?_⟩,
    mapError_parse_trimmedLines source⟩
  · have sameRules := @StyleRule.parse_trimChars_iff rule _ textOnLine
    rwa [String.ofList_toList] at sameRules
  · have indented := StyleRule.parse_indented gapBlank gapOnLine textOnLine
    rwa [String.ofList_append, String.ofList_toList, String.ofList_toList] at indented
  · rw [← Text.byteSize_toList, ← String.length_toList]
    rfl

/-- An ideographic space and a tab push an error four bytes and two columns along. -/
theorem parse_arrow_missing_behind_blanks :
    StyleRule.parse ("\u3000\t" ++ "p => h1 ") =
        .error ⟨.expected "'->'", ⟨.equals, "=", ⟨6, 7, 1, 5⟩⟩⟩ ∧
      (parse (trimmedLines "\u3000b -> strong \r\n\tp => h1")).mapError InvalidRule.line =
        .error 2 := by
  have outcome :
      StyleRule.parse "p => h1 " = .error ⟨.expected "'->'", ⟨.equals, "=", ⟨2, 3, 1, 3⟩⟩⟩ := by
    decide +kernel
  have sourceOutcome :
      (parse "\u3000b -> strong \r\n\tp => h1").mapError InvalidRule.line = .error 2 := by
    decide +kernel
  have textOnLine : '\n' ∉ "p => h1 ".toList := by decide +kernel
  have gapOnLine : '\n' ∉ "\u3000\t".toList := by decide +kernel
  have gapBlank : ∀ c ∈ "\u3000\t".toList, Text.isBlank c = true :=
    List.all_eq_true.mp (by decide +kernel)
  obtain ⟨_, indented, _, trimmed⟩ :=
    parse_raw_and_trimmed textOnLine gapOnLine gapBlank "\u3000b -> strong \r\n\tp => h1"
  rw [indented, outcome, trimmed, sourceOutcome]
  exact ⟨rfl, rfl⟩

end StyleMap
end StyleRules
