import StyleRules.Proofs.Parser.Errors
import StyleRules.Proofs.StyleMap.Strictness
import StyleRules.Proofs.Token.Coverage

/-!
# Where an invalid rule stands

A line is read on its own, so the places of its tokens are places in the line.  The
failure that is reported for it names its line in the whole text, and with that the place
of the blamed token in the whole text, since a line has no newline inside and lines are
counted as newlines are (`parse_error_names_place`).
-/

namespace StyleRules

namespace Text

/-- A place in a line has the column that it has in the whole text. -/
theorem column_behind_lines
    {front before : List Char}
    (endsLine : EndsLine front)
    (noNewline : '\n' ∉ before) :
    ((front ++ before).reverse.takeWhile (· != '\n')).length =
      (before.reverse.takeWhile (· != '\n')).length := by
  have allPassed : ∀ c ∈ before.reverse, (c != '\n') = true := by
    intro c member
    rw [bne_iff_ne]
    rintro rfl
    exact noNewline (List.mem_reverse.mp member)
  have stopsInFront : front.reverse.takeWhile (· != '\n') = [] := by
    cases reversed : front.reverse with
    | nil => rfl
    | cons last others =>
        have isLast : front.getLast? = some last := by
          rw [← List.head?_reverse, reversed, List.head?_cons]
        rw [endsLine last isLast]
        rfl
  rw [List.reverse_append, List.takeWhile_append_of_pos allPassed, stopsInFront, List.append_nil,
    List.takeWhile_eq_self_iff.mpr allPassed]

end Text

theorem Token.StandsBetween.text_eq
    {token : Token}
    {before text behind : List Char}
    (stands : token.StandsBetween before text behind) :
    text = token.text := by
  by_cases isClassName : token.kind = .className
  · rw [stands.className_text isClassName, Token.text, isClassName]
  · rw [stands.value_text isClassName, Alphabet.text_eq_value isClassName]

/-- The blamed token stands somewhere in its line. -/
theorem StyleRule.exists_standsBetween_of_parse_eq_error
    {cs : List Char}
    {error : ParseError}
    (failed : parse (String.ofList cs) = .error error) :
    ∃ before text behind, cs = before ++ text ++ behind ∧
      error.token.StandsBetween before text behind := by
  have member := mem_tokenize_of_parse_eq_error failed
  rw [Token.tokenize, String.toList_ofList] at member
  obtain ⟨before, text, behind, splits, stands⟩ :=
    Token.standsBetween_of_mem_place [] (fun _ => Lexeme.wellFormed_of_mem_lexemes) member
  rw [List.nil_append, Lexeme.flatMap_text_lexemes] at splits
  exact ⟨before, text, behind, splits, stands⟩

namespace StyleMap

/-- Is there nothing wrong with the line?  It is blank or a comment, or it is a rule. -/
def IsUnderstood (text : String) : Prop :=
  Text.trim text = "" ∨ (Text.trim text).toList.head? = some '#' ∨
    ∃ rule, StyleRule.parse text = .ok rule

theorem isUnderstood_iff {text : String} :
    IsUnderstood text ↔ rejection? text = none := by
  rw [IsUnderstood, rejection?, ← or_assoc]
  split
  · rename_i saysNothing
    exact ⟨fun _ => rfl, fun _ => .inl saysNothing⟩
  · rename_i saysSomething
    rw [or_iff_right saysSomething]
    cases StyleRule.parse text <;> simp

theorem parse_of_rejection?
    {text : String}
    {error : ParseError}
    (rejected : rejection? text = some error) :
    StyleRule.parse text = .error error := by
  rw [rejection?] at rejected
  split at rejected
  · cases rejected
  · cases outcome : StyleRule.parse text with
    | ok rule => rw [outcome] at rejected; cases rejected
    | error found => rw [outcome] at rejected; cases rejected; rfl

/-- The first rejected one among numbered lines comes behind lines that are all
understood. -/
theorem exists_of_rejectionsOf_numberedFrom
    {number : Nat}
    {ended : List Text.EndedLine}
    {first : Rejection}
    {others : List Rejection}
    (rejected :
      rejectionsOf (Line.numberedFrom number (ended.map Text.EndedLine.content)) =
        first :: others) :
    ∃ earlier line later, ended = earlier ++ line :: later ∧
      (∀ passed ∈ earlier, IsUnderstood (String.ofList passed.content)) ∧
      first.line = ⟨number + earlier.length + 1, String.ofList line.content⟩ ∧
      rejection? (String.ofList line.content) = some first.error := by
  induction ended generalizing number with
  | nil => cases rejected
  | cons line ended inductionHypothesis =>
      rw [List.map_cons, Line.numberedFrom] at rejected
      cases lineRejected : rejection? (String.ofList line.content) with
      | some error =>
          rw [rejectionsOf_cons_of_rejected lineRejected] at rejected
          obtain ⟨rfl, _⟩ := List.cons.inj rejected
          exact ⟨[], line, ended, rfl, List.forall_mem_nil _, rfl, lineRejected⟩
      | none =>
          rw [rejectionsOf_cons_of_not_rejected lineRejected] at rejected
          obtain ⟨earlier, found, later, rfl, understood, isLine, isRejected⟩ :=
            inductionHypothesis rejected
          refine ⟨line :: earlier, found, later, rfl,
            List.forall_mem_cons.mpr ⟨isUnderstood_iff.mpr lineRejected, understood⟩, ?_,
            isRejected⟩
          rw [isLine, List.length_cons, Nat.add_assoc number, Nat.add_comm 1]

/-- Is this where the failure stands in the text?  Its line comes behind the earlier ones.
Its token comes behind `before`, which has as many bytes as there are in front of the line
and in front of the token on the line. -/
structure InvalidRule.StandsAt
    (invalid : InvalidRule)
    (source : String)
    (earlier : List Text.EndedLine)
    (line : Text.EndedLine)
    (before : List Char) :
    Prop where
  /-- Without what ends them, these are the lines of the text (`Text.map_content_endedLines`). -/
  lines_eq : ∃ later, Text.endedLines source.toList = earlier ++ line :: later
  line_eq : invalid.line = earlier.length + 1
  /-- The line itself is no rule, for the reason that the failure gives. -/
  error_eq : ∃ error, StyleRule.parse (String.ofList line.content) = .error error ∧
    invalid.error = error.atLine invalid.line
  before_eq : ∃ behind,
    Text.splitBytes?
        (Text.byteSize (earlier.flatMap Text.EndedLine.text) + invalid.error.token.span.start)
        source.toList =
      some (before, behind)
  token_line_eq : invalid.error.token.span.line = 1 + before.count '\n'
  token_column_eq :
    invalid.error.token.span.column = 1 + (before.reverse.takeWhile (· != '\n')).length
  /-- The token is what stands on the line between its two offsets. -/
  token_text : invalid.error.token.sourceText? (String.ofList line.content) =
    some (String.ofList invalid.error.token.text)

/-- An error on a line stands where the line and the blamed token stand in the whole
text. -/
theorem exists_standsAt
    {source : String}
    {earlier later : List Text.EndedLine}
    {line : Text.EndedLine}
    {error : ParseError}
    (splits : Text.endedLines source.toList = earlier ++ line :: later)
    (failed : StyleRule.parse (String.ofList line.content) = .error error) :
    ∃ before,
      (⟨earlier.length + 1, error.atLine (earlier.length + 1)⟩ : InvalidRule).StandsAt
        source earlier line before := by
  have wellEnded := Text.wellEnded_endedLines source.toList
  have allText := Text.flatMap_text_endedLines source.toList
  rw [splits] at wellEnded allText
  obtain ⟨endsLine, newlines, noNewline⟩ := wellEnded.front
  obtain ⟨passed, text, behind, lineSplits, stands⟩ :=
    StyleRule.exists_standsBetween_of_parse_eq_error failed
  have noneInPassed : '\n' ∉ passed := by
    intro inPassed
    rw [lineSplits] at noNewline
    simp [inPassed] at noNewline
  have sourceSplits : source.toList =
      (earlier.flatMap Text.EndedLine.text ++ passed) ++
        (text ++ behind ++ line.ending ++ later.flatMap Text.EndedLine.text) := by
    rw [← allText, List.flatMap_append, List.flatMap_cons, Text.EndedLine.text, lineSplits]
    simp only [List.append_assoc]
  have offsetSplits : Text.splitBytes?
        (Text.byteSize (earlier.flatMap Text.EndedLine.text) + error.token.span.start)
        source.toList =
      some (earlier.flatMap Text.EndedLine.text ++ passed,
        text ++ behind ++ line.ending ++ later.flatMap Text.EndedLine.text) := by
    rw [stands.start_eq, ← Text.byteSize_append, sourceSplits, Text.splitBytes?_append]
  refine ⟨earlier.flatMap Text.EndedLine.text ++ passed, ⟨later, splits⟩, rfl,
    ⟨error, failed, rfl⟩, ⟨_, offsetSplits⟩, ?_, ?_, ?_⟩
  · rw [List.count_append, newlines, List.count_eq_zero_of_not_mem noneInPassed, Nat.add_zero,
      Nat.add_comm]
    rfl
  · rw [Text.column_behind_lines endsLine noneInPassed]
    exact stands.column_eq
  · have tokenText := stands.source_text (String.ofList line.content)
      (by rw [String.toList_ofList, lineSplits])
    rw [stands.text_eq] at tokenText
    exact tokenText

/-- A failure of a text names its first line that is not understood, and the place of the
blamed token in the whole text. -/
theorem parse_error_names_place
    {source : String}
    {invalid : InvalidRule}
    (failed : parse source = .error invalid) :
    ∃ earlier line before, invalid.StandsAt source earlier line before ∧
      (∀ passed ∈ earlier, IsUnderstood (String.ofList passed.content)) ∧
      ¬ IsUnderstood (String.ofList line.content) := by
  obtain ⟨⟨_, error⟩, others, rejected, rfl⟩ := parse_eq_error_iff.mp failed
  rw [rejections, Line.ofSource_eq, ← Text.map_content_endedLines] at rejected
  obtain ⟨earlier, line, later, splits, understood, isLine, lineRejected⟩ :=
    exists_of_rejectionsOf_numberedFrom rejected
  rw [Nat.zero_add] at isLine
  subst isLine
  obtain ⟨before, stands⟩ := exists_standsAt splits (parse_of_rejection? lineRejected)
  refine ⟨earlier, line, before, stands, understood, ?_⟩
  rw [isUnderstood_iff, lineRejected]
  exact Option.some_ne_none error

/-- The second element of the path stands on the second line, where it comes behind blanks
and a letter of two bytes. -/
theorem place_behind_comment :
    parse "# ü\r\n\t p.ß -> h1 h2\r\n" =
        .error ⟨2, ⟨.expected "end of input", ⟨.identifier, "h2", ⟨13, 15, 2, 13⟩⟩⟩⟩ ∧
      ∃ earlier line before,
        (⟨2, ⟨.expected "end of input", ⟨.identifier, "h2", ⟨13, 15, 2, 13⟩⟩⟩⟩ :
            InvalidRule).StandsAt "# ü\r\n\t p.ß -> h1 h2\r\n" earlier line before ∧
          (∀ passed ∈ earlier, IsUnderstood (String.ofList passed.content)) ∧
          ¬ IsUnderstood (String.ofList line.content) := by
  have failed : parse "# ü\r\n\t p.ß -> h1 h2\r\n" =
      .error ⟨2, ⟨.expected "end of input", ⟨.identifier, "h2", ⟨13, 15, 2, 13⟩⟩⟩⟩ := by
    decide +kernel
  exact ⟨failed, parse_error_names_place failed⟩

end StyleMap
end StyleRules
