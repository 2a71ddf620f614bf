import StyleRules.Proofs.Text.Lines

/-!
# Lines and what ends them

A text is made of its lines, each with the characters that end it (`endedLines`); so one
line can be changed with all others left as they are.  Lines that are changed so put
together a text with just these lines (`WellEnded.lines_flatMap_text`), except that an
empty line at the end of the text, with nothing behind it, is none.
-/

namespace StyleRules
namespace Text

/-- A line and the characters that end it. -/
structure EndedLine where
  content : List Char
  ending : List Char
  deriving DecidableEq

/-- The characters of a line and of its ending. -/
def EndedLine.text (line : EndedLine) : List Char :=
  line.content ++ line.ending

/-- The line with its ending, but emptied if its characters are among those given. -/
def EndedLine.emptiedIf (empties : List Char -> Bool) (line : EndedLine) : EndedLine :=
  { line with content := if empties line.content then [] else line.content }

/-- The lines of a text with what ends them. -/
def endedLines : List Char -> List EndedLine
  | [] => []
  | '\n' :: rest => ⟨[], ['\n']⟩ :: endedLines rest
  | '\r' :: '\n' :: rest => ⟨[], ['\r', '\n']⟩ :: endedLines rest
  | c :: rest =>
      match endedLines rest with
      | [] => [⟨[c], []⟩]
      | line :: others => { line with content := c :: line.content } :: others

/-- The lines of a text and what ends them are all of the text. -/
theorem flatMap_text_endedLines (cs : List Char) :
    (endedLines cs).flatMap EndedLine.text = cs := by
  fun_induction endedLines cs with
  | case1 => rfl
  | case2 rest inductionHypothesis => simp [EndedLine.text, inductionHypothesis]
  | case3 rest inductionHypothesis => simp [EndedLine.text, inductionHypothesis]
  | case4 c rest notNewline noPair restLines inductionHypothesis =>
      rw [restLines] at inductionHypothesis
      simpa [EndedLine.text] using inductionHypothesis
  | case5 c rest notNewline noPair line others restLines inductionHypothesis =>
      rw [restLines] at inductionHypothesis
      simpa [EndedLine.text] using inductionHypothesis

/-- Without what ends them they are the lines of the text. -/
theorem map_content_endedLines (cs : List Char) :
    (endedLines cs).map EndedLine.content = lines cs := by
  fun_induction endedLines cs with
  | case1 => simp
  | case2 rest inductionHypothesis => simp [inductionHypothesis]
  | case3 rest inductionHypothesis => simp [lines, inductionHypothesis]
  | case4 c rest notNewline noPair restLines inductionHypothesis =>
      rw [restLines] at inductionHypothesis
      rw [lines_cons notNewline noPair, ← inductionHypothesis]
      rfl
  | case5 c rest notNewline noPair line others restLines inductionHypothesis =>
      rw [restLines] at inductionHypothesis
      rw [lines_cons notNewline noPair, ← inductionHypothesis]
      rfl

/-- Does every line but the last have an ending that is its own?  A line before a lone
newline cannot end with a carriage return, which would belong to the ending. -/
inductive WellEnded : List EndedLine -> Prop
  | nothing : WellEnded []
  | unended {content : List Char} (noNewline : '\n' ∉ content) : WellEnded [⟨content, []⟩]
  | newline
      {content : List Char}
      {others : List EndedLine}
      (noNewline : '\n' ∉ content)
      (noReturn : content.getLast? ≠ some '\r')
      (rest : WellEnded others) :
      WellEnded (⟨content, ['\n']⟩ :: others)
  | returnNewline
      {content : List Char}
      {others : List EndedLine}
      (noNewline : '\n' ∉ content)
      (rest : WellEnded others) :
      WellEnded (⟨content, ['\r', '\n']⟩ :: others)

namespace WellEnded

/-- A character in front of the first line keeps every ending, unless it is a carriage
return that comes before a newline. -/
theorem cons
    {c : Char}
    {line : EndedLine}
    {others : List EndedLine}
    (wellEnded : WellEnded (line :: others))
    (notNewline : c ≠ '\n')
    (noPair : c = '\r' -> line ≠ ⟨[], ['\n']⟩) :
    WellEnded ({ line with content := c :: line.content } :: others) := by
  have notIn : ∀ content : List Char, '\n' ∉ content -> '\n' ∉ c :: content := by
    intro content noNewline
    simp [Ne.symm notNewline, noNewline]
  cases wellEnded with
  | unended noNewline => exact .unended (notIn _ noNewline)
  | returnNewline noNewline rest => exact .returnNewline (notIn _ noNewline) rest
  | @newline content _ noNewline noReturn rest =>
      refine .newline (notIn _ noNewline) ?_ rest
      cases content with
      | nil =>
          rintro ⟨⟩
          exact noPair rfl rfl
      | cons first content => simpa using noReturn

/-- Lines that are emptied keep their endings. -/
theorem emptiedIf
    {ended : List EndedLine}
    (wellEnded : WellEnded ended)
    (empties : List Char -> Bool) :
    WellEnded (ended.map (EndedLine.emptiedIf empties)) := by
  have notIn : ∀ content : List Char, '\n' ∉ content ->
      '\n' ∉ if empties content then [] else content := by
    intro content noNewline
    split
    · exact List.not_mem_nil
    · exact noNewline
  induction wellEnded with
  | nothing => exact .nothing
  | unended noNewline => exact .unended (notIn _ noNewline)
  | returnNewline noNewline _ inductionHypothesis =>
      exact .returnNewline (notIn _ noNewline) inductionHypothesis
  | newline noNewline noReturn _ inductionHypothesis =>
      refine .newline (notIn _ noNewline) ?_ inductionHypothesis
      dsimp only
      split
      · simp
      · exact noReturn

end WellEnded

theorem wellEnded_endedLines (cs : List Char) :
    WellEnded (endedLines cs) := by
  fun_induction endedLines cs with
  | case1 => exact .nothing
  | case2 rest inductionHypothesis =>
      exact .newline List.not_mem_nil (by simp) inductionHypothesis
  | case3 rest inductionHypothesis => exact .returnNewline List.not_mem_nil inductionHypothesis
  | case4 c rest notNewline noPair restLines inductionHypothesis =>
      exact .unended (by simpa using Ne.symm notNewline)
  | case5 c rest notNewline noPair line others restLines inductionHypothesis =>
      rw [restLines] at inductionHypothesis
      refine inductionHypothesis.cons notNewline ?_
      rintro isReturn rfl
      have restText := flatMap_text_endedLines rest
      rw [restLines] at restText
      exact noPair _ isReturn restText.symm

/-- A line in front of a carriage return and a newline is split off. -/
theorem lines_append_returnNewline
    {line : List Char}
    (rest : List Char)
    (noNewline : '\n' ∉ line) :
    lines (line ++ '\r' :: '\n' :: rest) = line :: lines rest := by
  induction line with
  | nil => rw [List.nil_append, lines]
  | cons c line inductionHypothesis =>
      obtain ⟨notNewline, noneBehind⟩ := List.ne_and_not_mem_of_not_mem_cons noNewline
      have noPair : ∀ others, c = '\r' -> line ++ '\r' :: '\n' :: rest ≠ '\n' :: others := by
        intro others _ same
        cases line with
        | nil => exact absurd (List.cons.inj same).1 (by decide)
        | cons next line =>
            obtain ⟨rfl, _⟩ := List.cons.inj same
            exact noneBehind List.mem_cons_self
      rw [List.cons_append, lines_cons (Ne.symm notNewline) noPair,
        inductionHypothesis noneBehind]

/-- A line without a newline behind it is all of its text, unless it is empty. -/
theorem lines_of_notMem
    {line : List Char}
    (noNewline : '\n' ∉ line)
    (notEmpty : line ≠ []) :
    lines line = [line] := by
  induction line with
  | nil => exact absurd rfl notEmpty
  | cons c line inductionHypothesis =>
      obtain ⟨notNewline, noneBehind⟩ := List.ne_and_not_mem_of_not_mem_cons noNewline
      have noPair : ∀ others, c = '\r' -> line ≠ '\n' :: others := by
        rintro others _ rfl
        exact noneBehind List.mem_cons_self
      rw [lines_cons (Ne.symm notNewline) noPair]
      cases line with
      | nil => simp
      | cons next line => rw [inductionHypothesis noneBehind (by simp)]

/-- The lines of a text that is put together from lines and endings are these lines; one
at the end that is empty may be missing. -/
theorem WellEnded.lines_flatMap_text
    {ended : List EndedLine}
    (wellEnded : WellEnded ended) :
    ended.map EndedLine.content = lines (ended.flatMap EndedLine.text) ∨
      ended.map EndedLine.content = lines (ended.flatMap EndedLine.text) ++ [[]] := by
  induction wellEnded with
  | nothing => exact .inl rfl
  | @unended content noNewline =>
      by_cases isEmpty : content = []
      · -- Nothing ends this line and nothing is on it, so the text does not show it.
        subst isEmpty
        exact .inr rfl
      · simp [EndedLine.text, lines_of_notMem noNewline isEmpty]
  | newline noNewline noReturn _ inductionHypothesis =>
      simpa [EndedLine.text, lines_append_newline _ noNewline noReturn] using inductionHypothesis
  | returnNewline noNewline _ inductionHypothesis =>
      simpa [EndedLine.text, lines_append_returnNewline _ noNewline] using inductionHypothesis

/-- A line in front of others is ended, by one newline. -/
theorem WellEnded.uncons
    {first : EndedLine}
    {others : List EndedLine}
    (wellEnded : WellEnded (first :: others))
    (notLast : others ≠ []) :
    EndsLine first.text ∧ first.text.count '\n' = 1 ∧ WellEnded others := by
  cases wellEnded with
  | unended _ => exact absurd rfl notLast
  | @newline content _ noNewline _ rest =>
      refine ⟨EndsLine.of_newline content, ?_, rest⟩
      simp [EndedLine.text, List.count_eq_zero_of_not_mem noNewline]
  | @returnNewline content _ noNewline rest =>
      refine ⟨?_, ?_, rest⟩
      · simpa [EndedLine.text] using EndsLine.of_newline (content ++ ['\r'])
      · simp [EndedLine.text, List.count_eq_zero_of_not_mem noNewline]

/-- The lines in front of another one all end, each with one newline. -/
theorem WellEnded.front
    {earlier later : List EndedLine}
    {line : EndedLine}
    (wellEnded : WellEnded (earlier ++ line :: later)) :
    EndsLine (earlier.flatMap EndedLine.text) ∧
      (earlier.flatMap EndedLine.text).count '\n' = earlier.length ∧
      '\n' ∉ line.content := by
  induction earlier with
  | nil =>
      refine ⟨by simp [EndsLine], rfl, ?_⟩
      cases wellEnded with
      | unended noNewline => exact noNewline
      | newline noNewline _ _ => exact noNewline
      | returnNewline noNewline _ => exact noNewline
  | cons first earlier inductionHypothesis =>
      obtain ⟨firstEnds, oneNewline, rest⟩ := wellEnded.uncons (by simp)
      obtain ⟨endsLine, newlines, lineNoNewline⟩ := inductionHypothesis rest
      refine ⟨firstEnds.append endsLine, ?_, lineNoNewline⟩
      rw [List.flatMap_cons, List.count_append, oneNewline, newlines, List.length_cons,
        Nat.add_comm]

end Text
end StyleRules
