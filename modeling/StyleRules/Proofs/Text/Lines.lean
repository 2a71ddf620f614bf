import StyleRules.Text.Lines

/-!
# Splitting a text into lines

No line has a newline inside (`newline_notMem_of_mem_lines`), and a text that is
made of lines, each followed by a newline, is split into these lines again
(`lines_flatMap`), provided that none of them ends with a carriage return.  Of two
texts put together the lines are those of the first and those of the second
(`lines_append`), provided that the first one ends its last line.
-/

namespace StyleRules
namespace Text

theorem lines_cons
    {c : Char}
    {rest : List Char}
    (notNewline : c ≠ '\n')
    (noPair : ∀ others, c = '\r' -> rest ≠ '\n' :: others) :
    lines (c :: rest) =
      match lines rest with
      | [] => [[c]]
      | line :: others => (c :: line) :: others :=
  lines.eq_4 c rest notNewline noPair

/-- No line has a newline inside. -/
theorem newline_notMem_of_mem_lines
    {cs line : List Char}
    (member : line ∈ lines cs) :
    '\n' ∉ line := by
  induction cs using lines.induct generalizing line with
  | case1 => simp at member
  | case2 rest inductionHypothesis =>
      rw [lines_newline] at member
      rcases List.mem_cons.mp member with rfl | inRest
      · exact List.not_mem_nil
      · exact inductionHypothesis inRest
  | case3 rest inductionHypothesis =>
      rw [lines] at member
      rcases List.mem_cons.mp member with rfl | inRest
      · exact List.not_mem_nil
      · exact inductionHypothesis inRest
  | case4 c rest notNewline noPair restLines _ =>
      rw [lines_cons notNewline noPair, restLines] at member
      obtain rfl := List.mem_singleton.mp member
      simpa using Ne.symm notNewline
  | case5 c rest notNewline noPair first others restLines inductionHypothesis =>
      rw [lines_cons notNewline noPair, restLines] at member
      rcases List.mem_cons.mp member with rfl | inOthers
      · have firstNoNewline : '\n' ∉ first := inductionHypothesis (by simp [restLines])
        simp [Ne.symm notNewline, firstNoNewline]
      · exact inductionHypothesis (by simp [restLines, inOthers])

/-- A line in front of a newline is split off. -/
theorem lines_append_newline
    {line : List Char}
    (rest : List Char)
    (noNewline : '\n' ∉ line)
    (noReturn : line.getLast? ≠ some '\r') :
    lines (line ++ '\n' :: rest) = line :: lines rest := by
  induction line with
  | nil => exact lines_newline rest
  | cons c line inductionHypothesis =>
      obtain ⟨notNewline, noneBehind⟩ := List.ne_and_not_mem_of_not_mem_cons noNewline
      have noPair : ∀ others, c = '\r' -> line ++ '\n' :: rest ≠ '\n' :: others := by
        rintro others rfl same
        cases line with
        | nil => exact absurd rfl noReturn
        | cons next line =>
            obtain ⟨rfl, _⟩ := List.cons.inj same
            exact noneBehind List.mem_cons_self
      have restReturn : line.getLast? ≠ some '\r' := by
        cases line with
        | nil => simp
        | cons next line => simpa using noReturn
      rw [List.cons_append, lines_cons (Ne.symm notNewline) noPair,
        inductionHypothesis noneBehind restReturn]

/-- Lines that are each followed by a newline are split into themselves. -/
theorem lines_flatMap
    {texts : List (List Char)}
    (noNewline : ∀ text ∈ texts, '\n' ∉ text)
    (noReturn : ∀ text ∈ texts, text.getLast? ≠ some '\r') :
    lines (texts.flatMap (· ++ ['\n'])) = texts := by
  induction texts with
  | nil => exact lines_nil
  | cons text texts inductionHypothesis =>
      obtain ⟨headNoNewline, tailNoNewline⟩ := List.forall_mem_cons.mp noNewline
      obtain ⟨headNoReturn, tailNoReturn⟩ := List.forall_mem_cons.mp noReturn
      rw [List.flatMap_cons, List.append_assoc, List.singleton_append,
        lines_append_newline _ headNoNewline headNoReturn,
        inductionHypothesis tailNoNewline tailNoReturn]

/-- Is the text empty, or does it end with a newline?  Then what is put behind it begins
on a line of its own. -/
def EndsLine (cs : List Char) : Prop :=
  ∀ last ∈ cs.getLast?, last = '\n'

-- Named, since the search may try all characters instead of the last one.
instance : DecidablePred EndsLine := fun cs =>
  Option.decidableForallMem cs.getLast?

theorem EndsLine.tail
    {c : Char}
    {rest : List Char}
    (endsLine : EndsLine (c :: rest)) :
    EndsLine rest := by
  intro last isLast
  apply endsLine
  cases rest with
  | nil => simp at isLast
  | cons next rest => simpa using isLast

theorem EndsLine.ne_nil
    {c : Char}
    {rest : List Char}
    (endsLine : EndsLine (c :: rest))
    (notNewline : c ≠ '\n') :
    rest ≠ [] := by
  rintro rfl
  exact notNewline (endsLine c rfl)

theorem EndsLine.append
    {cs more : List Char}
    (endsLine : EndsLine cs)
    (moreEndsLine : EndsLine more) :
    EndsLine (cs ++ more) := by
  intro last isLast
  rw [List.getLast?_append] at isLast
  cases moreLast : more.getLast? with
  | none =>
      rw [moreLast, Option.none_or] at isLast
      exact endsLine last isLast
  | some found =>
      rw [moreLast, Option.some_or] at isLast
      exact moreEndsLine last (moreLast ▸ isLast)

theorem EndsLine.of_newline (cs : List Char) :
    EndsLine (cs ++ ['\n']) := by
  intro last isLast
  simpa [eq_comm] using isLast

end Text
end StyleRules
