import StyleRules.Proofs.Grammar.Indentation

/-!
# The end behind given tokens

A cursor closes a sequence of tokens that lacks the end of the input.  Where the sequence is
what was read from a text, the end stands behind the right number of bytes, but its line and
its column are worked out from the value of the last token, as if that were on one line and
all of its text.  So the end is the one that was read only if the last token is not a class
name, whose value lacks the dot, and does not go beyond its line
(`remaining_ofTokens_dropLast`).
-/

namespace StyleRules

namespace Token

/-- A token was read from its value, or from a dot and its value if it is a class name. -/
theorem exists_text_eq_append (token : Token) :
    ∃ dot, token.text = dot ++ token.value.toList ∧ '\n' ∉ dot ∧
      dot.length = if token.kind = .className then 1 else 0 := by
  rw [text]
  split
  · rename_i isClassName
    exact ⟨['.'], rfl, by simp, (if_pos isClassName).symm⟩
  · rename_i notClassName
    exact ⟨[], rfl, List.not_mem_nil, (if_neg notClassName).symm⟩

theorem placeWords_concat
    (position : Text.Position)
    (lexemes : List Lexeme)
    (last : Lexeme) :
    placeWords position (lexemes ++ [last]) =
      placeWords position lexemes ++
        [ofLexeme (position.advanceAll (lexemes.flatMap Lexeme.text)) last] := by
  induction lexemes generalizing position with
  | nil => rfl
  | cons lexeme lexemes inductionHypothesis =>
      rw [List.cons_append, placeWords, inductionHypothesis, placeWords, List.flatMap_cons,
        Text.Position.advanceAll_append, List.cons_append]

/-- The end of a text stands behind its last word, if there is one. -/
theorem getLast?_wordsOf (source : String) :
    ((wordsOf source).getLast? = none ∧ endOf source = endAt .start) ∨
      ∃ lexeme reached, lexeme.WellFormed ∧
        (wordsOf source).getLast? = some (ofLexeme reached lexeme) ∧
        endOf source = endAt (reached.advanceAll lexeme.text) := by
  have joined := Lexeme.flatMap_text_lexemes source.toList
  rcases List.eq_nil_or_concat' (Lexeme.lexemes source.toList) with none | ⟨others, last, splits⟩
  · refine .inl ⟨by rw [wordsOf, none]; rfl, ?_⟩
    rw [endOf, ← joined, none]
    rfl
  · have member : last ∈ Lexeme.lexemes source.toList := by simp [splits]
    refine .inr ⟨last, Text.Position.start.advanceAll (others.flatMap Lexeme.text),
      Lexeme.wellFormed_of_mem_lexemes member, ?_, ?_⟩
    · rw [wordsOf, splits, placeWords_concat, List.getLast?_concat]
    · rw [endOf, ← joined, splits, List.flatMap_append, List.flatMap_singleton,
        Text.Position.advanceAll_append]

theorem dropLast_tokenize (source : String) :
    (tokenize source).dropLast = wordsOf source := by
  rw [tokenize_eq_append, List.dropLast_concat]

end Token

namespace Cursor

/-- A sequence with the end of the input behind it, if it does not end with one. -/
def closed (tokens : List Token) : List Token :=
  if tokens.getLast?.map Token.kind = some .endOfInput then tokens
  else tokens ++ [endAfter tokens.getLast?]

/-- A cursor for given tokens stands before these tokens, closed. -/
theorem remaining_ofTokens_eq_closed (tokens : List Token) :
    (ofTokens tokens).remaining = closed tokens := by
  rw [ofTokens, closed]
  split
  · rename_i isEmpty
    rw [isEmpty]
    rfl
  · rename_i last isLast
    rw [isLast]
    by_cases isEnd : last.kind = .endOfInput
    · rw [dif_pos isEnd, Option.map_some, if_pos (congrArg some isEnd)]
      exact List.dropLast_append_getLast? last isLast
    · rw [dif_neg isEnd, Option.map_some, if_neg (by simpa using isEnd)]
      rfl

theorem remaining_ofSource (source : String) :
    (ofSource source).remaining = Token.wordsOf source ++ [Token.endOf source] := by
  rw [ofSource_eq, remaining, pushAll, atEndOf, List.append_nil]

theorem remaining_ofTokens_wordsOf (source : String) :
    (ofTokens (Token.wordsOf source)).remaining =
      Token.wordsOf source ++ [endAfter (Token.wordsOf source).getLast?] := by
  rw [remaining_ofTokens_eq_closed, closed, if_neg]
  intro endsWithEnd
  obtain ⟨last, isLast, isEnd⟩ := Option.map_eq_some_iff.mp endsWithEnd
  exact Token.kind_ne_endOfInput_of_mem_wordsOf (List.mem_of_getLast? isLast) isEnd

/-! ## The place of the end -/

/-- How the end that is put behind a word and the end that is read behind it differ. -/
structure EndsDiffer (word put read : Token) : Prop where
  kind_eq : put.kind = read.kind
  value_eq : put.value = read.value
  start_eq : put.span.start = read.span.start
  stop_eq : put.span.stop = read.span.stop
  line_eq : put.span.line + word.value.toList.count '\n' = read.span.line
  column_eq : '\n' ∉ word.value.toList ->
    put.span.column + (if word.kind = .className then 1 else 0) = read.span.column

theorem endsDiffer_ofLexeme
    {lexeme : Lexeme}
    (wellFormed : lexeme.WellFormed)
    (reached : Text.Position) :
    EndsDiffer (Token.ofLexeme reached lexeme) (endAfter (Token.ofLexeme reached lexeme))
      (Token.endAt (reached.advanceAll lexeme.text)) := by
  obtain ⟨dot, textEquality, noneInDot, dotLength⟩ :=
    (Token.ofLexeme reached lexeme).exists_text_eq_append
  rw [Token.text_ofLexeme reached wellFormed] at textEquality
  constructor
  · rfl
  · rfl
  · rfl
  · rfl
  · change reached.line + _ = (reached.advanceAll lexeme.text).line
    rw [Text.Position.line_advanceAll, textEquality, List.count_append,
      List.count_eq_zero.mpr noneInDot, Nat.zero_add]
  · intro noneInValue
    have noNewline : '\n' ∉ lexeme.text := by
      rw [textEquality, List.mem_append, not_or]
      exact ⟨noneInDot, noneInValue⟩
    change reached.column + _ + _ = (reached.advanceAll lexeme.text).column
    rw [Text.Position.advanceAll_eq_behind noNewline, textEquality, ← dotLength]
    simp only [Text.Position.behind, List.length_append, String.length_toList]
    omega

theorem EndsDiffer.eq_iff
    {word put read : Token}
    (differ : EndsDiffer word put read) :
    put = read ↔ word.kind ≠ .className ∧ '\n' ∉ word.value.toList := by
  obtain ⟨kindEquality, valueEquality, startEquality, stopEquality, lineEquality, columnEquality⟩ :=
    differ
  constructor
  · rintro rfl
    have noNewline : '\n' ∉ word.value.toList := List.count_eq_zero.mp (by omega)
    refine ⟨fun isClassName => ?_, noNewline⟩
    have sameColumn := columnEquality noNewline
    rw [if_pos isClassName] at sameColumn
    omega
  · rintro ⟨notClassName, noNewline⟩
    have sameColumn := columnEquality noNewline
    rw [if_neg notClassName, Nat.add_zero] at sameColumn
    rw [List.count_eq_zero.mpr noNewline, Nat.add_zero] at lineEquality
    obtain ⟨putKind, putValue, ⟨putStart, putStop, putLine, putColumn⟩⟩ := put
    obtain ⟨_, _, ⟨_, _, _, _⟩⟩ := read
    simp only at kindEquality valueEquality startEquality stopEquality lineEquality sameColumn
    rw [kindEquality, valueEquality, startEquality, stopEquality, lineEquality, sameColumn]

/-- A cursor over the words of a text without their end holds the same words as the cursor
over the text, and one end of the input behind them, behind the same number of bytes.  It is
the end that was read, unless the last word is a class name, behind which it is one column
short, or goes on over more lines, behind which it is still put on the first of them. -/
theorem remaining_ofTokens_dropLast (source : String) :
    ∃ words put read,
      (ofTokens (Token.tokenize source).dropLast).remaining = words ++ [put] ∧
      (ofSource source).remaining = words ++ [read] ∧
      (words = [] -> put = read) ∧
      (∀ last ∈ words.getLast?, EndsDiffer last put read) ∧
      ((ofTokens (Token.tokenize source).dropLast).remaining = (ofSource source).remaining ↔
        ∀ last ∈ words.getLast?, last.kind ≠ .className ∧ '\n' ∉ last.value.toList) := by
  rw [Token.dropLast_tokenize, remaining_ofTokens_wordsOf, remaining_ofSource,
    List.append_cancel_left_eq, List.cons.injEq, and_iff_left rfl]
  refine ⟨Token.wordsOf source, endAfter (Token.wordsOf source).getLast?, Token.endOf source,
    rfl, rfl, ?_⟩
  rcases Token.getLast?_wordsOf source with
    ⟨isEmpty, ends⟩ | ⟨lexeme, reached, wellFormed, isLast, ends⟩
  · rw [isEmpty, ends]
    exact ⟨fun _ => rfl, by simp, fun _ => by simp, fun _ => rfl⟩
  · rw [isLast, ends]
    have differ := endsDiffer_ofLexeme wellFormed reached
    refine ⟨fun isEmpty => ?_, ?_, ?_⟩
    · rw [isEmpty] at isLast
      cases isLast
    · rintro _ ⟨⟩
      exact differ
    · rw [differ.eq_iff]
      simp

/-- The end behind a class name is one column short, and the end behind a quoted string over
two lines is put on the first one. -/
theorem end_behind_className_ne :
    (ofTokens (Token.tokenize "p.a").dropLast).remaining ≠ (ofSource "p.a").remaining ∧
      (ofTokens (Token.tokenize "p.a").dropLast).stop = ⟨.endOfInput, "", ⟨3, 3, 1, 3⟩⟩ ∧
      (ofSource "p.a").stop = ⟨.endOfInput, "", ⟨3, 3, 1, 4⟩⟩ ∧
      (ofTokens (Token.tokenize "'\n'").dropLast).stop = ⟨.endOfInput, "", ⟨3, 3, 1, 4⟩⟩ ∧
      (ofSource "'\n'").stop = ⟨.endOfInput, "", ⟨3, 3, 2, 2⟩⟩ := by
  decide +kernel

end Cursor
end StyleRules
