import StyleRules.Proofs.Token.Shape
import StyleRules.Token.Tokenize
import Mathlib.Data.List.Chain
import Mathlib.Data.List.Induction

/-!
# Tokens cover their text

The tokens of a text stand side by side from its first to its last character.
Each knows the place where it stands: the bytes, the newlines and the characters
since the last newline before it are those of the text in front of it.  The one
token for the end of the input stands behind all others.
-/

namespace StyleRules

namespace Text

theorem byteSize_toList (text : String) :
    byteSize text.toList = text.utf8ByteSize := by
  suffices sizes : ∀ cs, byteSize cs = (String.ofList cs).utf8ByteSize by
    rw [sizes, String.ofList_toList]
  intro cs
  induction cs with
  | nil => rfl
  | cons c cs inductionHypothesis =>
      rw [byteSize_cons, inductionHypothesis, String.ofList_cons, String.utf8ByteSize_append,
        String.utf8ByteSize_singleton]

theorem byteSize_pos
    {cs : List Char}
    (nonempty : cs ≠ []) :
    0 < byteSize cs := by
  cases cs with
  | nil => exact absurd rfl nonempty
  | cons c cs =>
      have sizePos : 0 < c.utf8Size := c.utf8Size_pos
      rw [byteSize_cons]
      omega

theorem slice?_of_append
    {text : String}
    {before part behind : List Char}
    (splits : text.toList = before ++ part ++ behind) :
    slice? text (byteSize before) (byteSize before + byteSize part) =
      some (String.ofList part) := by
  have ordered : byteSize before ≤ byteSize before + byteSize part := by omega
  rw [slice?, splits, List.append_assoc, splitBytes?_append]
  simp only [Option.bind_eq_bind, Option.bind_some]
  rw [if_pos ordered, Nat.add_sub_cancel_left, splitBytes?_append]
  rfl

theorem append_of_splitBytes?
    {count : Nat}
    {cs part rest : List Char}
    (splits : splitBytes? count cs = some (part, rest)) :
    part ++ rest = cs ∧ byteSize part = count := by
  induction cs generalizing count part with
  | nil =>
      cases count with
      | zero =>
          cases splits
          exact ⟨rfl, rfl⟩
      | succ count => cases splits
  | cons c cs inductionHypothesis =>
      cases count with
      | zero =>
          cases splits
          exact ⟨rfl, rfl⟩
      | succ count =>
          rw [splitBytes?] at splits
          split at splits
          · rename_i fits
            obtain ⟨⟨taken, others⟩, restSplits, same⟩ := Option.map_eq_some_iff.mp splits
            cases same
            obtain ⟨rfl, sizeEquality⟩ := inductionHypothesis restSplits
            refine ⟨rfl, ?_⟩
            rw [byteSize_cons, sizeEquality]
            omega
          · cases splits

/-- A slice is what lies between two parts of the text that fill the bytes in front of it and
behind it. -/
theorem exists_of_slice?
    {text part : String}
    {start stop : Nat}
    (sliced : slice? text start stop = some part) :
    ∃ before behind, text.toList = before ++ part.toList ++ behind ∧
      byteSize before = start ∧ byteSize before + byteSize part.toList = stop := by
  simp only [slice?, Option.bind_eq_bind, Option.bind_eq_some_iff] at sliced
  obtain ⟨⟨before, fromStart⟩, startSplits, sliced⟩ := sliced
  split at sliced
  · rename_i ordered
    obtain ⟨⟨taken, behind⟩, stopSplits, same⟩ := Option.bind_eq_some_iff.mp sliced
    cases same
    obtain ⟨joined, startSize⟩ := append_of_splitBytes? startSplits
    obtain ⟨rfl, partSize⟩ := append_of_splitBytes? stopSplits
    refine ⟨before, behind, ?_, startSize, ?_⟩
    · rw [String.toList_ofList, ← joined, List.append_assoc]
    · rw [String.toList_ofList, startSize, partSize, Nat.add_sub_cancel' ordered]
  · cases sliced

namespace Position

theorem offset_advanceAll
    (position : Position)
    (cs : List Char) :
    (position.advanceAll cs).offset = position.offset + byteSize cs := by
  induction cs generalizing position with
  | nil => rfl
  | cons c cs inductionHypothesis =>
      have oneFurther : (position.advance c).offset = position.offset + c.utf8Size := by
        unfold advance
        split <;> rfl
      rw [advanceAll_cons, inductionHypothesis, oneFurther, byteSize_cons]
      omega

theorem offset_advanceAll_start (cs : List Char) :
    (start.advanceAll cs).offset = byteSize cs := by
  rw [offset_advanceAll]
  exact Nat.zero_add _

theorem line_advanceAll
    (position : Position)
    (cs : List Char) :
    (position.advanceAll cs).line = position.line + cs.count '\n' := by
  induction cs generalizing position with
  | nil => rfl
  | cons c cs inductionHypothesis =>
      rw [advanceAll_cons, inductionHypothesis, advance]
      by_cases newline : c = '\n'
      · subst newline
        rw [if_pos rfl, List.count_cons_self, Nat.add_right_comm]
        rfl
      · rw [if_neg newline, List.count_cons_of_ne newline]

/-- The column counts the characters behind the last newline. -/
theorem column_advanceAll_start (cs : List Char) :
    (start.advanceAll cs).column = 1 + (cs.reverse.takeWhile (· != '\n')).length := by
  induction cs using List.reverseRecOn with
  | nil => rfl
  | append_singleton cs c inductionHypothesis =>
      rw [advanceAll_append, advanceAll_cons, advanceAll_nil, List.reverse_append,
        List.reverse_singleton, List.singleton_append, advance]
      by_cases newline : c = '\n'
      · subst newline
        rfl
      · rw [if_neg newline, List.takeWhile_cons_of_pos (by simpa using newline),
          List.length_cons, ← Nat.add_assoc, ← inductionHypothesis]

end Position
end Text

namespace Token

/-- A token stands behind one part of its source and before another one, and
`text` is what lies between them.  The value of a class name leaves its dot out;
all other values are the text itself. -/
structure StandsBetween (token : Token) (before text behind : List Char) : Prop where
  source_text : ∀ source : String, source.toList = before ++ text ++ behind ->
    token.sourceText? source = some (String.ofList text)
  start_eq : token.span.start = Text.byteSize before
  stop_eq : token.span.stop = Text.byteSize before + Text.byteSize text
  line_eq : token.span.line = 1 + before.count '\n'
  column_eq : token.span.column = 1 + (before.reverse.takeWhile (· != '\n')).length
  className_text : token.kind = .className -> text = '.' :: token.value.toList
  value_text : token.kind ≠ .className -> text = token.value.toList

theorem standsBetween_ofLexeme
    {lexeme : Lexeme}
    (before behind : List Char)
    (wellFormed : lexeme.WellFormed) :
    (ofLexeme (Text.Position.start.advanceAll before) lexeme).StandsBetween
      before lexeme.text behind := by
  have startEquality := Text.Position.offset_advanceAll_start before
  have stopEquality :
      ((Text.Position.start.advanceAll before).advanceAll lexeme.text).offset =
        Text.byteSize before + Text.byteSize lexeme.text := by
    rw [Text.Position.offset_advanceAll, startEquality]
  refine ⟨?_, startEquality, stopEquality, ?_, ?_, ?_, ?_⟩
  · intro source splits
    rw [← Text.slice?_of_append splits, ← stopEquality, ← startEquality]
    rfl
  · exact Text.Position.line_advanceAll _ _
  · exact Text.Position.column_advanceAll_start before
  · intro isClassName
    have isClassName : lexeme.kind = .className := isClassName
    rw [Lexeme.WellFormed, isClassName] at wellFormed
    obtain ⟨name, textEquality, _⟩ := wellFormed
    simp [ofLexeme, Lexeme.value, isClassName, textEquality]
  · intro notClassName
    have notClassName : lexeme.kind ≠ .className := notClassName
    simp only [ofLexeme, Lexeme.value, String.toList_ofList]

theorem standsBetween_endAt (before : List Char) :
    (endAt (Text.Position.start.advanceAll before)).StandsBetween before [] [] := by
  have startEquality := Text.Position.offset_advanceAll_start before
  refine ⟨?_, startEquality, startEquality, ?_, ?_, ?_, ?_⟩
  · intro source splits
    rw [← Text.slice?_of_append splits, Text.byteSize_nil, Nat.add_zero, ← startEquality]
    rfl
  · exact Text.Position.line_advanceAll _ _
  · exact Text.Position.column_advanceAll_start before
  · intro isClassName
    exact absurd isClassName (by simp [endAt])
  · intro _
    rfl

/-- Each token of a sequence stands where the lexemes before it end. -/
theorem standsBetween_of_mem_place
    {lexemes : List Lexeme}
    {token : Token}
    (before : List Char)
    (wellFormed : ∀ lexeme ∈ lexemes, lexeme.WellFormed)
    (member : token ∈ place (Text.Position.start.advanceAll before) lexemes) :
    ∃ passed text behind,
      before ++ lexemes.flatMap Lexeme.text = passed ++ text ++ behind ∧
        token.StandsBetween passed text behind := by
  induction lexemes generalizing before with
  | nil =>
      obtain rfl := List.mem_singleton.mp member
      exact ⟨before, [], [], by simp, standsBetween_endAt before⟩
  | cons lexeme lexemes inductionHypothesis =>
      obtain ⟨headWellFormed, tailWellFormed⟩ := List.forall_mem_cons.mp wellFormed
      rw [place_cons] at member
      rcases List.mem_cons.mp member with rfl | inRest
      · exact ⟨before, lexeme.text, lexemes.flatMap Lexeme.text, by simp,
          standsBetween_ofLexeme before _ headWellFormed⟩
      · rw [← Text.Position.advanceAll_append] at inRest
        obtain ⟨passed, text, behind, splits, stands⟩ :=
          inductionHypothesis (before ++ lexeme.text) tailWellFormed inRest
        refine ⟨passed, text, behind, ?_, stands⟩
        rw [← splits, List.flatMap_cons, List.append_assoc]

/-- The tokens of lexemes, without the one that closes them. -/
def placeWords : Text.Position -> List Lexeme -> List Token
  | _, [] => []
  | position, lexeme :: lexemes =>
      ofLexeme position lexeme :: placeWords (position.advanceAll lexeme.text) lexemes

theorem place_eq_append
    (position : Text.Position)
    (lexemes : List Lexeme) :
    place position lexemes =
      placeWords position lexemes ++
        [endAt (position.advanceAll (lexemes.flatMap Lexeme.text))] := by
  induction lexemes generalizing position with
  | nil => rfl
  | cons lexeme lexemes inductionHypothesis =>
      rw [place_cons, inductionHypothesis, placeWords, List.flatMap_cons,
        Text.Position.advanceAll_append, List.cons_append]

/-- The tokens of a text, without the one that closes them. -/
def wordsOf (source : String) : List Token :=
  placeWords .start (Lexeme.lexemes source.toList)

/-- The token for the end of a text. -/
def endOf (source : String) : Token :=
  endAt (Text.Position.start.advanceAll source.toList)

theorem tokenize_eq_append (source : String) :
    tokenize source = wordsOf source ++ [endOf source] := by
  rw [tokenize, place_eq_append, Lexeme.flatMap_text_lexemes]
  rfl

theorem exists_of_mem_placeWords
    {position : Text.Position}
    {lexemes : List Lexeme}
    {token : Token}
    (member : token ∈ placeWords position lexemes) :
    ∃ lexeme ∈ lexemes, ∃ reached, token = ofLexeme reached lexeme := by
  induction lexemes generalizing position with
  | nil => simp [placeWords] at member
  | cons lexeme lexemes inductionHypothesis =>
      rw [placeWords] at member
      rcases List.mem_cons.mp member with rfl | inRest
      · exact ⟨lexeme, List.mem_cons_self, position, rfl⟩
      · obtain ⟨found, foundMember, reached, equality⟩ := inductionHypothesis inRest
        exact ⟨found, List.mem_cons_of_mem _ foundMember, reached, equality⟩

theorem kind_ne_endOfInput_of_mem_wordsOf
    {source : String}
    {token : Token}
    (member : token ∈ wordsOf source) :
    token.kind ≠ .endOfInput := by
  obtain ⟨lexeme, lexemeMember, reached, rfl⟩ := exists_of_mem_placeWords member
  exact (Lexeme.wellFormed_of_mem_lexemes lexemeMember).kind_ne_endOfInput

theorem start_lt_stop_of_mem_wordsOf
    {source : String}
    {token : Token}
    (member : token ∈ wordsOf source) :
    token.span.start < token.span.stop := by
  obtain ⟨lexeme, lexemeMember, reached, rfl⟩ := exists_of_mem_placeWords member
  have nonempty := (Lexeme.wellFormed_of_mem_lexemes lexemeMember).text_ne_nil
  have textPos := Text.byteSize_pos nonempty
  change reached.offset < (reached.advanceAll lexeme.text).offset
  rw [Text.Position.offset_advanceAll]
  omega

theorem exists_place_eq_cons
    (position : Text.Position)
    (lexemes : List Lexeme) :
    ∃ first others,
      place position lexemes = first :: others ∧ first.span.start = position.offset := by
  cases lexemes with
  | nil => exact ⟨_, _, rfl, rfl⟩
  | cons lexeme lexemes => exact ⟨_, _, rfl, rfl⟩

/-- Each token begins where the one before it stops. -/
theorem isChain_place
    (position : Text.Position)
    (lexemes : List Lexeme) :
    (place position lexemes).IsChain fun token next => next.span.start = token.span.stop := by
  induction lexemes generalizing position with
  | nil => exact List.isChain_singleton _
  | cons lexeme lexemes inductionHypothesis =>
      have restChain := inductionHypothesis (position.advanceAll lexeme.text)
      obtain ⟨first, others, restEquality, firstStart⟩ :=
        exists_place_eq_cons (position.advanceAll lexeme.text) lexemes
      rw [place_cons]
      rw [restEquality] at restChain ⊢
      exact List.isChain_cons_cons.mpr ⟨firstStart, restChain⟩

/-- The kinds and the texts of the words of a text are those of its lexemes. -/
theorem map_kind_sourceText?_placeWords
    {source : String}
    {lexemes : List Lexeme}
    (before : List Char)
    (wellFormed : ∀ lexeme ∈ lexemes, lexeme.WellFormed)
    (splits : source.toList = before ++ lexemes.flatMap Lexeme.text) :
    (placeWords (Text.Position.start.advanceAll before) lexemes).map
        (fun token => (token.kind, token.sourceText? source)) =
      lexemes.map fun lexeme => (lexeme.kind, some (String.ofList lexeme.text)) := by
  induction lexemes generalizing before with
  | nil => rfl
  | cons lexeme lexemes inductionHypothesis =>
      obtain ⟨headWellFormed, tailWellFormed⟩ := List.forall_mem_cons.mp wellFormed
      rw [List.flatMap_cons, ← List.append_assoc] at splits
      have headText :=
        (standsBetween_ofLexeme before _ headWellFormed).source_text source splits
      have restRead := inductionHypothesis (before ++ lexeme.text) tailWellFormed splits
      rw [Text.Position.advanceAll_append] at restRead
      rw [placeWords, List.map_cons, headText, restRead]
      rfl

theorem map_sourceText?_place
    {source : String}
    {lexemes : List Lexeme}
    (before : List Char)
    (wellFormed : ∀ lexeme ∈ lexemes, lexeme.WellFormed)
    (splits : source.toList = before ++ lexemes.flatMap Lexeme.text) :
    (place (Text.Position.start.advanceAll before) lexemes).map
        (fun token => token.sourceText? source) =
      (lexemes.map (fun lexeme => String.ofList lexeme.text) ++ [""]).map some := by
  have wordTexts := congrArg (List.map Prod.snd)
    (map_kind_sourceText?_placeWords before wellFormed splits)
  simp only [List.map_map, Function.comp_def] at wordTexts
  have endText :=
    (standsBetween_endAt (before ++ lexemes.flatMap Lexeme.text)).source_text source
      (by simpa using splits)
  rw [place_eq_append, List.map_append, wordTexts, ← Text.Position.advanceAll_append,
    List.map_singleton, endText]
  simp

/-- The tokens of a text are its words and one token for the end of the input.
They stand side by side from the first byte to the last one, every word takes up
at least one byte, each token stands at the line and the column of its first
character, and the texts of all tokens concatenate to the whole text. -/
theorem tokenize_covers (source : String) :
    ∃ words last,
      tokenize source = words ++ [last] ∧
      last.kind = .endOfInput ∧
      (∀ token ∈ words, token.kind ≠ .endOfInput) ∧
      (tokenize source).head?.map (fun token => token.span.start) = some 0 ∧
      ((tokenize source).IsChain fun token next => next.span.start = token.span.stop) ∧
      (∀ token ∈ words, token.span.start < token.span.stop) ∧
      last.span.start = source.utf8ByteSize ∧
      last.span.stop = source.utf8ByteSize ∧
      (∀ token ∈ tokenize source, ∃ before text behind,
        source.toList = before ++ text ++ behind ∧ token.StandsBetween before text behind) ∧
      ∃ texts,
        (tokenize source).map (fun token => token.sourceText? source) = texts.map some ∧
          String.join texts = source := by
  have allWellFormed :
      ∀ lexeme ∈ Lexeme.lexemes source.toList, lexeme.WellFormed :=
    fun _ member => Lexeme.wellFormed_of_mem_lexemes member
  have endOffset :
      (Text.Position.start.advanceAll source.toList).offset = source.utf8ByteSize := by
    rw [Text.Position.offset_advanceAll_start, Text.byteSize_toList]
  refine ⟨wordsOf source, endOf source, tokenize_eq_append source, rfl,
    fun _ => kind_ne_endOfInput_of_mem_wordsOf, ?_, isChain_place _ _,
    fun _ => start_lt_stop_of_mem_wordsOf, endOffset, endOffset, ?_, ?_⟩
  · obtain ⟨first, others, equality, firstStart⟩ :=
      exists_place_eq_cons .start (Lexeme.lexemes source.toList)
    rw [tokenize, equality]
    exact congrArg some firstStart
  · intro token member
    obtain ⟨before, text, behind, splits, stands⟩ :=
      standsBetween_of_mem_place [] allWellFormed member
    rw [List.nil_append, Lexeme.flatMap_text_lexemes] at splits
    exact ⟨before, text, behind, splits, stands⟩
  · refine ⟨(Lexeme.lexemes source.toList).map (fun lexeme => String.ofList lexeme.text) ++ [""],
      map_sourceText?_place [] allWellFormed (by simp [Lexeme.flatMap_text_lexemes]), ?_⟩
    rw [← String.toList_inj, String.toList_join, List.flatMap_append, List.flatMap_map]
    simp only [String.toList_ofList]
    rw [Lexeme.flatMap_text_lexemes]
    simp

end Token
end StyleRules
