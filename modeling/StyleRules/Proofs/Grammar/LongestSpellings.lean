import StyleRules.Proofs.Grammar.Rules
import StyleRules.Proofs.Parser.Positions

/-!
# Parsers take the longest spelling

A parser commits itself on one or two tokens and never goes back.  Still, a parser for paths
or selectors that succeeds leaves no token behind that could have belonged to its answer: of
all the spellings that stand in front of it, it takes the longest one
(`path_and_selector_take_longest`).

The reason is that a parser is exact (`Exact`): it succeeds with the spellings that end where
they stand, and whether they end there is seen from the next tokens, of which the end of the
input is never one that goes on.  If a longer spelling stood in front of the parser, the
parser could be run on that spelling alone.  There it would have to stop at the end of the
shorter one as well as at the end of the longer one.
-/

namespace StyleRules
namespace Cursor

/-- The cursor before the closing token. -/
def atStop (cursor : Cursor) : Cursor :=
  { cursor with ahead := [] }

theorem kind_atStop (cursor : Cursor) :
    cursor.atStop.kind = .endOfInput :=
  cursor.stop_kind

theorem remaining_pushAll (cursor : Cursor) (tokens : List Token) :
    (cursor.pushAll tokens).remaining = tokens ++ cursor.remaining :=
  List.append_assoc tokens cursor.ahead [cursor.stop]

theorem eq_nil_of_pushAll_eq_self
    {cursor : Cursor}
    {tokens : List Token}
    (same : cursor.pushAll tokens = cursor) :
    tokens = [] := by
  have sameAhead := congrArg ahead same
  exact List.self_eq_append_left.mp sameAhead.symm

/-- Where a sequence is cut off, there is the same token as before or the end of the input. -/
theorem kind_of_cut
    {cursor : Cursor}
    {tokens : List Token}
    (begins : tokens <+: cursor.remaining) :
    (cursor.atStop.pushAll tokens).kind = .endOfInput ∨
      (cursor.atStop.pushAll tokens).kind = cursor.kind := by
  cases tokens with
  | nil => exact .inl cursor.kind_atStop
  | cons token tokens =>
      obtain ⟨rest, splits⟩ := begins
      have isFirst := cursor.remaining_head?
      rw [← splits, List.cons_append, List.head?_cons, Option.some.injEq] at isFirst
      exact .inr (congrArg Token.kind isFirst)

end Cursor

namespace Parser

open Grammar

/-! ## Exact parsers -/

/-- Does the parser succeed with just the spellings that end at the cursor behind them?  They
all end before the end of the input, and what ends at a cursor still does when the sequence is
cut off. -/
structure Exact
    (parser : Parser α)
    (spells : α -> List Token -> Prop)
    (ends : α -> Cursor -> Prop) :
    Prop where
  eq_ok_iff : ∀ {cursor after value},
    parser cursor = .ok value after ↔
      ∃ tokens, spells value tokens ∧ cursor = after.pushAll tokens ∧ ends value after
  ends_of_kind_eq : ∀ value {after : Cursor}, after.kind = .endOfInput -> ends value after
  ends_cut : ∀ {value after tokens}, tokens <+: after.remaining -> ends value after ->
    ends value (after.atStop.pushAll tokens)

/-- Does a parser that moves from one cursor to the other take these tokens, and are they the
longest spelling that stands at the first one?  The value is the only one that they spell. -/
structure TakesLongest
    (spells : α -> List Token -> Prop)
    (cursor after : Cursor)
    (tokens : List Token)
    (value : α) :
    Prop where
  takes : cursor.remaining = tokens ++ after.remaining
  spelled : spells value tokens
  unique : ∀ other, spells other tokens -> other = value
  longest : ∀ other longer, longer <+: cursor.remaining -> spells other longer ->
    longer.length ≤ tokens.length

theorem TakesLongest.length_add
    {spells : α -> List Token -> Prop}
    {cursor after : Cursor}
    {tokens : List Token}
    {value : α}
    (takesLongest : TakesLongest spells cursor after tokens value) :
    tokens.length + after.remaining.length = cursor.remaining.length := by
  rw [takesLongest.takes, List.length_append]

namespace Exact

variable
  {parser : Parser α}
  {spells : α -> List Token -> Prop}
  {ends : α -> Cursor -> Prop}

/-- What is spelled before the end of the input is read. -/
theorem reads
    (exact : Exact parser spells ends)
    {value : α}
    {tokens : List Token}
    {after : Cursor}
    (spelled : spells value tokens)
    (atEnd : after.kind = .endOfInput) :
    parser (after.pushAll tokens) = .ok value after :=
  exact.eq_ok_iff.mpr ⟨tokens, spelled, rfl, exact.ends_of_kind_eq value atEnd⟩

/-- No spelling goes on beyond the place at which a shorter one ends. -/
theorem eq_of_spells_append
    (exact : Exact parser spells ends)
    {value other : α}
    {tokens extra : List Token}
    {after : Cursor}
    (spelled : spells value tokens)
    (ended : ends value after)
    (follows : extra <+: after.remaining)
    (otherSpelled : spells other (tokens ++ extra)) :
    other = value ∧ extra = [] := by
  have stopsShort : parser (after.atStop.pushAll (tokens ++ extra)) =
      .ok value (after.atStop.pushAll extra) :=
    exact.eq_ok_iff.mpr
      ⟨tokens, spelled, (Cursor.pushAll_pushAll _ _ _).symm, exact.ends_cut follows ended⟩
  have goesOn : parser (after.atStop.pushAll (tokens ++ extra)) = .ok other after.atStop :=
    exact.reads otherSpelled after.kind_atStop
  rw [stopsShort, EStateM.Result.ok.injEq] at goesOn
  obtain ⟨sameValue, samePlace⟩ := goesOn
  exact ⟨sameValue.symm, Cursor.eq_nil_of_pushAll_eq_self samePlace⟩

theorem takesLongest
    (exact : Exact parser spells ends)
    {cursor after : Cursor}
    {value : α}
    (answered : parser cursor = .ok value after) :
    ∃ tokens, TakesLongest spells cursor after tokens value := by
  obtain ⟨tokens, spelled, rfl, ended⟩ := exact.eq_ok_iff.mp answered
  refine ⟨tokens, Cursor.remaining_pushAll after tokens, spelled, ?_, ?_⟩
  · intro other otherSpelled
    rw [← List.append_nil tokens] at otherSpelled
    exact (exact.eq_of_spells_append spelled ended List.nil_prefix otherSpelled).1
  · intro other longer begins otherSpelled
    rw [Cursor.remaining_pushAll] at begins
    rcases List.prefix_or_prefix_of_prefix begins (List.prefix_append tokens after.remaining) with
      isShorter | goesOn
    · exact isShorter.length_le
    · obtain ⟨extra, rfl⟩ := goesOn
      have follows : extra <+: after.remaining := (List.prefix_append_right_inj tokens).mp begins
      obtain ⟨_, rfl⟩ := exact.eq_of_spells_append spelled ended follows otherSpelled
      rw [List.append_nil]

end Exact

/-- What is longest does not depend on how spellings are described. -/
theorem TakesLongest.congr
    {spells others : α -> List Token -> Prop}
    {cursor after : Cursor}
    {tokens : List Token}
    {value : α}
    (same : ∀ other text, text <+: cursor.remaining -> (spells other text ↔ others other text))
    (takesLongest : TakesLongest spells cursor after tokens value) :
    TakesLongest others cursor after tokens value := by
  have begins : tokens <+: cursor.remaining := ⟨after.remaining, takesLongest.takes.symm⟩
  refine ⟨takesLongest.takes, (same value tokens begins).mp takesLongest.spelled, ?_, ?_⟩
  · intro other spelled
    exact takesLongest.unique other ((same other tokens begins).mpr spelled)
  · intro other longer longerBegins spelled
    exact takesLongest.longest other longer longerBegins
      ((same other longer longerBegins).mpr spelled)

/-! ## Paths -/

/-- A sign between two elements that stands before a cut stood there before. -/
theorem atDescendant_of_cut
    {cursor : Cursor}
    {tokens : List Token}
    (begins : tokens <+: cursor.remaining)
    (due : atDescendant (cursor.atStop.pushAll tokens) = true) :
    atDescendant cursor = true := by
  obtain ⟨rest, splits⟩ := begins
  simp only [atDescendant, ← Cursor.kindAt_zero, Bool.and_eq_true, decide_eq_true_iff,
    Cursor.kindAt, Cursor.remaining_pushAll, ← splits] at due ⊢
  have stopKind := cursor.stop_kind
  rcases tokens with _ | ⟨_, _ | ⟨_, _⟩⟩
  case nil => simp [Cursor.remaining, Cursor.atStop, stopKind] at due
  case cons.nil => simp [Cursor.remaining, Cursor.atStop, stopKind] at due
  case cons.cons => exact due

theorem endsPath_of_kind_eq
    (path : HtmlPath)
    {after : Cursor}
    (atEnd : after.kind = .endOfInput) :
    EndsPath path after := by
  have ended : EndsPath path (after.pushAll []) := endsPath_of_gap (.inl rfl) atEnd
  rwa [Cursor.pushAll_nil] at ended

theorem EndsPath.cut
    {path : HtmlPath}
    {after : Cursor}
    {tokens : List Token}
    (begins : tokens <+: after.remaining)
    (ended : EndsPath path after) :
    EndsPath path (after.atStop.pushAll tokens) := by
  rcases Cursor.kind_of_cut begins with atEnd | sameKind
  · exact endsPath_of_kind_eq path atEnd
  · rcases path with _ | (_ | ⟨_, _⟩)
    case ignore => trivial
    case elements.nil => rwa [EndsPath, sameKind]
    case elements.cons =>
      refine ⟨?_, by rw [sameKind]; exact ended.2⟩
      rw [Bool.eq_false_iff]
      intro due
      exact absurd (atDescendant_of_cut begins due) (Bool.eq_false_iff.mp ended.1)

theorem exact_path :
    Exact path (SpellsPath .tokens) EndsPath :=
  ⟨path_eq_ok_iff, endsPath_of_kind_eq, EndsPath.cut⟩

/-! ## Selectors -/

theorem endsSelector_endOfInput (selector : Selector) :
    EndsSelector selector .endOfInput := by
  cases selector <;> simp [EndsSelector]

theorem exact_selector :
    Exact selector (SpellsSelector .tokens) fun value after => EndsSelector value after.kind := by
  refine ⟨selector_eq_ok_iff, ?_, ?_⟩
  · intro value after atEnd
    rw [atEnd]
    exact endsSelector_endOfInput value
  · intro value after tokens begins ended
    rcases Cursor.kind_of_cut begins with atEnd | sameKind
    · rw [atEnd]
      exact endsSelector_endOfInput value
    · rwa [sameKind]

end Parser

/-! ## Quoted strings in quotes -/

/-- Letters as single tokens, where a quoted string is the text between two quotes. -/
def Alphabet.quotingTokens : Alphabet Token :=
  { Alphabet.tokens with
    quoted := fun name text => ∃ token, text = [token] ∧ token.kind = .quoted ∧
      token.value.toList = Lexeme.quote :: (name.toList ++ [Lexeme.quote]) }

namespace Alphabet

theorem tokens_carries_quotingTokens :
    tokens.Carries quotingTokens (fun token => token.kind = .quoted -> token.IsQuoted)
      (fun token => [token]) where
  identifier _ letter := by rwa [List.flatMap_singleton']
  className _ letter := by rwa [List.flatMap_singleton']
  level _ letter := by rwa [List.flatMap_singleton']
  mark _ _ letter := by rwa [List.flatMap_singleton']
  blank _ letter := by rwa [List.flatMap_singleton']
  quoted allQuoted letter := by
    obtain ⟨token, rfl, isQuoted, nameEquality⟩ := letter
    obtain ⟨name, valueEquality⟩ := allQuoted token (List.mem_singleton_self token) isQuoted
    refine ⟨token, rfl, isQuoted, ?_⟩
    rw [valueEquality, List.tail_cons, List.dropLast_concat] at nameEquality
    rw [valueEquality, nameEquality]

theorem quotingTokens_carries_tokens :
    quotingTokens.Carries tokens (fun _ => True) (fun token => [token]) where
  identifier _ letter := by rwa [List.flatMap_singleton']
  className _ letter := by rwa [List.flatMap_singleton']
  level _ letter := by rwa [List.flatMap_singleton']
  mark _ _ letter := by rwa [List.flatMap_singleton']
  blank _ letter := by rwa [List.flatMap_singleton']
  quoted _ letter := by
    obtain ⟨token, rfl, isQuoted, valueEquality⟩ := letter
    refine ⟨token, rfl, isQuoted, ?_⟩
    rw [valueEquality, List.tail_cons, List.dropLast_concat]

end Alphabet

namespace Grammar

variable {selector : Selector} {tokens : List Token}

/-- Where all quoted strings are in quotes, a selector is spelled with them. -/
theorem SpellsSelector.quoting
    (spelled : SpellsSelector .tokens selector tokens)
    (wellQuoted : WellQuoted tokens) :
    SpellsSelector .quotingTokens selector tokens := by
  have carried := spelled.carry Alphabet.tokens_carries_quotingTokens wellQuoted
  rwa [List.flatMap_singleton'] at carried

theorem SpellsSelector.of_quoting
    (spelled : SpellsSelector .quotingTokens selector tokens) :
    SpellsSelector .tokens selector tokens := by
  have carried := spelled.carry Alphabet.quotingTokens_carries_tokens fun _ _ => trivial
  rwa [List.flatMap_singleton'] at carried

end Grammar

namespace Parser

open Grammar

/-- From any place in any sequence of tokens, a parser for paths that succeeds takes the
longest first tokens that spell a path and answers what they spell, and so does a parser for
selectors if all quoted strings are in quotes.  Both succeed with whatever is spelled before
the end of the input. -/
theorem path_and_selector_take_longest (cursor : Cursor) :
    (∀ value after, path cursor = .ok value after ->
      ∃ tokens, TakesLongest (SpellsPath .tokens) cursor after tokens value) ∧
    (WellQuoted cursor.remaining -> ∀ value after, selector cursor = .ok value after ->
      ∃ tokens, TakesLongest (SpellsSelector .quotingTokens) cursor after tokens value) ∧
    (cursor.kind = .endOfInput ->
      (∀ value tokens, SpellsPath .tokens value tokens ->
        path (cursor.pushAll tokens) = .ok value cursor) ∧
      ∀ value tokens, SpellsSelector .quotingTokens value tokens ->
        selector (cursor.pushAll tokens) = .ok value cursor) := by
  refine ⟨fun value after answered => exact_path.takesLongest answered, ?_, ?_⟩
  · intro wellQuoted value after answered
    obtain ⟨tokens, takesLongest⟩ := exact_selector.takesLongest answered
    refine ⟨tokens, takesLongest.congr fun other text begins => ⟨fun spelled => ?_, ?_⟩⟩
    · exact spelled.quoting fun token member => wellQuoted token (begins.mem member)
    · exact SpellsSelector.of_quoting
  · intro atEnd
    refine ⟨fun value tokens spelled => exact_path.reads spelled atEnd, ?_⟩
    intro value tokens spelled
    exact exact_selector.reads spelled.of_quoting atEnd

/-- A class name behind a style name in brackets. -/
def classNameBehindStyleName : List Token :=
  [⟨.identifier, "p", ⟨0, 1, 1, 1⟩⟩, ⟨.openBracket, "[", ⟨1, 2, 1, 2⟩⟩,
    ⟨.identifier, "style-name", ⟨2, 12, 1, 3⟩⟩, ⟨.equals, "=", ⟨12, 13, 1, 13⟩⟩,
    ⟨.quoted, "'x'", ⟨13, 16, 1, 14⟩⟩, ⟨.closeBracket, "]", ⟨16, 17, 1, 17⟩⟩,
    ⟨.className, "a", ⟨17, 19, 1, 18⟩⟩]

/-- The class name does not belong to the selector in front of it any more, and the style name
does not belong to the path in front of it. -/
theorem take_longest_of_classNameBehindStyleName :
    WellQuoted (Cursor.ofTokens classNameBehindStyleName).remaining ∧
      (∃ after tokens,
        selector (Cursor.ofTokens classNameBehindStyleName) =
            .ok (.paragraph ⟨none, some "x", none⟩) after ∧
          TakesLongest (SpellsSelector .quotingTokens) (Cursor.ofTokens classNameBehindStyleName)
            after tokens (.paragraph ⟨none, some "x", none⟩) ∧
          tokens.length = 6) ∧
      (∃ after tokens,
        path (Cursor.ofTokens classNameBehindStyleName) =
            .ok (.elements [.ofNames ["p"] [] true]) after ∧
          TakesLongest (SpellsPath .tokens) (Cursor.ofTokens classNameBehindStyleName)
            after tokens (.elements [.ofNames ["p"] [] true]) ∧
          tokens.length = 1) ∧
      (Cursor.ofTokens []).kind = .endOfInput ∧
        path ((Cursor.ofTokens []).pushAll [⟨.bang, "!", ⟨0, 1, 1, 1⟩⟩]) =
          .ok .ignore (Cursor.ofTokens []) := by
  obtain ⟨pathLongest, selectorLongest, _⟩ :=
    path_and_selector_take_longest (Cursor.ofTokens classNameBehindStyleName)
  have wellQuoted : WellQuoted (Cursor.ofTokens classNameBehindStyleName).remaining := by
    change WellQuoted (classNameBehindStyleName ++ [_])
    simp only [WellQuoted, classNameBehindStyleName, List.forall_mem_cons, List.cons_append]
    exact ⟨nofun, nofun, nofun, nofun, fun _ => ⟨['x'], by decide +kernel⟩, nofun, nofun, nofun⟩
  refine ⟨wellQuoted, ?_, ?_, rfl, ?_⟩
  · obtain ⟨tokens, longest⟩ := selectorLongest wellQuoted _ _ rfl
    exact ⟨_, tokens, rfl, longest, Nat.add_right_cancel longest.length_add⟩
  · obtain ⟨tokens, longest⟩ := pathLongest _ _ rfl
    exact ⟨_, tokens, rfl, longest, Nat.add_right_cancel longest.length_add⟩
  · obtain ⟨_, _, readsAll⟩ := path_and_selector_take_longest (Cursor.ofTokens [])
    exact (readsAll rfl).1 _ _ (.ignore ⟨_, rfl, rfl⟩)

end Parser
end StyleRules
