import StyleRules.Parser.Basic
import Mathlib.Logic.Basic

/-!
# Running parsers

A successful parser leaves some tokens behind.  The cursor that it starts from is
the one that it ends at with these tokens put in front again (`Cursor.pushAll`),
so that a sequence of parsers is taken apart into the tokens of each of them
(`bind_eq_ok_iff`) and put together again.
-/

namespace StyleRules
namespace Cursor

/-- The cursor before more tokens. -/
def pushAll (cursor : Cursor) (tokens : List Token) : Cursor :=
  { cursor with ahead := tokens ++ cursor.ahead }

@[simp] theorem pushAll_nil (cursor : Cursor) :
    cursor.pushAll [] = cursor := rfl

@[simp] theorem pushAll_pushAll
    (cursor : Cursor)
    (tokens others : List Token) :
    (cursor.pushAll others).pushAll tokens = cursor.pushAll (tokens ++ others) := by
  simp [pushAll]

@[simp] theorem kind_pushAll_cons
    (cursor : Cursor)
    (token : Token)
    (tokens : List Token) :
    (cursor.pushAll (token :: tokens)).kind = token.kind := rfl

theorem advance_pushAll_cons
    (cursor : Cursor)
    {token : Token}
    (tokens : List Token)
    (notEnd : token.kind ≠ .endOfInput) :
    (cursor.pushAll (token :: tokens)).advance = cursor.pushAll tokens := by
  simp [advance, pushAll, notEnd]

/-- Before any token but the end of the input, the cursor is the next one with
that token in front. -/
theorem eq_pushAll_advance
    {cursor : Cursor}
    (notEnd : cursor.kind ≠ .endOfInput) :
    cursor = cursor.advance.pushAll [cursor.current] := by
  have aheadEquality := ahead_eq_of_kind_ne notEnd
  have stopEquality := stop_advance cursor
  obtain ⟨ahead, stop, stopKind⟩ := cursor
  simp only [pushAll, Cursor.mk.injEq, List.singleton_append]
  exact ⟨aheadEquality, stopEquality.symm⟩

theorem remaining_eq_cons
    {cursor : Cursor}
    (notEnd : cursor.kind ≠ .endOfInput) :
    cursor.remaining = cursor.current :: cursor.advance.remaining := by
  rw [remaining, remaining, stop_advance, ← List.cons_append, ← ahead_eq_of_kind_ne notEnd]

end Cursor

namespace Parser

@[simp] theorem pure_run
    (value : α)
    (cursor : Cursor) :
    (pure value : Parser α) cursor = .ok value cursor := rfl

@[simp] theorem kind_bind
    (next : TokenKind -> Parser α)
    (cursor : Cursor) :
    (kind >>= next) cursor = next cursor.kind cursor := rfl

@[simp] theorem current_bind
    (next : Token -> Parser α)
    (cursor : Cursor) :
    (current >>= next) cursor = next cursor.current cursor := rfl

@[simp] theorem advance_bind
    (next : Token -> Parser α)
    (cursor : Cursor) :
    (advance >>= next) cursor = next cursor.current cursor.advance := rfl

theorem bind_of_eq_ok
    {first : Parser α}
    {next : α -> Parser β}
    {cursor between : Cursor}
    {value : α}
    (succeeds : first cursor = .ok value between) :
    (first >>= next) cursor = next value between := by
  simp only [bind, EStateM.bind, succeeds]

theorem bind_of_eq_error
    {first : Parser α}
    {next : α -> Parser β}
    {cursor after : Cursor}
    {error : ParseError}
    (fails : first cursor = .error error after) :
    (first >>= next) cursor = .error error after := by
  simp only [bind, EStateM.bind, fails]

/-- A sequence succeeds when its parts do, one behind the other. -/
theorem bind_eq_ok_iff
    {first : Parser α}
    {next : α -> Parser β}
    {cursor after : Cursor}
    {result : β} :
    (first >>= next) cursor = .ok result after ↔
      ∃ value between, first cursor = .ok value between ∧
        next value between = .ok result after := by
  cases outcome : first cursor with
  | ok value between =>
      rw [bind_of_eq_ok outcome]
      constructor
      · intro rest
        exact ⟨value, between, rfl, rest⟩
      · rintro ⟨_, _, same, rest⟩
        cases same
        exact rest
  | error error between => simp [bind_of_eq_error outcome]

theorem pure_eq_ok_iff
    {value result : α}
    {cursor after : Cursor} :
    (pure value : Parser α) cursor = .ok result after ↔ value = result ∧ cursor = after := by
  rw [pure_run, EStateM.Result.ok.injEq]

theorem expect_of_kind_eq
    {kind : TokenKind}
    {cursor : Cursor}
    (due : cursor.kind = kind) :
    expect kind cursor = .ok cursor.current cursor.advance := by
  rw [expect, kind_bind, if_pos due]
  rfl

theorem expect_of_kind_ne
    {kind : TokenKind}
    {cursor : Cursor}
    (notDue : cursor.kind ≠ kind) :
    expect kind cursor = .error (unexpected kind.describe cursor) cursor := by
  rw [expect, kind_bind, if_neg notDue]
  rfl

theorem expect_eq_ok_iff
    {kind : TokenKind}
    {cursor after : Cursor}
    {token : Token}
    (notEnd : kind ≠ .endOfInput) :
    expect kind cursor = .ok token after ↔ token.kind = kind ∧ cursor = after.pushAll [token] := by
  by_cases due : cursor.kind = kind
  · rw [expect_of_kind_eq due]
    constructor
    · intro answered
      obtain ⟨rfl, rfl⟩ := EStateM.Result.ok.injEq .. ▸ answered
      exact ⟨due, Cursor.eq_pushAll_advance (due ▸ notEnd)⟩
    · rintro ⟨tokenKind, rfl⟩
      rw [Cursor.advance_pushAll_cons _ _ (tokenKind ▸ notEnd)]
      rfl
  · rw [expect_of_kind_ne due]
    constructor
    · intro answered
      exact absurd answered (by simp)
    · rintro ⟨tokenKind, rfl⟩
      exact absurd tokenKind due

theorem expect_pushAll_cons
    {token : Token}
    (notEnd : token.kind ≠ .endOfInput)
    (tokens : List Token)
    (after : Cursor) :
    expect token.kind (after.pushAll (token :: tokens)) = .ok token (after.pushAll tokens) := by
  rw [expect_eq_ok_iff notEnd, Cursor.pushAll_pushAll]
  exact ⟨rfl, rfl⟩

/-- Before a token of the given kind, moving on takes just that token. -/
theorem advance_eq_ok_iff
    {kind : TokenKind}
    {cursor after : Cursor}
    {token : Token}
    (notEnd : kind ≠ .endOfInput) :
    cursor.kind = kind ∧ advance cursor = .ok token after ↔
      token.kind = kind ∧ cursor = after.pushAll [token] := by
  rw [← expect_eq_ok_iff notEnd]
  by_cases due : cursor.kind = kind
  · rw [expect_of_kind_eq due]
    simp only [due, true_and]
    rfl
  · rw [expect_of_kind_ne due]
    simp [due]

theorem expectValue_eq_ok_iff
    {kind : TokenKind}
    {cursor after : Cursor}
    {value : String}
    (notEnd : kind ≠ .endOfInput) :
    expectValue kind cursor = .ok value after ↔
      ∃ token, token.kind = kind ∧ token.value = value ∧ cursor = after.pushAll [token] := by
  simp only [expectValue, bind_eq_ok_iff, pure_eq_ok_iff, expect_eq_ok_iff notEnd]
  constructor
  · rintro ⟨token, between, ⟨tokenKind, rfl⟩, rfl, rfl⟩
    exact ⟨token, tokenKind, rfl, rfl⟩
  · rintro ⟨token, tokenKind, rfl, rfl⟩
    exact ⟨token, after, ⟨tokenKind, rfl⟩, rfl, rfl⟩

theorem expectLiteral_of_current
    {kind : TokenKind}
    {value : String}
    {cursor : Cursor}
    (due : cursor.current.kind = kind ∧ cursor.current.value = value) :
    expectLiteral kind value cursor = .ok () cursor.advance := by
  rw [expectLiteral, current_bind, if_pos due]
  rfl

theorem expectLiteral_of_not_current
    {kind : TokenKind}
    {value : String}
    {cursor : Cursor}
    (notDue : ¬(cursor.current.kind = kind ∧ cursor.current.value = value)) :
    expectLiteral kind value cursor =
      .error (unexpected (kind.describe ++ " '" ++ value ++ "'") cursor) cursor := by
  rw [expectLiteral, current_bind, if_neg notDue]
  rfl

theorem expectLiteral_eq_ok_iff
    {kind : TokenKind}
    {value : String}
    {cursor after : Cursor}
    {answer : Unit}
    (notEnd : kind ≠ .endOfInput) :
    expectLiteral kind value cursor = .ok answer after ↔
      ∃ token, token.kind = kind ∧ token.value = value ∧ cursor = after.pushAll [token] := by
  by_cases due : cursor.current.kind = kind ∧ cursor.current.value = value
  · rw [expectLiteral_of_current due]
    constructor
    · intro answered
      obtain ⟨_, rfl⟩ := EStateM.Result.ok.injEq .. ▸ answered
      have notAtEnd : cursor.kind ≠ .endOfInput := fun atEnd => notEnd (due.1 ▸ atEnd)
      exact ⟨cursor.current, due.1, due.2, Cursor.eq_pushAll_advance notAtEnd⟩
    · rintro ⟨token, tokenKind, _, rfl⟩
      rw [Cursor.advance_pushAll_cons _ _ (tokenKind ▸ notEnd)]
      rfl
  · rw [expectLiteral_of_not_current due]
    constructor
    · intro answered
      exact absurd answered (by simp)
    · rintro ⟨token, tokenKind, tokenValue, rfl⟩
      exact absurd ⟨tokenKind, tokenValue⟩ due

/-- A clause is absent, or it is read from the token of its kind on. -/
theorem clause_eq_ok_iff
    {marker : TokenKind}
    {present : Token -> Parser α}
    {absent value : α}
    {cursor after : Cursor}
    (notEnd : marker ≠ .endOfInput) :
    (kind >>= fun next => if next = marker then advance >>= present else pure absent) cursor =
        .ok value after ↔
      (cursor.kind ≠ marker ∧ absent = value ∧ cursor = after) ∨
        ∃ token between, token.kind = marker ∧ cursor = between.pushAll [token] ∧
          present token between = .ok value after := by
  rw [kind_bind]
  split
  · rename_i due
    rw [advance_bind]
    constructor
    · intro answered
      exact .inr ⟨cursor.current, cursor.advance, due, Cursor.eq_pushAll_advance (due ▸ notEnd),
        answered⟩
    · rintro (⟨notDue, _⟩ | ⟨token, between, tokenKind, rfl, answered⟩)
      · exact absurd due notDue
      · rw [Cursor.advance_pushAll_cons _ _ (tokenKind ▸ notEnd)]
        exact answered
  · rename_i notDue
    rw [pure_eq_ok_iff]
    constructor
    · intro answered
      exact .inl ⟨notDue, answered⟩
    · rintro (⟨_, answered⟩ | ⟨token, between, tokenKind, rfl, _⟩)
      · exact answered
      · exact absurd tokenKind notDue

/-- Skipping blanks leaves at most one blank run behind. -/
theorem skipBlank_eq_ok_iff
    {cursor after : Cursor}
    {answer : Unit} :
    skipBlank cursor = .ok answer after ↔
      (cursor.kind ≠ .blank ∧ cursor = after) ∨
        ∃ token, token.kind = .blank ∧ cursor = after.pushAll [token] := by
  have shape : skipBlank =
      (kind >>= fun next => if next = .blank then advance >>= fun _ => pure () else pure ()) := rfl
  rw [shape, clause_eq_ok_iff (by decide)]
  simp only [pure_eq_ok_iff, true_and]
  constructor
  · rintro (skipped | ⟨token, between, tokenKind, rfl, rfl⟩)
    · exact .inl skipped
    · exact .inr ⟨token, tokenKind, rfl⟩
  · rintro (skipped | ⟨token, tokenKind, rfl⟩)
    · exact .inl skipped
    · exact .inr ⟨token, after, tokenKind, rfl, rfl⟩

theorem expectEnd_eq_ok_iff
    {cursor after : Cursor}
    {answer : Unit} :
    expectEnd cursor = .ok answer after ↔ cursor.kind = .endOfInput ∧ after = cursor := by
  rw [expectEnd]
  by_cases atEnd : cursor.kind = .endOfInput
  · rw [bind_of_eq_ok (expect_of_kind_eq atEnd), pure_eq_ok_iff, Cursor.advance_of_kind_eq atEnd]
    simp [atEnd, eq_comm]
  · rw [bind_of_eq_error (expect_of_kind_ne atEnd)]
    simp [atEnd]

theorem many_of_test_eq_false
    {test : Cursor -> Bool}
    {item : Parser α}
    (progress : Progresses test item)
    {cursor : Cursor}
    (ends : test cursor = false) :
    many test item cursor = (pure [] : Parser (List α)) cursor := by
  rw [many_eq_of_progress progress, ends, if_neg Bool.false_ne_true, pure_run]

theorem many_of_test_eq_true
    {test : Cursor -> Bool}
    {item : Parser α}
    (progress : Progresses test item)
    {cursor : Cursor}
    (holds : test cursor = true) :
    many test item cursor =
      (item >>= fun first => many test item >>= fun others => pure (first :: others)) cursor := by
  rw [many_eq_of_progress progress, if_pos holds]
  cases outcome : item cursor with
  | error error between => rw [bind_of_eq_error outcome]
  | ok first between =>
      rw [bind_of_eq_ok outcome]
      cases rest : many test item between with
      | error error last => simp only [bind_of_eq_error rest, consResult, rest]
      | ok others last => simp only [bind_of_eq_ok rest, consResult, pure_run, rest]

/-- A repetition answers nothing, or one item and then a repetition. -/
theorem many_eq_ok_iff
    {test : Cursor -> Bool}
    {item : Parser α}
    (progress : Progresses test item)
    {cursor after : Cursor}
    {values : List α} :
    many test item cursor = .ok values after ↔
      (test cursor = false ∧ values = [] ∧ cursor = after) ∨
        test cursor = true ∧ ∃ first others between, values = first :: others ∧
          item cursor = .ok first between ∧ many test item between = .ok others after := by
  cases holds : test cursor with
  | false =>
      rw [many_of_test_eq_false progress holds, pure_eq_ok_iff]
      simp [eq_comm]
  | true =>
      rw [many_of_test_eq_true progress holds]
      simp only [bind_eq_ok_iff, pure_eq_ok_iff]
      constructor
      · rintro ⟨first, between, firstRead, others, _, othersRead, rfl, rfl⟩
        exact .inr ⟨trivial, first, others, between, rfl, firstRead, othersRead⟩
      · rintro (⟨impossible, _⟩ | ⟨_, first, others, between, rfl, firstRead, othersRead⟩)
        · exact absurd impossible (by simp)
        · exact ⟨first, between, firstRead, others, after, othersRead, rfl, rfl⟩

/-- Items with separators between them; a separator is due where the test
holds. -/
def separated
    (test : Cursor -> Bool)
    (separator : Parser β)
    (item : Parser α) :
    Parser (List α) := do
  let first ← item
  let others ← many test do
    let _ ← separator
    item
  return first :: others

theorem separated_ne_ok_nil
    {test : Cursor -> Bool}
    {separator : Parser β}
    {item : Parser α}
    {cursor after : Cursor} :
    separated test separator item cursor ≠ .ok [] after := by
  intro answered
  simp only [separated, bind_eq_ok_iff, pure_eq_ok_iff] at answered
  obtain ⟨_, _, _, _, _, _, impossible, _⟩ := answered
  exact absurd impossible (by simp)

/-- Behind the first item there is no separator, or there is one and then items
with separators again. -/
theorem separated_eq_ok_cons_iff
    {test : Cursor -> Bool}
    {separator : Parser β}
    {item : Parser α}
    (progress : Progresses test (separator >>= fun _ => item))
    {cursor after : Cursor}
    {first : α}
    {others : List α} :
    separated test separator item cursor = .ok (first :: others) after ↔
      ∃ between, item cursor = .ok first between ∧
        ((test between = false ∧ others = [] ∧ between = after) ∨
          test between = true ∧ ∃ sign behind, separator between = .ok sign behind ∧
            separated test separator item behind = .ok others after) := by
  simp only [separated, bind_eq_ok_iff, pure_eq_ok_iff, List.cons.injEq]
  constructor
  · rintro ⟨_, between, firstRead, _, _, othersRead, ⟨rfl, rfl⟩, rfl⟩
    refine ⟨between, firstRead, ?_⟩
    rw [many_eq_ok_iff progress] at othersRead
    rcases othersRead with ends | ⟨due, second, rest, behindSecond, rfl, secondRead, restRead⟩
    · exact .inl ends
    · obtain ⟨sign, behind, signRead, itemRead⟩ := bind_eq_ok_iff.mp secondRead
      exact .inr ⟨due, sign, behind, signRead, second, behindSecond, itemRead, rest, _, restRead,
        rfl, rfl⟩
  · rintro ⟨between, firstRead, next⟩
    refine ⟨first, between, firstRead, others, after, ?_, ⟨rfl, rfl⟩, rfl⟩
    rw [many_eq_ok_iff progress]
    rcases next with ends | ⟨due, sign, behind, signRead, second, behindSecond, itemRead, rest, _,
      restRead, rfl, rfl⟩
    · exact .inl ends
    · exact .inr ⟨due, second, rest, behindSecond, rfl,
        bind_eq_ok_iff.mpr ⟨sign, behind, signRead, itemRead⟩, restRead⟩

/-- A parser whose successes take at least one token each moves the cursor. -/
theorem progresses_of_pushAll
    {test : Cursor -> Bool}
    {item : Parser α}
    (moves : ∀ cursor value after, test cursor = true -> item cursor = .ok value after ->
      ∃ token tokens, cursor = after.pushAll (token :: tokens)) :
    Progresses test item := by
  intro cursor value after holds answered
  obtain ⟨token, tokens, rfl⟩ := moves cursor value after holds answered
  simp only [Cursor.pushAll, List.length_append, List.length_cons]
  omega

end Parser
end StyleRules
