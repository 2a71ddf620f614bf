import StyleRules.Parser.Selector
import StyleRules.Proofs.Grammar.Basic
import StyleRules.Proofs.Parser.Runs

/-!
# Parsing selectors follows the grammar

A parser for a selector or one of its clauses succeeds exactly when the tokens
in front of it begin with a spelling of what it answers, and the cursor behind
them stands where nothing more belongs to it (`selector_eq_ok_iff`).
-/

namespace StyleRules
namespace Parser

open Grammar

/-! ## Clauses of selectors -/

theorem styleId_eq_ok_iff
    {cursor after : Cursor}
    {value : Option String} :
    styleId cursor = .ok value after ↔
      ∃ tokens, SpellsStyleId .tokens value tokens ∧ cursor = after.pushAll tokens ∧
        (value = none -> after.kind ≠ .className) := by
  rw [styleId, clause_eq_ok_iff (by decide)]
  simp only [pure_eq_ok_iff]
  constructor
  · rintro (⟨absent, rfl, rfl⟩ | ⟨token, _, tokenKind, rfl, rfl, rfl⟩)
    · exact ⟨[], .absent, rfl, fun _ => absent⟩
    · exact ⟨[token], .present ⟨token, rfl, tokenKind, rfl⟩, rfl, by simp⟩
  · rintro ⟨tokens, spells, rfl, ends⟩
    cases spells with
    | absent => exact .inl ⟨ends rfl, rfl, rfl⟩
    | present name =>
        obtain ⟨token, rfl, tokenKind, rfl⟩ := name
        exact .inr ⟨token, after, tokenKind, rfl, rfl, rfl⟩

theorem styleName_eq_ok_iff
    {cursor after : Cursor}
    {value : Option String} :
    styleName cursor = .ok value after ↔
      ∃ tokens, SpellsStyleName .tokens value tokens ∧ cursor = after.pushAll tokens ∧
        (value = none -> after.kind ≠ .openBracket) := by
  rw [styleName, clause_eq_ok_iff (by decide)]
  simp only [bind_eq_ok_iff, pure_eq_ok_iff, expectLiteral_eq_ok_iff, expect_eq_ok_iff,
    expectValue_eq_ok_iff, ne_eq, reduceCtorEq, not_false_eq_true]
  constructor
  · rintro (⟨absent, rfl, rfl⟩ | ⟨opening, _, openingKind, rfl, _, _,
      ⟨keyword, keywordKind, keywordValue, rfl⟩, equals, _, ⟨equalsKind, rfl⟩, _, _,
      ⟨quoted, quotedKind, rfl, rfl⟩, closing, _, ⟨closingKind, rfl⟩, rfl, rfl⟩)
    · exact ⟨[], .absent, rfl, fun _ => absent⟩
    · refine ⟨[opening] ++ ([keyword] ++ ([equals] ++ ([quoted] ++ [closing]))),
        .present ⟨opening, rfl, openingKind⟩ ⟨keyword, rfl, keywordKind, keywordValue⟩
          ⟨equals, rfl, equalsKind⟩ ⟨quoted, rfl, quotedKind, by simp [unquoted]⟩
          ⟨closing, rfl, closingKind⟩, ?_, by simp⟩
      simp
  · rintro ⟨tokens, spells, rfl, ends⟩
    cases spells with
    | absent => exact .inl ⟨ends rfl, rfl, rfl⟩
    | @present name _ _ _ _ _ opening keyword equals quoted closing =>
        obtain ⟨opening, rfl, openingKind⟩ := opening
        obtain ⟨keyword, rfl, keywordKind, keywordValue⟩ := keyword
        obtain ⟨equals, rfl, equalsKind⟩ := equals
        obtain ⟨quoted, rfl, quotedKind, quotedValue⟩ := quoted
        obtain ⟨closing, rfl, closingKind⟩ := closing
        have nameEquality : unquoted quoted.value = name := by
          rw [unquoted, quotedValue, String.ofList_toList]
        refine .inr ⟨opening, after.pushAll [keyword, equals, quoted, closing], openingKind,
          by simp, (), after.pushAll [equals, quoted, closing],
          ⟨keyword, keywordKind, keywordValue, by simp⟩,
          equals, after.pushAll [quoted, closing], ⟨equalsKind, by simp⟩,
          quoted.value, after.pushAll [closing], ⟨quoted, quotedKind, rfl, by simp⟩,
          closing, after, ⟨closingKind, rfl⟩, congrArg some nameEquality, rfl⟩

theorem listType_eq_ok_iff
    {cursor after : Cursor}
    {ordered : Bool} :
    listType cursor = .ok ordered after ↔
      ∃ token, token.kind = .identifier ∧ token.value = listWord ordered ∧
        cursor = after.pushAll [token] := by
  simp only [listType, bind_eq_ok_iff, expect_eq_ok_iff, ne_eq, reduceCtorEq, not_false_eq_true]
  constructor
  · rintro ⟨word, between, ⟨wordKind, rfl⟩, answered⟩
    split at answered
    · rename_i isOrdered
      obtain ⟨rfl, rfl⟩ := pure_eq_ok_iff.mp answered
      exact ⟨word, wordKind, isOrdered, rfl⟩
    · split at answered
      · rename_i isUnordered
        obtain ⟨rfl, rfl⟩ := pure_eq_ok_iff.mp answered
        exact ⟨word, wordKind, isUnordered, rfl⟩
      · exact absurd answered (by simp [failAt])
  · rintro ⟨word, wordKind, wordValue, rfl⟩
    refine ⟨word, after, ⟨wordKind, rfl⟩, ?_⟩
    cases ordered <;> simp [wordValue, listWord]

theorem levelIndex_eq_ok_iff
    {numeral : Token}
    {cursor after : Cursor}
    {index : UInt32} :
    levelIndex numeral cursor = .ok index after ↔
      (∃ level, Text.word? numeral.value = some level ∧ level ≠ 0 ∧ level - 1 = index) ∧
        cursor = after := by
  rw [levelIndex]
  cases Text.word? numeral.value with
  | none => simp [failAt]
  | some level =>
      simp only [Option.some.injEq]
      split
      · rename_i isZero
        simp [failAt, isZero]
      · rename_i notZero
        rw [pure_eq_ok_iff]
        constructor
        · rintro ⟨rfl, rfl⟩
          exact ⟨⟨level, rfl, notZero, rfl⟩, rfl⟩
        · rintro ⟨⟨_, rfl, _, rfl⟩, rfl⟩
          exact ⟨rfl, rfl⟩

theorem listLevel_eq_ok_iff
    {cursor after : Cursor}
    {value : Option ListLevel} :
    listLevel cursor = .ok value after ↔
      ∃ tokens, SpellsLevel .tokens value tokens ∧ cursor = after.pushAll tokens ∧
        (value = none -> after.kind ≠ .colon) := by
  rw [listLevel, clause_eq_ok_iff (by decide)]
  simp only [bind_eq_ok_iff, pure_eq_ok_iff, listType_eq_ok_iff, expect_eq_ok_iff,
    levelIndex_eq_ok_iff, ne_eq, reduceCtorEq, not_false_eq_true]
  constructor
  · rintro (⟨absent, rfl, rfl⟩ | ⟨colon, _, colonKind, rfl, ordered, _,
      ⟨keyword, keywordKind, keywordValue, rfl⟩, opening, _, ⟨openingKind, rfl⟩, numeral, _,
      ⟨numeralKind, rfl⟩, index, _, ⟨⟨level, reads, notZero, rfl⟩, rfl⟩, closing, _,
      ⟨closingKind, rfl⟩, rfl, rfl⟩)
    · exact ⟨[], .absent, rfl, fun _ => absent⟩
    · refine ⟨[colon] ++ ([keyword] ++ ([opening] ++ ([numeral] ++ [closing]))),
        .present ⟨colon, rfl, colonKind⟩ ⟨keyword, rfl, keywordKind, keywordValue⟩
          ⟨opening, rfl, openingKind⟩ ⟨numeral, level, rfl, numeralKind, reads, notZero, rfl⟩
          ⟨closing, rfl, closingKind⟩, ?_, by simp⟩
      simp
  · rintro ⟨tokens, spells, rfl, ends⟩
    cases spells with
    | absent => exact .inl ⟨ends rfl, rfl, rfl⟩
    | @present index ordered _ _ _ _ _ colon keyword opening numeral closing =>
        obtain ⟨colon, rfl, colonKind⟩ := colon
        obtain ⟨keyword, rfl, keywordKind, keywordValue⟩ := keyword
        obtain ⟨opening, rfl, openingKind⟩ := opening
        obtain ⟨numeral, level, rfl, numeralKind, reads, notZero, levelEquality⟩ := numeral
        obtain ⟨closing, rfl, closingKind⟩ := closing
        refine .inr ⟨colon, after.pushAll [keyword, opening, numeral, closing], colonKind,
          by simp, ordered, after.pushAll [opening, numeral, closing],
          ⟨keyword, keywordKind, keywordValue, by simp⟩,
          opening, after.pushAll [numeral, closing], ⟨openingKind, by simp⟩,
          numeral, after.pushAll [closing], ⟨numeralKind, by simp⟩,
          index, after.pushAll [closing], ⟨⟨level, reads, notZero, levelEquality⟩, rfl⟩,
          closing, after, ⟨closingKind, rfl⟩, rfl, rfl⟩

/-- A style name is absent, or its first token is a bracket. -/
theorem kind_pushAll_of_spellsStyleName
    {value : Option String}
    {tokens : List Token}
    (spells : SpellsStyleName .tokens value tokens)
    (after : Cursor) :
    (after.pushAll tokens).kind = if value = none then after.kind else .openBracket := by
  cases spells with
  | absent => rfl
  | present opening keyword equals quoted closing =>
      obtain ⟨opening, rfl, openingKind⟩ := opening
      simp [openingKind]

/-- A list level is absent, or its first token is a colon. -/
theorem kind_pushAll_of_spellsLevel
    {value : Option ListLevel}
    {tokens : List Token}
    (spells : SpellsLevel .tokens value tokens)
    (after : Cursor) :
    (after.pushAll tokens).kind = if value = none then after.kind else .colon := by
  cases spells with
  | absent => rfl
  | present colon keyword opening numeral closing =>
      obtain ⟨colon, rfl, colonKind⟩ := colon
      simp [colonKind]

/-! ## Selectors -/

/-- Does a selector end before a token of the given kind?  Each clause that is
absent could still begin there, unless a later one is present. -/
def EndsSelector : Selector -> TokenKind -> Prop
  | .toggle _, _ => True
  | .run selector, next =>
      selector.styleName = none ->
        next ≠ .openBracket ∧ (selector.styleId = none -> next ≠ .className)
  | .paragraph selector, next =>
      selector.level = none ->
        next ≠ .colon ∧
          (selector.styleName = none ->
            next ≠ .openBracket ∧ (selector.styleId = none -> next ≠ .className))

theorem runSelector_eq_ok_iff
    {cursor after : Cursor}
    {value : RunSelector} :
    runSelector cursor = .ok value after ↔
      ∃ idTokens nameTokens, SpellsStyleId .tokens value.styleId idTokens ∧
        SpellsStyleName .tokens value.styleName nameTokens ∧
        cursor = after.pushAll (idTokens ++ nameTokens) ∧
        EndsSelector (.run value) after.kind := by
  simp only [runSelector, bind_eq_ok_iff, pure_eq_ok_iff, styleId_eq_ok_iff, styleName_eq_ok_iff]
  constructor
  · rintro ⟨id, _, ⟨idTokens, idSpelled, rfl, idEnds⟩, name, _,
      ⟨nameTokens, nameSpelled, rfl, nameEnds⟩, rfl, rfl⟩
    refine ⟨idTokens, nameTokens, idSpelled, nameSpelled, by simp, ?_⟩
    intro nameAbsent
    rw [kind_pushAll_of_spellsStyleName nameSpelled, if_pos nameAbsent] at idEnds
    exact ⟨nameEnds nameAbsent, idEnds⟩
  · rintro ⟨idTokens, nameTokens, idSpelled, nameSpelled, rfl, ends⟩
    refine ⟨value.styleId, after.pushAll nameTokens, ⟨idTokens, idSpelled, by simp, ?_⟩,
      value.styleName, after, ⟨nameTokens, nameSpelled, rfl, ?_⟩, rfl, rfl⟩
    · intro idAbsent
      rw [kind_pushAll_of_spellsStyleName nameSpelled]
      split
      · rename_i nameAbsent
        exact (ends nameAbsent).2 idAbsent
      · simp
    · intro nameAbsent
      exact (ends nameAbsent).1

theorem paragraphSelector_eq_ok_iff
    {cursor after : Cursor}
    {value : ParagraphSelector} :
    paragraphSelector cursor = .ok value after ↔
      ∃ idTokens nameTokens levelTokens, SpellsStyleId .tokens value.styleId idTokens ∧
        SpellsStyleName .tokens value.styleName nameTokens ∧
        SpellsLevel .tokens value.level levelTokens ∧
        cursor = after.pushAll (idTokens ++ (nameTokens ++ levelTokens)) ∧
        EndsSelector (.paragraph value) after.kind := by
  simp only [paragraphSelector, bind_eq_ok_iff, pure_eq_ok_iff, styleId_eq_ok_iff,
    styleName_eq_ok_iff, listLevel_eq_ok_iff]
  constructor
  · rintro ⟨id, _, ⟨idTokens, idSpelled, rfl, idEnds⟩, name, _,
      ⟨nameTokens, nameSpelled, rfl, nameEnds⟩, level, _,
      ⟨levelTokens, levelSpelled, rfl, levelEnds⟩, rfl, rfl⟩
    refine ⟨idTokens, nameTokens, levelTokens, idSpelled, nameSpelled, levelSpelled, by simp, ?_⟩
    intro levelAbsent
    rw [kind_pushAll_of_spellsLevel levelSpelled, if_pos levelAbsent] at nameEnds
    refine ⟨levelEnds levelAbsent, ?_⟩
    intro nameAbsent
    rw [kind_pushAll_of_spellsStyleName nameSpelled, if_pos nameAbsent,
      kind_pushAll_of_spellsLevel levelSpelled, if_pos levelAbsent] at idEnds
    exact ⟨nameEnds nameAbsent, idEnds⟩
  · rintro ⟨idTokens, nameTokens, levelTokens, idSpelled, nameSpelled, levelSpelled, rfl, ends⟩
    refine ⟨value.styleId, after.pushAll (nameTokens ++ levelTokens),
      ⟨idTokens, idSpelled, by simp, ?_⟩, value.styleName, after.pushAll levelTokens,
      ⟨nameTokens, nameSpelled, by simp, ?_⟩, value.level, after,
      ⟨levelTokens, levelSpelled, rfl, ?_⟩, rfl, rfl⟩
    · intro idAbsent
      rw [← Cursor.pushAll_pushAll, kind_pushAll_of_spellsStyleName nameSpelled,
        kind_pushAll_of_spellsLevel levelSpelled]
      split
      · rename_i nameAbsent
        split
        · rename_i levelAbsent
          exact ((ends levelAbsent).2 nameAbsent).2 idAbsent
        · simp
      · simp
    · intro nameAbsent
      rw [kind_pushAll_of_spellsLevel levelSpelled]
      split
      · rename_i levelAbsent
        exact ((ends levelAbsent).2 nameAbsent).1
      · simp
    · intro levelAbsent
      exact (ends levelAbsent).1

theorem toggle?_eq_some_iff
    {word : String}
    {toggle : Toggle} :
    toggle? word = some toggle ↔ word = toggle.word := by
  constructor
  · intro found
    unfold toggle? at found
    repeat' split at found
    all_goals first
      | (obtain rfl := Option.some.inj found; assumption)
      | exact absurd found (by simp)
  · rintro rfl
    cases toggle <;> rfl

theorem selector_eq_ok_iff
    {cursor after : Cursor}
    {value : Selector} :
    selector cursor = .ok value after ↔
      ∃ tokens, SpellsSelector .tokens value tokens ∧ cursor = after.pushAll tokens ∧
        EndsSelector value after.kind := by
  simp only [selector, bind_eq_ok_iff, expect_eq_ok_iff, ne_eq, reduceCtorEq, not_false_eq_true]
  constructor
  · rintro ⟨word, between, ⟨wordKind, rfl⟩, answered⟩
    split at answered
    · rename_i isP
      simp only [bind_eq_ok_iff, pure_eq_ok_iff, paragraphSelector_eq_ok_iff] at answered
      obtain ⟨clauses, _, ⟨idTokens, nameTokens, levelTokens, idSpelled, nameSpelled, levelSpelled,
        rfl, ends⟩, rfl, rfl⟩ := answered
      exact ⟨[word] ++ (idTokens ++ (nameTokens ++ levelTokens)),
        .paragraph ⟨word, rfl, wordKind, isP⟩ idSpelled nameSpelled levelSpelled, by simp, ends⟩
    · split at answered
      · rename_i isR
        simp only [bind_eq_ok_iff, pure_eq_ok_iff, runSelector_eq_ok_iff] at answered
        obtain ⟨clauses, _, ⟨idTokens, nameTokens, idSpelled, nameSpelled, rfl, ends⟩, rfl, rfl⟩ :=
          answered
        exact ⟨[word] ++ (idTokens ++ nameTokens),
          .run ⟨word, rfl, wordKind, isR⟩ idSpelled nameSpelled, by simp, ends⟩
      · cases found : toggle? word.value with
        | none =>
            rw [found] at answered
            exact absurd answered (by simp [failAt])
        | some toggle =>
            rw [found, pure_eq_ok_iff] at answered
            obtain ⟨rfl, rfl⟩ := answered
            exact ⟨[word], .toggle ⟨word, rfl, wordKind, toggle?_eq_some_iff.mp found⟩, rfl,
              trivial⟩
  · rintro ⟨tokens, spells, rfl, ends⟩
    cases spells with
    | @toggle toggle _ word =>
        obtain ⟨word, rfl, wordKind, wordValue⟩ := word
        refine ⟨word, after, ⟨wordKind, rfl⟩, ?_⟩
        have notP : word.value ≠ "p" := by cases toggle <;> simp [wordValue, Toggle.word]
        have notR : word.value ≠ "r" := by cases toggle <;> simp [wordValue, Toggle.word]
        rw [if_neg notP, if_neg notR, toggle?_eq_some_iff.mpr wordValue]
        rfl
    | @run styleId styleName _ idTokens nameTokens word idSpelled nameSpelled =>
        obtain ⟨word, rfl, wordKind, isR⟩ := word
        refine ⟨word, after.pushAll (idTokens ++ nameTokens), ⟨wordKind, by simp⟩, ?_⟩
        rw [if_neg (by simp [isR]), if_pos isR, bind_eq_ok_iff]
        refine ⟨⟨styleId, styleName⟩, after, ?_, rfl⟩
        exact runSelector_eq_ok_iff.mpr ⟨idTokens, nameTokens, idSpelled, nameSpelled, rfl, ends⟩
    | @paragraph styleId styleName level _ idTokens nameTokens levelTokens word idSpelled
        nameSpelled levelSpelled =>
        obtain ⟨word, rfl, wordKind, isP⟩ := word
        refine ⟨word, after.pushAll (idTokens ++ (nameTokens ++ levelTokens)),
          ⟨wordKind, by simp⟩, ?_⟩
        rw [if_pos isP, bind_eq_ok_iff]
        refine ⟨⟨styleId, styleName, level⟩, after, ?_, rfl⟩
        exact paragraphSelector_eq_ok_iff.mpr
          ⟨idTokens, nameTokens, levelTokens, idSpelled, nameSpelled, levelSpelled, rfl, ends⟩

end Parser
end StyleRules
