import StyleRules.Parser.Rule
import StyleRules.Proofs.Grammar.Paths
import StyleRules.Proofs.Grammar.Selectors

/-!
# Parsing rules follows the grammar

The parser for rules accepts a sequence of tokens exactly when they spell a rule,
up to the end of the input (`rule_eq_ok_iff`).  Where a path is empty, a blank run
behind the arrow may be taken as the one before the path or as the one behind it;
the parser takes the first choice.
-/

namespace StyleRules
namespace Parser

open Grammar

theorem exists_gap_of_skipBlank
    {cursor after : Cursor}
    {answer : Unit}
    (answered : skipBlank cursor = .ok answer after) :
    ∃ gap, SpellsGap .tokens gap ∧ cursor = after.pushAll gap := by
  rcases skipBlank_eq_ok_iff.mp answered with ⟨_, rfl⟩ | ⟨token, tokenKind, rfl⟩
  · exact ⟨[], .inl rfl, rfl⟩
  · exact ⟨[token], .inr ⟨token, rfl, tokenKind⟩, rfl⟩

theorem skipBlank_of_gap
    {gap : List Token}
    (after : Cursor)
    (spells : SpellsGap .tokens gap)
    (ends : gap = [] -> after.kind ≠ .blank) :
    skipBlank (after.pushAll gap) = .ok () after := by
  rw [skipBlank_eq_ok_iff]
  rcases spells with rfl | ⟨token, rfl, tokenKind⟩
  · exact .inl ⟨ends rfl, rfl⟩
  · exact .inr ⟨token, tokenKind, rfl⟩

/-- Selectors begin with an identifier. -/
theorem kind_pushAll_of_spellsSelector
    {selector : Selector}
    {tokens : List Token}
    (spells : SpellsSelector .tokens selector tokens)
    (after : Cursor) :
    (after.pushAll tokens).kind = .identifier := by
  cases spells with
  | toggle word =>
      obtain ⟨word, rfl, wordKind, _⟩ := word
      exact wordKind
  | run word _ _ =>
      obtain ⟨word, rfl, wordKind, _⟩ := word
      exact wordKind
  | paragraph word _ _ _ =>
      obtain ⟨word, rfl, wordKind, _⟩ := word
      exact wordKind

/-- Before a blank run or the end of the input nothing more belongs to a
selector, nor does before an arrow. -/
theorem endsSelector_of_kind
    {selector : Selector}
    {next : TokenKind}
    (ends : next = .blank ∨ next = .arrow) :
    EndsSelector selector next := by
  cases selector <;> rcases ends with rfl | rfl <;> simp [EndsSelector]

/-- No sign between two elements begins in a gap before the end of the input. -/
theorem atDescendant_of_gap
    {gap : List Token}
    {after : Cursor}
    (spells : SpellsGap .tokens gap)
    (atEnd : after.kind = .endOfInput) :
    atDescendant (after.pushAll gap) = false := by
  rw [Bool.eq_false_iff]
  intro due
  obtain ⟨isBlank, isSign⟩ := atDescendant_eq_true_iff.mp due
  rcases spells with rfl | ⟨token, rfl, tokenKind⟩
  · rw [Cursor.pushAll_nil, atEnd] at isBlank
    exact absurd isBlank (by decide)
  · rw [Cursor.advance_pushAll_cons _ _ (by simp [tokenKind]), Cursor.pushAll_nil, atEnd] at isSign
    exact absurd isSign (by decide)

/-- A path ends at a gap before the end of the input. -/
theorem endsPath_of_gap
    {path : HtmlPath}
    {gap : List Token}
    {after : Cursor}
    (spells : SpellsGap .tokens gap)
    (atEnd : after.kind = .endOfInput) :
    EndsPath path (after.pushAll gap) := by
  have noSign := atDescendant_of_gap spells atEnd
  have gapKind : (after.pushAll gap).kind = .blank ∨ (after.pushAll gap).kind = .endOfInput := by
    rcases spells with rfl | ⟨token, rfl, tokenKind⟩
    · exact .inr atEnd
    · exact .inl tokenKind
  cases path with
  | ignore => trivial
  | elements steps =>
      cases steps with
      | nil => rcases gapKind with same | same <;> simp [EndsPath, same]
      | cons first others =>
          refine ⟨noSign, ?_⟩
          intro last _ _
          rcases gapKind with same | same <;> simp [same]

/-- Of the two gaps around an empty path, the first one can be taken as the one
that is there. -/
theorem exists_gaps_of_spellsPath
    {path : HtmlPath}
    {behind pathTokens trail : List Token}
    (behindSpelled : SpellsGap .tokens behind)
    (pathSpelled : SpellsPath .tokens path pathTokens)
    (trailSpelled : SpellsGap .tokens trail) :
    ∃ first last, SpellsGap .tokens first ∧ SpellsGap .tokens last ∧
      behind ++ (pathTokens ++ trail) = first ++ (pathTokens ++ last) ∧
      (first = [] -> pathTokens = [] -> last = []) := by
  by_cases moves : behind = [] ∧ pathTokens = []
  · obtain ⟨rfl, rfl⟩ := moves
    exact ⟨trail, [], trailSpelled, .inl rfl, by simp, fun _ _ => rfl⟩
  · exact ⟨behind, trail, behindSpelled, trailSpelled, rfl,
      fun noGap noPath => absurd ⟨noGap, noPath⟩ moves⟩

/-- A path begins with a bang or an identifier, unless it is empty. -/
theorem kind_pushAll_of_spellsPath
    {path : HtmlPath}
    {tokens : List Token}
    (spells : SpellsPath .tokens path tokens)
    (after : Cursor) :
    tokens = [] ∨ (after.pushAll tokens).kind = .bang ∨
      (after.pushAll tokens).kind = .identifier := by
  cases spells with
  | ignore bang =>
      obtain ⟨bang, rfl, bangKind⟩ := bang
      exact .inr (.inl bangKind)
  | nothing => exact .inl rfl
  | elements steps => exact .inr (.inr (kind_pushAll_of_spellsSteps steps after))

/-- The parser for rules accepts exactly the spellings of rules that stand before
the end of the input. -/
theorem rule_eq_ok_iff
    {cursor after : Cursor}
    {value : StyleRule} :
    rule cursor = .ok value after ↔
      ∃ tokens, SpellsRule .tokens value tokens ∧ cursor = after.pushAll tokens ∧
        after.kind = .endOfInput := by
  simp only [rule, bind_eq_ok_iff, pure_eq_ok_iff, selector_eq_ok_iff, path_eq_ok_iff,
    expectEnd_eq_ok_iff, expect_eq_ok_iff, ne_eq, reduceCtorEq, not_false_eq_true]
  constructor
  · rintro ⟨_, _, leadSkipped, selector, _, ⟨selectorTokens, selectorSpelled, rfl, _⟩, _, _,
      beforeSkipped, arrow, _, ⟨arrowKind, rfl⟩, _, _, behindSkipped, path, _,
      ⟨pathTokens, pathSpelled, rfl, _⟩, _, _, trailSkipped, _, _, ⟨atEnd, rfl⟩, rfl, rfl⟩
    obtain ⟨lead, leadSpelled, rfl⟩ := exists_gap_of_skipBlank leadSkipped
    obtain ⟨before, beforeSpelled, rfl⟩ := exists_gap_of_skipBlank beforeSkipped
    obtain ⟨behind, behindSpelled, rfl⟩ := exists_gap_of_skipBlank behindSkipped
    obtain ⟨trail, trailSpelled, rfl⟩ := exists_gap_of_skipBlank trailSkipped
    refine ⟨lead ++ (selectorTokens ++ (before ++ ([arrow] ++ (behind ++ (pathTokens ++ trail))))),
      ?_, by simp, atEnd⟩
    exact .intro leadSpelled selectorSpelled beforeSpelled ⟨arrow, rfl, arrowKind⟩ behindSpelled
      pathSpelled trailSpelled
  · rintro ⟨tokens, spells, rfl, atEnd⟩
    cases spells with
    | @intro selector path lead selectorTokens before _ behind pathTokens trail leadSpelled
        selectorSpelled beforeSpelled arrow behindSpelled pathSpelled trailSpelled =>
        obtain ⟨arrow, rfl, arrowKind⟩ := arrow
        obtain ⟨first, last, firstSpelled, lastSpelled, same, moved⟩ :=
          exists_gaps_of_spellsPath behindSpelled pathSpelled trailSpelled
        rw [same]
        have leadSkipped := skipBlank_of_gap (after.pushAll
          (selectorTokens ++ (before ++ ([arrow] ++ (first ++ (pathTokens ++ last)))))) leadSpelled
        have beforeSkipped := skipBlank_of_gap (after.pushAll
          ([arrow] ++ (first ++ (pathTokens ++ last)))) beforeSpelled
        have firstSkipped := skipBlank_of_gap (after.pushAll (pathTokens ++ last)) firstSpelled
        have lastSkipped := skipBlank_of_gap after lastSpelled
        simp only [Cursor.pushAll_pushAll] at leadSkipped beforeSkipped firstSkipped lastSkipped
        refine ⟨(), _, leadSkipped ?_, selector, _, ⟨selectorTokens, selectorSpelled, by simp, ?_⟩,
          (), _, beforeSkipped ?_, arrow, _, ⟨arrowKind, by simp⟩, (), _, firstSkipped ?_, path, _,
          ⟨pathTokens, pathSpelled, by simp, endsPath_of_gap lastSpelled atEnd⟩, (), _,
          lastSkipped ?_, (), after, ⟨atEnd, rfl⟩, rfl, rfl⟩
        · intro _
          rw [← Cursor.pushAll_pushAll, kind_pushAll_of_spellsSelector selectorSpelled]
          decide
        · apply endsSelector_of_kind
          rcases beforeSpelled with rfl | ⟨token, rfl, tokenKind⟩
          · exact .inr arrowKind
          · exact .inl tokenKind
        · intro _
          rw [List.singleton_append, Cursor.kind_pushAll_cons, arrowKind]
          decide
        · intro noGap
          rw [← Cursor.pushAll_pushAll]
          rcases kind_pushAll_of_spellsPath pathSpelled (after.pushAll last) with
            rfl | isBang | isIdentifier
          · rw [moved noGap rfl, Cursor.pushAll_nil, Cursor.pushAll_nil, atEnd]
            decide
          · rw [isBang]
            decide
          · rw [isIdentifier]
            decide
        · intro _
          rw [atEnd]
          decide

end Parser
end StyleRules
