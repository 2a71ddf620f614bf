import StyleRules.Parser.Path
import StyleRules.Proofs.Grammar.Basic
import StyleRules.Proofs.Parser.Runs

/-!
# Parsing paths follows the grammar

A parser for a path or a part of one succeeds exactly when the tokens in front of
it begin with a spelling of what it answers, and the cursor behind them stands
where nothing more belongs to it (`path_eq_ok_iff`).  Tag names and elements are
both lists with separators, which are unfolded one item at a time.
-/

namespace StyleRules
namespace Parser

open Grammar

/-! ## Tag names -/

/-- Does another tag name follow? -/
def atBar (cursor : Cursor) : Bool :=
  cursor.kind = .bar

theorem tagNames_eq_separated :
    tagNames = separated atBar advance (expectValue .identifier) := rfl

theorem atBar_eq_true_iff
    {cursor : Cursor} :
    atBar cursor = true ↔ cursor.kind = .bar :=
  decide_eq_true_iff

theorem atBar_eq_false_iff
    {cursor : Cursor} :
    atBar cursor = false ↔ cursor.kind ≠ .bar :=
  decide_eq_false_iff_not

theorem progresses_barName :
    Progresses atBar (advance >>= fun _ => expectValue .identifier) := by
  apply progresses_of_pushAll
  intro cursor value after due answered
  obtain ⟨bar, _, barRead, nameRead⟩ := bind_eq_ok_iff.mp answered
  obtain ⟨name, _, _, rfl⟩ := (expectValue_eq_ok_iff (by decide)).mp nameRead
  obtain ⟨_, rfl⟩ := (advance_eq_ok_iff (by decide)).mp ⟨atBar_eq_true_iff.mp due, barRead⟩
  exact ⟨bar, [name], by simp⟩

theorem tagNames_eq_ok_iff
    {cursor after : Cursor}
    {names : List String} :
    tagNames cursor = .ok names after ↔
      ∃ tokens, SpellsTagNames .tokens names tokens ∧ cursor = after.pushAll tokens ∧
        after.kind ≠ .bar := by
  rw [tagNames_eq_separated]
  -- The names and their spelling lose one name at a time, with the bar behind it.
  induction names generalizing cursor with
  | nil =>
      constructor
      · intro answered
        exact absurd answered separated_ne_ok_nil
      · rintro ⟨_, spells, _⟩
        cases spells
  | cons first others inductionHypothesis =>
      rw [separated_eq_ok_cons_iff progresses_barName]
      simp only [inductionHypothesis, expectValue_eq_ok_iff, ne_eq, reduceCtorEq,
        not_false_eq_true, atBar_eq_true_iff, atBar_eq_false_iff]
      constructor
      · rintro ⟨_, ⟨name, nameKind, nameValue, rfl⟩, next⟩
        rcases next with ⟨noBar, rfl, rfl⟩ | ⟨due, bar, _, barRead, tokens, spells, rfl, ends⟩
        · exact ⟨[name], .single ⟨name, rfl, nameKind, nameValue⟩, rfl, noBar⟩
        · obtain ⟨barKind, rfl⟩ := (advance_eq_ok_iff (by decide)).mp ⟨due, barRead⟩
          exact ⟨[name] ++ ([bar] ++ tokens),
            .more ⟨name, rfl, nameKind, nameValue⟩ ⟨bar, rfl, barKind⟩ spells, by simp, ends⟩
      · rintro ⟨tokens, spells, rfl, ends⟩
        cases spells with
        | single name =>
            obtain ⟨name, rfl, nameKind, nameValue⟩ := name
            exact ⟨after, ⟨name, nameKind, nameValue, rfl⟩, .inl ⟨ends, rfl, rfl⟩⟩
        | @more _ _ _ _ restTokens name bar restSpells =>
            obtain ⟨name, rfl, nameKind, nameValue⟩ := name
            obtain ⟨bar, rfl, barKind⟩ := bar
            refine ⟨after.pushAll ([bar] ++ restTokens), ⟨name, nameKind, nameValue, by simp⟩,
              .inr ?_⟩
            obtain ⟨due, barRead⟩ := (advance_eq_ok_iff (by decide)).mpr
              ⟨barKind, (by simp : after.pushAll ([bar] ++ restTokens) =
                (after.pushAll restTokens).pushAll [bar])⟩
            exact ⟨due, bar, after.pushAll restTokens, barRead, restTokens, restSpells, rfl, ends⟩

/-! ## Class names and freshness -/

/-- Does another class name follow? -/
def atClassName (cursor : Cursor) : Bool :=
  cursor.kind = .className

/-- The class name at the cursor. -/
def nextClassName : Parser String := do
  return (← advance).value

theorem classNames_eq_many :
    classNames = many atClassName nextClassName := rfl

theorem nextClassName_eq_ok_iff
    {cursor after : Cursor}
    {value : String} :
    atClassName cursor = true ∧ nextClassName cursor = .ok value after ↔
      ∃ name, name.kind = .className ∧ name.value = value ∧ cursor = after.pushAll [name] := by
  simp only [atClassName, decide_eq_true_iff, nextClassName, bind_eq_ok_iff, pure_eq_ok_iff]
  constructor
  · rintro ⟨due, name, _, read, rfl, rfl⟩
    obtain ⟨nameKind, rfl⟩ := (advance_eq_ok_iff (by decide)).mp ⟨due, read⟩
    exact ⟨name, nameKind, rfl, rfl⟩
  · rintro ⟨name, nameKind, rfl, rfl⟩
    obtain ⟨due, read⟩ := (advance_eq_ok_iff (by decide)).mpr ⟨nameKind, rfl⟩
    exact ⟨due, name, after, read, rfl, rfl⟩

theorem progresses_nextClassName :
    Progresses atClassName nextClassName := by
  apply progresses_of_pushAll
  intro cursor value after due answered
  obtain ⟨name, _, _, rfl⟩ := nextClassName_eq_ok_iff.mp ⟨due, answered⟩
  exact ⟨name, [], rfl⟩

theorem classNames_eq_ok_iff
    {cursor after : Cursor}
    {names : List String} :
    classNames cursor = .ok names after ↔
      ∃ tokens, SpellsClassNames .tokens names tokens ∧ cursor = after.pushAll tokens ∧
        after.kind ≠ .className := by
  rw [classNames_eq_many]
  induction names generalizing cursor with
  | nil =>
      rw [many_eq_ok_iff progresses_nextClassName]
      constructor
      · rintro (⟨noName, _, rfl⟩ | ⟨_, _, _, _, impossible, _⟩)
        · exact ⟨[], .none, rfl, of_decide_eq_false noName⟩
        · exact absurd impossible (by simp)
      · rintro ⟨tokens, spells, rfl, ends⟩
        cases spells
        exact .inl ⟨decide_eq_false ends, rfl, rfl⟩
  | cons first others inductionHypothesis =>
      rw [many_eq_ok_iff progresses_nextClassName]
      constructor
      · rintro (⟨_, impossible, _⟩ | ⟨due, _, _, between, same, read, rest⟩)
        · exact absurd impossible (by simp)
        · obtain ⟨rfl, rfl⟩ := List.cons.inj same
          obtain ⟨name, nameKind, nameValue, rfl⟩ := nextClassName_eq_ok_iff.mp ⟨due, read⟩
          obtain ⟨tokens, spells, rfl, ends⟩ := inductionHypothesis.mp rest
          exact ⟨[name] ++ tokens, .more ⟨name, rfl, nameKind, nameValue⟩ spells, by simp, ends⟩
      · rintro ⟨tokens, spells, rfl, ends⟩
        cases spells with
        | @more _ _ _ restTokens name restSpells =>
            obtain ⟨name, rfl, nameKind, nameValue⟩ := name
            obtain ⟨due, read⟩ := nextClassName_eq_ok_iff.mpr ⟨name, nameKind, nameValue,
              (by simp : after.pushAll ([name] ++ restTokens) =
                (after.pushAll restTokens).pushAll [name])⟩
            exact .inr ⟨due, first, others, after.pushAll restTokens, rfl, read,
              inductionHypothesis.mpr ⟨restTokens, restSpells, rfl, ends⟩⟩

theorem isFresh_eq_ok_iff
    {cursor after : Cursor}
    {fresh : Bool} :
    isFresh cursor = .ok fresh after ↔
      ∃ tokens, SpellsFreshness .tokens (!fresh) tokens ∧ cursor = after.pushAll tokens ∧
        (fresh = false -> after.kind ≠ .colon) := by
  rw [isFresh, clause_eq_ok_iff (by decide)]
  simp only [bind_eq_ok_iff, pure_eq_ok_iff, expectLiteral_eq_ok_iff, ne_eq, reduceCtorEq,
    not_false_eq_true]
  constructor
  · rintro (⟨absent, rfl, rfl⟩ | ⟨colon, _, colonKind, rfl, _, _,
      ⟨keyword, keywordKind, keywordValue, rfl⟩, rfl, rfl⟩)
    · exact ⟨[], .collapsible, rfl, fun _ => absent⟩
    · refine ⟨[colon] ++ [keyword],
        .fresh ⟨colon, rfl, colonKind⟩ ⟨keyword, rfl, keywordKind, keywordValue⟩, by simp, ?_⟩
      intro notFresh
      exact absurd notFresh (by simp)
  · rintro ⟨tokens, spells, rfl, ends⟩
    cases fresh with
    | false =>
        cases spells
        exact .inl ⟨ends rfl, rfl, rfl⟩
    | true =>
        cases spells with
        | fresh colon keyword =>
            obtain ⟨colon, rfl, colonKind⟩ := colon
            obtain ⟨keyword, rfl, keywordKind, keywordValue⟩ := keyword
            exact .inr ⟨colon, after.pushAll [keyword], colonKind, by simp, (), after,
              ⟨keyword, keywordKind, keywordValue, rfl⟩, rfl, rfl⟩

/-! ## Elements -/

/-- Class names are absent, or their first token is one. -/
theorem kind_pushAll_of_spellsClassNames
    {names : List String}
    {tokens : List Token}
    (spells : SpellsClassNames .tokens names tokens)
    (after : Cursor) :
    (after.pushAll tokens).kind = if names = [] then after.kind else .className := by
  cases spells with
  | none => rfl
  | more name rest =>
      obtain ⟨name, rfl, nameKind, _⟩ := name
      simp [nameKind]

/-- An element is collapsible, or a colon stands behind its names. -/
theorem kind_pushAll_of_spellsFreshness
    {collapsible : Bool}
    {tokens : List Token}
    (spells : SpellsFreshness .tokens collapsible tokens)
    (after : Cursor) :
    (after.pushAll tokens).kind = if collapsible = true then after.kind else .colon := by
  cases spells with
  | collapsible => rfl
  | fresh colon keyword =>
      obtain ⟨colon, rfl, colonKind⟩ := colon
      simp [colonKind]

/-- Does an element end before a token of the given kind?  Behind `:fresh` it
always does. -/
def EndsElement (element : PathElement) (next : TokenKind) : Prop :=
  element.collapsible = true ->
    next ≠ .colon ∧ next ≠ .className ∧ (element.className? = none -> next ≠ .bar)

theorem className?_ofNames_eq_none_iff
    {tagNames classNames : List String}
    {collapsible : Bool} :
    (PathElement.ofNames tagNames classNames collapsible).className? = none ↔
      classNames = [] := by
  cases classNames with
  | nil => simp [PathElement.ofNames, PathElement.className?]
  | cons name names => simp [PathElement.ofNames, PathElement.className?]

theorem pathElement_eq_ok_iff
    {cursor after : Cursor}
    {element : PathElement} :
    pathElement cursor = .ok element after ↔
      ∃ tokens, SpellsElement .tokens element tokens ∧ cursor = after.pushAll tokens ∧
        EndsElement element after.kind := by
  simp only [pathElement, bind_eq_ok_iff, pure_eq_ok_iff, tagNames_eq_ok_iff,
    classNames_eq_ok_iff, isFresh_eq_ok_iff]
  constructor
  · rintro ⟨tags, _, ⟨tagTokens, tagsSpelled, rfl, tagsEnd⟩, classes, _,
      ⟨classTokens, classesSpelled, rfl, classesEnd⟩, fresh, _,
      ⟨freshTokens, freshSpelled, rfl, freshEnds⟩, rfl, rfl⟩
    refine ⟨tagTokens ++ (classTokens ++ freshTokens),
      .intro tagsSpelled classesSpelled freshSpelled, by simp, ?_⟩
    intro isCollapsible
    have isCollapsible : (!fresh) = true := isCollapsible
    rw [kind_pushAll_of_spellsFreshness freshSpelled, if_pos isCollapsible] at classesEnd
    refine ⟨freshEnds (by simpa using isCollapsible), classesEnd, ?_⟩
    intro noClass
    rw [className?_ofNames_eq_none_iff] at noClass
    rw [kind_pushAll_of_spellsClassNames classesSpelled, if_pos noClass,
      kind_pushAll_of_spellsFreshness freshSpelled, if_pos isCollapsible] at tagsEnd
    exact tagsEnd
  · rintro ⟨tokens, spells, rfl, ends⟩
    cases spells with
    | @intro tags classes collapsible tagTokens classTokens freshTokens tagsSpelled
        classesSpelled freshSpelled =>
        have ends : collapsible = true -> after.kind ≠ .colon ∧ after.kind ≠ .className ∧
            (classes = [] -> after.kind ≠ .bar) := by
          intro isCollapsible
          obtain ⟨noColon, noClassName, noBar⟩ := ends isCollapsible
          exact ⟨noColon, noClassName, fun noClass =>
            noBar (className?_ofNames_eq_none_iff.mpr noClass)⟩
        refine ⟨tags, after.pushAll (classTokens ++ freshTokens),
          ⟨tagTokens, tagsSpelled, by simp, ?_⟩, classes, after.pushAll freshTokens,
          ⟨classTokens, classesSpelled, by simp, ?_⟩, !collapsible, after,
          ⟨freshTokens, by simpa using freshSpelled, rfl, ?_⟩, by simp, rfl⟩
        · rw [← Cursor.pushAll_pushAll, kind_pushAll_of_spellsClassNames classesSpelled,
            kind_pushAll_of_spellsFreshness freshSpelled]
          split
          · rename_i noClass
            split
            · rename_i isCollapsible
              exact (ends isCollapsible).2.2 noClass
            · simp
          · simp
        · rw [kind_pushAll_of_spellsFreshness freshSpelled]
          split
          · rename_i isCollapsible
            exact (ends isCollapsible).2.1
          · simp
        · intro notFresh
          exact (ends (by simpa using notFresh)).1

/-! ## Paths -/

/-- The sign between two elements. -/
def descendantSign : Parser Token := do
  let _ ← advance
  let _ ← advance
  expect .blank

theorem descendant_eq :
    descendant = (descendantSign >>= fun _ => pathElement) := by
  simp [descendant, descendantSign, bind_assoc]

theorem atDescendant_eq_true_iff
    {cursor : Cursor} :
    atDescendant cursor = true ↔ cursor.kind = .blank ∧ cursor.advance.kind = .greaterThan := by
  simp only [atDescendant, Bool.and_eq_true, decide_eq_true_iff]
  by_cases isBlank : cursor.kind = .blank
  · have notEnd : cursor.kind ≠ .endOfInput := by simp [isBlank]
    have second : cursor.kindAt 1 = cursor.advance.kindAt 0 := by
      simp only [Cursor.kindAt, Cursor.remaining_eq_cons notEnd, List.getElem?_cons_succ]
    rw [second, Cursor.kindAt_zero]
  · simp [isBlank]

theorem descendantSign_eq_ok_iff
    {cursor after : Cursor}
    {token : Token} :
    atDescendant cursor = true ∧ descendantSign cursor = .ok token after ↔
      ∃ before sign, before.kind = .blank ∧ sign.kind = .greaterThan ∧ token.kind = .blank ∧
        cursor = after.pushAll [before, sign, token] := by
  rw [atDescendant_eq_true_iff, descendantSign, advance_bind, advance_bind,
    expect_eq_ok_iff (by decide)]
  constructor
  · rintro ⟨⟨isBlank, isSign⟩, tokenKind, advanced⟩
    have behindBlank : cursor.advance = (after.pushAll [token]).pushAll [cursor.advance.current] := by
      rw [← advanced]
      exact Cursor.eq_pushAll_advance (by simp [isSign])
    refine ⟨cursor.current, cursor.advance.current, isBlank, isSign, tokenKind, ?_⟩
    calc cursor
        = cursor.advance.pushAll [cursor.current] :=
          Cursor.eq_pushAll_advance (by simp [isBlank])
      _ = ((after.pushAll [token]).pushAll [cursor.advance.current]).pushAll [cursor.current] :=
          congrArg (Cursor.pushAll · [cursor.current]) behindBlank
      _ = after.pushAll [cursor.current, cursor.advance.current, token] := by simp
  · rintro ⟨before, sign, beforeKind, signKind, tokenKind, rfl⟩
    rw [Cursor.advance_pushAll_cons _ _ (by simp [beforeKind]),
      Cursor.advance_pushAll_cons _ _ (by simp [signKind])]
    exact ⟨⟨beforeKind, signKind⟩, tokenKind, rfl⟩

theorem progresses_descendant :
    Progresses atDescendant (descendantSign >>= fun _ => pathElement) := by
  apply progresses_of_pushAll
  intro cursor element after due answered
  obtain ⟨token, _, signRead, elementRead⟩ := bind_eq_ok_iff.mp answered
  obtain ⟨tokens, _, rfl, _⟩ := pathElement_eq_ok_iff.mp elementRead
  obtain ⟨before, sign, _, _, _, rfl⟩ := descendantSign_eq_ok_iff.mp ⟨due, signRead⟩
  exact ⟨before, [sign, token] ++ tokens, by simp⟩

/-- Do the steps of a path end at a cursor? -/
def EndsSteps (steps : List PathElement) (after : Cursor) : Prop :=
  atDescendant after = false ∧ ∀ last ∈ steps.getLast?, EndsElement last after.kind

theorem getLast?_cons_of_spellsSteps
    {steps : List PathElement}
    {tokens : List Token}
    (element : PathElement)
    (spells : SpellsSteps .tokens steps tokens) :
    (element :: steps).getLast? = steps.getLast? := by
  cases spells with
  | single _ => rfl
  | more _ _ _ _ _ => rfl

theorem steps_eq_ok_iff
    {cursor after : Cursor}
    {steps : List PathElement} :
    separated atDescendant descendantSign pathElement cursor = .ok steps after ↔
      ∃ tokens, SpellsSteps .tokens steps tokens ∧ cursor = after.pushAll tokens ∧
        EndsSteps steps after := by
  induction steps generalizing cursor with
  | nil =>
      constructor
      · intro answered
        exact absurd answered separated_ne_ok_nil
      · rintro ⟨_, spells, _⟩
        cases spells
  | cons first others inductionHypothesis =>
      rw [separated_eq_ok_cons_iff progresses_descendant]
      simp only [inductionHypothesis, pathElement_eq_ok_iff]
      constructor
      · rintro ⟨_, ⟨tokens, spells, rfl, ends⟩, next⟩
        rcases next with ⟨noSign, rfl, rfl⟩ | ⟨due, token, _, signRead, rest, restSpells, rfl,
          noSign, lastEnds⟩
        · exact ⟨tokens, .single spells, rfl, noSign, by simpa using ends⟩
        · obtain ⟨before, sign, beforeKind, signKind, tokenKind, rfl⟩ :=
            descendantSign_eq_ok_iff.mp ⟨due, signRead⟩
          refine ⟨tokens ++ ([before] ++ ([sign] ++ ([token] ++ rest))),
            .more spells ⟨before, rfl, beforeKind⟩ ⟨sign, rfl, signKind⟩ ⟨token, rfl, tokenKind⟩
              restSpells, by simp, noSign, ?_⟩
          rw [getLast?_cons_of_spellsSteps first restSpells]
          exact lastEnds
      · rintro ⟨tokens, spells, rfl, noSign, lastEnds⟩
        cases spells with
        | single element =>
            exact ⟨after, ⟨tokens, element, rfl, lastEnds _ rfl⟩, .inl ⟨noSign, rfl, rfl⟩⟩
        | @more _ _ tokens _ _ _ rest element before sign behind restSpells =>
            rw [getLast?_cons_of_spellsSteps first restSpells] at lastEnds
            obtain ⟨before, rfl, beforeKind⟩ := before
            obtain ⟨sign, rfl, signKind⟩ := sign
            obtain ⟨token, rfl, tokenKind⟩ := behind
            obtain ⟨due, signRead⟩ := descendantSign_eq_ok_iff.mpr
              ⟨before, sign, beforeKind, signKind, tokenKind,
                (by simp : after.pushAll ([before] ++ ([sign] ++ ([token] ++ rest))) =
                  (after.pushAll rest).pushAll [before, sign, token])⟩
            refine ⟨after.pushAll ([before] ++ ([sign] ++ ([token] ++ rest))),
              ⟨tokens, element, by simp, ?_⟩,
              .inr ⟨due, token, after.pushAll rest, signRead, rest, restSpells, rfl, noSign,
                lastEnds⟩⟩
            intro _
            simp [beforeKind]

/-- Does a path end at a cursor? -/
def EndsPath : HtmlPath -> Cursor -> Prop
  | .ignore, _ => True
  | .elements [], after => after.kind ≠ .bang ∧ after.kind ≠ .identifier
  | .elements steps, after => EndsSteps steps after

theorem endsPath_elements_iff
    {steps : List PathElement}
    {tokens : List Token}
    (spells : SpellsSteps .tokens steps tokens)
    (after : Cursor) :
    EndsPath (.elements steps) after ↔ EndsSteps steps after := by
  cases spells with
  | single _ => rfl
  | more _ _ _ _ _ => rfl

/-- Steps begin with an identifier. -/
theorem kind_pushAll_of_spellsSteps
    {steps : List PathElement}
    {tokens : List Token}
    (spells : SpellsSteps .tokens steps tokens)
    (after : Cursor) :
    (after.pushAll tokens).kind = .identifier := by
  have elementKind : ∀ {element tokens}, SpellsElement .tokens element tokens ->
      ∀ rest, (after.pushAll (tokens ++ rest)).kind = .identifier := by
    intro element tokens spells rest
    obtain ⟨tagNames, _, _⟩ := spells
    cases tagNames with
    | single name =>
        obtain ⟨name, rfl, nameKind, _⟩ := name
        simp [nameKind]
    | more name _ _ =>
        obtain ⟨name, rfl, nameKind, _⟩ := name
        simp [nameKind]
  cases spells with
  | single element => simpa using elementKind element []
  | more element _ _ _ _ => exact elementKind element _

theorem path_eq_ok_iff
    {cursor after : Cursor}
    {value : HtmlPath} :
    path cursor = .ok value after ↔
      ∃ tokens, SpellsPath .tokens value tokens ∧ cursor = after.pushAll tokens ∧
        EndsPath value after := by
  have shape : path = (kind >>= fun kind =>
      if kind = .bang then advance >>= fun _ => pure .ignore
      else if kind = .identifier then
        separated atDescendant descendantSign pathElement >>= fun steps => pure (.elements steps)
      else pure (.elements [])) := by
    simp [path, separated, descendant_eq]
  rw [shape, kind_bind]
  split
  · rename_i isBang
    simp only [bind_eq_ok_iff, pure_eq_ok_iff]
    constructor
    · rintro ⟨bang, _, bangRead, rfl, rfl⟩
      obtain ⟨bangKind, rfl⟩ := (advance_eq_ok_iff (by decide)).mp ⟨isBang, bangRead⟩
      exact ⟨[bang], .ignore ⟨bang, rfl, bangKind⟩, rfl, trivial⟩
    · rintro ⟨tokens, spells, rfl, ends⟩
      cases spells with
      | ignore bang =>
          obtain ⟨bang, rfl, bangKind⟩ := bang
          obtain ⟨_, bangRead⟩ := (advance_eq_ok_iff (by decide)).mpr ⟨bangKind, rfl⟩
          exact ⟨bang, after, bangRead, rfl, rfl⟩
      | nothing => exact absurd isBang ends.1
      | elements steps =>
          rw [kind_pushAll_of_spellsSteps steps] at isBang
          exact absurd isBang (by simp)
  · rename_i notBang
    split
    · rename_i isIdentifier
      simp only [bind_eq_ok_iff, pure_eq_ok_iff, steps_eq_ok_iff]
      constructor
      · rintro ⟨steps, _, ⟨tokens, spells, rfl, ends⟩, rfl, rfl⟩
        exact ⟨tokens, .elements spells, rfl, (endsPath_elements_iff spells _).mpr ends⟩
      · rintro ⟨tokens, spells, rfl, ends⟩
        cases spells with
        | ignore bang =>
            obtain ⟨bang, rfl, bangKind⟩ := bang
            exact absurd bangKind notBang
        | nothing => exact absurd isIdentifier ends.2
        | @elements steps _ spells =>
            exact ⟨steps, after, ⟨tokens, spells, rfl, (endsPath_elements_iff spells after).mp ends⟩,
              rfl, rfl⟩
    · rename_i notIdentifier
      rw [pure_eq_ok_iff]
      constructor
      · rintro ⟨rfl, rfl⟩
        exact ⟨[], .nothing, rfl, notBang, notIdentifier⟩
      · rintro ⟨tokens, spells, rfl, ends⟩
        cases spells with
        | ignore bang =>
            obtain ⟨bang, rfl, bangKind⟩ := bang
            exact absurd bangKind notBang
        | nothing => exact ⟨rfl, rfl⟩
        | elements steps => exact absurd (kind_pushAll_of_spellsSteps steps after) notIdentifier

end Parser
end StyleRules
