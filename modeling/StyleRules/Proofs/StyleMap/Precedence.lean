import Mathlib.Data.Fintype.EquivFin
import Mathlib.Data.List.ReduceOption
import StyleRules.StyleMap.Basic

/-!
# Rules that decide nothing

A rule decides for an element when it selects it and no rule before it does.  A rule that
is covered by an earlier one, each of whose clauses is absent or the same, decides
nothing and can be left out.  Every other rule decides for some element, however many
rules come before it (`StyleMap.decides_iff_uncovered`): several rules together cover
nothing that none of them covers alone, since some style has an identifier that none of
them asks for.
-/

namespace StyleRules

/-! ## Lists of rules -/

/-- Does the rule at an index select an element, and none of the rules before it? -/
structure Decides
    {ε : Type}
    (selects : σ -> ε -> Bool)
    (rules : List (Rule σ))
    (index : Fin rules.length)
    (element : ε) :
    Prop where
  selects_at : selects rules[index].selector element = true
  selects_before : ∀ earlier < index, selects rules[earlier].selector element = false

section Lists

variable
  {σ ε : Type}
  {selects : σ -> ε -> Bool}
  {rules : List (Rule σ)}
  {index : Fin rules.length}

/-- The path of the rule that decides is the one that is found. -/
theorem Decides.path_eq
    {element : ε}
    (decides : Decides selects rules index element) :
    (rules.find? fun rule => selects rule.selector element).map Rule.path =
      some rules[index].path := by
  have found : rules.find? (fun rule => selects rule.selector element) = some rules[index] := by
    rw [List.find?_eq_some_iff_getElem]
    refine ⟨decides.selects_at, index, index.isLt, rfl, ?_⟩
    intro earlier before
    have notSelected := decides.selects_before ⟨earlier, before.trans index.isLt⟩ before
    simpa using notSelected
  rw [found, Option.map_some]

/-- Where each selector can be told from those that do not cover it, a rule decides for
some element exactly when no earlier rule covers it. -/
theorem exists_decides_iff
    (selects : σ -> ε -> Bool)
    (covers : σ -> σ -> Prop)
    (selects_of_covers : ∀ {general special element},
      covers general special -> selects special element = true ->
        selects general element = true)
    (exists_escaping : ∀ (selector : σ) (others : List σ),
      ∃ element, selects selector element = true ∧
        ∀ other ∈ others, selects other element = true -> covers other selector) :
    (∃ element, Decides selects rules index element) ↔
      ¬ ∃ earlier < index, covers rules[earlier].selector rules[index].selector := by
  constructor
  · rintro ⟨element, decides⟩ ⟨earlier, before, covered⟩
    have selected := selects_of_covers covered decides.selects_at
    rw [decides.selects_before earlier before] at selected
    exact Bool.false_ne_true selected
  · intro uncovered
    obtain ⟨element, selected, escapes⟩ :=
      exists_escaping rules[index].selector (rules.map Rule.selector)
    refine ⟨element, selected, ?_⟩
    intro earlier before
    rw [Bool.eq_false_iff]
    intro selectedBefore
    have member : rules[earlier].selector ∈ rules.map Rule.selector :=
      List.mem_map_of_mem (List.getElem_mem _)
    exact uncovered ⟨earlier, before, escapes _ member selectedBefore⟩

/-- A rule behind one that selects whatever it selects is never found. -/
theorem find?_eraseIdx_of_covered
    {element : ε}
    {earlier : Fin rules.length}
    (before : earlier < index)
    (covered : selects rules[index].selector element = true ->
      selects rules[earlier].selector element = true) :
    (rules.eraseIdx index).find? (fun rule => selects rule.selector element) =
      rules.find? (fun rule => selects rule.selector element) := by
  have splits : rules = rules.take index ++ rules[index] :: rules.drop (index + 1) := by
    simp
  rw [List.eraseIdx_eq_take_drop_succ]
  conv_rhs => rw [splits]
  rw [List.find?_append, List.find?_append, List.find?_cons]
  cases selected : selects rules[index].selector element with
  | false => rfl
  | true =>
      -- The earlier rule is among those that stay in front.
      have found : ((rules.take index).find? fun rule => selects rule.selector element).isSome := by
        rw [List.find?_isSome]
        refine ⟨rules[earlier], ?_, covered selected⟩
        exact List.mem_take_iff_getElem.mpr ⟨earlier, by simp [before], rfl⟩
      obtain ⟨rule, isFound⟩ := Option.isSome_iff_exists.mp found
      rw [isFound, Option.some_or, Option.some_or]

end Lists

/-! ## Clauses of selectors -/

/-- Is a requirement absent, or the same as another one? -/
def Relaxes (required other : Option α) : Prop :=
  required = none ∨ required = other

theorem agrees_eq_true_iff
    [DecidableEq α]
    {required value : Option α} :
    agrees required value = true ↔ Relaxes required value := by
  cases required with
  | none => simp [agrees, Relaxes]
  | some required =>
      simp only [agrees, Relaxes, beq_iff_eq, reduceCtorEq, false_or]
      exact eq_comm

theorem Relaxes.trans
    {first second third : Option α}
    (one : Relaxes first second)
    (two : Relaxes second third) :
    Relaxes first third := by
  rcases one with absent | rfl
  · exact .inl absent
  · exact two

/-- The style clauses hold when they ask for nothing else than the style has. -/
theorem agreesWithStyle_eq_true_iff
    {styleId styleName : Option String}
    {style : Option Style} :
    agreesWithStyle styleId styleName style = true ↔
      Relaxes styleId (style.map Style.id) ∧ Relaxes styleName (style.bind Style.name) := by
  rw [agreesWithStyle, Bool.and_eq_true, agrees_eq_true_iff, agrees_eq_true_iff]

/-- There is a style that meets the given clauses and no others but weaker ones: where
they leave the identifier open, it is one that nobody asks for. -/
theorem exists_style_escaping
    (styleId styleName : Option String)
    (otherIds : List (Option String)) :
    ∃ style, agreesWithStyle styleId styleName (some style) = true ∧
      ∀ otherId ∈ otherIds, ∀ otherName,
        agreesWithStyle otherId otherName (some style) = true ->
          Relaxes otherId styleId ∧ Relaxes otherName styleName := by
  obtain ⟨unused, unusedNotMem⟩ := Infinite.exists_notMem_finset (otherIds.reduceOption.toFinset)
  rw [List.mem_toFinset, List.reduceOption_mem_iff] at unusedNotMem
  refine ⟨⟨styleId.getD unused, styleName⟩, ?_, ?_⟩
  · rw [agreesWithStyle_eq_true_iff]
    refine ⟨?_, .inr rfl⟩
    cases styleId with
    | none => exact .inl rfl
    | some id => exact .inr rfl
  · intro otherId member otherName agreesToo
    obtain ⟨sameId, sameName⟩ := agreesWithStyle_eq_true_iff.mp agreesToo
    refine ⟨?_, sameName⟩
    rcases sameId with absent | isId
    · exact .inl absent
    · cases styleId with
      | some id => exact .inr isId
      | none =>
          have isUnused : otherId = some unused := isId
          exact absurd (isUnused ▸ member) unusedNotMem

namespace ParagraphSelector

/-- Is each clause absent, or the same as in the other selector? -/
structure Covers (selector other : ParagraphSelector) : Prop where
  styleId : Relaxes selector.styleId other.styleId
  styleName : Relaxes selector.styleName other.styleName
  level : Relaxes selector.level other.level

theorem selects_eq_true_iff
    {selector : ParagraphSelector}
    {properties : ParagraphProperties} :
    selector.selects properties = true ↔
      agreesWithStyle selector.styleId selector.styleName properties.style = true ∧
        Relaxes selector.level properties.level := by
  rw [selects, Bool.and_eq_true, agrees_eq_true_iff]

theorem selects_of_covers
    {general special : ParagraphSelector}
    {properties : ParagraphProperties}
    (covers : general.Covers special)
    (selected : special.selects properties = true) :
    general.selects properties = true := by
  simp only [selects_eq_true_iff, agreesWithStyle_eq_true_iff] at selected ⊢
  obtain ⟨⟨sameId, sameName⟩, sameLevel⟩ := selected
  exact ⟨⟨covers.styleId.trans sameId, covers.styleName.trans sameName⟩,
    covers.level.trans sameLevel⟩

/-- Some paragraph is selected, and of the other selectors only by those that cover this
one. -/
theorem exists_escaping (selector : ParagraphSelector) (others : List ParagraphSelector) :
    ∃ properties, selector.selects properties = true ∧
      ∀ other ∈ others, other.selects properties = true -> other.Covers selector := by
  obtain ⟨style, meets, escapes⟩ := exists_style_escaping selector.styleId selector.styleName
    (others.map ParagraphSelector.styleId)
  refine ⟨⟨some style, selector.level⟩, selects_eq_true_iff.mpr ⟨meets, .inr rfl⟩, ?_⟩
  intro other member selected
  obtain ⟨meetsToo, sameLevel⟩ := selects_eq_true_iff.mp selected
  obtain ⟨sameId, sameName⟩ := escapes _ (List.mem_map_of_mem member) _ meetsToo
  exact ⟨sameId, sameName, sameLevel⟩

end ParagraphSelector

namespace RunSelector

/-- Is each clause absent, or the same as in the other selector? -/
structure Covers (selector other : RunSelector) : Prop where
  styleId : Relaxes selector.styleId other.styleId
  styleName : Relaxes selector.styleName other.styleName

theorem selects_of_covers
    {general special : RunSelector}
    {properties : RunProperties}
    (covers : general.Covers special)
    (selected : special.selects properties = true) :
    general.selects properties = true := by
  simp only [selects, agreesWithStyle_eq_true_iff] at selected ⊢
  obtain ⟨sameId, sameName⟩ := selected
  exact ⟨covers.styleId.trans sameId, covers.styleName.trans sameName⟩

/-- Some run is selected, and of the other selectors only by those that cover this one. -/
theorem exists_escaping (selector : RunSelector) (others : List RunSelector) :
    ∃ properties, selector.selects properties = true ∧
      ∀ other ∈ others, other.selects properties = true -> other.Covers selector := by
  obtain ⟨style, meets, escapes⟩ := exists_style_escaping selector.styleId selector.styleName
    (others.map RunSelector.styleId)
  refine ⟨⟨false, false, false, false, some style⟩, meets, ?_⟩
  intro other member selected
  obtain ⟨sameId, sameName⟩ := escapes _ (List.mem_map_of_mem member) _ selected
  exact ⟨sameId, sameName⟩

end RunSelector

/-! ## Style maps -/

namespace StyleMap

/-- The style map without one of its rules for paragraphs. -/
def withoutParagraphRule (map : StyleMap) (index : Nat) : StyleMap :=
  { map with paragraphRules := map.paragraphRules.eraseIdx index }

/-- The style map without one of its rules for runs. -/
def withoutRunRule (map : StyleMap) (index : Nat) : StyleMap :=
  { map with runRules := map.runRules.eraseIdx index }

/-- A rule decides for some element, which then has its path, exactly when no single rule
before it covers it.  A rule that is covered can be left out: the path of no element
changes. -/
theorem decides_iff_uncovered (map : StyleMap) :
    (∀ index : Fin map.paragraphRules.length,
      ((∃ properties, Decides ParagraphSelector.selects map.paragraphRules index properties ∧
          map.paragraphPath? properties = some map.paragraphRules[index].path) ↔
        ¬ ∃ earlier < index,
          map.paragraphRules[earlier].selector.Covers map.paragraphRules[index].selector) ∧
      ((∃ earlier < index,
          map.paragraphRules[earlier].selector.Covers map.paragraphRules[index].selector) ->
        ∀ properties,
          (map.withoutParagraphRule index).paragraphPath? properties =
            map.paragraphPath? properties)) ∧
    ∀ index : Fin map.runRules.length,
      ((∃ properties, Decides RunSelector.selects map.runRules index properties ∧
          map.runPath? properties = some map.runRules[index].path) ↔
        ¬ ∃ earlier < index,
          map.runRules[earlier].selector.Covers map.runRules[index].selector) ∧
      ((∃ earlier < index,
          map.runRules[earlier].selector.Covers map.runRules[index].selector) ->
        ∀ properties,
          (map.withoutRunRule index).runPath? properties = map.runPath? properties) := by
  refine ⟨fun index => ⟨?_, ?_⟩, fun index => ⟨?_, ?_⟩⟩
  · rw [← exists_decides_iff ParagraphSelector.selects ParagraphSelector.Covers
      ParagraphSelector.selects_of_covers ParagraphSelector.exists_escaping]
    exact exists_congr fun properties => and_iff_left_of_imp Decides.path_eq
  · rintro ⟨earlier, before, covers⟩ properties
    exact congrArg (Option.map Rule.path)
      (find?_eraseIdx_of_covered before (ParagraphSelector.selects_of_covers covers))
  · rw [← exists_decides_iff RunSelector.selects RunSelector.Covers
      RunSelector.selects_of_covers RunSelector.exists_escaping]
    exact exists_congr fun properties => and_iff_left_of_imp Decides.path_eq
  · rintro ⟨earlier, before, covers⟩ properties
    exact congrArg (Option.map Rule.path)
      (find?_eraseIdx_of_covered before (RunSelector.selects_of_covers covers))

end StyleMap
end StyleRules
