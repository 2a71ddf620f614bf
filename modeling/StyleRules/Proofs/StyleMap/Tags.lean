import StyleRules.Proofs.StyleMap.Loading
import StyleRules.Proofs.StyleMap.WellFormed

/-!
# Tags to write

An element of a path is written with the first of its tag names, so there has to be one
(`PathElement.IsTagged`).  In a style map that is made from a text there always is: a rule
has no way to spell an element without a tag name.

Loading does not look at this.  Every element of a style map that is loaded was read
somewhere in the data (`ReadsElements`), where the number of its tag names comes first, and
there is a tag to write unless that number is zero
(`StyleMap.isTagged_of_text_and_of_ofBytes`).
-/

namespace StyleRules

open Binary

namespace PathElement

/-- Is there a tag to write, the first of the tag names? -/
def IsTagged (element : PathElement) : Prop :=
  element.tagNames.head? = some element.tagName

instance (element : PathElement) : Decidable element.IsTagged :=
  inferInstanceAs (Decidable (element.tagNames.head? = some element.tagName))

theorem isTagged_iff
    {element : PathElement} :
    element.IsTagged ↔ element.tagNames ≠ [] := by
  rw [IsTagged, tagName]
  cases element.tagNames <;> simp

/-- Is the element what is read from one place in the data on?  A place is what the data hold
from there on. -/
structure IsReadAt (element : PathElement) (data place : List UInt8) : Prop where
  place_suffix : place <:+ data
  reads : ∃ behind, decode place = .ok (element, behind)

/-- What is read first is the number of the tag names. -/
theorem tagNames_eq_nil_iff_of_decode
    {element : PathElement}
    {place behind : List UInt8}
    (read : decode place = .ok (element, behind)) :
    element.tagNames = [] ↔ List.replicate 8 0 <+: place := by
  simp only [decode, list, bind_eq_ok_iff, pure_eq_ok_iff] at read
  obtain ⟨tagNames, _, ⟨count, between, countRead, tagNamesRead⟩, _, _, _, _, _, _, rfl, _⟩ := read
  have length := (times_eq_ok canonical_text tagNamesRead).1
  rw [← List.length_eq_zero_iff, length]
  constructor
  · rintro rfl
    exact ⟨between, (canonical_natural 8 countRead).symm⟩
  · rintro ⟨rest, splits⟩
    have zeroRead : natural 8 place = .ok (0, rest) := by
      rw [← splits]
      exact (reads_natural 8 (by decide)).complete rest
    rw [countRead] at zeroRead
    cases zeroRead
    rfl

end PathElement

/-- Is there a tag to write for every element? -/
def StyleMap.IsTagged (map : StyleMap) : Prop :=
  ∀ element ∈ map.pathElements, element.IsTagged

/-! ## Style maps that are made from texts -/

theorem Toggles.exists_get_of_mem_toList
    {toggles : Toggles α}
    {value : α}
    (member : value ∈ toggles.toList) :
    ∃ toggle, toggles.get toggle = value := by
  simp only [toList, List.mem_cons, List.not_mem_nil, or_false] at member
  rcases member with rfl | rfl | rfl | rfl | rfl
  · exact ⟨.bold, rfl⟩
  · exact ⟨.italic, rfl⟩
  · exact ⟨.underline, rfl⟩
  · exact ⟨.strikethrough, rfl⟩
  · exact ⟨.commentReference, rfl⟩

theorem StyleMap.WellFormed.isTagged
    {map : StyleMap}
    (wellFormed : map.WellFormed) :
    map.IsTagged := by
  intro element member
  rw [PathElement.isTagged_iff]
  simp only [pathElements, List.mem_append, List.mem_flatMap] at member
  rcases member with (⟨rule, isRule, isStep⟩ | ⟨rule, isRule, isStep⟩) | ⟨path, isPath, isStep⟩
  · exact ((wellFormed.paragraphRules rule isRule).2 element isStep).tagNames_ne_nil
  · exact ((wellFormed.runRules rule isRule).2 element isStep).tagNames_ne_nil
  · obtain ⟨toggle, rfl⟩ := Toggles.exists_get_of_mem_toList isPath
    exact (wellFormed.toggles toggle element isStep).tagNames_ne_nil

theorem StyleMap.wellFormed_parseLeniently (source : String) :
    (parseLeniently source).WellFormed := by
  rw [parseLeniently]
  split
  · rename_i registers
    exact (Builder.wellFormed_empty.registerSource registers).build
  · exact Builder.wellFormed_empty.build

/-! ## Style maps that are loaded -/

/-- From the bytes up to the rest, are all of these elements read somewhere? -/
structure ReadsElements (bytes rest : List UInt8) (elements : List PathElement) : Prop where
  rest_suffix : rest <:+ bytes
  readAt : ∀ element ∈ elements, ∃ place, element.IsReadAt bytes place

theorem ReadsElements.trans
    {bytes between rest : List UInt8}
    {elements others : List PathElement}
    (first : ReadsElements bytes between elements)
    (second : ReadsElements between rest others) :
    ReadsElements bytes rest (elements ++ others) := by
  refine ⟨second.rest_suffix.trans first.rest_suffix, ?_⟩
  rw [List.forall_mem_append]
  refine ⟨first.readAt, fun element member => ?_⟩
  obtain ⟨place, suffix, reads⟩ := second.readAt element member
  exact ⟨place, suffix.trans first.rest_suffix, reads⟩

/-- Does the decoder read all elements of a value somewhere in the bytes of the value? -/
def Locates (decoder : Decoder α) (elements : α -> List PathElement) : Prop :=
  ∀ ⦃bytes value rest⦄, decoder bytes = .ok (value, rest) ->
    ReadsElements bytes rest (elements value)

theorem Binary.Canonical.locates
    {decoder : Decoder α}
    {encode : α -> List UInt8}
    (canonical : Canonical decoder encode) :
    Locates decoder fun _ => [] := by
  intro bytes value rest read
  exact ⟨⟨encode value, (canonical read).symm⟩, List.forall_mem_nil _⟩

section Lists

variable
  {item : Decoder α}
  {elements : α -> List PathElement}

theorem Locates.times
    (locates : Locates item elements)
    (count : Nat) :
    Locates (times item count) fun values => values.flatMap elements := by
  induction count with
  | zero =>
      intro bytes values rest read
      obtain ⟨rfl, rfl⟩ := pure_eq_ok_iff.mp read
      exact ⟨List.suffix_rfl, List.forall_mem_nil _⟩
  | succ count inductionHypothesis =>
      intro bytes values rest read
      simp only [Binary.times, bind_eq_ok_iff, pure_eq_ok_iff] at read
      obtain ⟨first, between, firstRead, others, _, othersRead, rfl, rfl⟩ := read
      exact (locates firstRead).trans (inductionHypothesis othersRead)

theorem Locates.list
    (locates : Locates item elements) :
    Locates (list item) fun values => values.flatMap elements := by
  intro bytes values rest read
  simp only [Binary.list, bind_eq_ok_iff] at read
  obtain ⟨count, between, countRead, valuesRead⟩ := read
  exact ((canonical_natural 8).locates countRead).trans (locates.times count valuesRead)

end Lists

theorem PathElement.locates_decode :
    Locates PathElement.decode fun element => [element] := by
  intro bytes element rest read
  obtain ⟨_, consumed, _, rfl, _⟩ := accompanies_decode read
  refine ⟨List.suffix_append consumed rest, ?_⟩
  rw [List.forall_mem_singleton]
  exact ⟨_, List.suffix_rfl, rest, read⟩

theorem HtmlPath.locates_decode :
    Locates HtmlPath.decode HtmlPath.steps := by
  intro bytes path rest read
  simp only [decode, bind_eq_ok_iff] at read
  obtain ⟨number, between, numberRead, read⟩ := read
  have numberReads := (canonical_natural 4).locates numberRead
  rcases number with _ | _ | number
  case zero =>
      obtain ⟨rfl, rfl⟩ := pure_eq_ok_iff.mp read
      exact numberReads
  case succ.zero =>
      simp only [bind_eq_ok_iff, pure_eq_ok_iff] at read
      obtain ⟨steps, _, stepsRead, rfl, rfl⟩ := read
      have stepsReads := PathElement.locates_decode.list stepsRead
      have sameSteps : steps.flatMap (fun element => [element]) = steps :=
        List.flatMap_singleton' steps
      exact numberReads.trans (sameSteps ▸ stepsReads)
  case succ.succ => exact absurd read throw_ne_ok

theorem Rule.locates_decode
    {decodeSelector : Decoder σ}
    {encodeSelector : σ -> List UInt8}
    (canonical : Canonical decodeSelector encodeSelector) :
    Locates (Rule.decode decodeSelector) fun rule => rule.path.steps := by
  intro bytes rule rest read
  simp only [decode, bind_eq_ok_iff, pure_eq_ok_iff] at read
  obtain ⟨selector, _, selectorRead, path, _, pathRead, rfl, rfl⟩ := read
  exact (canonical.locates selectorRead).trans (HtmlPath.locates_decode pathRead)

theorem StyleMap.locates_decode :
    Locates StyleMap.decode StyleMap.pathElements := by
  intro bytes map rest read
  simp only [decode, bind_eq_ok_iff, pure_eq_ok_iff] at read
  obtain ⟨paragraphRules, _, paragraphRulesRead, runRules, _, runRulesRead, toggles, _,
    togglesRead, rfl, rfl⟩ := read
  have paragraphs :=
    (Rule.locates_decode ParagraphSelector.canonical_decode).list paragraphRulesRead
  have runs := (Rule.locates_decode RunSelector.canonical_decode).list runRulesRead
  have paths := HtmlPath.locates_decode.times 5 (Toggles.times_of_decode togglesRead)
  exact (paragraphs.trans runs).trans paths

namespace StyleMap

theorem locates_ofBytes
    {data : List UInt8}
    {map : StyleMap}
    (loaded : ofBytes data = .ok map) :
    ∀ element ∈ map.pathElements, ∃ place, element.IsReadAt data place := by
  obtain ⟨_, _, ⟨rest, _, read, _⟩, _⟩ := exists_readFrom loaded
  exact (locates_decode read).readAt

/-- There is a tag to write for every element of a style map that is made from a text.  In a
style map that is loaded there is one for every element but those that are written, where
they stand in the data, with eight zero bytes for the number of their tag names. -/
theorem isTagged_of_text_and_of_ofBytes
    (options : Options)
    (source : String)
    (data : List UInt8) :
    (∀ map, parse source = .ok map -> map.IsTagged) ∧
    (∀ compiled, compile options source = .ok compiled -> compiled.value.IsTagged) ∧
    builtin.IsTagged ∧
    ∀ map, ofBytes data = .ok map ->
      ∀ element ∈ map.pathElements, ∃ place, element.IsReadAt data place ∧
        (element.IsTagged ↔ ¬ List.replicate 8 0 <+: place) := by
  refine ⟨fun map parsed => (wellFormed_of_parse parsed).isTagged,
    fun compiled succeeds => (wellFormed_of_compile succeeds).isTagged,
    (wellFormed_parseLeniently builtinText).isTagged, ?_⟩
  intro map loaded element member
  obtain ⟨place, suffix, behind, reads⟩ := locates_ofBytes loaded element member
  refine ⟨place, ⟨suffix, behind, reads⟩, ?_⟩
  rw [PathElement.isTagged_iff]
  exact not_congr (PathElement.tagNames_eq_nil_iff_of_decode reads)

/-- A style map whose bold text is a headline. -/
def headlined : StyleMap :=
  { Builder.empty.build with toggles.bold := .collapsible "h1" }

/-- The headline has a tag to write, made from a text and loaded from what is saved. -/
theorem isTagged_headlined :
    parse "b -> h1" = .ok headlined ∧ headlined.IsTagged ∧
      compile ⟨false, .lenient⟩ "b -> h1" = .ok ⟨headlined, []⟩ ∧
      ofBytes (headlined.toBytes ++ [7]) = .ok headlined ∧
      ∃ element ∈ headlined.pathElements, element.tagName = "h1" ∧
        ∃ place, element.IsReadAt (headlined.toBytes ++ [7]) place ∧
          ¬ List.replicate 8 0 <+: place := by
  obtain ⟨ofParse, ofCompile, _, ofLoad⟩ := isTagged_of_text_and_of_ofBytes ⟨false, .lenient⟩
    "b -> h1" (headlined.toBytes ++ [7])
  have parsed : parse "b -> h1" = .ok headlined := by decide +kernel
  have compiled : compile ⟨false, .lenient⟩ "b -> h1" = .ok ⟨headlined, []⟩ := by decide +kernel
  have loaded : ofBytes (headlined.toBytes ++ [7]) = .ok headlined := by decide +kernel
  have tagged : headlined.IsTagged := ofCompile _ compiled
  have member : PathElement.ofNames ["h1"] [] true ∈ headlined.pathElements := by decide +kernel
  obtain ⟨place, readAt, isTagged⟩ := ofLoad _ loaded _ member
  exact ⟨parsed, ofParse _ parsed, compiled, loaded, _, member, rfl, place, readAt,
    isTagged.mp (tagged _ member)⟩

/-- A style map whose bold text stands in an element without tag names, and whose other
toggles are left out. -/
def tagless : StyleMap where
  paragraphRules := []
  runRules := []
  toggles := ⟨.elements [⟨[], ∅, true⟩], .ignore, .ignore, .ignore, .ignore⟩

/-- No rules for paragraphs or runs; for bold text one element, with no tag names and no
attributes, collapsible; and four toggles that are left out. -/
def taglessData : List UInt8 :=
  List.replicate 16 0 ++ [1, 0, 0, 0] ++ [1, 0, 0, 0, 0, 0, 0, 0] ++ List.replicate 16 0 ++ [1] ++
    List.replicate 16 0

/-- Data with a zero for the number of tag names are loaded, and there is no tag to write. -/
theorem ofBytes_taglessData :
    ofBytes taglessData = .ok tagless ∧ ¬ tagless.IsTagged ∧
      ∃ element ∈ tagless.pathElements, element.tagNames[0]? = none := by
  have member : (⟨[], ∅, true⟩ : PathElement) ∈ tagless.pathElements := by decide +kernel
  refine ⟨by decide +kernel, fun tagged => ?_, _, member, rfl⟩
  exact absurd (tagged _ member) (by decide)

end StyleMap
end StyleRules
