import StyleRules.Markup.Reader
import StyleRules.Proofs.Grammar.Levels

/-!
# Levels in rules and in documents

The levels of a document are defined one after the other, and the last definition of a
level counts (`Numbering.level?_ofDefinitions_eq_some_iff`).  A rule for a level, which
it counts from one, selects exactly the paragraphs that refer to this level, which they
count from zero (`parse_levelRule_and_selects_iff`).
-/

namespace StyleRules
namespace Markup

/-- Is the level among the definitions, and none for the same index of its numbering
behind it? -/
def IsLastLevel (definitions : List LevelDefinition) (definition : LevelDefinition) : Prop :=
  ∃ before after, definitions = before ++ definition :: after ∧
    ∀ other ∈ after,
      ¬ (other.numbering = definition.numbering ∧ other.level.index = definition.level.index)

namespace Numbering

/-- The levels that are defined one after the other. -/
def ofDefinitions (definitions : List LevelDefinition) : Numbering :=
  definitions.foldl (fun held definition => held.define definition.numbering definition.level) ∅

/-- The latest definition comes first. -/
theorem definitions_ofDefinitions (definitions : List LevelDefinition) :
    (ofDefinitions definitions).definitions = definitions.reverse := by
  induction definitions using List.reverseRecOn with
  | nil => rfl
  | append_singleton definitions definition inductionHypothesis =>
      rw [List.reverse_append, ← inductionHypothesis]
      simp [ofDefinitions, define]

/-- What is found is the last definition of the level. -/
theorem find?_ofDefinitions_eq_some_iff
    {definitions : List LevelDefinition}
    {id : String}
    {index : UInt32}
    {level : ListLevel} :
    (ofDefinitions definitions).find? id index = some level ↔
      level.index = index ∧ IsLastLevel definitions ⟨id, level⟩ := by
  rw [find?, definitions_ofDefinitions, Option.map_eq_some_iff]
  simp only [List.find?_eq_some_iff_append, List.reverse_eq_append_iff, List.reverse_cons,
    List.append_assoc, List.singleton_append, Bool.and_eq_true, beq_iff_eq, Bool.not_eq_true',
    Bool.and_eq_false_iff, beq_eq_false_iff_ne, ← not_and_or]
  constructor
  · rintro ⟨⟨_, _⟩, ⟨⟨rfl, rfl⟩, later, earlier, splits, noneLater⟩, rfl⟩
    exact ⟨rfl, earlier.reverse, later.reverse, splits, by simpa using noneLater⟩
  · rintro ⟨rfl, before, after, splits, noneBehind⟩
    exact ⟨⟨id, level⟩, ⟨⟨rfl, rfl⟩, after.reverse, before.reverse, by simpa using splits,
      by simpa using noneBehind⟩, rfl⟩

/-- A text finds the level whose index it spells, if that is defined. -/
theorem level?_ofDefinitions_eq_some_iff
    {definitions : List LevelDefinition}
    {id text : String}
    {level : ListLevel} :
    (ofDefinitions definitions).level? id text = some level ↔
      Text.SpellsNumber (Text.trim text).toList level.index.toNat ∧
        IsLastLevel definitions ⟨id, level⟩ := by
  rw [level?, Option.bind_eq_bind, Option.bind_eq_some_iff]
  simp only [find?_ofDefinitions_eq_some_iff]
  constructor
  · rintro ⟨index, reads, rfl, isLast⟩
    exact ⟨Text.word?_eq_some_iff.mp reads, isLast⟩
  · rintro ⟨spells, isLast⟩
    exact ⟨level.index, Text.word?_eq_some_iff.mpr spells, rfl, isLast⟩

end Numbering

/-! ## Paragraphs at a level -/

/-- Does the first `w:numPr` in the first `w:pPr` of an element give the identifier of a
numbering and the text of an index? -/
def RefersToLevel (element : Element) (id text : String) : Prop :=
  ∃ properties reference numberingId index,
    element.child? "w:pPr" = some properties ∧
      properties.child? "w:numPr" = some reference ∧
      reference.child? "w:numId" = some numberingId ∧ numberingId.attribute? "w:val" = some id ∧
      reference.child? "w:ilvl" = some index ∧ index.attribute? "w:val" = some text

theorem readLevel_of_refersToLevel
    {element : Element}
    {id text : String}
    (refers : RefersToLevel element id text)
    (numbering : Numbering) :
    readLevel numbering (element.child? "w:pPr") = numbering.level? id text := by
  obtain ⟨properties, reference, numberingId, index, hasProperties, hasReference, hasId, isId,
    hasIndex, isIndex⟩ := refers
  simp [readLevel, valueOf?, hasProperties, hasReference, hasId, isId, hasIndex, isIndex]

/-- A paragraph that refers to a level is read as a paragraph, with this level if it is
defined. -/
theorem exists_read_paragraph
    {element : Element}
    {id text : String}
    (isParagraph : element.name = "w:p")
    (refers : RefersToLevel element id text)
    (styles : Styles)
    (numbering : Numbering) :
    ∃ properties children,
      (element.read styles numbering).value = [.paragraph properties children] ∧
        properties.level = numbering.level? id text := by
  obtain ⟨name, attributes, children⟩ := element
  obtain rfl : name = "w:p" := isParagraph
  refine ⟨_, _, rfl, ?_⟩
  exact readLevel_of_refersToLevel refers numbering

/-- A selector that asks for a level only selects the paragraphs at that level. -/
theorem selects_level_iff
    {level : ListLevel}
    {properties : ParagraphProperties} :
    (⟨none, none, some level⟩ : ParagraphSelector).selects properties = true ↔
      properties.level = some level := by
  simp [ParagraphSelector.selects, agreesWithStyle, agrees]

/-- A rule for the paragraphs at a level of a list, in digits of any length, is read
exactly when the level is a positive number of 32 bits, and fails at the digits
otherwise.  It selects a paragraph that refers to a level exactly when the reference
spells the number below it and the last definition of that level is for a list of the
same type. -/
theorem parse_levelRule_and_selects_iff
    {digits : List Char}
    (nonempty : digits ≠ [])
    (areDigits : ∀ c ∈ digits, c.isDigit = true)
    {pathText : String}
    {path : HtmlPath}
    (pathParsed : HtmlPath.parse pathText = .ok path)
    (ordered : Bool) :
    ((∃ rule, StyleRule.parse (levelRule ordered digits pathText) = .ok rule) ↔
        1 ≤ Text.digitsValue digits ∧ Text.digitsValue digits < UInt32.size) ∧
      (Text.digitsValue digits = 0 ->
        FailsAtLevel ordered digits pathText "List level must be at least 1") ∧
      (UInt32.size ≤ Text.digitsValue digits ->
        FailsAtLevel ordered digits pathText
          ("List level is out of range: " ++ String.ofList digits)) ∧
      ∀ rule, StyleRule.parse (levelRule ordered digits pathText) = .ok rule ->
        ∃ index : UInt32, index.toNat + 1 = Text.digitsValue digits ∧
          rule = ⟨.paragraph ⟨none, none, some ⟨index, ordered⟩⟩, path⟩ ∧
          ∀ styles definitions (element : Element) id text,
            element.name = "w:p" -> RefersToLevel element id text ->
            ∃ properties children,
              (element.read styles (.ofDefinitions definitions)).value =
                  [.paragraph properties children] ∧
                ((⟨none, none, some ⟨index, ordered⟩⟩ : ParagraphSelector).selects properties =
                    true ↔
                  Text.SpellsNumber (Text.trim text).toList (Text.digitsValue digits - 1) ∧
                    IsLastLevel definitions ⟨id, ⟨index, ordered⟩⟩) := by
  have failsAtZero := fun isZero =>
    failsAtLevel_of_zero nonempty areDigits isZero ordered pathText
  have failsAboveLimit := fun tooLarge =>
    failsAtLevel_of_size_le nonempty areDigits tooLarge ordered pathText
  have inRange : ∀ rule, StyleRule.parse (levelRule ordered digits pathText) = .ok rule ->
      1 ≤ Text.digitsValue digits ∧ Text.digitsValue digits < UInt32.size := by
    intro rule parsed
    constructor
    · by_contra belowOne
      exact (failsAtZero (by omega)).parse_ne_ok rule parsed
    · by_contra tooLarge
      exact (failsAboveLimit (by omega)).parse_ne_ok rule parsed
  refine ⟨⟨?_, ?_⟩, failsAtZero, failsAboveLimit, ?_⟩
  · rintro ⟨rule, parsed⟩
    exact inRange rule parsed
  · rintro ⟨positive, fits⟩
    obtain ⟨index, level⟩ := exists_index_of_digitsValue nonempty areDigits positive fits
    exact ⟨_, parse_levelRule level pathParsed ordered⟩
  · intro rule parsed
    obtain ⟨positive, fits⟩ := inRange rule parsed
    obtain ⟨index, level⟩ := exists_index_of_digitsValue nonempty areDigits positive fits
    have worth : Text.digitsValue digits = index.toNat + 1 := level.2.2.1
    have sameRule := (parse_levelRule level pathParsed ordered).symm.trans parsed
    refine ⟨index, worth.symm, (Except.ok.inj sameRule).symm, ?_⟩
    intro styles definitions element id text isParagraph refers
    obtain ⟨properties, children, read, levelRead⟩ :=
      exists_read_paragraph isParagraph refers styles (.ofDefinitions definitions)
    refine ⟨properties, children, read, ?_⟩
    rw [selects_level_iff, levelRead, Numbering.level?_ofDefinitions_eq_some_iff, worth,
      Nat.add_sub_cancel]

/-- Level seven is index six.  Leading zeros, a plus sign and blanks around the index do
not matter, and the later one of two definitions counts. -/
theorem level_seven_selects_index_six :
    let definitions : List LevelDefinition := [⟨"4", ⟨6, false⟩⟩, ⟨"4", ⟨6, true⟩⟩]
    let reference : List Node :=
      [.element "w:ilvl" ((∅ : Attributes).insert "w:val" " +06\t") [],
        .element "w:numId" ((∅ : Attributes).insert "w:val" "4") []]
    let element : Element :=
      ⟨"w:p", ∅, [.element "w:pPr" ∅ [.element "w:numPr" ∅ reference]]⟩
    HtmlPath.parse "ol" = .ok (.collapsible "ol") ∧
      ∃ selector properties children,
        StyleRule.parse (levelRule true ['0', '0', '7'] "ol") =
            .ok ⟨.paragraph selector, .collapsible "ol"⟩ ∧
          (element.read ∅ (.ofDefinitions definitions)).value = [.paragraph properties children] ∧
          selector.selects properties = true := by
  intro definitions reference element
  have pathParsed : HtmlPath.parse "ol" = .ok (.collapsible "ol") := by decide +kernel
  have refers : RefersToLevel element "4" " +06\t" :=
    ⟨_, _, _, _, rfl, rfl, by rfl, by rfl, by rfl, by rfl⟩
  have spells : Text.SpellsNumber (Text.trim " +06\t").toList 6 :=
    ⟨['+'], ['0', '6'], by decide +kernel, .inr rfl, by simp, by simp, by decide⟩
  have isLast : IsLastLevel definitions ⟨"4", ⟨6, true⟩⟩ :=
    ⟨[⟨"4", ⟨6, false⟩⟩], [], rfl, List.forall_mem_nil _⟩
  obtain ⟨isRead, _, _, selects⟩ :=
    @parse_levelRule_and_selects_iff ['0', '0', '7'] (by simp) (by simp) _ _ pathParsed true
  obtain ⟨rule, parsed⟩ := isRead.mpr (by decide)
  obtain ⟨index, worth, rfl, selectsParagraph⟩ := selects rule parsed
  obtain rfl : index = 6 := UInt32.toNat_inj.mp (Nat.succ.inj worth)
  obtain ⟨properties, children, read, selects⟩ :=
    selectsParagraph ∅ definitions element "4" " +06\t" rfl refers
  exact ⟨pathParsed, _, properties, children, parsed, read, selects.mpr ⟨spells, isLast⟩⟩

end Markup
end StyleRules
