import StyleRules.Proofs.Attributes.Order
import StyleRules.Proofs.Binary.Exactness
import StyleRules.StyleMap.Binary
import StyleRules.StyleMap.Builder

/-!
# Saving and loading style maps

The bytes of a style map are determined by it, but for the order in which the
attributes of an element are written: `StyleMap.WrittenAs` holds of a style map and
its bytes in any such order.  Whatever the order, the style map is loaded from its
bytes, and no less than all of them will do
(`StyleMap.ofBytes_append_and_truncated`).  All that this asks for is that lengths
fit the eight bytes they are written in (`StyleMap.Fits`).
-/

namespace StyleRules

open Binary

/-! ## Lengths that fit eight bytes -/

namespace Binary

/-- Does the length of the text fit? -/
def TextFits (value : String) : Prop :=
  (Text.utf8Bytes value).length < 2 ^ 64

/-- Does the length of the text fit, if there is one? -/
def OptionalTextFits (value : Option String) : Prop :=
  ∀ held ∈ value, TextFits held

/-- Does the number of values fit, and does each of them? -/
structure ListFits (fits : α -> Prop) (values : List α) : Prop where
  length_lt : values.length < 2 ^ 64
  values_fit : ∀ value ∈ values, fits value

instance : DecidablePred TextFits := fun value =>
  inferInstanceAs (Decidable ((Text.utf8Bytes value).length < 2 ^ 64))

instance (fits : α -> Prop) [DecidablePred fits] : DecidablePred (ListFits fits) := fun values =>
  decidable_of_iff (values.length < 2 ^ 64 ∧ ∀ value ∈ values, fits value)
    ⟨fun both => ⟨both.1, both.2⟩, fun both => ⟨both.length_lt, both.values_fit⟩⟩

end Binary

/-- Do all lengths in the element fit? -/
structure PathElement.Fits (element : PathElement) : Prop where
  tagNames : ListFits TextFits element.tagNames
  attributes : ListFits (fun entry => TextFits entry.1 ∧ TextFits entry.2) element.attributes.entries

instance : DecidablePred PathElement.Fits := fun element =>
  decidable_of_iff (ListFits TextFits element.tagNames ∧
      ListFits (fun entry => TextFits entry.1 ∧ TextFits entry.2) element.attributes.entries)
    ⟨fun both => ⟨both.1, both.2⟩, fun both => ⟨both.tagNames, both.attributes⟩⟩

/-- Do all lengths in the path fit? -/
def HtmlPath.Fits (path : HtmlPath) : Prop :=
  ListFits PathElement.Fits path.steps

instance : DecidablePred HtmlPath.Fits := fun path =>
  inferInstanceAs (Decidable (ListFits PathElement.Fits path.steps))

/-- Do all lengths in the selector fit? -/
structure ParagraphSelector.Fits (selector : ParagraphSelector) : Prop where
  styleId : OptionalTextFits selector.styleId
  styleName : OptionalTextFits selector.styleName

/-- Do all lengths in the selector fit? -/
structure RunSelector.Fits (selector : RunSelector) : Prop where
  styleId : OptionalTextFits selector.styleId
  styleName : OptionalTextFits selector.styleName

/-- Do all lengths in the style map fit? -/
structure StyleMap.Fits (map : StyleMap) : Prop where
  paragraphRules : ListFits (fun rule => rule.selector.Fits ∧ rule.path.Fits) map.paragraphRules
  runRules : ListFits (fun rule => rule.selector.Fits ∧ rule.path.Fits) map.runRules
  toggles : ∀ path ∈ map.toggles.toList, path.Fits

/-! ## Bytes with the attributes in any order -/

/-- Are these the bytes of values behind their number, each of them written in one of
its ways? -/
inductive Binary.ListWrittenAs (writtenAs : α -> List UInt8 -> Prop) :
    List α -> List UInt8 -> Prop
  | intro
      {values : List α}
      {parts : List (List UInt8)}
      (written : List.Forall₂ writtenAs values parts) :
      ListWrittenAs writtenAs values (encodeNatural 8 values.length ++ parts.flatten)

/-- Are these the bytes of the attributes in some order? -/
inductive Attributes.WrittenAs (attributes : Attributes) : List UInt8 -> Prop
  | intro
      {order : List (String × String)}
      (permuted : order.Perm attributes.entries) :
      WrittenAs attributes (encodeList encodeEntry order)

/-- Are these the bytes of the element, with its attributes in some order? -/
inductive PathElement.WrittenAs (element : PathElement) : List UInt8 -> Prop
  | intro
      {bytes : List UInt8}
      (attributes : element.attributes.WrittenAs bytes) :
      WrittenAs element
        (encodeList encodeText element.tagNames ++ bytes ++ encodeBool element.collapsible)

/-- Are these the bytes of the path, with attributes in some order? -/
inductive HtmlPath.WrittenAs : HtmlPath -> List UInt8 -> Prop
  | ignore : WrittenAs .ignore (encodeNatural 4 0)
  | elements
      {nested : List PathElement}
      {bytes : List UInt8}
      (written : ListWrittenAs PathElement.WrittenAs nested bytes) :
      WrittenAs (.elements nested) (encodeNatural 4 1 ++ bytes)

/-- Are these the bytes of the rule, with attributes in some order? -/
inductive Rule.WrittenAs (encodeSelector : σ -> List UInt8) (rule : Rule σ) : List UInt8 -> Prop
  | intro
      {bytes : List UInt8}
      (path : rule.path.WrittenAs bytes) :
      WrittenAs encodeSelector rule (encodeSelector rule.selector ++ bytes)

/-- Are these the bytes of the paths, with attributes in some order? -/
inductive Toggles.WrittenAs (toggles : Toggles HtmlPath) : List UInt8 -> Prop
  | intro
      {parts : List (List UInt8)}
      (written : List.Forall₂ HtmlPath.WrittenAs toggles.toList parts) :
      WrittenAs toggles parts.flatten

/-- Are these the bytes of the style map, with attributes in some order? -/
inductive StyleMap.WrittenAs (map : StyleMap) : List UInt8 -> Prop
  | intro
      {paragraphBytes runBytes toggleBytes : List UInt8}
      (paragraphRules :
        ListWrittenAs (Rule.WrittenAs ParagraphSelector.encode) map.paragraphRules paragraphBytes)
      (runRules : ListWrittenAs (Rule.WrittenAs RunSelector.encode) map.runRules runBytes)
      (toggles : map.toggles.WrittenAs toggleBytes) :
      WrittenAs map (paragraphBytes ++ runBytes ++ toggleBytes)

/-! ## What is saved is written in one of these ways -/

theorem Binary.listWrittenAs_encodeList
    {writtenAs : α -> List UInt8 -> Prop}
    {encode : α -> List UInt8}
    (values : List α)
    (written : ∀ value, writtenAs value (encode value)) :
    ListWrittenAs writtenAs values (encodeList encode values) := by
  rw [encodeList, List.flatMap_def]
  apply ListWrittenAs.intro
  rw [List.forall₂_map_right_iff, List.forall₂_same]
  exact fun value _ => written value

theorem PathElement.writtenAs_encode (element : PathElement) :
    element.WrittenAs element.encode :=
  .intro (.intro (.refl _))

theorem HtmlPath.writtenAs_encode (path : HtmlPath) :
    path.WrittenAs path.encode := by
  cases path with
  | ignore => exact .ignore
  | elements nested => exact .elements (listWrittenAs_encodeList nested PathElement.writtenAs_encode)

theorem Rule.writtenAs_encode
    (encodeSelector : σ -> List UInt8)
    (rule : Rule σ) :
    rule.WrittenAs encodeSelector (rule.encode encodeSelector) :=
  .intro rule.path.writtenAs_encode

theorem Toggles.writtenAs_encode (toggles : Toggles HtmlPath) :
    toggles.WrittenAs toggles.encode := by
  rw [Toggles.encode, List.flatMap_def]
  apply Toggles.WrittenAs.intro
  rw [List.forall₂_map_right_iff, List.forall₂_same]
  exact fun path _ => path.writtenAs_encode

theorem StyleMap.writtenAs_toBytes (map : StyleMap) :
    map.WrittenAs map.toBytes :=
  .intro (listWrittenAs_encodeList _ (Rule.writtenAs_encode _))
    (listWrittenAs_encodeList _ (Rule.writtenAs_encode _)) map.toggles.writtenAs_encode

/-! ## Reading the bytes -/

namespace Binary

theorem reads_optionalText
    {value : Option String}
    (fits : OptionalTextFits value) :
    Reads (option text) value (encodeOption encodeText value) :=
  reads_option fun held isHeld => reads_text (fits held isHeld)

section

variable
  {item : Decoder α}
  {fits : α -> Prop}
  {writtenAs : α -> List UInt8 -> Prop}
  (reads : ∀ value part, fits value -> writtenAs value part -> Reads item value part)

include reads

theorem forall₂_reads_of_written
    {values : List α}
    {parts : List (List UInt8)}
    (valuesFit : ∀ value ∈ values, fits value)
    (written : List.Forall₂ writtenAs values parts) :
    List.Forall₂ (Reads item) values parts := by
  induction written with
  | nil => exact .nil
  | @cons value part values parts first _ inductionHypothesis =>
      obtain ⟨firstFits, othersFit⟩ := List.forall_mem_cons.mp valuesFit
      exact .cons (reads value part firstFits first) (inductionHypothesis othersFit)

/-- A list is read from its bytes when its values are read from theirs. -/
theorem reads_listWrittenAs
    {values : List α}
    {bytes : List UInt8}
    (valuesFit : ListFits fits values)
    (written : ListWrittenAs writtenAs values bytes) :
    Reads (list item) values bytes := by
  obtain ⟨written⟩ := written
  exact reads_list valuesFit.length_lt
    (forall₂_reads_of_written reads valuesFit.values_fit written)

end

end Binary

theorem ListLevel.reads (level : ListLevel) :
    Reads decode level level.encode :=
  (reads_word level.index).bind ((reads_bool level.ordered).map _)

theorem ParagraphSelector.reads
    {selector : ParagraphSelector}
    (fits : selector.Fits) :
    Reads decode selector selector.encode := by
  have level : Reads (option ListLevel.decode) selector.level
      (encodeOption ListLevel.encode selector.level) :=
    reads_option fun held _ => held.reads
  rw [encode, List.append_assoc]
  exact (reads_optionalText fits.styleId).bind
    ((reads_optionalText fits.styleName).bind (level.map _))

theorem RunSelector.reads
    {selector : RunSelector}
    (fits : selector.Fits) :
    Reads decode selector selector.encode :=
  (reads_optionalText fits.styleId).bind ((reads_optionalText fits.styleName).map _)

/-- Attributes are read from their bytes in any order. -/
theorem Attributes.reads
    {attributes : Attributes}
    {bytes : List UInt8}
    (fits : ListFits (fun entry => TextFits entry.1 ∧ TextFits entry.2) attributes.entries)
    (written : attributes.WrittenAs bytes) :
    Reads decode attributes bytes := by
  obtain @⟨order, permuted⟩ := written
  have orderLength : order.length < 2 ^ 64 := permuted.length_eq ▸ fits.length_lt
  have entries : Reads (list decodeEntry) order (encodeList encodeEntry order) := by
    refine reads_encodeList orderLength fun entry member => ?_
    obtain ⟨nameFits, valueFits⟩ := fits.values_fit entry (permuted.mem_iff.mp member)
    exact (reads_text nameFits).bind ((reads_text valueFits).map _)
  rw [← ofList_of_perm permuted]
  exact entries.map ofList

theorem PathElement.reads
    {element : PathElement}
    {bytes : List UInt8}
    (fits : element.Fits)
    (written : element.WrittenAs bytes) :
    Reads decode element bytes := by
  obtain ⟨attributes⟩ := written
  have tagNames : Reads (list text) element.tagNames (encodeList encodeText element.tagNames) :=
    reads_encodeList fits.tagNames.length_lt fun name member =>
      reads_text (fits.tagNames.values_fit name member)
  rw [List.append_assoc]
  exact tagNames.bind <| (Attributes.reads fits.attributes attributes).bind <|
    (reads_bool element.collapsible).map _

theorem HtmlPath.reads
    {path : HtmlPath}
    {bytes : List UInt8}
    (fits : path.Fits)
    (written : path.WrittenAs bytes) :
    Reads decode path bytes := by
  cases written with
  | ignore => exact (reads_natural 4 (by decide)).bind (Reads.pure ignore)
  | elements written =>
      have nested := reads_listWrittenAs (fun _ _ => PathElement.reads) fits written
      exact (reads_natural 4 (by decide)).bind (nested.map elements)

theorem Rule.reads
    {encodeSelector : σ -> List UInt8}
    {decodeSelector : Decoder σ}
    {rule : Rule σ}
    {bytes : List UInt8}
    (selector : Reads decodeSelector rule.selector (encodeSelector rule.selector))
    (pathFits : rule.path.Fits)
    (written : rule.WrittenAs encodeSelector bytes) :
    Reads (decode decodeSelector) rule bytes := by
  obtain ⟨path⟩ := written
  exact selector.bind ((HtmlPath.reads pathFits path).map _)

theorem Toggles.reads
    {toggles : Toggles HtmlPath}
    {bytes : List UInt8}
    (fits : ∀ path ∈ toggles.toList, path.Fits)
    (written : toggles.WrittenAs bytes) :
    Reads decode toggles bytes := by
  obtain ⟨written⟩ := written
  have paths := forall₂_reads_of_written (fun _ _ => HtmlPath.reads) fits written
  obtain _ | ⟨bold, _ | ⟨italic, _ | ⟨underline, _ | ⟨strikethrough, _ | ⟨comment, ⟨⟩⟩⟩⟩⟩⟩ := paths
  exact bold.bind <| italic.bind <| underline.bind <| strikethrough.bind <| comment.bind <|
    Reads.pure _

/-- A style map is read from its bytes. -/
theorem StyleMap.reads
    {map : StyleMap}
    {bytes : List UInt8}
    (fits : map.Fits)
    (written : map.WrittenAs bytes) :
    Reads decode map bytes := by
  obtain ⟨paragraphRules, runRules, toggles⟩ := written
  have paragraphs := reads_listWrittenAs
    (fun _ _ ruleFits => Rule.reads (ParagraphSelector.reads ruleFits.1) ruleFits.2)
    fits.paragraphRules paragraphRules
  have runs := reads_listWrittenAs
    (fun _ _ ruleFits => Rule.reads (RunSelector.reads ruleFits.1) ruleFits.2)
    fits.runRules runRules
  rw [List.append_assoc]
  exact paragraphs.bind (runs.bind ((Toggles.reads fits.toggles toggles).map _))

/-- A style map is loaded from its bytes with anything behind them, in whatever order
attributes are written, and no less than all of its bytes is a style map. -/
theorem StyleMap.ofBytes_append_and_truncated
    {map : StyleMap}
    (fits : map.Fits) :
    map.WrittenAs map.toBytes ∧
      ∀ bytes, map.WrittenAs bytes ->
        (∀ extra, ofBytes (bytes ++ extra) = .ok map) ∧
          ∀ short, short <+: bytes -> short ≠ bytes ->
            ∃ fault, fault.isTruncation = true ∧ ofBytes short = .error fault := by
  refine ⟨map.writtenAs_toBytes, fun bytes written => ?_⟩
  have reads := StyleMap.reads fits written
  refine ⟨fun extra => ?_, fun short begins notAll => ?_⟩
  · rw [ofBytes, reads.complete extra]
    rfl
  · obtain ⟨fault, isTruncation, fails⟩ := reads.truncated short begins notAll
    refine ⟨fault, isTruncation, ?_⟩
    rw [ofBytes, fails]
    rfl

/-- A style map without rules, which gives bold text two attributes. -/
def StyleMap.titled : StyleMap where
  paragraphRules := []
  runRules := []
  toggles := { usualToggles with
    bold := .elements [⟨["strong"], .ofList [("class", "tip"), ("title", "größer")], true⟩] }

/-- The attributes may come in another order than the one they are saved in. -/
theorem StyleMap.ofBytes_titled_reversed :
    titled.Fits ∧
      ∃ bytes, bytes ≠ titled.toBytes ∧ titled.WrittenAs bytes ∧
        ofBytes (bytes ++ [0]) = .ok titled := by
  have fits : titled.Fits :=
    ⟨⟨by decide, List.forall_mem_nil _⟩, ⟨by decide, List.forall_mem_nil _⟩, by decide +kernel⟩
  have reversed : List.Perm [("title", "größer"), ("class", "tip")]
      (Attributes.ofList [("class", "tip"), ("title", "größer")]).entries := by
    decide +kernel
  have written : titled.WrittenAs _ :=
    .intro (.intro .nil) (.intro .nil) <| .intro <|
      .cons (.elements (.intro (.cons (.intro (.intro reversed)) .nil))) <|
        .cons (HtmlPath.writtenAs_encode _) <| .cons (HtmlPath.writtenAs_encode _) <|
          .cons (HtmlPath.writtenAs_encode _) <| .cons (HtmlPath.writtenAs_encode _) .nil
  refine ⟨fits, _, ?_, written, ((ofBytes_append_and_truncated fits).2 _ written).1 [0]⟩
  decide +kernel

end StyleRules
