import StyleRules.Proofs.Attributes.Order
import StyleRules.Proofs.Binary.Canonicity
import StyleRules.StyleMap.Binary
import StyleRules.StyleMap.Builder

/-!
# The bytes that a style map is loaded from

A style map is saved as bytes in one way, but loaded from more than one: attributes may
be written in another order, and with entries for one name that replace each other.  This
is all the freedom there is.  Where no element is written with more than one entry, the
bytes that a style map is loaded from are those it is saved as
(`StyleMap.consumed_of_ofBytes`), whatever follows them.

How many entries an element is written with does not show in the style map, so it is read
from the bytes by decoders of its own (`StyleMap.decodeEntries`), which run along with
those that read the style map (`Accompanies`).
-/

namespace StyleRules

open Binary

/-! ## Reading the entries alone -/

/-- Reads lists behind their number and joins them. -/
def Binary.gather (item : Decoder (List α)) : Decoder (List α) := do
  return (← list item).flatten

/-- Reads the entries that the attributes of an element are written as. -/
def PathElement.decodeEntries : Decoder (List (List (String × String))) := do
  let _ ← list text
  let entries ← list Attributes.decodeEntry
  let _ ← bool
  return [entries]

/-- Reads the entries for each element of a path. -/
def HtmlPath.decodeEntries : Decoder (List (List (String × String))) := do
  match ← natural 4 with
  | 0 => return []
  | 1 => gather PathElement.decodeEntries
  | number => throw (.badChoice number 2)

/-- Reads the entries for each element in a rule. -/
def Rule.decodeEntries (decodeSelector : Decoder σ) : Decoder (List (List (String × String))) := do
  let _ ← decodeSelector
  HtmlPath.decodeEntries

/-- Reads the entries for each element in the paths of the toggles. -/
def Toggles.decodeEntries : Decoder (List (List (String × String))) := do
  return (← times HtmlPath.decodeEntries 5).flatten

/-- Reads the entries for each element in a style map. -/
def StyleMap.decodeEntries : Decoder (List (List (String × String))) := do
  let paragraphs ← gather (Rule.decodeEntries ParagraphSelector.decode)
  let runs ← gather (Rule.decodeEntries RunSelector.decode)
  let toggles ← Toggles.decodeEntries
  return paragraphs ++ runs ++ toggles

/-- The elements of all paths in a style map, in the order in which they are written. -/
def StyleMap.pathElements (map : StyleMap) : List PathElement :=
  map.paragraphRules.flatMap (fun rule => rule.path.steps) ++
    map.runRules.flatMap (fun rule => rule.path.steps) ++
      map.toggles.toList.flatMap HtmlPath.steps

/-- Is no element written with more than one entry? -/
def HasSingleEntries (entries : List (List (String × String))) : Prop :=
  ∀ written ∈ entries, written.length ≤ 1

/-! ## Reading along -/

/-- Does the second decoder run along with the first one?  Where a value is read, it reads
the entries from which the attributes of the value's elements are set, up to the same
place.  What is consumed is what the value is written as if no element has more than one
entry. -/
def Accompanies
    (decoder : Decoder α)
    (decodeEntries : Decoder (List (List (String × String))))
    (elements : α -> List PathElement)
    (encode : α -> List UInt8) :
    Prop :=
  ∀ ⦃bytes value rest⦄, decoder bytes = .ok (value, rest) ->
    ∃ entries consumed, decodeEntries bytes = .ok (entries, rest) ∧ bytes = consumed ++ rest ∧
      entries.map Attributes.ofList = (elements value).map PathElement.attributes ∧
      (HasSingleEntries entries -> consumed = encode value)

section Lists

variable
  {item : Decoder α}
  {itemEntries : Decoder (List (List (String × String)))}
  {elements : α -> List PathElement}
  {encode : α -> List UInt8}

theorem times_accompanies
    (accompanies : Accompanies item itemEntries elements encode)
    {count : Nat}
    {bytes rest : List UInt8}
    {values : List α}
    (read : times item count bytes = .ok (values, rest)) :
    values.length = count ∧
      ∃ entries consumed, times itemEntries count bytes = .ok (entries, rest) ∧
        bytes = consumed ++ rest ∧
        entries.flatten.map Attributes.ofList =
          (values.flatMap elements).map PathElement.attributes ∧
        (HasSingleEntries entries.flatten -> consumed = values.flatMap encode) := by
  induction count generalizing bytes values with
  | zero =>
      obtain ⟨rfl, rfl⟩ := pure_eq_ok_iff.mp read
      exact ⟨rfl, [], [], rfl, rfl, rfl, fun _ => rfl⟩
  | succ count inductionHypothesis =>
      simp only [times, bind_eq_ok_iff, pure_eq_ok_iff] at read ⊢
      obtain ⟨first, between, firstRead, others, _, othersRead, rfl, rfl⟩ := read
      obtain ⟨firstEntries, firstConsumed, firstEntriesRead, rfl, firstSet, firstOwn⟩ :=
        accompanies firstRead
      obtain ⟨rfl, otherEntries, othersConsumed, otherEntriesRead, rfl, othersSet, othersOwn⟩ :=
        inductionHypothesis othersRead
      refine ⟨rfl, firstEntries :: otherEntries, firstConsumed ++ othersConsumed,
        ⟨_, _, firstEntriesRead, _, _, otherEntriesRead, rfl, rfl⟩,
        (List.append_assoc _ _ _).symm, ?_, fun single => ?_⟩
      · rw [List.flatten_cons, List.map_append, firstSet, othersSet, List.flatMap_cons,
          List.map_append]
      · rw [List.flatten_cons] at single
        obtain ⟨firstSingle, othersSingle⟩ := List.forall_mem_append.mp single
        rw [firstOwn firstSingle, othersOwn othersSingle, List.flatMap_cons]

theorem Accompanies.list
    (accompanies : Accompanies item itemEntries elements encode) :
    Accompanies (list item) (gather itemEntries) (fun values => values.flatMap elements)
      (encodeList encode) := by
  intro bytes values rest read
  simp only [Binary.list, bind_eq_ok_iff] at read
  obtain ⟨count, between, countRead, valuesRead⟩ := read
  obtain ⟨rfl, entries, consumed, entriesRead, rfl, set, own⟩ :=
    times_accompanies accompanies valuesRead
  refine ⟨entries.flatten, encodeNatural 8 values.length ++ consumed, ?_, ?_, set,
    fun single => ?_⟩
  · simp only [gather, Binary.list, bind_eq_ok_iff, pure_eq_ok_iff]
    exact ⟨entries, rest, ⟨_, _, countRead, entriesRead⟩, rfl, rfl⟩
  · rw [List.append_assoc]
    exact canonical_natural 8 countRead
  · rw [own single]
    rfl

end Lists

/-! ## Style maps -/

theorem ListLevel.canonical_decode :
    Canonical ListLevel.decode ListLevel.encode := by
  intro bytes level rest read
  simp only [decode, bind_eq_ok_iff, pure_eq_ok_iff] at read
  obtain ⟨index, _, indexRead, ordered, _, orderedRead, rfl, rfl⟩ := read
  rw [encode, List.append_assoc, ← canonical_bool orderedRead]
  exact canonical_word indexRead

theorem ParagraphSelector.canonical_decode :
    Canonical ParagraphSelector.decode ParagraphSelector.encode := by
  intro bytes selector rest read
  simp only [decode, bind_eq_ok_iff, pure_eq_ok_iff] at read
  obtain ⟨styleId, _, styleIdRead, styleName, _, styleNameRead, level, _, levelRead, rfl, rfl⟩ :=
    read
  rw [encode, List.append_assoc, List.append_assoc,
    ← canonical_option ListLevel.canonical_decode levelRead,
    ← canonical_option canonical_text styleNameRead]
  exact canonical_option canonical_text styleIdRead

theorem RunSelector.canonical_decode :
    Canonical RunSelector.decode RunSelector.encode := by
  intro bytes selector rest read
  simp only [decode, bind_eq_ok_iff, pure_eq_ok_iff] at read
  obtain ⟨styleId, _, styleIdRead, styleName, _, styleNameRead, rfl, rfl⟩ := read
  rw [encode, List.append_assoc, ← canonical_option canonical_text styleNameRead]
  exact canonical_option canonical_text styleIdRead

theorem Attributes.canonical_decodeEntry :
    Canonical Attributes.decodeEntry Attributes.encodeEntry := by
  intro bytes entry rest read
  simp only [decodeEntry, bind_eq_ok_iff, pure_eq_ok_iff] at read
  obtain ⟨name, _, nameRead, value, _, valueRead, rfl, rfl⟩ := read
  rw [encodeEntry, List.append_assoc, ← canonical_text valueRead]
  exact canonical_text nameRead

/-- A single entry is that of the attributes that are set from it. -/
theorem Attributes.entries_ofList_of_length_le_one
    {entries : List (String × String)}
    (single : entries.length ≤ 1) :
    (ofList entries).entries = entries := by
  match entries, single with
  | [], _ => rfl
  | [_], _ => rfl

theorem PathElement.accompanies_decode :
    Accompanies PathElement.decode PathElement.decodeEntries (fun element => [element])
      PathElement.encode := by
  intro bytes element rest read
  simp only [decode, Attributes.decode, bind_eq_ok_iff, pure_eq_ok_iff] at read
  obtain ⟨tagNames, _, tagNamesRead, _, _, ⟨entries, _, entriesRead, rfl, rfl⟩, collapsible, _,
    collapsibleRead, rfl, rfl⟩ := read
  refine ⟨[entries],
    encodeList encodeText tagNames ++ encodeList Attributes.encodeEntry entries ++
      encodeBool collapsible, ?_, ?_, rfl, fun single => ?_⟩
  · simp only [decodeEntries, bind_eq_ok_iff, pure_eq_ok_iff]
    exact ⟨_, _, tagNamesRead, _, _, entriesRead, _, _, collapsibleRead, rfl, rfl⟩
  · rw [List.append_assoc, List.append_assoc, ← canonical_bool collapsibleRead,
      ← canonical_list Attributes.canonical_decodeEntry entriesRead]
    exact canonical_list canonical_text tagNamesRead
  · rw [encode, Attributes.encode,
      Attributes.entries_ofList_of_length_le_one (single entries (List.mem_singleton_self _))]

theorem HtmlPath.accompanies_decode :
    Accompanies HtmlPath.decode HtmlPath.decodeEntries HtmlPath.steps HtmlPath.encode := by
  intro bytes path rest read
  simp only [decode, bind_eq_ok_iff] at read
  obtain ⟨number, between, numberRead, read⟩ := read
  have numberBytes := canonical_natural 4 numberRead
  simp only [decodeEntries, bind_eq_ok_iff]
  rcases number with _ | _ | number
  case zero =>
      obtain ⟨rfl, rfl⟩ := pure_eq_ok_iff.mp read
      exact ⟨[], encodeNatural 4 0, ⟨0, _, numberRead, rfl⟩, numberBytes, rfl, fun _ => rfl⟩
  case succ.zero =>
      simp only [bind_eq_ok_iff, pure_eq_ok_iff] at read
      obtain ⟨steps, _, stepsRead, rfl, rfl⟩ := read
      obtain ⟨entries, consumed, entriesRead, rfl, set, own⟩ :=
        PathElement.accompanies_decode.list stepsRead
      refine ⟨entries, encodeNatural 4 1 ++ consumed, ⟨1, _, numberRead, entriesRead⟩, ?_,
        set.trans ?_, fun single => ?_⟩
      · rw [List.append_assoc]
        exact numberBytes
      · exact congrArg (List.map PathElement.attributes) (List.flatMap_singleton' steps)
      · rw [own single]
        rfl
  case succ.succ => exact absurd read throw_ne_ok

theorem Rule.accompanies_decode
    {decodeSelector : Decoder σ}
    {encodeSelector : σ -> List UInt8}
    (canonical : Canonical decodeSelector encodeSelector) :
    Accompanies (Rule.decode decodeSelector) (Rule.decodeEntries decodeSelector)
      (fun rule => rule.path.steps) (Rule.encode encodeSelector) := by
  intro bytes rule rest read
  simp only [decode, bind_eq_ok_iff, pure_eq_ok_iff] at read
  obtain ⟨selector, _, selectorRead, path, _, pathRead, rfl, rfl⟩ := read
  obtain ⟨entries, consumed, entriesRead, rfl, set, own⟩ := HtmlPath.accompanies_decode pathRead
  refine ⟨entries, encodeSelector selector ++ consumed, ?_, ?_, set, fun single => ?_⟩
  · simp only [decodeEntries, bind_eq_ok_iff]
    exact ⟨_, _, selectorRead, entriesRead⟩
  · rw [List.append_assoc]
    exact canonical selectorRead
  · rw [own single]
    rfl

/-- The paths of the toggles are five paths, one behind the other. -/
theorem Toggles.times_of_decode
    {bytes rest : List UInt8}
    {toggles : Toggles HtmlPath}
    (read : Toggles.decode bytes = .ok (toggles, rest)) :
    times HtmlPath.decode 5 bytes = .ok (toggles.toList, rest) := by
  simp only [decode, bind_eq_ok_iff, pure_eq_ok_iff] at read
  obtain ⟨bold, _, boldRead, italic, _, italicRead, underline, _, underlineRead, strikethrough, _,
    strikethroughRead, comment, _, commentRead, rfl, rfl⟩ := read
  simp only [times, bind_eq_ok_iff, pure_eq_ok_iff]
  exact ⟨_, _, boldRead, _, _, ⟨_, _, italicRead, _, _, ⟨_, _, underlineRead, _, _,
    ⟨_, _, strikethroughRead, _, _, ⟨_, _, commentRead, _, _, ⟨rfl, rfl⟩, rfl, rfl⟩, rfl, rfl⟩,
    rfl, rfl⟩, rfl, rfl⟩, rfl, rfl⟩

theorem Toggles.accompanies_decode :
    Accompanies Toggles.decode Toggles.decodeEntries
      (fun toggles => toggles.toList.flatMap HtmlPath.steps) Toggles.encode := by
  intro bytes toggles rest read
  obtain ⟨_, entries, consumed, entriesRead, splits, set, own⟩ :=
    times_accompanies HtmlPath.accompanies_decode (times_of_decode read)
  refine ⟨entries.flatten, consumed, ?_, splits, set, own⟩
  simp only [decodeEntries, bind_eq_ok_iff, pure_eq_ok_iff]
  exact ⟨entries, rest, entriesRead, rfl, rfl⟩

theorem StyleMap.accompanies_decode :
    Accompanies StyleMap.decode StyleMap.decodeEntries StyleMap.pathElements
      StyleMap.toBytes := by
  intro bytes map rest read
  simp only [decode, bind_eq_ok_iff, pure_eq_ok_iff] at read
  obtain ⟨paragraphRules, _, paragraphRulesRead, runRules, _, runRulesRead, toggles, _,
    togglesRead, rfl, rfl⟩ := read
  obtain ⟨paragraphEntries, paragraphBytes, paragraphEntriesRead, rfl, paragraphsSet,
    paragraphsOwn⟩ :=
    (Rule.accompanies_decode ParagraphSelector.canonical_decode).list paragraphRulesRead
  obtain ⟨runEntries, runBytes, runEntriesRead, rfl, runsSet, runsOwn⟩ :=
    (Rule.accompanies_decode RunSelector.canonical_decode).list runRulesRead
  obtain ⟨toggleEntries, toggleBytes, toggleEntriesRead, rfl, togglesSet, togglesOwn⟩ :=
    Toggles.accompanies_decode togglesRead
  refine ⟨paragraphEntries ++ runEntries ++ toggleEntries,
    paragraphBytes ++ runBytes ++ toggleBytes, ?_, ?_, ?_, fun single => ?_⟩
  · simp only [decodeEntries, bind_eq_ok_iff, pure_eq_ok_iff]
    exact ⟨_, _, paragraphEntriesRead, _, _, runEntriesRead, _, _, toggleEntriesRead, rfl, rfl⟩
  · rw [List.append_assoc, List.append_assoc]
  · rw [List.map_append, List.map_append, paragraphsSet, runsSet, togglesSet, pathElements,
      List.map_append, List.map_append]
  · simp only [HasSingleEntries, List.forall_mem_append] at single
    obtain ⟨⟨paragraphsSingle, runsSingle⟩, togglesSingle⟩ := single
    rw [paragraphsOwn paragraphsSingle, runsOwn runsSingle, togglesOwn togglesSingle]
    rfl

/-- Is the style map read from the front of the data, from what is consumed, where the
attributes of its elements are written as these entries? -/
structure StyleMap.ReadFrom
    (map : StyleMap)
    (data consumed : List UInt8)
    (entries : List (List (String × String))) :
    Prop where
  /-- The style map and the entries are read up to the same place. -/
  reads : ∃ rest, data = consumed ++ rest ∧ decode data = .ok (map, rest) ∧
    decodeEntries data = .ok (entries, rest)
  /-- There are entries for each element, and its attributes are set from them. -/
  attributes_eq : entries.map Attributes.ofList = map.pathElements.map PathElement.attributes

theorem StyleMap.exists_readFrom
    {data : List UInt8}
    {map : StyleMap}
    (loaded : ofBytes data = .ok map) :
    ∃ consumed entries, map.ReadFrom data consumed entries := by
  rw [ofBytes] at loaded
  cases outcome : decode data with
  | error fault =>
      rw [outcome] at loaded
      cases loaded
  | ok read =>
      rw [outcome] at loaded
      obtain ⟨_, rest⟩ := read
      cases loaded
      obtain ⟨entries, consumed, entriesRead, splits, set, _⟩ := accompanies_decode outcome
      exact ⟨consumed, entries, ⟨rest, splits, outcome, entriesRead⟩, set⟩

/-- Where no element is written with more than one entry, a style map is read from what it
is saved as. -/
theorem StyleMap.ReadFrom.consumed_eq
    {map : StyleMap}
    {data consumed : List UInt8}
    {entries : List (List (String × String))}
    (readFrom : map.ReadFrom data consumed entries)
    (single : HasSingleEntries entries) :
    consumed = map.toBytes := by
  obtain ⟨rest, rfl, read, entriesRead⟩ := readFrom.reads
  obtain ⟨found, own, foundRead, splits, _, ownBytes⟩ := accompanies_decode read
  rw [entriesRead] at foundRead
  cases foundRead
  rw [List.append_cancel_right splits]
  exact ownBytes single

/-- Data that a style map is loaded from begin with what the style map is saved as, if no
element is written there with more than one entry.  So what is consumed of any such data
for a style map is the same. -/
theorem StyleMap.consumed_of_ofBytes
    {data : List UInt8}
    {map : StyleMap}
    (loaded : ofBytes data = .ok map) :
    (∃ consumed entries, map.ReadFrom data consumed entries) ∧
      ∀ consumed entries, map.ReadFrom data consumed entries -> HasSingleEntries entries ->
        map.toBytes <+: data ∧ consumed = map.toBytes ∧
          ∀ other otherConsumed otherEntries,
            map.ReadFrom other otherConsumed otherEntries -> HasSingleEntries otherEntries ->
              otherConsumed = consumed := by
  refine ⟨exists_readFrom loaded, fun consumed entries readFrom single => ?_⟩
  obtain rfl := readFrom.consumed_eq single
  obtain ⟨rest, rfl, _⟩ := readFrom.reads
  exact ⟨List.prefix_append _ rest, rfl,
    fun _ _ _ otherReadFrom otherSingle => otherReadFrom.consumed_eq otherSingle⟩

/-- A style map without rules, whose bold text stands in an element with one attribute. -/
def StyleMap.noted : StyleMap where
  paragraphRules := []
  runRules := []
  toggles :=
    { usualToggles with
      bold := .elements [⟨["strong", "b"], .ofList [("class", "größer")], true⟩] }

/-- One more byte behind what a style map is saved as is not consumed. -/
theorem StyleMap.consumed_of_ofBytes_noted :
    ofBytes (noted.toBytes ++ [7]) = .ok noted ∧
      ∃ consumed entries, noted.ReadFrom (noted.toBytes ++ [7]) consumed entries ∧
        HasSingleEntries entries ∧ consumed = noted.toBytes := by
  have loaded : ofBytes (noted.toBytes ++ [7]) = .ok noted := by decide +kernel
  have decoded :
      (decodeEntries (noted.toBytes ++ [7])).map (fun read => read.1) =
        .ok [[("class", "größer")], [], []] := by
    decide +kernel
  obtain ⟨⟨consumed, entries, readFrom⟩, consumedOf⟩ := consumed_of_ofBytes loaded
  have single : HasSingleEntries entries := by
    obtain ⟨_, _, _, entriesRead⟩ := readFrom.reads
    rw [entriesRead] at decoded
    cases decoded
    simp [HasSingleEntries]
  obtain ⟨_, consumedEq, _⟩ := consumedOf consumed entries readFrom single
  exact ⟨loaded, consumed, entries, readFrom, single, consumedEq⟩

end StyleRules
