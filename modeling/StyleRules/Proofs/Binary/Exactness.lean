import Mathlib.Algebra.Group.Nat.Defs
import Mathlib.Data.List.Forall2
import StyleRules.Binary.Decoder

/-!
# Exact reading

A decoder reads a value from exactly some bytes when it finds the value whatever
follows them, leaves all of that, and finds that something is missing as soon as
they are cut short (`Reads`).  Decoders that run one after the other read bytes that
stand one behind the other (`Reads.bind`), so every composed decoder is exact
because its parts are.
-/

namespace StyleRules
namespace Binary

/-- Does the fault say that the bytes end too early? -/
def Fault.isTruncation : Fault -> Bool
  | endOfInput => true
  | textTooLong => true
  | _ => false

/-- Is the value read from exactly these bytes? -/
structure Reads (decoder : Decoder α) (value : α) (bytes : List UInt8) : Prop where
  /-- What follows the bytes is left over. -/
  complete : ∀ extra, decoder (bytes ++ extra) = .ok (value, extra)
  /-- Less than the bytes is too little. -/
  truncated :
    ∀ short, short <+: bytes -> short ≠ bytes ->
      ∃ fault, fault.isTruncation = true ∧ decoder short = .error fault

theorem bind_of_eq_ok
    {decoder : Decoder α}
    {next : α -> Decoder β}
    {bytes rest : List UInt8}
    {value : α}
    (reads : decoder bytes = .ok (value, rest)) :
    (decoder >>= next) bytes = next value rest := by
  change Except.bind (decoder bytes) _ = _
  rw [reads]
  rfl

theorem bind_of_eq_error
    {decoder : Decoder α}
    {next : α -> Decoder β}
    {bytes : List UInt8}
    {fault : Fault}
    (fails : decoder bytes = .error fault) :
    (decoder >>= next) bytes = .error fault := by
  change Except.bind (decoder bytes) _ = _
  rw [fails]
  rfl

namespace Reads

/-- Nothing is read for a value that is there already. -/
theorem pure (value : α) :
    Reads (pure value) value [] where
  complete _ := rfl
  truncated _ begins notAll := absurd (List.prefix_nil.mp begins) notAll

/-- Decoders that run one after the other read bytes one behind the other.  Bytes
that are cut short lack something of the first part, or they have all of it and lack
something of the second. -/
theorem bind
    {decoder : Decoder α}
    {next : α -> Decoder β}
    {value : α}
    {result : β}
    {bytes others : List UInt8}
    (first : Reads decoder value bytes)
    (second : Reads (next value) result others) :
    Reads (decoder >>= next) result (bytes ++ others) where
  complete extra := by
    rw [List.append_assoc, bind_of_eq_ok (first.complete (others ++ extra))]
    exact second.complete extra
  truncated short begins notAll := by
    by_cases passesFirst : bytes <+: short
    · obtain ⟨rest, rfl⟩ := passesFirst
      have restBegins : rest <+: others := (List.prefix_append_right_inj bytes).mp begins
      have restNotAll : rest ≠ others := fun same => notAll (same ▸ rfl)
      obtain ⟨fault, isTruncation, fails⟩ := second.truncated rest restBegins restNotAll
      refine ⟨fault, isTruncation, ?_⟩
      rw [bind_of_eq_ok (first.complete rest)]
      exact fails
    · have shortBegins : short <+: bytes := by
        rcases List.prefix_or_prefix_of_prefix begins (List.prefix_append bytes others) with
          inside | passes
        · exact inside
        · exact absurd passes passesFirst
      have shortNotAll : short ≠ bytes := by
        rintro rfl
        exact passesFirst List.prefix_rfl
      obtain ⟨fault, isTruncation, fails⟩ := first.truncated short shortBegins shortNotAll
      exact ⟨fault, isTruncation, bind_of_eq_error fails⟩

/-- What is made of a value is read from the bytes of the value. -/
theorem map
    {decoder : Decoder α}
    {value : α}
    {bytes : List UInt8}
    (reads : Reads decoder value bytes)
    (f : α -> β) :
    Reads (do return f (← decoder)) (f value) bytes := by
  rw [← List.append_nil bytes]
  exact reads.bind (Reads.pure (f value))

end Reads

/-! ## The building blocks -/

theorem reads_byte (value : UInt8) :
    Reads byte value [value] where
  complete _ := rfl
  truncated short begins notAll := by
    cases short with
    | nil => exact ⟨.endOfInput, rfl, rfl⟩
    | cons first rest =>
        obtain ⟨rfl, restBegins⟩ := List.cons_prefix_cons.mp begins
        obtain rfl := List.prefix_nil.mp restBegins
        exact absurd rfl notAll

/-- A number is read if it fits the width. -/
theorem reads_natural
    (width : Nat)
    {value : Nat}
    (fits : value < 256 ^ width) :
    Reads (natural width) value (encodeNatural width value) := by
  induction width generalizing value with
  | zero =>
      obtain rfl : value = 0 := by simpa using fits
      exact Reads.pure 0
  | succ width inductionHypothesis =>
      have highFits : value / 256 < 256 ^ width := by
        rw [Nat.pow_succ] at fits
        exact Nat.div_lt_of_lt_mul (by rwa [Nat.mul_comm])
      have lowAndHigh : (UInt8.ofNat value).toNat + 256 * (value / 256) = value := by
        rw [UInt8.toNat_ofNat']
        exact Nat.mod_add_div value 256
      have high := (inductionHypothesis highFits).map fun high =>
        (UInt8.ofNat value).toNat + 256 * high
      rw [lowAndHigh] at high
      exact (reads_byte (UInt8.ofNat value)).bind high

theorem reads_word (value : UInt32) :
    Reads word value (encodeWord value) := by
  have reads := (reads_natural 4 value.toNat_lt).map UInt32.ofNat
  rwa [UInt32.ofNat_toNat] at reads

theorem reads_bool (value : Bool) :
    Reads bool value (encodeBool value) := by
  cases value with
  | false => exact (reads_byte 0).bind (Reads.pure false)
  | true => exact (reads_byte 1).bind (Reads.pure true)

theorem reads_option
    {item : Decoder α}
    {encode : α -> List UInt8}
    {value : Option α}
    (reads : ∀ held ∈ value, Reads item held (encode held)) :
    Reads (option item) value (encodeOption encode value) := by
  cases value with
  | none => exact (reads_byte 0).bind (Reads.pure none)
  | some held => exact (reads_byte 1).bind ((reads held rfl).map some)

/-- The bytes of a text are read as the text when there are as many as asked for. -/
theorem reads_textOfSize (value : String) :
    Reads (textOfSize (Text.utf8Bytes value).length) value (Text.utf8Bytes value) where
  complete extra := by
    rw [textOfSize, if_neg (by simp), List.take_left, Text.ofUtf8?_utf8Bytes, List.drop_left]
  truncated short begins notAll := by
    have shorter : short.length < (Text.utf8Bytes value).length := by
      refine Nat.lt_of_le_of_ne begins.length_le fun sameLength => ?_
      exact notAll (begins.eq_of_length sameLength)
    exact ⟨.textTooLong, rfl, if_pos shorter⟩

theorem reads_text
    {value : String}
    (fits : (Text.utf8Bytes value).length < 2 ^ 64) :
    Reads text value (encodeText value) :=
  (reads_natural 8 fits).bind (reads_textOfSize value)

theorem reads_times
    {item : Decoder α}
    {values : List α}
    {parts : List (List UInt8)}
    (reads : List.Forall₂ (Reads item) values parts) :
    Reads (times item values.length) values parts.flatten := by
  induction reads with
  | nil => exact Reads.pure []
  | @cons value part values parts first _ inductionHypothesis =>
      exact first.bind (inductionHypothesis.map (value :: ·))

/-- Values behind their number are read, whatever bytes each of them is read from. -/
theorem reads_list
    {item : Decoder α}
    {values : List α}
    {parts : List (List UInt8)}
    (fits : values.length < 2 ^ 64)
    (reads : List.Forall₂ (Reads item) values parts) :
    Reads (list item) values (encodeNatural 8 values.length ++ parts.flatten) :=
  (reads_natural 8 fits).bind (reads_times reads)

theorem reads_encodeList
    {item : Decoder α}
    {encode : α -> List UInt8}
    {values : List α}
    (fits : values.length < 2 ^ 64)
    (reads : ∀ value ∈ values, Reads item value (encode value)) :
    Reads (list item) values (encodeList encode values) := by
  rw [encodeList, List.flatMap_def]
  apply reads_list fits
  rw [List.forall₂_map_right_iff, List.forall₂_same]
  exact reads

end Binary
end StyleRules
