import StyleRules.Proofs.Binary.Exactness

/-!
# Canonical reading

A decoder is canonical when it reads a value from nothing but the bytes that the value is
written as (`Canonical`).  The building blocks are: there is one byte for each truth value
and for each case of an option, a number is written in a fixed width, and the bytes of a
text are those of its characters.  So lists of canonical parts are canonical, too.
-/

namespace StyleRules
namespace Binary

/-! ## Taking decoders apart -/

/-- A sequence succeeds when its parts do, one behind the other. -/
theorem bind_eq_ok_iff
    {decoder : Decoder α}
    {next : α -> Decoder β}
    {bytes rest : List UInt8}
    {result : β} :
    (decoder >>= next) bytes = .ok (result, rest) ↔
      ∃ value between, decoder bytes = .ok (value, between) ∧
        next value between = .ok (result, rest) := by
  cases outcome : decoder bytes with
  | error fault =>
      rw [bind_of_eq_error outcome]
      simp
  | ok read =>
      obtain ⟨value, between⟩ := read
      rw [bind_of_eq_ok outcome]
      constructor
      · intro nextReads
        exact ⟨value, between, rfl, nextReads⟩
      · rintro ⟨_, _, same, nextReads⟩
        cases same
        exact nextReads

theorem pure_eq_ok_iff
    {value result : α}
    {bytes rest : List UInt8} :
    (pure value : Decoder α) bytes = .ok (result, rest) ↔ value = result ∧ bytes = rest := by
  change Except.ok (value, bytes) = .ok (result, rest) ↔ _
  rw [Except.ok.injEq, Prod.mk.injEq]

theorem throw_ne_ok
    {fault : Fault}
    {result : α}
    {bytes rest : List UInt8} :
    (throw fault : Decoder α) bytes ≠ .ok (result, rest) := by
  intro same
  cases same

/-! ## The building blocks -/

/-- Is every value that is read written as the bytes it is read from? -/
def Canonical (decoder : Decoder α) (encode : α -> List UInt8) : Prop :=
  ∀ ⦃bytes value rest⦄, decoder bytes = .ok (value, rest) -> bytes = encode value ++ rest

theorem canonical_byte :
    Canonical byte fun value => [value] := by
  intro bytes value rest read
  cases bytes with
  | nil => cases read
  | cons first others =>
      cases read
      rfl

/-- A number fits its width. -/
theorem lt_of_natural
    {width value : Nat}
    {bytes rest : List UInt8}
    (read : natural width bytes = .ok (value, rest)) :
    value < 256 ^ width := by
  induction width generalizing bytes rest value with
  | zero =>
      obtain ⟨rfl, _⟩ := pure_eq_ok_iff.mp read
      simp
  | succ width inductionHypothesis =>
      simp only [natural, bind_eq_ok_iff, pure_eq_ok_iff] at read
      obtain ⟨low, _, _, high, _, highRead, rfl, _⟩ := read
      have highFits := inductionHypothesis highRead
      have lowFits := low.toNat_lt
      rw [Nat.pow_succ]
      omega

/-- A number is written with the bytes of its digits to the base 256. -/
theorem canonical_natural (width : Nat) :
    Canonical (natural width) (encodeNatural width) := by
  intro bytes value rest read
  induction width generalizing bytes value with
  | zero =>
      obtain ⟨_, rfl⟩ := pure_eq_ok_iff.mp read
      rfl
  | succ width inductionHypothesis =>
      simp only [natural, bind_eq_ok_iff, pure_eq_ok_iff] at read
      obtain ⟨low, between, lowRead, high, _, highRead, rfl, rfl⟩ := read
      have lowFits := low.toNat_lt
      have lowDigit : UInt8.ofNat (low.toNat + 256 * high) = low := by
        apply UInt8.toNat_inj.mp
        rw [UInt8.toNat_ofNat']
        omega
      have highDigits : (low.toNat + 256 * high) / 256 = high := by omega
      rw [encodeNatural, lowDigit, highDigits, canonical_byte lowRead,
        inductionHypothesis highRead]
      rfl

theorem canonical_word :
    Canonical word encodeWord := by
  intro bytes value rest read
  simp only [word, bind_eq_ok_iff, pure_eq_ok_iff] at read
  obtain ⟨number, _, numberRead, rfl, rfl⟩ := read
  have fits : number < 2 ^ 32 := lt_of_natural numberRead
  rw [encodeWord, UInt32.toNat_ofNat_of_lt' fits]
  exact canonical_natural 4 numberRead

theorem canonical_bool :
    Canonical bool encodeBool := by
  intro bytes value rest read
  simp only [bool, bind_eq_ok_iff] at read
  obtain ⟨first, between, firstRead, read⟩ := read
  rw [canonical_byte firstRead]
  split at read
  · rename_i isZero
    obtain ⟨rfl, rfl⟩ := pure_eq_ok_iff.mp read
    rw [isZero]
    rfl
  · split at read
    · rename_i isOne
      obtain ⟨rfl, rfl⟩ := pure_eq_ok_iff.mp read
      rw [isOne]
      rfl
    · exact absurd read throw_ne_ok

theorem canonical_option
    {item : Decoder α}
    {encode : α -> List UInt8}
    (canonical : Canonical item encode) :
    Canonical (option item) (encodeOption encode) := by
  intro bytes value rest read
  simp only [option, bind_eq_ok_iff] at read
  obtain ⟨first, between, firstRead, read⟩ := read
  rw [canonical_byte firstRead]
  split at read
  · rename_i isZero
    obtain ⟨rfl, rfl⟩ := pure_eq_ok_iff.mp read
    rw [isZero]
    rfl
  · split at read
    · rename_i isOne
      simp only [bind_eq_ok_iff, pure_eq_ok_iff] at read
      obtain ⟨held, _, heldRead, rfl, rfl⟩ := read
      rw [isOne, canonical heldRead]
      rfl
    · exact absurd read throw_ne_ok

/-- A text is read from as many bytes as asked for, and these are its own. -/
theorem textOfSize_eq_ok
    {size : Nat}
    {bytes rest : List UInt8}
    {value : String}
    (read : textOfSize size bytes = .ok (value, rest)) :
    (Text.utf8Bytes value).length = size ∧ bytes = Text.utf8Bytes value ++ rest := by
  rw [textOfSize] at read
  split at read
  · cases read
  · rename_i longEnough
    split at read
    · rename_i text isText
      cases read
      have ownBytes := Text.utf8Bytes_of_ofUtf8? isText
      rw [ownBytes, List.length_take, List.take_append_drop]
      exact ⟨by omega, rfl⟩
    · cases read

theorem canonical_text :
    Canonical text encodeText := by
  intro bytes value rest read
  simp only [text, bind_eq_ok_iff] at read
  obtain ⟨size, between, sizeRead, textRead⟩ := read
  obtain ⟨rfl, ownBytes⟩ := textOfSize_eq_ok textRead
  rw [encodeText, List.append_assoc, ← ownBytes]
  exact canonical_natural 8 sizeRead

theorem times_eq_ok
    {item : Decoder α}
    {encode : α -> List UInt8}
    (canonical : Canonical item encode)
    {count : Nat}
    {bytes rest : List UInt8}
    {values : List α}
    (read : times item count bytes = .ok (values, rest)) :
    values.length = count ∧ bytes = values.flatMap encode ++ rest := by
  induction count generalizing bytes values with
  | zero =>
      obtain ⟨rfl, rfl⟩ := pure_eq_ok_iff.mp read
      exact ⟨rfl, rfl⟩
  | succ count inductionHypothesis =>
      simp only [times, bind_eq_ok_iff, pure_eq_ok_iff] at read
      obtain ⟨first, between, firstRead, others, _, othersRead, rfl, rfl⟩ := read
      obtain ⟨rfl, othersBytes⟩ := inductionHypothesis othersRead
      refine ⟨rfl, ?_⟩
      rw [canonical firstRead, othersBytes, List.flatMap_cons, List.append_assoc]

/-- A list is written as its values are, behind their number. -/
theorem canonical_list
    {item : Decoder α}
    {encode : α -> List UInt8}
    (canonical : Canonical item encode) :
    Canonical (list item) (encodeList encode) := by
  intro bytes values rest read
  simp only [list, bind_eq_ok_iff] at read
  obtain ⟨count, between, countRead, valuesRead⟩ := read
  obtain ⟨rfl, valuesBytes⟩ := times_eq_ok canonical valuesRead
  rw [encodeList, List.append_assoc, ← valuesBytes]
  exact canonical_natural 8 countRead

end Binary
end StyleRules
