import Mathlib.Data.List.Forall2
import Mathlib.Tactic.SplitIfs
import StyleRules.Json.Reader

/-!
# Literals are read back

A character in a string is spelled by itself, by an escape of one letter or by the number
of its code unit.  Each spelling is read as one part that stands for the character
(`exists_part_of_escape`), so a string literal is read as its text
(`stringLiteral?_stringLiteral`).  The literal of a number is read as the number
(`number?_numberLiteral`), if a value ends before the text behind it.
-/

namespace StyleRules
namespace Json

/-! ## Strings -/

/-- Does the part stand for the character?  A control character may be given by its
number, which is that of no surrogate. -/
inductive StringPart.StandsFor : StringPart -> Char -> Prop
  | char (c : Char) : StandsFor (.char c) c
  | unit {c : Char} (control : c.toNat < 0x20) : StandsFor (.unit c.toNat) c

/-- A control character's number denotes the character, whatever follows. -/
theorem denote?_unit_cons
    {c : Char}
    (control : c.toNat < 0x20)
    (parts : List StringPart) :
    denote? (.unit c.toNat :: parts) = (denote? parts).map (c :: ·) := by
  have notHigh : isHighSurrogate c.toNat = false := by
    simp only [isHighSurrogate, Bool.and_eq_false_iff, decide_eq_false_iff_not]
    omega
  have notLow : isLowSurrogate c.toNat = false := by
    simp only [isLowSurrogate, Bool.and_eq_false_iff, decide_eq_false_iff_not]
    omega
  cases parts with
  | nil => simp [denote?, notHigh, notLow, Char.ofNat_toNat]
  | cons part parts =>
      cases part with
      | char other => simp [denote?, notHigh, notLow, Char.ofNat_toNat]
      | unit value => simp [denote?, notHigh, notLow, Char.ofNat_toNat]

theorem denote?_of_standsFor
    {parts : List StringPart}
    {text : List Char}
    (standsFor : List.Forall₂ StringPart.StandsFor parts text) :
    denote? parts = some text := by
  induction standsFor with
  | nil => rfl
  | cons first _ inductionHypothesis =>
      cases first with
      | char c => rw [denote?, inductionHypothesis]; rfl
      | unit control => rw [denote?_unit_cons control, inductionHypothesis]; rfl

theorem stringParts_quote (rest : List Char) :
    stringParts (quote :: rest) = some ([], rest) := by
  simp [stringParts, quote]

theorem stringParts_escaped
    {letter c : Char}
    (notUnit : letter ≠ 'u')
    (denotes : escaped? letter = some c)
    {rest after : List Char}
    {parts : List StringPart}
    (reads : stringParts rest = some (parts, after)) :
    stringParts (backslash :: letter :: rest) = some (.char c :: parts, after) := by
  rw [backslash, stringParts]
  · rw [denotes, reads]
    rfl
  · intro first second third fourth others isUnit
    exact absurd isUnit notUnit

theorem stringParts_unit
    {first second third fourth : Char}
    {value : Nat}
    (denotes : codeUnit? first second third fourth = some value)
    {rest after : List Char}
    {parts : List StringPart}
    (reads : stringParts rest = some (parts, after)) :
    stringParts (backslash :: 'u' :: first :: second :: third :: fourth :: rest) =
      some (.unit value :: parts, after) := by
  rw [backslash, stringParts, denotes, reads]
  rfl

theorem stringParts_char
    {c : Char}
    (notQuote : c ≠ quote)
    (notBackslash : c ≠ backslash)
    (notControl : ¬ c.toNat < 0x20)
    {rest after : List Char}
    {parts : List StringPart}
    (reads : stringParts rest = some (parts, after)) :
    stringParts (c :: rest) = some (.char c :: parts, after) := by
  rw [stringParts]
  · rw [if_neg notQuote, if_neg (by simp [notBackslash, notControl]), reads]
    rfl
  · intro first second third fourth others isBackslash
    exact absurd isBackslash notBackslash
  · intro letter others isBackslash
    exact absurd isBackslash notBackslash

/-- The four digits of a control character's number are read as the number. -/
theorem codeUnit?_hexDigits :
    ∀ value < 0x20, codeUnit? '0' '0' (hexDigit (value / 16)) (hexDigit (value % 16)) =
      some value := by
  decide

/-- A character is spelled by a letter that is read as the character, by its number or by
itself. -/
theorem escape_cases (c : Char) :
    (∃ letter, letter ≠ 'u' ∧ escaped? letter = some c ∧ escape c = [backslash, letter]) ∨
      (c.toNat < 0x20 ∧ escape c =
        [backslash, 'u', '0', '0', hexDigit (c.toNat / 16), hexDigit (c.toNat % 16)]) ∨
      (c ≠ quote ∧ c ≠ backslash ∧ ¬ c.toNat < 0x20 ∧ escape c = [c]) := by
  unfold escape
  split_ifs with isQuote isBackslash isBackspace isTab isNewline isFormFeed isReturn isControl
  · exact .inl ⟨quote, by decide, by rw [isQuote]; rfl, rfl⟩
  · exact .inl ⟨backslash, by decide, by rw [isBackslash]; rfl, rfl⟩
  · exact .inl ⟨'b', by decide, isBackspace ▸ rfl, rfl⟩
  · exact .inl ⟨'t', by decide, isTab ▸ rfl, rfl⟩
  · exact .inl ⟨'n', by decide, isNewline ▸ rfl, rfl⟩
  · exact .inl ⟨'f', by decide, isFormFeed ▸ rfl, rfl⟩
  · exact .inl ⟨'r', by decide, isReturn ▸ rfl, rfl⟩
  · exact .inr (.inl ⟨isControl, rfl⟩)
  · exact .inr (.inr ⟨isQuote, isBackslash, isControl, rfl⟩)

/-- The spelling of a character is read as one part that stands for it. -/
theorem exists_part_of_escape (c : Char) :
    ∃ part : StringPart, part.StandsFor c ∧
      ∀ rest parts after, stringParts rest = some (parts, after) ->
        stringParts (escape c ++ rest) = some (part :: parts, after) := by
  rcases escape_cases c with
    ⟨letter, notUnit, denotes, spelled⟩ | ⟨control, spelled⟩ |
      ⟨notQuote, notBackslash, notControl, spelled⟩
  · refine ⟨_, .char c, fun rest parts after reads => ?_⟩
    rw [spelled]
    exact stringParts_escaped notUnit denotes reads
  · refine ⟨_, .unit control, fun rest parts after reads => ?_⟩
    rw [spelled]
    exact stringParts_unit (codeUnit?_hexDigits c.toNat control) reads
  · refine ⟨_, .char c, fun rest parts after reads => ?_⟩
    rw [spelled]
    exact stringParts_char notQuote notBackslash notControl reads

theorem exists_parts_of_escape
    (text rest : List Char) :
    ∃ parts : List StringPart, List.Forall₂ StringPart.StandsFor parts text ∧
      stringParts (text.flatMap escape ++ quote :: rest) = some (parts, rest) := by
  induction text with
  | nil => exact ⟨[], .nil, stringParts_quote rest⟩
  | cons c text inductionHypothesis =>
      obtain ⟨parts, standsFor, reads⟩ := inductionHypothesis
      obtain ⟨part, stands, readsFirst⟩ := exists_part_of_escape c
      refine ⟨part :: parts, .cons stands standsFor, ?_⟩
      rw [List.flatMap_cons, List.append_assoc]
      exact readsFirst _ _ _ reads

/-- A string literal is read as its text, or as one that has none. -/
theorem stringLiteral?_stringLiteral
    (text : Option String)
    (rest : List Char) :
    ∃ inner, stringLiteral text ++ rest = quote :: inner ∧
      stringLiteral? inner = some (text, rest) := by
  cases text with
  | none =>
      have noSurrogatePair : codeUnit? 'd' '8' '0' '0' = some 0xD800 := by decide
      refine ⟨backslash :: 'u' :: 'd' :: '8' :: '0' :: '0' :: quote :: rest, rfl, ?_⟩
      rw [stringLiteral?, stringParts_unit noSurrogatePair (stringParts_quote rest)]
      rfl
  | some text =>
      obtain ⟨parts, standsFor, reads⟩ := exists_parts_of_escape text.toList rest
      refine ⟨text.toList.flatMap escape ++ quote :: rest, by simp [stringLiteral], ?_⟩
      rw [stringLiteral?, reads]
      simp [denote?_of_standsFor standsFor]

/-! ## Numbers -/

/-- Does a value end before the text?  It goes on with a comma or a newline, or not at
all. -/
def EndsValue (rest : List Char) : Prop :=
  ∀ c ∈ rest.head?, c = ',' ∨ c = '\n'

theorem EndsValue.noDigit
    {rest : List Char}
    (ends : EndsValue rest) :
    ∀ c ∈ rest.head?, c.isDigit = false := by
  intro c first
  rcases ends c first with rfl | rfl <;> rfl

theorem isDigit_of_mem_toDigits
    {value : Nat}
    {c : Char}
    (member : c ∈ Nat.toDigits 10 value) :
    c.isDigit = true :=
  Nat.isDigit_of_mem_toDigits (by decide) (by decide) member

theorem digitsValue_toDigits (value : Nat) :
    Text.digitsValue (Nat.toDigits 10 value) = value :=
  Nat.ofDigitChars_eq_foldl.symm.trans Nat.ofDigitChars_ten_toDigits

/-- Only zero is written with a zero in front. -/
theorem toDigits_of_head?_eq_zero
    {value : Nat}
    (begins : (Nat.toDigits 10 value).head? = some '0') :
    Nat.toDigits 10 value = ['0'] := by
  induction value using Nat.strongRecOn with
  | ind value inductionHypothesis =>
      by_cases small : value < 10
      · rw [Nat.toDigits_of_lt_base small] at begins ⊢
        exact congrArg (fun c => [c]) (Option.some.inj begins)
      · have large : 10 ≤ value := by omega
        rw [Nat.toDigits_of_base_le (by decide) large,
          List.head?_append_of_ne_nil _ Nat.toDigits_ne_nil] at begins
        have leading := inductionHypothesis (value / 10) (by omega) begins
        have isZero : value / 10 = 0 := by
          rw [← digitsValue_toDigits (value / 10), leading]
          rfl
        omega

theorem digits?_toDigits
    (value : Nat)
    {rest : List Char}
    (noDigit : ∀ c ∈ rest.head?, c.isDigit = false) :
    digits? (Nat.toDigits 10 value ++ rest) = some (Nat.toDigits 10 value, rest) := by
  have areDigits : ∀ c ∈ Nat.toDigits 10 value, c.isDigit = true :=
    fun _ => isDigit_of_mem_toDigits
  have stops : rest.takeWhile Char.isDigit = [] ∧ rest.dropWhile Char.isDigit = rest := by
    cases rest with
    | nil => exact ⟨rfl, rfl⟩
    | cons c rest => simp [noDigit c rfl]
  obtain ⟨c, others, isCons⟩ := List.exists_cons_of_ne_nil (@Nat.toDigits_ne_nil value 10)
  rw [digits?, List.takeWhile_append_of_pos areDigits, List.dropWhile_append_of_pos areDigits,
    stops.1, stops.2, List.append_nil, isCons]

/-- Digits do not begin with a sign. -/
theorem toDigits_append_ne_cons
    {c : Char}
    (noDigit : c.isDigit = false)
    (value : Nat)
    (rest others : List Char) :
    Nat.toDigits 10 value ++ rest ≠ c :: others := by
  obtain ⟨first, digits, isCons⟩ := List.exists_cons_of_ne_nil (@Nat.toDigits_ne_nil value 10)
  have isDigit : first.isDigit = true := isDigit_of_mem_toDigits (isCons ▸ List.mem_cons_self)
  intro begins
  rw [isCons, List.cons_append] at begins
  obtain rfl := (List.cons.inj begins).1
  exact absurd (isDigit.symm.trans noDigit) (by decide)

theorem minus_toDigits
    (negative : Bool)
    (value : Nat)
    (rest : List Char) :
    minus ((if negative then ['-'] else []) ++ (Nat.toDigits 10 value ++ rest)) =
      (negative, Nat.toDigits 10 value ++ rest) := by
  cases negative with
  | true => rfl
  | false =>
      rw [if_neg Bool.false_ne_true, List.nil_append, minus]
      exact toDigits_append_ne_cons (by decide) value rest

theorem signedDigits?_toDigits
    (exponent : Int)
    {rest : List Char}
    (noDigit : ∀ c ∈ rest.head?, c.isDigit = false) :
    signedDigits?
        ((if exponent < 0 then ['-'] else []) ++ (Nat.toDigits 10 exponent.natAbs ++ rest)) =
      some (exponent, rest) := by
  have reads := digits?_toDigits exponent.natAbs noDigit
  by_cases negative : exponent < 0
  · have isNegative : -(exponent.natAbs : Int) = exponent := by omega
    rw [if_pos negative, List.singleton_append, signedDigits?, reads]
    simp only [Option.bind_eq_bind, Option.bind_some, digitsValue_toDigits, Int.ofNat_eq_natCast,
      isNegative, Option.pure_def]
  · have isNatural : (exponent.natAbs : Int) = exponent := by omega
    rw [if_neg negative, List.nil_append, signedDigits?, reads]
    · simp only [Option.bind_eq_bind, Option.bind_some, digitsValue_toDigits,
        Int.ofNat_eq_natCast, isNatural, Option.pure_def]
    · exact toDigits_append_ne_cons (by decide) _ rest
    · exact toDigits_append_ne_cons (by decide) _ rest

theorem fraction?_of_endsValue
    {rest : List Char}
    (ends : EndsValue rest) :
    fraction? rest = some ([], rest) := by
  rw [fraction?]
  rintro others rfl
  exact absurd (ends '.' rfl) (by decide)

theorem exponent?_of_endsValue
    {rest : List Char}
    (ends : EndsValue rest) :
    exponent? rest = some (none, rest) := by
  cases rest with
  | nil => rfl
  | cons c others =>
      have noExponent : ¬ (c = 'e' ∨ c = 'E') := by
        rcases ends c rfl with rfl | rfl <;> decide
      rw [exponent?, if_neg noExponent]

/-- Digits without a fraction are read as a natural number, unless they have a sign or an
exponent. -/
theorem number?_toDigits
    (negative : Bool)
    (value : Nat)
    {exponent : Option Int}
    {after rest : List Char}
    (noDigit : ∀ c ∈ after.head?, c.isDigit = false)
    (noFraction : fraction? after = some ([], after))
    (readsExponent : exponent? after = some (exponent, rest)) :
    number? ((if negative then ['-'] else []) ++ (Nat.toDigits 10 value ++ after)) =
      some
        (if negative = false ∧ exponent = none then .natural value
          else .decimal negative value (exponent.getD 0), rest) := by
  have noZero : ¬ ((Nat.toDigits 10 value).head? = some '0' ∧ Nat.toDigits 10 value ≠ ['0']) :=
    fun both => both.2 (toDigits_of_head?_eq_zero both.1)
  rw [number?, minus_toDigits]
  simp only [digits?_toDigits value noDigit, Option.bind_eq_bind, Option.bind_some, if_neg noZero,
    noFraction, readsExponent, true_and, List.append_nil, digitsValue_toDigits, List.length_nil]
  split
  · rfl
  · rw [Int.ofNat_zero, Int.sub_zero]
    rfl

/-- The literal of a number is read as the number. -/
theorem number?_numberLiteral
    (number : JsonNumber)
    {rest : List Char}
    (ends : EndsValue rest) :
    number? (numberLiteral number ++ rest) = some (number, rest) := by
  cases number with
  | natural value =>
      exact number?_toDigits false value ends.noDigit (fraction?_of_endsValue ends)
        (exponent?_of_endsValue ends)
  | decimal negative digits exponent =>
      have readsExponent :
          exponent? ('e' :: ((if exponent < 0 then ['-'] else []) ++
              (Nat.toDigits 10 exponent.natAbs ++ rest))) =
            some (some exponent, rest) := by
        rw [exponent?, if_pos (.inl rfl), signedDigits?_toDigits exponent ends.noDigit]
        rfl
      have reads := number?_toDigits negative digits (by simp) rfl readsExponent
      simpa [numberLiteral] using reads

end Json
end StyleRules
