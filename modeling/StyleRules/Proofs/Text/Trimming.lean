import StyleRules.Proofs.Text.Endings
import StyleRules.Text.Blank
import Mathlib.Data.List.DropRight

/-!
# Trimming texts and their lines

A text is what trimming leaves of it, with blanks around it (`exists_blanks_around`), and
that neither begins nor ends with a blank, so that trimming it again changes nothing
(`trimChars_trimChars`).  Texts that are joined by newlines are the lines of what they are
joined to (`lines_intercalate`), except that an empty one at the end is none and that each
may lose a carriage return at its end (`map_trimChars_lines_intercalate`).
-/

namespace StyleRules
namespace Text

theorem trimChars_eq (cs : List Char) :
    trimChars cs = (cs.dropWhile isBlank).rdropWhile isBlank :=
  rfl

/-- A text is blanks and then what does not begin with a blank. -/
theorem exists_blanks_in_front (cs : List Char) :
    ∃ lead rest,
      cs = lead ++ rest ∧ (∀ c ∈ lead, isBlank c = true) ∧ ∀ c ∈ rest.head?, isBlank c = false := by
  refine ⟨cs.takeWhile isBlank, cs.dropWhile isBlank, List.takeWhile_append_dropWhile.symm,
    fun _ => List.mem_takeWhile_imp, ?_⟩
  intro c isFirst
  have beginsUnblank := List.head?_dropWhile_not isBlank cs
  rw [isFirst] at beginsUnblank
  exact beginsUnblank

/-- A text is what trimming leaves of it, with blanks in front of it and behind it. -/
theorem exists_blanks_around (cs : List Char) :
    ∃ lead trail,
      cs = lead ++ (trimChars cs ++ trail) ∧
        (∀ c ∈ lead, isBlank c = true) ∧ (∀ c ∈ trail, isBlank c = true) := by
  refine ⟨cs.takeWhile isBlank, (cs.dropWhile isBlank).rtakeWhile isBlank, ?_,
    fun _ => List.mem_takeWhile_imp, fun _ => List.mem_rtakeWhile_imp⟩
  rw [trimChars_eq, List.rdropWhile_append_rtakeWhile, List.takeWhile_append_dropWhile]

theorem mem_of_mem_trimChars
    {c : Char}
    {cs : List Char}
    (member : c ∈ trimChars cs) :
    c ∈ cs :=
  (List.dropWhile_suffix isBlank).mem ((List.rdropWhile_prefix isBlank _).mem member)

/-- What trimming leaves does not begin with a blank. -/
theorem isBlank_eq_false_of_head?_trimChars
    {c : Char}
    {cs : List Char}
    (isFirst : (trimChars cs).head? = some c) :
    isBlank c = false := by
  obtain ⟨trail, splits⟩ := List.rdropWhile_prefix isBlank (cs.dropWhile isBlank)
  have beginsUnblank := List.head?_dropWhile_not isBlank cs
  rw [← splits, List.head?_append, ← trimChars_eq, isFirst] at beginsUnblank
  exact beginsUnblank

/-- What trimming leaves does not end with a blank. -/
theorem isBlank_eq_false_of_getLast?_trimChars
    {c : Char}
    {cs : List Char}
    (isLast : (trimChars cs).getLast? = some c) :
    isBlank c = false := by
  rw [trimChars, List.getLast?_reverse] at isLast
  have endsUnblank := List.head?_dropWhile_not isBlank (cs.dropWhile isBlank).reverse
  rw [isLast] at endsUnblank
  exact endsUnblank

/-- Trimming a second time changes nothing. -/
theorem trimChars_trimChars (cs : List Char) :
    trimChars (trimChars cs) = trimChars cs := by
  have frontKept : (trimChars cs).dropWhile isBlank = trimChars cs := by
    cases trimmed : trimChars cs with
    | nil => rfl
    | cons c rest =>
        have notBlank : isBlank c = false :=
          isBlank_eq_false_of_head?_trimChars (by rw [trimmed, List.head?_cons])
        exact List.dropWhile_cons_of_neg (by simp [notBlank])
  rw [trimChars_eq (trimChars cs), frontKept, trimChars_eq, List.rdropWhile_idempotent]

/-- Blanks cannot stand in front of a text that begins with another character. -/
theorem eq_nil_of_blanks_append
    {blanks rest others : List Char}
    {c : Char}
    (areBlank : ∀ c ∈ blanks, isBlank c = true)
    (notBlank : isBlank c = false)
    (same : blanks ++ rest = c :: others) :
    blanks = [] := by
  cases blanks with
  | nil => rfl
  | cons first blanks =>
      obtain ⟨rfl, _⟩ := List.cons.inj same
      rw [areBlank first List.mem_cons_self] at notBlank
      exact absurd notBlank (by simp)

theorem trimChars_blanks_append
    {blanks : List Char}
    (rest : List Char)
    (areBlank : ∀ c ∈ blanks, isBlank c = true) :
    trimChars (blanks ++ rest) = trimChars rest := by
  rw [trimChars, List.dropWhile_append_of_pos areBlank, trimChars]

/-- Trimming takes the blanks away that stand around a text. -/
theorem trimChars_of_blanks_around
    {lead core trail : List Char}
    (leadBlank : ∀ c ∈ lead, isBlank c = true)
    (trailBlank : ∀ c ∈ trail, isBlank c = true)
    (beginsUnblank : ∀ c ∈ core.head?, isBlank c = false)
    (endsUnblank : ∀ c ∈ core.getLast?, isBlank c = false) :
    trimChars (lead ++ (core ++ trail)) = core := by
  rw [trimChars_blanks_append _ leadBlank, trimChars]
  cases core with
  | nil =>
      rw [List.nil_append, List.dropWhile_eq_nil_iff.mpr trailBlank]
      rfl
  | cons first rest =>
      have firstUnblank : ¬ isBlank first = true := by simp [beginsUnblank first rfl]
      have trailReversed : ∀ c ∈ trail.reverse, isBlank c = true :=
        fun c member => trailBlank c (List.mem_reverse.mp member)
      have coreKept : (first :: rest).reverse.dropWhile isBlank = (first :: rest).reverse := by
        rw [← List.head?_reverse] at endsUnblank
        generalize (first :: rest).reverse = reversed at endsUnblank
        cases reversed with
        | nil => rfl
        | cons last others => exact List.dropWhile_cons_of_neg (by simp [endsUnblank last rfl])
      rw [List.cons_append, List.dropWhile_cons_of_neg firstUnblank, ← List.cons_append,
        List.reverse_append, List.dropWhile_append_of_pos trailReversed, coreKept,
        List.reverse_reverse]

theorem trimChars_append_blanks
    {blanks : List Char}
    (cs : List Char)
    (areBlank : ∀ c ∈ blanks, isBlank c = true) :
    trimChars (cs ++ blanks) = trimChars cs := by
  obtain ⟨lead, trail, splits, leadBlank, trailBlank⟩ := exists_blanks_around cs
  have wholeSplits : cs ++ blanks = lead ++ (trimChars cs ++ (trail ++ blanks)) := by
    rw [← List.append_assoc (trimChars cs), ← List.append_assoc lead, ← splits]
  rw [wholeSplits]
  exact trimChars_of_blanks_around leadBlank (List.forall_mem_append.mpr ⟨trailBlank, areBlank⟩)
    (fun _ => isBlank_eq_false_of_head?_trimChars)
    (fun _ => isBlank_eq_false_of_getLast?_trimChars)

/-- Texts that are joined by newlines are the lines of the joined text; one at the end that
is empty is missing. -/
theorem lines_intercalate
    {texts : List (List Char)}
    (noNewline : ∀ text ∈ texts, '\n' ∉ text)
    (noReturn : ∀ text ∈ texts, text.getLast? ≠ some '\r') :
    texts = lines (['\n'].intercalate texts) ∨
      texts = lines (['\n'].intercalate texts) ++ [[]] := by
  induction texts with
  | nil => exact .inl rfl
  | cons text texts inductionHypothesis =>
      obtain ⟨headNoNewline, tailNoNewline⟩ := List.forall_mem_cons.mp noNewline
      obtain ⟨headNoReturn, tailNoReturn⟩ := List.forall_mem_cons.mp noReturn
      cases texts with
      | nil =>
          rw [List.intercalate_singleton]
          by_cases isEmpty : text = []
          · subst isEmpty
            exact .inr rfl
          · rw [lines_of_notMem headNoNewline isEmpty]
            exact .inl rfl
      | cons next texts =>
          rw [List.intercalate_cons_cons, List.append_assoc, List.singleton_append,
            lines_append_newline _ headNoNewline headNoReturn, List.cons_append,
            List.cons_inj_right, List.cons_inj_right]
          exact inductionHypothesis tailNoNewline tailNoReturn

/-- A text in front of a newline is split off.  It may lose a carriage return, which is a
blank. -/
theorem exists_lines_append_newline
    {line : List Char}
    (rest : List Char)
    (noNewline : '\n' ∉ line) :
    ∃ first, lines (line ++ '\n' :: rest) = first :: lines rest ∧
      trimChars first = trimChars line := by
  by_cases endsReturn : line.getLast? = some '\r'
  · obtain ⟨front, rfl⟩ := List.getLast?_eq_some_iff.mp endsReturn
    rw [List.mem_append, not_or] at noNewline
    rw [List.append_assoc, List.singleton_append, lines_append_returnNewline rest noNewline.1]
    refine ⟨front, rfl, (trimChars_append_blanks front ?_).symm⟩
    rw [List.forall_mem_singleton]
    decide
  · exact ⟨line, lines_append_newline rest noNewline endsReturn, rfl⟩

/-- Up to the blanks around them, the same holds of all texts that have no newline. -/
theorem map_trimChars_lines_intercalate
    {texts : List (List Char)}
    (noNewline : ∀ text ∈ texts, '\n' ∉ text) :
    texts.map trimChars = (lines (['\n'].intercalate texts)).map trimChars ∨
      texts.map trimChars = (lines (['\n'].intercalate texts)).map trimChars ++ [[]] := by
  induction texts with
  | nil => exact .inl rfl
  | cons text texts inductionHypothesis =>
      obtain ⟨headNoNewline, tailNoNewline⟩ := List.forall_mem_cons.mp noNewline
      cases texts with
      | nil =>
          rw [List.intercalate_singleton]
          by_cases isEmpty : text = []
          · subst isEmpty
            exact .inr rfl
          · rw [lines_of_notMem headNoNewline isEmpty]
            exact .inl rfl
      | cons next texts =>
          obtain ⟨first, split, trimmed⟩ :=
            exists_lines_append_newline (['\n'].intercalate (next :: texts)) headNoNewline
          rw [List.intercalate_cons_cons, List.append_assoc, List.singleton_append, split]
          rcases inductionHypothesis tailNoNewline with same | lastMissing
          · exact .inl (congrArg₂ List.cons trimmed.symm same)
          · exact .inr (congrArg₂ List.cons trimmed.symm lastMissing)

end Text
end StyleRules
