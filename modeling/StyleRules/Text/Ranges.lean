/-!
# Ranges of code points

A character class of the Unicode standard is given by the closed ranges of its
code points, in ascending order.  Looking a code point up walks the ranges and
stops at the first one that begins above it; for ascending ranges this is
membership in one of them (`contains_eq_true_iff`).
-/

namespace StyleRules
namespace Text

/-- Closed ranges of code points, each given by its first and its last member,
in ascending order. -/
abbrev CodeRanges := List (Nat × Nat)

namespace CodeRanges

/-- Membership in ascending ranges. -/
def contains : CodeRanges -> Nat -> Bool
  | [], _ => false
  | (first, last) :: ranges, code =>
      if code < first then false
      else if code ≤ last then true
      else contains ranges code

/-- Does every range begin above `bound`, and none before the end of the one
before it? -/
def ascendingAbove (bound : Nat) : CodeRanges -> Bool
  | [] => true
  | (first, last) :: ranges =>
      decide (bound < first) && decide (first ≤ last) && ascendingAbove last ranges

/-- Ranges that ascend above a bound lie above it. -/
theorem lt_of_ascendingAbove
    {bound : Nat}
    {ranges : CodeRanges}
    (ascending : ascendingAbove bound ranges = true) :
    ∀ range ∈ ranges, bound < range.1 := by
  induction ranges generalizing bound with
  | nil => simp
  | cons head ranges inductionHypothesis =>
      obtain ⟨first, last⟩ := head
      simp only [ascendingAbove, Bool.and_eq_true, decide_eq_true_eq] at ascending
      obtain ⟨⟨boundBelow, nonempty⟩, tailAscending⟩ := ascending
      intro range rangeMember
      rcases List.mem_cons.mp rangeMember with rfl | tailMember
      · exact boundBelow
      · have := inductionHypothesis tailAscending range tailMember
        omega

/-- Looking up in ascending ranges finds exactly the code points that lie in
one of them. -/
theorem contains_eq_true_iff
    {bound : Nat}
    {ranges : CodeRanges}
    (ascending : ascendingAbove bound ranges = true)
    (code : Nat) :
    contains ranges code = true ↔
      ∃ range ∈ ranges, range.1 ≤ code ∧ code ≤ range.2 := by
  induction ranges generalizing bound with
  | nil => simp [contains]
  | cons head ranges inductionHypothesis =>
      obtain ⟨first, last⟩ := head
      simp only [ascendingAbove, Bool.and_eq_true, decide_eq_true_eq] at ascending
      obtain ⟨_, tailAscending⟩ := ascending
      have tailAbove := lt_of_ascendingAbove tailAscending
      by_cases belowFirst : code < first
      · simp only [contains, belowFirst, if_true, Bool.false_eq_true, false_iff]
        rintro ⟨range, rangeMember, atLeast, _⟩
        rcases List.mem_cons.mp rangeMember with rfl | tailMember
        · simp at atLeast
          omega
        · have := tailAbove range tailMember
          omega
      · by_cases atMostLast : code ≤ last
        · simp only [contains, belowFirst, atMostLast, if_false, if_true, true_iff]
          exact ⟨(first, last), List.mem_cons_self, by simp; omega⟩
        · simp only [contains, belowFirst, atMostLast, if_false]
          rw [inductionHypothesis tailAscending]
          simp [atMostLast]

end CodeRanges
end Text
end StyleRules
