/-!
# Sets of code points as sorted ranges

A property of characters is given as the list of the closed ranges of code points that
have it, in increasing order. Membership walks the list and stops at the first range
that begins beyond the code point.
-/

namespace Sequitur.Text

/-- A closed range of code points, first and last. -/
abbrev CodeRange := Nat × Nat

/-- A code point is in a sorted list of ranges when one of them holds it. -/
def inRanges : List CodeRange → Nat → Bool
  | [], _ => false
  | (first, last) :: ranges, code =>
      if code < first then false
      else if code ≤ last then true
      else inRanges ranges code

/-- Membership names a range of the list that holds the code point. -/
theorem exists_range_of_inRanges {ranges : List CodeRange} {code : Nat}
    (h : inRanges ranges code = true) :
    ∃ range ∈ ranges, range.1 ≤ code ∧ code ≤ range.2 := by
  induction ranges with
  | nil => simp [inRanges] at h
  | cons range ranges ih =>
      rw [inRanges] at h
      split at h
      · simp at h
      · rename_i hfirst
        split at h
        · rename_i hlast
          exact ⟨range, by simp, by omega, hlast⟩
        · obtain ⟨found, hmem, hin⟩ := ih h
          exact ⟨found, by simp [hmem], hin⟩

end Sequitur.Text
