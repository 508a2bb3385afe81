/-!
# Sets of code points

A set of code points is a list of closed ranges, ascending and apart. Membership reads the list
from the left and stops at the first range that does not lie below the code point.
-/

namespace PocketSql.Text

/-- Closed ranges of code points. -/
abbrev Ranges := List (Nat × Nat)

namespace Ranges

/-- Membership of a code point in ascending ranges. -/
def has : Ranges → Nat → Bool
  | [], _ => false
  | (low, high) :: rest, n => if n < low then false else if n ≤ high then true else has rest n

/-- Each range is inhabited and ends before the next one starts. -/
def ascending : Ranges → Bool
  | [] => true
  | [(low, high)] => low ≤ high
  | (low, high) :: (low', high') :: rest =>
    low ≤ high && high < low' && ascending ((low', high') :: rest)

@[simp] theorem has_nil (n : Nat) : has [] n = false := rfl

/-- A code point found lies in one of the ranges. -/
theorem exists_of_has {rs : Ranges} {n : Nat} (h : has rs n = true) :
    ∃ r ∈ rs, r.1 ≤ n ∧ n ≤ r.2 := by
  induction rs with
  | nil => simp at h
  | cons r rest ih =>
    unfold has at h
    split at h
    · simp at h
    · split at h
      · exact ⟨r, by simp, by omega, by omega⟩
      · obtain ⟨r', hr', hn⟩ := ih h
        exact ⟨r', by simp [hr'], hn⟩

end Ranges
end PocketSql.Text
