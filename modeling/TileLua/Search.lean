/-! Bounded search for the least index that passes a test.
Naming loops of the compiler ("try the next candidate until one is free") are instances of it.
-/

namespace TileLua.Search

/-- The least index from `start` that passes `test`, looking at `budget` indices at most;
`start + budget` when none of them passes.
-/
def leastFrom (test : Nat → Bool) : (budget start : Nat) → Nat
  | 0, start => start
  | budget + 1, start => if test start then start else leastFrom test budget (start + 1)

/-- The least index that passes `test`, or `bound` when none below `bound` does. -/
def least (test : Nat → Bool) (bound : Nat) : Nat :=
  leastFrom test bound 0

/-- The search stays within its range, by induction on the budget. -/
theorem leastFrom_le (test : Nat → Bool) (budget start : Nat)
    : leastFrom test budget start ≤ start + budget := by
  induction budget generalizing start with
  | zero => simp [leastFrom]
  | succ budget ih =>
      simp only [leastFrom]
      split
      · omega
      · have bound := ih (start + 1)
        omega

/-- Every index the search passed over fails the test, by induction on the budget. -/
theorem eq_false_of_lt_leastFrom (test : Nat → Bool) (budget start index : Nat)
    (lower : start ≤ index) (upper : index < leastFrom test budget start)
    : test index = false := by
  induction budget generalizing start with
  | zero =>
      simp only [leastFrom] at upper
      omega
  | succ budget ih =>
      simp only [leastFrom] at upper
      split at upper
      · omega
      · rename_i failed
        rcases Nat.eq_or_lt_of_le lower with same | later
        · subst same
          simpa using failed
        · exact ih (start + 1) later upper

/-- A search that stops before its bound stops at an index that passes, by induction on
the budget.
-/
theorem leastFrom_passes (test : Nat → Bool) (budget start : Nat)
    (early : leastFrom test budget start < start + budget)
    : test (leastFrom test budget start) = true := by
  induction budget generalizing start with
  | zero =>
      simp only [leastFrom] at early
      omega
  | succ budget ih =>
      simp only [leastFrom] at early ⊢
      split
      · assumption
      · rename_i failed
        simp only [failed] at early
        exact ih (start + 1) (by simp at early; omega)

/-- The least passing index never exceeds its bound. -/
theorem least_le (test : Nat → Bool) (bound : Nat) : least test bound ≤ bound := by
  simpa [least] using leastFrom_le test bound 0

/-- Every index below the least passing one fails the test. -/
theorem eq_false_of_lt_least {test : Nat → Bool} {bound index : Nat}
    (below : index < least test bound)
    : test index = false :=
  eq_false_of_lt_leastFrom test bound 0 index (Nat.zero_le _) below

/-- A result below the bound passes the test. -/
theorem least_passes {test : Nat → Bool} {bound : Nat} (early : least test bound < bound)
    : test (least test bound) = true :=
  leastFrom_passes test bound 0 (by simpa [least] using early)

end TileLua.Search
