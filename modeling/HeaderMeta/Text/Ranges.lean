/-!
# Sets of code points

A Unicode property is kept as its table of closed ranges of code points, in increasing order and
apart from one another. `Ranges.contains` looks a code point up and stops at the first range that
lies above it; on a table in order that loses nothing (`Ranges.contains_iff`).
-/

namespace HeaderMeta.Text

/-- Closed ranges of code points, lowest first. -/
abbrev Ranges := List (Nat × Nat)

namespace Ranges

/-- Whether a code point lies in one of the ranges. -/
def contains : Ranges → Nat → Bool
  | [], _ => false
  | (lo, hi) :: rest, n => if n < lo then false else n ≤ hi || contains rest n

/-- Every range is inhabited and lies above the one before it. -/
def Sorted : Ranges → Bool
  | [] => true
  | [(lo, hi)] => lo ≤ hi
  | (lo, hi) :: (lo', hi') :: rest => lo ≤ hi && hi < lo' && Sorted ((lo', hi') :: rest)

variable {r : Ranges} {n : Nat}

theorem sorted_tail {p : Nat × Nat} (h : Sorted (p :: r) = true) : Sorted r = true := by
  match r with
  | [] => rfl
  | _ :: _ => simp only [Sorted, Bool.and_eq_true] at h; exact h.2

/-- In a sorted table no later range reaches below the first one. -/
theorem le_of_mem {lo hi : Nat} (h : Sorted ((lo, hi) :: r) = true) {p : Nat × Nat}
    (hp : p ∈ r) : lo ≤ p.1 := by
  induction r generalizing lo hi with
  | nil => cases hp
  | cons q r ih =>
    obtain ⟨lo', hi'⟩ := q
    simp only [Sorted, Bool.and_eq_true, decide_eq_true_eq] at h
    rcases List.mem_cons.1 hp with rfl | hp
    · dsimp only; omega
    · have := ih h.2 hp; omega

theorem contains_iff (h : r.Sorted = true) :
    r.contains n = true ↔ ∃ p ∈ r, p.1 ≤ n ∧ n ≤ p.2 := by
  induction r with
  | nil => simp [contains]
  | cons p r ih =>
    obtain ⟨lo, hi⟩ := p
    unfold contains
    split
    · rename_i hlt
      simp only [Bool.false_eq_true, false_iff, not_exists, not_and, List.mem_cons]
      rintro p (rfl | hp) hle
      · dsimp only at hle; omega
      · have := le_of_mem h hp; omega
    · rename_i hlt
      simp [ih (sorted_tail h), Nat.le_of_not_lt hlt]

end Ranges

end HeaderMeta.Text
