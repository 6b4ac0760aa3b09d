/-!
# Reading items off a text

A `Reader` reads one item off the front of a text and gives the rest, which is always shorter.
`Reader.scan` goes through a text from left to right: where an item can be read it is kept and the
scan goes on behind it, elsewhere one character is passed over.
-/

namespace HeaderMeta.Text

/-- Reads one item off the front of a text, using up at least one character. -/
structure Reader (α : Type) where
  read? : List Char → Option (α × List Char)
  shortens {s r : List Char} {a : α} : read? s = some (a, r) → r.length < s.length

namespace Reader

variable {α : Type}

/-- The items of a text that do not overlap, leftmost first. -/
def scan (R : Reader α) : List Char → List α
  | [] => []
  | c :: s =>
    match _h : R.read? (c :: s) with
    | some (a, r) => a :: R.scan r
    | none => R.scan s
termination_by s => s.length
decreasing_by
  · exact R.shortens _h
  · simp

theorem scan_of_read? {R : Reader α} {s r : List Char} {a : α} (h : R.read? s = some (a, r)) :
    R.scan s = a :: R.scan r := by
  cases s with
  | nil => exact absurd (R.shortens h) (by simp)
  | cons c s => rw [scan]; split <;> simp_all

theorem scan_cons_of_none {R : Reader α} {c : Char} {s : List Char}
    (h : R.read? (c :: s) = none) : R.scan (c :: s) = R.scan s := by
  rw [scan]; split <;> simp_all

end Reader

end HeaderMeta.Text
