/-!
# Hexadecimal digits

`Hex.ofNat` writes a number without leading zeros in lower case; `Hex.value?` reads one digit in
either case.
-/

namespace HeaderMeta.Text.Hex

/-- The hexadecimal digits of a number. -/
def ofNat (n : Nat) : List Char :=
  Nat.toDigits 16 n

/-- The value of a digit. -/
def value? (c : Char) : Option Nat :=
  if '0' ≤ c ∧ c ≤ '9' then some (c.toNat - '0'.toNat)
  else if 'a' ≤ c ∧ c ≤ 'f' then some (c.toNat - 'a'.toNat + 10)
  else if 'A' ≤ c ∧ c ≤ 'F' then some (c.toNat - 'A'.toNat + 10)
  else none

theorem value?_digitChar {n : Nat} (h : n < 16) : value? n.digitChar = some n := by
  have key : ∀ n ∈ List.range 16, value? n.digitChar = some n := by decide
  exact key n (List.mem_range.2 h)

end HeaderMeta.Text.Hex
