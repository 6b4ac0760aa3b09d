/-!
# Decoding UTF-8

`Utf8.decode` decodes any bytes: a longest start of a character's form that the next byte does not
continue stands for one replacement character. `Utf8.tails` is the table of well-formed sequences:
for each first byte the ranges of the bytes that follow it, which leave out overlong forms,
surrogates, and what lies beyond the last code point.
-/

namespace HeaderMeta.Text.Utf8

/-- Stands for bytes that are no character. -/
def replacement : Char :=
  '\ufffd'

/-- The ranges of the bytes behind a first byte; none if no character starts with it. -/
def tails (b : UInt8) : Option (List (UInt8 × UInt8)) :=
  if b ≤ 0x7f then some []
  else if b < 0xc2 then none
  else if b ≤ 0xdf then some [(0x80, 0xbf)]
  else if b = 0xe0 then some [(0xa0, 0xbf), (0x80, 0xbf)]
  else if b = 0xed then some [(0x80, 0x9f), (0x80, 0xbf)]
  else if b ≤ 0xef then some [(0x80, 0xbf), (0x80, 0xbf)]
  else if b = 0xf0 then some [(0x90, 0xbf), (0x80, 0xbf), (0x80, 0xbf)]
  else if b ≤ 0xf3 then some [(0x80, 0xbf), (0x80, 0xbf), (0x80, 0xbf)]
  else if b = 0xf4 then some [(0x80, 0x8f), (0x80, 0xbf), (0x80, 0xbf)]
  else none

/-- The bits that a first byte adds to the code point; `n` bytes follow it. -/
def leadBits (b : UInt8) (n : Nat) : Nat :=
  match n with
  | 0 => b.toNat
  | n + 1 => b.toNat % Nat.pow 2 (5 - n)

/-- Reads the bytes that must follow, up to the first that is not in its range. -/
def follow (value : Nat) : List (UInt8 × UInt8) → List UInt8 → Option Nat × List UInt8
  | [], bs => (some value, bs)
  | _ :: _, [] => (none, [])
  | (lo, hi) :: ranges, b :: bs =>
    if lo ≤ b ∧ b ≤ hi then follow (value * 64 + b.toNat % 64) ranges bs else (none, b :: bs)

/-- Reads one character behind its first byte, or what there is of it. -/
def step (b : UInt8) (bs : List UInt8) : Char × List UInt8 :=
  match tails b with
  | none => (replacement, bs)
  | some ranges =>
    match follow (leadBits b ranges.length) ranges bs with
    | (some n, r) => (Char.ofNat n, r)
    | (none, r) => (replacement, r)

theorem length_follow_le (value : Nat) (ranges : List (UInt8 × UInt8)) (bs : List UInt8) :
    (follow value ranges bs).2.length ≤ bs.length := by
  fun_induction follow value ranges bs with
  | case1 => exact Nat.le_refl _
  | case2 => exact Nat.le_refl _
  | case3 _ _ _ _ _ _ _ ih => exact Nat.le_succ_of_le ih
  | case4 => exact Nat.le_refl _

theorem length_step_le (b : UInt8) (bs : List UInt8) : (step b bs).2.length ≤ bs.length := by
  unfold step
  split
  · exact Nat.le_refl _
  · rename_i ranges _
    have := length_follow_le (leadBits b ranges.length) ranges bs
    split <;> simp_all

/-- The text of a list of bytes. -/
def decode : List UInt8 → List Char
  | [] => []
  | b :: bs => (step b bs).1 :: decode (step b bs).2
termination_by bs => bs.length
decreasing_by
  have := length_step_le b bs
  simp only [List.length_cons]
  omega

/-- The bytes of a text. -/
def encode (s : List Char) : List UInt8 :=
  s.flatMap String.utf8EncodeChar

end HeaderMeta.Text.Utf8
