import HeaderMeta.Manifest.Reader
import HeaderMeta.Text.Split

/-!
# Numbers of JSON text

A manifest holds no numbers, but a text that has one where something else belongs is told apart by
the number: it may be no JSON, end too early, or be too large for a binary64 value.
`Number.read` reads the digits. `Number.isTooLarge` decides the range: as many leading digits as fit
64 bits are taken, rounded to 53 bits, and multiplied by the power of ten, rounded likewise.
-/

namespace HeaderMeta.Manifest

open Text

/-- The digits of a number; its sign does not matter here. -/
structure Number where
  whole : List Char
  fraction : List Char
  /-- Whether the exponent is negative. -/
  shrinks : Bool
  exponent : List Char

namespace Number

/-- Reads the digits that must follow a point or an exponent's mark. -/
def someDigits (s : List Char) : Except Problem (List Char × List Char) :=
  match run Char.isDigit s, s with
  | ([], _), [] => .error .cutShort
  | ([], _), _ => .error .malformed
  | (ds, r), _ => .ok (ds, r)

/-- Reads the digits before the point: a zero stands alone. -/
def readWhole (s : List Char) : Except Problem (List Char × List Char) :=
  match someDigits s with
  | .error e => .error e
  | .ok (ds, r) => if ds.head? = some '0' ∧ ds ≠ ['0'] then .error .malformed else .ok (ds, r)

/-- Reads the digits behind the point, if there is one. -/
def readFraction : List Char → Except Problem (List Char × List Char)
  | '.' :: s => someDigits s
  | s => .ok ([], s)

/-- Reads the sign of an exponent. -/
def readSign : List Char → Bool × List Char
  | '+' :: s => (false, s)
  | '-' :: s => (true, s)
  | s => (false, s)

/-- Reads the exponent, if there is one. -/
def readExponent : List Char → Except Problem ((Bool × List Char) × List Char)
  | c :: s =>
    if c = 'e' ∨ c = 'E' then
      match someDigits (readSign s).2 with
      | .ok (ds, r) => .ok (((readSign s).1, ds), r)
      | .error e => .error e
    else .ok ((false, []), c :: s)
  | [] => .ok ((false, []), [])

/-- Reads a number from behind its sign. -/
def readUnsigned (s : List Char) : Except Problem (Number × List Char) := do
  let (whole, s) ← readWhole s
  let (fraction, s) ← readFraction s
  let ((shrinks, exponent), s) ← readExponent s
  return (⟨whole, fraction, shrinks, exponent⟩, s)

/-- Reads a number. -/
def read : List Char → Except Problem (Number × List Char)
  | '-' :: s => readUnsigned s
  | s => readUnsigned s

/-- The number that digits stand for. -/
def ofDigits (ds : List Char) : Nat :=
  ds.foldl (fun n d => n * 10 + (d.toNat - '0'.toNat)) 0

/-- Appends digits to a number as long as it stays below 2^64, and counts them. -/
def absorb (n : Nat) : List Char → Nat × Nat
  | [] => (n, 0)
  | d :: ds =>
    let m := n * 10 + (d.toNat - '0'.toNat)
    if m < Nat.pow 2 64 then
      let (k, taken) := absorb m ds
      (k, taken + 1)
    else (n, 0)

/-- The nearest number with 53 significant bits; of two, the one whose last bit is zero. -/
def round53 (n : Nat) : Nat :=
  let shift := n.log2 + 1 - 53
  let unit := Nat.pow 2 shift
  let down := n / unit
  let rest := n % unit
  (if unit < 2 * rest ∨ unit = 2 * rest ∧ down % 2 = 1 then down + 1 else down) * unit

/-- Whether the number has no finite binary64 value. -/
def isTooLarge (n : Number) : Bool :=
  let (m₀, taken₀) := absorb 0 n.whole
  let (m, taken) := absorb m₀ n.fraction
  let written := ofDigits n.exponent
  let scale : Int := (n.whole.length - taken₀ : Nat) - taken
  let power : Int := if n.shrinks then scale - written else scale + written
  m ≠ 0 && 0 ≤ power &&
    (308 < power || Nat.pow 2 1024 - Nat.pow 2 970 ≤ round53 m * round53 (Nat.pow 10 power.toNat))

/-- What is wrong with a number that stands where something else belongs. -/
def problem (s : List Char) : Problem :=
  match read s with
  | .error e => e
  | .ok (n, _) => if n.isTooLarge then .malformed else .wrongShape

/-- Passes over a number; here the end of the text is no excuse. -/
def pass (s : List Char) : Except Problem (List Char) :=
  match read s with
  | .error _ => .error .malformed
  | .ok (_, r) => .ok r

theorem length_lt_of_someDigits {s ds r : List Char} (h : someDigits s = .ok (ds, r)) :
    r.length < s.length := by
  unfold someDigits at h
  split at h
  · simp at h
  · simp at h
  · rename_i ds' r' hne hs hrun
    simp only [Except.ok.injEq, Prod.mk.injEq] at h
    obtain ⟨rfl, rfl⟩ := h
    obtain ⟨rfl, -, -⟩ := run_eq_iff.1 hrun
    cases ds' with
    | nil => exact absurd rfl hne
    | cons d ds => simp only [List.cons_append, List.length_cons, List.length_append]; omega

theorem length_le_of_readFraction {s ds r : List Char} (h : readFraction s = .ok (ds, r)) :
    r.length ≤ s.length := by
  unfold readFraction at h
  split at h
  · have := length_lt_of_someDigits h
    simp only [List.length_cons]
    omega
  · simp only [Except.ok.injEq, Prod.mk.injEq] at h
    simp [h.2]

theorem length_readSign_le (s : List Char) : (readSign s).2.length ≤ s.length := by
  unfold readSign
  split <;> simp

theorem length_le_of_readExponent {s r : List Char} {e : Bool × List Char}
    (h : readExponent s = .ok (e, r)) : r.length ≤ s.length := by
  unfold readExponent at h
  split at h
  · rename_i c t
    split at h
    · split at h
      · rename_i hd
        have h₁ := length_lt_of_someDigits hd
        have h₂ := length_readSign_le t
        simp only [Except.ok.injEq, Prod.mk.injEq] at h
        obtain ⟨-, rfl⟩ := h
        simp only [List.length_cons]
        omega
      · simp at h
    · simp only [Except.ok.injEq, Prod.mk.injEq] at h
      simp [← h.2]
  · simp only [Except.ok.injEq, Prod.mk.injEq] at h
    simp [← h.2]

theorem length_lt_of_readWhole {s ds r : List Char} (h : readWhole s = .ok (ds, r)) :
    r.length < s.length := by
  unfold readWhole at h
  split at h
  · simp at h
  · rename_i hd
    split at h
    · simp at h
    · simp only [Except.ok.injEq, Prod.mk.injEq] at h
      obtain ⟨-, rfl⟩ := h
      exact length_lt_of_someDigits hd

theorem length_lt_of_readUnsigned {s r : List Char} {n : Number}
    (h : readUnsigned s = .ok (n, r)) : r.length < s.length := by
  simp only [readUnsigned, bind_eq_ok_iff, Prod.exists, pure, Except.pure, Except.ok.injEq,
    Prod.mk.injEq] at h
  obtain ⟨w, s₁, h₁, f, s₂, h₂, b, e, s₃, h₃, -, rfl⟩ := h
  have h₁ := length_lt_of_readWhole h₁
  have h₂ := length_le_of_readFraction h₂
  have h₃ := length_le_of_readExponent h₃
  omega

theorem length_lt_of_pass {s r : List Char} (h : pass s = .ok r) : r.length < s.length := by
  unfold pass at h
  split at h
  · simp at h
  · rename_i hr
    simp only [Except.ok.injEq] at h
    obtain rfl := h
    unfold read at hr
    split at hr
    · have := length_lt_of_readUnsigned hr
      simp only [List.length_cons]
      omega
    · exact length_lt_of_readUnsigned hr

end Number

end HeaderMeta.Manifest
