import HeaderMeta.Text.Utf8
import Mathlib.Data.String.Basic

/-!
# The order of bytes is the order of characters

Texts are compared character by character. UTF-8 keeps that order: the forms of two characters differ at
a byte inside both, and the smaller character has the smaller byte there (`encodeChar_append_lt`). So the
texts can as well be compared byte by byte (`lt_iff_bytes_lt`).
-/

namespace HeaderMeta.Text.Utf8

/-- The bytes of a string. -/
def bytes (s : String) : List UInt8 :=
  encode s.toList

variable {c d : Char} {s t : List Char} {u v w : List UInt8}

theorem ofNat_lt_ofNat_iff {m n : Nat} (hm : m < 256) (hn : n < 256) :
    UInt8.ofNat m < UInt8.ofNat n ↔ m < n := by
  rw [UInt8.lt_iff_toNat_lt, UInt8.toNat_ofNat', UInt8.toNat_ofNat', Nat.mod_eq_of_lt hm,
    Nat.mod_eq_of_lt hn]

theorem ofNat_eq_ofNat_iff {m n : Nat} (hm : m < 256) (hn : n < 256) :
    UInt8.ofNat m = UInt8.ofNat n ↔ m = n := by
  rw [← UInt8.toNat_inj, UInt8.toNat_ofNat', UInt8.toNat_ofNat', Nat.mod_eq_of_lt hm,
    Nat.mod_eq_of_lt hn]

/-- Numbers are compared digit by digit, here to base 64. -/
theorem digits_lt {m n : Nat} (h : m < n) (hn : n < 2097152) :
    m / 262144 % 8 < n / 262144 % 8 ∨ m / 262144 % 8 = n / 262144 % 8 ∧
      (m / 4096 % 64 < n / 4096 % 64 ∨ m / 4096 % 64 = n / 4096 % 64 ∧
        (m / 64 % 64 < n / 64 % 64 ∨ m / 64 % 64 = n / 64 % 64 ∧ m % 64 < n % 64)) := by
  have hdigits : ∀ k : Nat, k < 2097152 →
      k = 64 * (64 * (64 * (k / 262144 % 8) + k / 4096 % 64) + k / 64 % 64) + k % 64 := by omega
  have hm := hdigits m (by omega)
  have hn := hdigits n hn
  have hlt : ∀ k : Nat, k % 64 < 64 := fun k => Nat.mod_lt k (by omega)
  have h₁ := hlt (m / 4096)
  have h₂ := hlt (m / 64)
  have h₃ := hlt m
  have h₄ := hlt (n / 4096)
  have h₅ := hlt (n / 64)
  have h₆ := hlt n
  generalize m / 262144 % 8 = a₀, m / 4096 % 64 = a₁, m / 64 % 64 = a₂, m % 64 = a₃ at *
  generalize n / 262144 % 8 = b₀, n / 4096 % 64 = b₁, n / 64 % 64 = b₂, n % 64 = b₃ at *
  omega

theorem encodeChar_append_lt (h : c < d) (v w : List UInt8) :
    String.utf8EncodeChar c ++ v < String.utf8EncodeChar d ++ w := by
  have hlt : c.val.toNat < d.val.toNat := UInt32.lt_iff_toNat_lt.1 h
  have hd : d.val.toNat < 1114112 := by
    rcases d.valid with h | h <;> omega
  unfold String.utf8EncodeChar
  generalize c.val.toNat = m at hlt
  generalize d.val.toNat = n at hlt hd
  dsimp only
  -- Two forms of four bytes are compared digit by digit; below that `omega` finds the byte itself.
  by_cases hm : 65535 < m
  · have hdigits := digits_lt hlt (by omega)
    rw [if_neg (by omega), if_neg (by omega), if_neg (by omega), if_neg (by omega), if_neg (by omega),
      if_neg (by omega)]
    simp only [List.cons_append, List.nil_append, List.cons_lt_cons_iff]
    simp (disch := omega) only [ofNat_lt_ofNat_iff, ofNat_eq_ofNat_iff, Nat.add_lt_add_iff_right,
      Nat.add_right_cancel_iff]
    tauto
  · split_ifs <;> simp only [List.cons_append, List.nil_append, List.cons_lt_cons_iff]
    all_goals simp (disch := omega) only [ofNat_lt_ofNat_iff, ofNat_eq_ofNat_iff]
    all_goals omega

theorem exists_encodeChar_eq_cons (c : Char) : ∃ b v, String.utf8EncodeChar c = b :: v := by
  unfold String.utf8EncodeChar
  dsimp only
  split_ifs <;> exact ⟨_, _, rfl⟩

theorem append_lt_append_iff : u ++ v < u ++ w ↔ v < w := by
  induction u with
  | nil => rfl
  | cons a u ih =>
    rw [List.cons_append, List.cons_append, List.cons_lt_cons_iff, ih]
    simp

theorem encode_lt_encode_iff : encode s < encode t ↔ s < t := by
  induction s generalizing t with
  | nil =>
    cases t with
    | nil => simp [encode]
    | cons d t =>
      obtain ⟨b, v, hb⟩ := exists_encodeChar_eq_cons d
      simp [encode, hb]
  | cons c s ih =>
    cases t with
    | nil => simp [encode]
    | cons d t =>
      have hc : encode (c :: s) = String.utf8EncodeChar c ++ encode s := List.flatMap_cons
      have hd : encode (d :: t) = String.utf8EncodeChar d ++ encode t := List.flatMap_cons
      rw [hc, hd, List.cons_lt_cons_iff]
      rcases lt_trichotomy c d with h | rfl | h
      · exact iff_of_true (encodeChar_append_lt h _ _) (.inl h)
      · rw [append_lt_append_iff, ih]
        simp
      · refine iff_of_false (List.lt_asymm (encodeChar_append_lt h _ _)) ?_
        rintro (h' | ⟨rfl, -⟩)
        · exact lt_asymm h h'
        · exact lt_irrefl c h

theorem lt_iff_bytes_lt {m n : String} : m < n ↔ bytes m < bytes n := by
  rw [String.lt_iff, bytes, bytes, encode_lt_encode_iff]

end HeaderMeta.Text.Utf8
