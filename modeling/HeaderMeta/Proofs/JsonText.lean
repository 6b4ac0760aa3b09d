import HeaderMeta.Proofs.Reparse
import Mathlib.Data.List.Forall2

/-!
# JSON text

The grammar of JSON, said without a reader: `CharText c t` when `t` is one of the ways to write `c` inside
quotes, `StringText s t` when `t` is one of the ways to write the string `s`, and `ValueText t` when `t` is
a value of any kind with any space in and around it. Strings that are only passed over need not stand for
characters (`StringToken`). A string is read as what it stands for, however it is written
(`string_takes`).
-/

namespace HeaderMeta.Manifest

open Text

variable {s t u v r : List Char} {c : Char} {n : Nat}

/-! ### Grammar -/

/-- The letters of the short escapes, each with the character it stands for. -/
def letters : List (Char × Char) :=
  [('"', '"'), ('\\', '\\'), ('/', '/'), ('b', '\x08'), ('f', '\x0c'), ('n', '\n'), ('r', '\r'),
   ('t', '\t')]

/-- A hexadecimal digit in either case. -/
def IsHexDigit (c : Char) (n : Nat) : Prop :=
  n < 16 ∧ (c = n.digitChar ∨ c = n.digitChar.toUpper)

instance (c : Char) (n : Nat) : Decidable (IsHexDigit c n) :=
  inferInstanceAs (Decidable (_ ∧ _))

/-- Four hexadecimal digits. -/
inductive FourHex : List Char → Nat → Prop
  | digits {a b c d : Char} {x y z w : Nat} : IsHexDigit a x → IsHexDigit b y → IsHexDigit c z →
      IsHexDigit d w → FourHex [a, b, c, d] (((x * 16 + y) * 16 + z) * 16 + w)

/-- A character that stands for itself inside quotes. -/
def IsPlain (c : Char) : Prop :=
  c ≠ '"' ∧ c ≠ '\\' ∧ 0x20 ≤ c.toNat

instance (c : Char) : Decidable (IsPlain c) :=
  inferInstanceAs (Decidable (_ ∧ _ ∧ _))

/-- One of the ways to write a character inside quotes. -/
inductive CharText : Char → List Char → Prop
  | plain {c : Char} : IsPlain c → CharText c [c]
  | letter {l c : Char} : (l, c) ∈ letters → CharText c ['\\', l]
  | digits {c : Char} {t : List Char} : FourHex t c.toNat → CharText c ('\\' :: 'u' :: t)
  | pair {c : Char} {high low : Nat} {t u : List Char} : FourHex t high → FourHex u low →
      0xd800 ≤ high → high < 0xdc00 → 0xdc00 ≤ low → low < 0xe000 →
      c.toNat = 0x10000 + (high - 0xd800) * 0x400 + (low - 0xdc00) →
      CharText c ('\\' :: 'u' :: (t ++ '\\' :: 'u' :: u))

/-- One of the ways to write a string. -/
def StringText (s : String) (t : List Char) : Prop :=
  ∃ ts : List (List Char), List.Forall₂ CharText s.toList ts ∧ t = '"' :: (ts.flatten ++ ['"'])

/-- What may stand inside quotes, whether it stands for a character or for half of one. -/
inductive UnitText : List Char → Prop
  | plain {c : Char} : IsPlain c → UnitText [c]
  | letter {l c : Char} : (l, c) ∈ letters → UnitText ['\\', l]
  | digits {t : List Char} {n : Nat} : FourHex t n → UnitText ('\\' :: 'u' :: t)

/-- A string of which only the form counts. -/
def StringToken (t : List Char) : Prop :=
  ∃ ts : List (List Char), (∀ u ∈ ts, UnitText u) ∧ t = '"' :: (ts.flatten ++ ['"'])

/-- One decimal digit or more. -/
def Digits (s : List Char) : Prop :=
  s ≠ [] ∧ ∀ c ∈ s, c.isDigit = true

/-- The part of a number from its point on, or nothing. -/
def FractionText (t : List Char) : Prop :=
  t = [] ∨ ∃ ds, Digits ds ∧ t = '.' :: ds

/-- The part of a number from the mark of its exponent on, or nothing. -/
def ExponentText (t : List Char) : Prop :=
  t = [] ∨ ∃ mark sign ds, mark ∈ ['e', 'E'] ∧ sign ∈ [[], ['+'], ['-']] ∧ Digits ds ∧
    t = mark :: (sign ++ ds)

/-- A number: its digits before the point have no leading zero. -/
def NumberText (t : List Char) : Prop :=
  ∃ sign whole fraction exponent, sign ∈ [[], ['-']] ∧ Digits whole ∧
    (whole.head? = some '0' → whole = ['0']) ∧ FractionText fraction ∧ ExponentText exponent ∧
    t = sign ++ (whole ++ (fraction ++ exponent))

/-- A text with space on either side. -/
def Padded (P : List Char → Prop) (t : List Char) : Prop :=
  ∃ u s v, (∀ c ∈ u, isSpace c = true) ∧ P s ∧ (∀ c ∈ v, isSpace c = true) ∧ t = u ++ (s ++ v)

/-- The words that are values. -/
def words : List (List Char) :=
  ["null".toList, "true".toList, "false".toList]

/-- A value of any kind, with space around it. -/
inductive ValueText : List Char → Prop
  | word {t : List Char} : t ∈ words → ValueText t
  | number {t : List Char} : NumberText t → ValueText t
  | string {t : List Char} : StringToken t → ValueText t
  | list {ts : List (List Char)} {s : List Char} : (∀ t ∈ ts, ValueText t) →
      (∀ c ∈ s, isSpace c = true) → ValueText ('[' :: (Reader.joined ts ++ (s ++ [']'])))
  | object {ms : List (List Char × List Char)} {s : List Char} : (∀ m ∈ ms, Padded StringToken m.1) →
      (∀ m ∈ ms, ValueText m.2) → (∀ c ∈ s, isSpace c = true) →
      ValueText ('\x7b' :: (Reader.joined (ms.map fun m => m.1 ++ ':' :: m.2) ++ (s ++ ['\x7d'])))
  | padded {u t v : List Char} : (∀ c ∈ u, isSpace c = true) → ValueText t →
      (∀ c ∈ v, isSpace c = true) → ValueText (u ++ (t ++ v))

/-! ### Strings -/

theorem IsHexDigit.value?_eq (h : IsHexDigit c n) : Hex.value? c = some n := by
  obtain ⟨hn, hc⟩ := h
  have key : ∀ n ∈ List.range 16, Hex.value? n.digitChar.toUpper = some n := by decide
  rcases hc with rfl | rfl
  · exact Hex.value?_digitChar hn
  · exact key n (List.mem_range.2 hn)

theorem FourHex.fourDigits_eq (h : FourHex t n) (r : List Char) :
    Quoted.fourDigits (t ++ r) = .ok (n, r) := by
  obtain ⟨ha, hb, hc, hd⟩ := h
  rename_i a b c d x y z w
  have hsize : ¬ size ([a, b, c, d] ++ r) < 4 := by
    have := a.utf8Size_pos
    have := b.utf8Size_pos
    have := c.utf8Size_pos
    have := d.utf8Size_pos
    simp only [List.cons_append, size_cons]
    omega
  unfold Quoted.fourDigits
  rw [if_neg hsize]
  simp only [List.cons_append, List.nil_append, ha.value?_eq, hb.value?_eq, hc.value?_eq, hd.value?_eq]

theorem simple?_of_mem {l : Char} (h : (l, c) ∈ letters) : Quoted.simple? l = some c ∧ l ≠ 'u' := by
  have key : letters.all (fun p => Quoted.simple? p.1 = some p.2 ∧ p.1 ≠ 'u') = true := by decide
  simpa using List.all_eq_true.1 key _ h

namespace Quoted

theorem ofSurrogates_eq {high low : Nat}
    (h : c.toNat = 0x10000 + (high - 0xd800) * 0x400 + (low - 0xdc00)) : ofSurrogates high low = c := by
  rw [ofSurrogates, ← h, Char.ofNat_toNat]

theorem content_plain {α : Type} {escape : Reader α} {plain : Char → α} {as : List α} (hc : IsPlain c)
    (h : content escape plain s = .ok (as, r)) : content escape plain (c :: s) = .ok (plain c :: as, r) := by
  obtain ⟨h₁, h₂, h₃⟩ := hc
  rw [content, if_neg h₁, if_neg h₂, if_neg (Nat.not_lt.2 h₃), h]

theorem content_escaped {α : Type} {escape : Reader α} {plain : Char → α} {as : List α} {a : α}
    (ht : escape.read t = .ok (a, s)) (h : content escape plain s = .ok (as, r)) :
    content escape plain ('\\' :: t) = .ok (a :: as, r) := by
  rw [content, if_neg (by decide), if_pos rfl]
  split <;> rename_i hread <;> cases ht.symm.trans hread
  rw [h]

/-- No character is half of a surrogate pair. -/
theorem isSurrogate_toNat (c : Char) : isLowSurrogate c.toNat = false ∧ isHighSurrogate c.toNat = false := by
  have hc : c.toNat < 0xd800 ∨ 0xdfff < c.toNat ∧ c.toNat < 0x110000 := c.valid
  simp only [isLowSurrogate, isHighSurrogate, Bool.and_eq_false_iff, decide_eq_false_iff_not]
  omega

theorem content_charText {cs : List Char} (ht : CharText c t) (h : content character id s = .ok (cs, r)) :
    content character id (t ++ s) = .ok (c :: cs, r) := by
  cases ht with
  | plain hc => exact content_plain hc h
  | letter hl =>
    obtain ⟨hsimple, hu⟩ := simple?_of_mem hl
    exact content_escaped (read_letter hsimple hu s) h
  | @digits _ t ht =>
    obtain ⟨hlow, hhigh⟩ := isSurrogate_toNat c
    have hread : character.read ('u' :: (t ++ s)) = .ok (c, s) := by
      simp only [character, readCharacter, ht.fourDigits_eq, hlow, hhigh, Bool.false_eq_true, if_false,
        Char.ofNat_toNat]
    exact content_escaped hread h
  | @pair _ high low t u ht hu h₁ h₂ h₃ h₄ hc =>
    have hhigh : isLowSurrogate high = false ∧ isHighSurrogate high = true := by
      simp [isLowSurrogate, isHighSurrogate]
      omega
    have hlow : isLowSurrogate low = true := by
      simp [isLowSurrogate]
      omega
    have hread : character.read ('u' :: (t ++ '\\' :: 'u' :: (u ++ s))) = .ok (c, s) := by
      simp only [character, readCharacter, ht.fourDigits_eq, hhigh, lowSurrogate, hu.fourDigits_eq, hlow,
        ofSurrogates_eq hc, Bool.false_eq_true, if_false, if_true]
    have := content_escaped hread h
    simpa using this

theorem content_unitText {as : List Unit} (ht : UnitText t)
    (h : content shape (fun _ => ()) s = .ok (as, r)) :
    content shape (fun _ => ()) (t ++ s) = .ok (() :: as, r) := by
  cases ht with
  | plain hc => exact content_plain hc h
  | @letter l c hl =>
    obtain ⟨hsimple, hu⟩ := simple?_of_mem hl
    have hread : shape.read (l :: s) = .ok ((), s) := by
      show readShape (l :: s) = _
      unfold readShape
      split
      · rename_i h'; cases h'
      · rename_i h'; cases h'; exact absurd rfl hu
      · rename_i h'; cases h'; rw [hsimple]; rfl
    exact content_escaped hread h
  | @digits t n ht =>
    have hread : shape.read ('u' :: (t ++ s)) = .ok ((), s) := by
      simp only [shape, readShape, ht.fourDigits_eq]
    exact content_escaped hread h

theorem value_of_forall₂ {cs : List Char} {ts : List (List Char)} (h : List.Forall₂ CharText cs ts)
    (r : List Char) : content character id (ts.flatten ++ '"' :: r) = .ok (cs, r) := by
  induction h with
  | nil => rw [List.flatten_nil, List.nil_append, content, if_pos rfl]
  | cons ht _ ih =>
    rw [List.flatten_cons, List.append_assoc]
    exact content_charText ht ih

theorem pass_of_forall {ts : List (List Char)} (h : ∀ u ∈ ts, UnitText u) (r : List Char) :
    pass (ts.flatten ++ '"' :: r) = .ok r := by
  have hcontent : ∃ as, content shape (fun _ => ()) (ts.flatten ++ '"' :: r) = .ok (as, r) := by
    induction ts with
    | nil => exact ⟨[], by rw [List.flatten_nil, List.nil_append, content, if_pos rfl]⟩
    | cons t ts ih =>
      obtain ⟨as, has⟩ := ih fun u hu => h u (List.mem_cons_of_mem t hu)
      rw [List.flatten_cons, List.append_assoc]
      exact ⟨() :: as, content_unitText (h t (List.mem_cons_self ..)) has⟩
  obtain ⟨as, has⟩ := hcontent
  rw [pass, has]

end Quoted

/-- A string is read as what it stands for, however it is written. -/
theorem string_takes {q : String} (h : StringText q t) : string.Takes t q := by
  obtain ⟨ts, hts, rfl⟩ := h
  intro r
  refine ⟨r, ?_, rfl⟩
  simp only [string, List.cons_append, List.append_assoc, List.nil_append,
    skipSpace_cons (show isSpace '"' = false by decide), if_true, Quoted.value, Quoted.value_of_forall₂ hts,
    String.ofList_toList]

theorem Padded.self {P : List Char → Prop} (h : P t) : Padded P t :=
  ⟨[], t, [], by simp, h, by simp, by simp⟩

/-- A string of plain characters may be written as it is. -/
theorem padded_plain {q : String} (h : (q.toList.all fun c => IsPlain c) = true) :
    Padded (StringText q) ('"' :: (q.toList ++ ['"'])) := by
  refine .self ⟨q.toList.map fun c => [c], ?_, by rw [← List.flatMap_def, List.flatMap_singleton']⟩
  rw [List.forall₂_map_right_iff, List.forall₂_same]
  exact fun c hc => .plain (of_decide_eq_true (List.all_eq_true.1 h c hc))

theorem Padded.takes {α : Type} {R : Reader α} {P : List Char → Prop} {a : α} (hR : R.Spaced)
    (h : ∀ t, P t → R.Takes t a) (ht : Padded P t) : R.Takes t a := by
  obtain ⟨u, s, v, hu, hs, hv, rfl⟩ := ht
  exact ((h s hs).append_space hv).space_append hR hu

end HeaderMeta.Manifest
