import HeaderMeta.Text.Alphanumeric

/-!
# Classes of characters

The four classes that the shape of a declaration is made of: blanks, word characters, the
characters of a type run, and pointer marks. A type run is made of words, `:` and angle brackets;
a pointer mark may follow it. No blank is a word character (`isWord_of_isBlank`) or part of a type
run, so the pieces of a declaration end where the next one starts.
-/

namespace HeaderMeta.Text

/-- Code points with the property `White_Space`. -/
def blank : Ranges :=
  [(0x9, 0xd), (0x20, 0x20), (0x85, 0x85), (0xa0, 0xa0), (0x1680, 0x1680), (0x2000, 0x200a),
   (0x2028, 0x2029), (0x202f, 0x202f), (0x205f, 0x205f), (0x3000, 0x3000)]

/-- White space of every script, line ends included. -/
def isBlank (c : Char) : Bool :=
  blank.contains c.toNat

/-- Letters, digits and the underscore: what names are made of. -/
def isWord (c : Char) : Bool :=
  alphanumeric.contains c.toNat || c == '_'

/-- What the run of a type is made of: words, `:` and angle brackets. -/
def isTypeRun (c : Char) : Bool :=
  isWord c || c == ':' || c == '<' || c == '>'

/-- The mark of a pointer or of a reference. -/
def isPointerMark (c : Char) : Bool :=
  c == '*' || c == '&'

/-- A text of blanks alone. -/
def allBlank (s : List Char) : Bool :=
  s.all isBlank

example : blank.Sorted = true := by decide

example : alphanumeric.Sorted = true := by decide +kernel

example : (blank.map fun p => p.2 - p.1 + 1).sum = 25 := by decide

variable {c : Char}

theorem isTypeRun_of_isWord (h : isWord c = true) : isTypeRun c = true := by
  simp [isTypeRun, h]

/-- The code points of the blanks, one by one. -/
theorem mem_of_isBlank (h : isBlank c = true) :
    c.toNat ∈ blank.flatMap fun p => List.range' p.1 (p.2 - p.1 + 1) := by
  obtain ⟨p, hp, hle⟩ := (Ranges.contains_iff (by decide)).1 h
  exact List.mem_flatMap.2 ⟨p, hp, List.mem_range'_1.2 (by omega)⟩

theorem isWord_of_isBlank (h : isBlank c = true) : isWord c = false := by
  have key : ∀ n ∈ blank.flatMap fun p => List.range' p.1 (p.2 - p.1 + 1),
      alphanumeric.contains n = false ∧ n ≠ '_'.toNat := by decide +kernel
  obtain ⟨h₁, h₂⟩ := key _ (mem_of_isBlank h)
  simpa [isWord, h₁] using fun e : c = '_' => h₂ (congrArg Char.toNat e)

theorem isTypeRun_of_isBlank (h : isBlank c = true) : isTypeRun c = false := by
  have key : ∀ n ∈ blank.flatMap fun p => List.range' p.1 (p.2 - p.1 + 1),
      n ≠ ':'.toNat ∧ n ≠ '<'.toNat ∧ n ≠ '>'.toNat := by decide
  obtain ⟨h₁, h₂, h₃⟩ := key _ (mem_of_isBlank h)
  simp only [isTypeRun, isWord_of_isBlank h, Bool.false_or, Bool.or_eq_false_iff, beq_eq_false_iff_ne]
  exact ⟨⟨fun e => h₁ (congrArg Char.toNat e), fun e => h₂ (congrArg Char.toNat e)⟩,
    fun e => h₃ (congrArg Char.toNat e)⟩

theorem isBlank_of_isTypeRun (h : isTypeRun c = true) : isBlank c = false := by
  cases hb : isBlank c
  · rfl
  · rw [isTypeRun_of_isBlank hb] at h; exact absurd h (by decide)

theorem isBlank_of_isWord (h : isWord c = true) : isBlank c = false :=
  isBlank_of_isTypeRun (isTypeRun_of_isWord h)

theorem isBlank_of_isPointerMark (h : isPointerMark c = true) : isBlank c = false := by
  simp only [isPointerMark, Bool.or_eq_true, beq_iff_eq] at h
  rcases h with rfl | rfl <;> decide

theorem isTypeRun_of_isPointerMark (h : isPointerMark c = true) : isTypeRun c = false := by
  simp only [isPointerMark, Bool.or_eq_true, beq_iff_eq] at h
  rcases h with rfl | rfl <;> decide +kernel

theorem isPointerMark_of_isTypeRun (h : isTypeRun c = true) : isPointerMark c = false := by
  cases hm : isPointerMark c
  · rfl
  · rw [isTypeRun_of_isPointerMark hm] at h; exact absurd h (by decide)

theorem isPointerMark_of_isWord (h : isWord c = true) : isPointerMark c = false :=
  isPointerMark_of_isTypeRun (isTypeRun_of_isWord h)

end HeaderMeta.Text
