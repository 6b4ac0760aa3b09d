/-!
# Reading JSON text

A `Reader` reads one value off the front of a text. Where that is not possible it tells the first
problem that it met, and where it is the rest is shorter. `Reader.separated` goes through the items
between two brackets, however many there are.
-/

namespace HeaderMeta.Manifest

/-- The first thing that is wrong with the text of a manifest. -/
inductive Problem where
  /-- The text is no JSON. -/
  | malformed
  /-- The text ends before its value does. -/
  | cutShort
  /-- A value is not of the kind that a manifest has there. -/
  | wrongShape
deriving DecidableEq

/-- Space, line feed, carriage return and tab. -/
def isSpace (c : Char) : Bool :=
  c == ' ' || c == '\n' || c == '\r' || c == '\t'

/-- The text behind leading space. -/
def skipSpace (s : List Char) : List Char :=
  s.dropWhile isSpace

theorem length_skipSpace_le (s : List Char) : (skipSpace s).length ≤ s.length :=
  (List.dropWhile_sublist isSpace).length_le

theorem length_lt_of_skipSpace {s t : List Char} {c : Char} (h : skipSpace s = c :: t) :
    t.length < s.length := by
  have := length_skipSpace_le s
  rw [h, List.length_cons] at this
  omega

/-- Two steps succeed if the first does and the second does on what the first gives. -/
theorem bind_eq_ok_iff {α β : Type} {x : Except Problem α} {f : α → Except Problem β} {b : β} :
    (x >>= f) = .ok b ↔ ∃ a, x = .ok a ∧ f a = .ok b := by
  cases x with
  | error e => simp [bind, Except.bind]
  | ok a => simp [bind, Except.bind]

/-- Reads one value, using up at least one character. -/
structure Reader (α : Type) where
  read : List Char → Except Problem (α × List Char)
  shortens {s r : List Char} {a : α} : read s = .ok (a, r) → r.length < s.length

namespace Reader

variable {α β σ : Type}

/-- Reads the same text and changes the value. -/
def map (f : α → β) (R : Reader α) : Reader β where
  read s := match R.read s with
    | .ok (a, r) => .ok (f a, r)
    | .error e => .error e
  shortens {s r b} h := by
    split at h
    · rename_i a r' hr
      simp only [Except.ok.injEq, Prod.mk.injEq] at h
      obtain ⟨-, rfl⟩ := h
      exact R.shortens hr
    · simp at h

/-- Reads items with commas between them up to the closing bracket. There is at least one. -/
def items (closing : Char) (item : σ → Reader σ) (a : σ) (s : List Char) :
    Except Problem (σ × List Char) :=
  match _h : (item a).read s with
  | .error e => .error e
  | .ok (b, r) =>
    match _hr : skipSpace r with
    | [] => .error .cutShort
    | c :: t =>
      if c = closing then .ok (b, t)
      else if c = ',' then items closing item b t
      else .error .malformed
termination_by s.length
decreasing_by
  have h₁ := (item a).shortens _h
  have h₂ := length_lt_of_skipSpace _hr
  omega

/-- Reads what stands between an opening bracket and the closing one. -/
def separated (closing : Char) (item : σ → Reader σ) (a : σ) (s : List Char) :
    Except Problem (σ × List Char) :=
  match skipSpace s with
  | [] => .error .cutShort
  | c :: t => if c = closing then .ok (a, t) else items closing item a (c :: t)

theorem length_lt_of_items {closing : Char} {item : σ → Reader σ} {a b : σ} {s r : List Char}
    (h : items closing item a s = .ok (b, r)) : r.length < s.length := by
  fun_induction items closing item a s with
  | case1 => simp at h
  | case2 => simp at h
  | case3 a s b' r' hr t hs =>
    simp only [Except.ok.injEq, Prod.mk.injEq] at h
    obtain ⟨-, rfl⟩ := h
    have h₁ := (item a).shortens hr
    have h₂ := length_lt_of_skipSpace hs
    omega
  | case4 a s b' r' hr t hs hne ih =>
    have h₁ := (item a).shortens hr
    have h₂ := length_lt_of_skipSpace hs
    have := ih h
    omega
  | case5 => simp at h

theorem length_lt_of_separated {closing : Char} {item : σ → Reader σ} {a b : σ} {s r : List Char}
    (h : separated closing item a s = .ok (b, r)) : r.length < s.length := by
  unfold separated at h
  split at h
  · simp at h
  · rename_i c t ht
    have hs := length_lt_of_skipSpace ht
    split at h
    · simp only [Except.ok.injEq, Prod.mk.injEq] at h
      obtain ⟨-, rfl⟩ := h
      exact hs
    · have := length_lt_of_items h
      rw [List.length_cons] at this
      omega

end Reader

end HeaderMeta.Manifest
