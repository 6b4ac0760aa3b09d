import HeaderMeta.Manifest.Reader
import HeaderMeta.Text.Hex
import HeaderMeta.Text.Split

/-!
# Strings of JSON text

The content of a string is read up to its closing quote. Where the value counts, an escape must
stand for a character (`character`); where a string is only passed over, the shape of its escapes is
all that matters (`shape`), so that half of a surrogate pair may stand alone.
-/

namespace HeaderMeta.Manifest.Quoted

open Text

/-- The character of a one-letter escape. -/
def simple? (c : Char) : Option Char :=
  if c = '"' ∨ c = '\\' ∨ c = '/' then some c
  else if c = 'b' then some '\x08'
  else if c = 'f' then some '\x0c'
  else if c = 'n' then some '\n'
  else if c = 'r' then some '\r'
  else if c = 't' then some '\t'
  else none

/-- Reads the four digits of a `\u` escape. The text ends too early only if it has fewer than four
bytes left. -/
def fourDigits (s : List Char) : Except Problem (Nat × List Char) :=
  if size s < 4 then .error .cutShort
  else match s with
    | a :: b :: c :: d :: r =>
      match Hex.value? a, Hex.value? b, Hex.value? c, Hex.value? d with
      | some a, some b, some c, some d => .ok (((a * 16 + b) * 16 + c) * 16 + d, r)
      | _, _, _, _ => .error .malformed
    | _ => .error .malformed

theorem length_lt_of_fourDigits {s r : List Char} {n : Nat} (h : fourDigits s = .ok (n, r)) :
    r.length < s.length := by
  unfold fourDigits at h
  split at h
  · simp at h
  · split at h
    · split at h
      · simp only [Except.ok.injEq, Prod.mk.injEq] at h
        obtain ⟨-, rfl⟩ := h
        simp only [List.length_cons]
        omega
      · simp at h
    · simp at h

/-- The first half of a surrogate pair. -/
def isHighSurrogate (n : Nat) : Bool :=
  0xd800 ≤ n && n < 0xdc00

/-- The second half of a surrogate pair. -/
def isLowSurrogate (n : Nat) : Bool :=
  0xdc00 ≤ n && n < 0xe000

/-- The character of a surrogate pair. -/
def ofSurrogates (high low : Nat) : Char :=
  Char.ofNat (0x10000 + (high - 0xd800) * 0x400 + (low - 0xdc00))

/-- Reads the second half of a surrogate pair, which must be a `\u` escape too. -/
def lowSurrogate : List Char → Except Problem (Nat × List Char)
  | [] => .error .cutShort
  | ['\\'] => .error .cutShort
  | '\\' :: 'u' :: s =>
    match fourDigits s with
    | .ok (n, r) => if isLowSurrogate n then .ok (n, r) else .error .malformed
    | .error e => .error e
  | _ => .error .malformed

/-- Reads what stands behind the backslash of an escape for a character. -/
def readCharacter : List Char → Except Problem (Char × List Char)
  | [] => .error .cutShort
  | 'u' :: s =>
    match fourDigits s with
    | .error e => .error e
    | .ok (n, r) =>
      if isLowSurrogate n then .error .malformed
      else if isHighSurrogate n then
        match lowSurrogate r with
        | .ok (m, t) => .ok (ofSurrogates n m, t)
        | .error e => .error e
      else .ok (Char.ofNat n, r)
  | c :: s =>
    match simple? c with
    | some d => .ok (d, s)
    | none => .error .malformed

/-- Reads what stands behind the backslash of an escape, whatever it stands for. -/
def readShape : List Char → Except Problem (Unit × List Char)
  | [] => .error .cutShort
  | 'u' :: s =>
    match fourDigits s with
    | .ok (_, r) => .ok ((), r)
    | .error e => .error e
  | c :: s => if (simple? c).isSome then .ok ((), s) else .error .malformed

theorem length_lt_of_lowSurrogate {s r : List Char} {n : Nat} (h : lowSurrogate s = .ok (n, r)) :
    r.length < s.length := by
  unfold lowSurrogate at h
  split at h
  · simp at h
  · simp at h
  · split at h
    · rename_i hs
      have := length_lt_of_fourDigits hs
      split at h
      · simp only [Except.ok.injEq, Prod.mk.injEq] at h
        obtain ⟨-, rfl⟩ := h
        simp only [List.length_cons]
        omega
      · simp at h
    · simp at h
  · simp at h

/-- The escapes of a string whose value counts. -/
def character : Reader Char where
  read := readCharacter
  shortens {s r a} h := by
    unfold readCharacter at h
    split at h
    · simp at h
    · split at h
      · simp at h
      · rename_i hs
        have h₁ := length_lt_of_fourDigits hs
        split at h
        · simp at h
        · split at h
          · split at h
            · rename_i hl
              have h₂ := length_lt_of_lowSurrogate hl
              simp only [Except.ok.injEq, Prod.mk.injEq] at h
              obtain ⟨-, rfl⟩ := h
              simp only [List.length_cons]
              omega
            · simp at h
          · simp only [Except.ok.injEq, Prod.mk.injEq] at h
            obtain ⟨-, rfl⟩ := h
            simp only [List.length_cons]
            omega
    · split at h
      · simp only [Except.ok.injEq, Prod.mk.injEq] at h
        obtain ⟨-, rfl⟩ := h
        simp
      · simp at h

/-- The escapes of a string that is passed over. -/
def shape : Reader Unit where
  read := readShape
  shortens {s r a} h := by
    unfold readShape at h
    split at h
    · simp at h
    · split at h
      · rename_i hs
        have := length_lt_of_fourDigits hs
        simp only [Except.ok.injEq, Prod.mk.injEq] at h
        obtain ⟨-, rfl⟩ := h
        simp only [List.length_cons]
        omega
      · simp at h
    · split at h
      · simp only [Except.ok.injEq, Prod.mk.injEq] at h
        obtain ⟨-, rfl⟩ := h
        simp
      · simp at h

/-- Reads the content of a string and its closing quote. -/
def content {α : Type} (escape : Reader α) (plain : Char → α) (s : List Char) :
    Except Problem (List α × List Char) :=
  match s with
  | [] => .error .cutShort
  | c :: s =>
    if c = '"' then .ok ([], s)
    else if c = '\\' then
      match _h : escape.read s with
      | .error e => .error e
      | .ok (a, r) =>
        match content escape plain r with
        | .ok (as, t) => .ok (a :: as, t)
        | .error e => .error e
    else if c.toNat < 0x20 then .error .malformed
    else
      match content escape plain s with
      | .ok (as, t) => .ok (plain c :: as, t)
      | .error e => .error e
termination_by s.length
decreasing_by
  · have := escape.shortens _h
    simp only [List.length_cons]
    omega
  · simp

theorem length_lt_of_content {α : Type} {escape : Reader α} {plain : Char → α}
    {s r : List Char} {as : List α} (h : content escape plain s = .ok (as, r)) :
    r.length < s.length := by
  fun_induction content escape plain s generalizing as with
  | case1 => simp at h
  | case2 s =>
    simp only [Except.ok.injEq, Prod.mk.injEq] at h
    obtain ⟨-, rfl⟩ := h
    simp
  | case3 => simp at h
  | case4 s a r' hr as' t ht _ ih =>
    simp only [Except.ok.injEq, Prod.mk.injEq] at h
    obtain ⟨-, rfl⟩ := h
    have h₁ := escape.shortens hr
    have h₂ := ih ht
    simp only [List.length_cons]
    omega
  | case5 => simp at h
  | case6 => simp at h
  | case7 c s _ _ _ as' t ht ih =>
    simp only [Except.ok.injEq, Prod.mk.injEq] at h
    obtain ⟨-, rfl⟩ := h
    have := ih ht
    simp only [List.length_cons]
    omega
  | case8 => simp at h

/-- Reads a string for its value, from behind the opening quote. -/
def value (s : List Char) : Except Problem (String × List Char) :=
  match content character id s with
  | .ok (cs, r) => .ok (String.ofList cs, r)
  | .error e => .error e

/-- Passes over a string, from behind the opening quote. -/
def pass (s : List Char) : Except Problem (List Char) :=
  match content shape (fun _ => ()) s with
  | .ok (_, r) => .ok r
  | .error e => .error e

theorem length_lt_of_value {s r : List Char} {t : String} (h : value s = .ok (t, r)) :
    r.length < s.length := by
  unfold value at h
  split at h
  · rename_i hc
    simp only [Except.ok.injEq, Prod.mk.injEq] at h
    obtain ⟨-, rfl⟩ := h
    exact length_lt_of_content hc
  · simp at h

theorem length_lt_of_pass {s r : List Char} (h : pass s = .ok r) : r.length < s.length := by
  unfold pass at h
  split at h
  · rename_i hc
    simp only [Except.ok.injEq] at h
    obtain rfl := h
    exact length_lt_of_content hc
  · simp at h

end HeaderMeta.Manifest.Quoted
