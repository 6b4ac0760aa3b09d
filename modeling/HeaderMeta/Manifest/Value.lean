import HeaderMeta.Manifest.Number
import HeaderMeta.Manifest.Quoted

/-!
# Values of any kind

A manifest may hold members that mean nothing to it; their values are passed over by `Value.pass`,
which keeps a stack of the brackets that are open and so goes to any depth. `Value.problem` tells
what is wrong where a value of another kind is needed: text that is no value is so first of all.
-/

namespace HeaderMeta.Manifest

open Text

/-- Reads the letters of a word. -/
def spelled : (word s : List Char) → Except Problem (List Char)
  | [], s => .ok s
  | _ :: _, [] => .error .cutShort
  | c :: word, d :: s => if c = d then spelled word s else .error .malformed

theorem length_of_spelled {word s r : List Char} (h : spelled word s = .ok r) :
    s.length = word.length + r.length := by
  fun_induction spelled word s with
  | case1 => simp_all
  | case2 => simp at h
  | case3 c word s ih => simp [ih h]; omega
  | case4 => simp at h

namespace Value

/-- What is wrong with a text, if anything, or else with its value being of the wrong kind. -/
def orWrongShape {α : Type} : Except Problem α → Problem
  | .error e => e
  | .ok _ => .wrongShape

/-- What is wrong where a value of another kind is needed. The text starts with no space. -/
def problem : List Char → Problem
  | [] => .cutShort
  | c :: s =>
    if c = 'n' then orWrongShape (spelled "ull".toList s)
    else if c = 't' then orWrongShape (spelled "rue".toList s)
    else if c = 'f' then orWrongShape (spelled "alse".toList s)
    else if c = '-' ∨ c.isDigit then Number.problem (c :: s)
    else if c = '"' then orWrongShape (Quoted.value s)
    else if c = '[' ∨ c = '\x7b' then .wrongShape
    else .malformed

/-- Passes over a value without members. -/
def passScalar : List Char → Except Problem (List Char)
  | [] => .error .cutShort
  | c :: s =>
    if c = 'n' then spelled "ull".toList s
    else if c = 't' then spelled "rue".toList s
    else if c = 'f' then spelled "alse".toList s
    else if c = '-' ∨ c.isDigit then Number.pass (c :: s)
    else if c = '"' then Quoted.pass s
    else .error .malformed

/-- Reads the colon behind a key. -/
def colon (s : List Char) : Except Problem (List Char) :=
  match skipSpace s with
  | [] => .error .cutShort
  | c :: r => if c = ':' then .ok r else .error .malformed

/-- Passes over a key and the colon behind it. -/
def passKey (s : List Char) : Except Problem (List Char) :=
  match skipSpace s with
  | [] => .error .cutShort
  | c :: r => if c = '"' then Quoted.pass r >>= colon else .error .malformed

/-- The two kinds of values with members. -/
inductive Bracket where
  | list
  | object
deriving DecidableEq

/-- The character that starts a list or object. -/
def Bracket.opening : Bracket → Char
  | .list => '['
  | .object => '\x7b'

/-- The character that ends a list or object. -/
def Bracket.closing : Bracket → Char
  | .list => ']'
  | .object => '\x7d'

/-- What comes next while values are passed over. -/
inductive Expected where
  /-- A value. -/
  | value
  /-- A comma or the end of the innermost list or object. -/
  | more

/-- The bracket that a character opens. -/
def Bracket.ofOpening? (c : Char) : Option Bracket :=
  if c = Bracket.list.opening then some .list
  else if c = Bracket.object.opening then some .object
  else none

/-- Goes to the value of the next member. -/
def passUpToValue : Bracket → List Char → Except Problem (List Char)
  | .list, s => .ok s
  | .object, s => passKey s

theorem length_lt_of_colon {s r : List Char} (h : colon s = .ok r) : r.length < s.length := by
  unfold colon at h
  split at h
  · simp at h
  · rename_i c t ht
    split at h
    · simp only [Except.ok.injEq] at h
      obtain rfl := h
      exact length_lt_of_skipSpace ht
    · simp at h

theorem length_le_of_passUpToValue {b : Bracket} {s r : List Char}
    (h : passUpToValue b s = .ok r) : r.length ≤ s.length := by
  cases b with
  | list =>
    simp only [passUpToValue, Except.ok.injEq] at h
    simp [h]
  | object =>
    simp only [passUpToValue, passKey] at h
    split at h
    · simp at h
    · rename_i c t ht
      have h₀ := length_lt_of_skipSpace ht
      split at h
      · obtain ⟨u, hp, hc⟩ := bind_eq_ok_iff.1 h
        have h₁ := Quoted.length_lt_of_pass hp
        have h₂ := length_lt_of_colon hc
        omega
      · simp at h

theorem length_lt_of_passScalar {s r : List Char} (h : passScalar s = .ok r) :
    r.length < s.length := by
  unfold passScalar at h
  split at h
  · simp at h
  · rename_i c s
    split at h
    · have := length_of_spelled h; simp only [List.length_cons]; omega
    split at h
    · have := length_of_spelled h; simp only [List.length_cons]; omega
    split at h
    · have := length_of_spelled h; simp only [List.length_cons]; omega
    split at h
    · exact Number.length_lt_of_pass h
    split at h
    · have := Quoted.length_lt_of_pass h; simp only [List.length_cons]; omega
    · simp at h

/-- Passes over what is expected next and over the rest of all lists and objects that are open. -/
def pass (expected : Expected) (opened : List Bracket) (s : List Char) :
    Except Problem (List Char) :=
  match expected, opened with
  | .value, opened =>
    match _h : skipSpace s with
    | [] => .error .cutShort
    | c :: t =>
      match Bracket.ofOpening? c with
      | some b =>
        match _h₁ : skipSpace t with
        | [] => .error .cutShort
        | d :: u =>
          if d = b.closing then pass .more opened u
          else
            match _h₂ : passUpToValue b (d :: u) with
            | .error e => .error e
            | .ok r => pass .value (b :: opened) r
      | none =>
        match _h₁ : passScalar (c :: t) with
        | .error e => .error e
        | .ok r => pass .more opened r
  | .more, [] => .ok s
  | .more, b :: opened =>
    match _h : skipSpace s with
    | [] => .error .cutShort
    | c :: t =>
      if c = ',' then
        match _h₁ : passUpToValue b t with
        | .error e => .error e
        | .ok r => pass .value (b :: opened) r
      else if c = b.closing then pass .more opened t
      else .error .malformed
termination_by s.length
decreasing_by
  all_goals have hs := length_lt_of_skipSpace _h
  · have := length_lt_of_skipSpace _h₁
    omega
  · have := length_skipSpace_le t
    rw [_h₁] at this
    have := length_le_of_passUpToValue _h₂
    omega
  · have := length_lt_of_passScalar _h₁
    have := length_skipSpace_le s
    rw [_h] at this
    omega
  · have := length_le_of_passUpToValue _h₁
    omega
  · exact hs

/-- Nothing is put back, and where a value was expected something is used up. -/
theorem length_of_pass {expected : Expected} {opened : List Bracket} {s r : List Char}
    (h : pass expected opened s = .ok r) :
    r.length ≤ s.length ∧ (expected = .value → r.length < s.length) := by
  fun_induction pass expected opened s with
  | case1 | case2 | case4 | case6 | case9 | case10 | case13 => simp at h
  | case3 s _ c t hs b _ u ht ih =>
    have h₁ := length_lt_of_skipSpace hs
    have h₂ := length_lt_of_skipSpace ht
    have h₃ := (ih h).1
    omega
  | case5 s _ c t hs b _ d u ht _ t' hp ih =>
    have h₁ := length_lt_of_skipSpace hs
    have h₂ := length_skipSpace_le t
    rw [ht] at h₂
    have h₃ := length_le_of_passUpToValue hp
    have h₄ := (ih h).1
    omega
  | case7 s _ c t hs _ t' hp ih =>
    have h₁ := length_skipSpace_le s
    rw [hs] at h₁
    have h₂ := length_lt_of_passScalar hp
    have h₃ := (ih h).1
    omega
  | case8 => simp_all
  | case11 s b _ t t' hp hs ih =>
    have h₁ := length_lt_of_skipSpace hs
    have h₂ := length_le_of_passUpToValue hp
    have h₃ := (ih h).1
    omega
  | case12 s b _ t hs _ ih =>
    have h₁ := length_lt_of_skipSpace hs
    have h₃ := (ih h).1
    omega

/-- Passes over one value of any kind. -/
def skipped : Reader Unit where
  read s := match pass .value [] s with
    | .ok r => .ok ((), r)
    | .error e => .error e
  shortens {s r a} h := by
    split at h
    · rename_i hp
      simp only [Except.ok.injEq, Prod.mk.injEq] at h
      obtain ⟨-, rfl⟩ := h
      exact (length_of_pass hp).2 rfl
    · simp at h

end Value

end HeaderMeta.Manifest
