import HeaderMeta.Text.Class
import HeaderMeta.Text.Reader
import HeaderMeta.Text.Split

/-!
# The text of a struct

A struct is written as the word `struct`, blanks, a name, perhaps blanks, and a body in braces that
is not empty, with a `;` right behind it. The body ends at the first closing brace, whatever braces
were opened in it. `Written` keeps such a text piece by piece, `Written.Valid` says which pieces may
stand where, and `Written.read?` reads one off the front of a text exactly if the text starts with a
valid one (`Written.read?_eq_some_iff`).
-/

namespace HeaderMeta.Declaration

open Text

/-- The word that a struct starts with. It may be the end of a longer word. -/
def keyword : List Char :=
  "struct".toList

/-- What stands behind the body. -/
def closing : List Char :=
  ['}', ';']

/-- A struct as it stands in a text, piece by piece. -/
structure Written where
  /-- Blanks between the keyword and the name. -/
  gap : List Char
  /-- The name. -/
  name : List Char
  /-- Blanks behind the name. -/
  tail : List Char
  /-- All that stands between the opening brace and the first closing one. -/
  body : List Char

namespace Written

/-- All pieces in order. -/
def text (w : Written) : List Char :=
  keyword ++ (w.gap ++ (w.name ++ (w.tail ++ ('{' :: (w.body ++ closing)))))

/-- What may stand in each piece. -/
structure Valid (w : Written) : Prop where
  gap_ne_nil : w.gap ≠ []
  gap : ∀ c ∈ w.gap, isBlank c = true
  name_ne_nil : w.name ≠ []
  name : ∀ c ∈ w.name, isWord c = true
  tail : ∀ c ∈ w.tail, isBlank c = true
  body_ne_nil : w.body ≠ []
  body : ∀ c ∈ w.body, (c != '}') = true

/-- Reads a struct off the front of a text. -/
def read? (s : List Char) : Option (Written × List Char) := do
  let s ← after? keyword s
  let (gap, s) ← run? isBlank s
  let (name, s) ← run? isWord s
  let (tail, s) := run isBlank s
  let s ← after? ['{'] s
  let (body, s) ← run? (· != '}') s
  let r ← after? closing s
  return (⟨gap, name, tail, body⟩, r)

variable {w : Written} {s r : List Char}

/-- What is read is valid, and stands at the front of the text. -/
theorem valid_of_read? (h : read? s = some (w, r)) : w.Valid ∧ s = w.text ++ r := by
  simp only [read?, bind, pure, Option.bind_eq_some_iff, Prod.exists] at h
  obtain ⟨s₁, h₁, gap, s₂, h₂, name, s₃, h₃, h⟩ := h
  rcases h₄ : run isBlank s₃ with ⟨tail, s₄⟩
  simp only [h₄, Option.some.injEq, Prod.mk.injEq] at h
  obtain ⟨s₅, h₅, body, s₆, h₆, s₇, h₇, rfl, rfl⟩ := h
  obtain rfl := after?_eq_some_iff.1 h₁
  obtain ⟨rfl, hgne, hg, -⟩ := run?_eq_some_iff.1 h₂
  obtain ⟨rfl, hnne, hn, -⟩ := run?_eq_some_iff.1 h₃
  obtain ⟨rfl, ht, -⟩ := run_eq_iff.1 h₄
  obtain rfl := after?_eq_some_iff.1 h₅
  obtain ⟨rfl, hbne, hb, -⟩ := run?_eq_some_iff.1 h₆
  obtain rfl := after?_eq_some_iff.1 h₇
  exact ⟨⟨hgne, hg, hnne, hn, ht, hbne, hb⟩, by simp [text]⟩

theorem read?_text (h : w.Valid) : read? (w.text ++ r) = some (w, r) := by
  have h₂ : run? isBlank (w.gap ++ (w.name ++ (w.tail ++ ('{' :: (w.body ++ (closing ++ r)))))) =
      some _ :=
    run?_eq_some_iff.2 ⟨rfl, h.gap_ne_nil, h.gap,
      stops_append h.name_ne_nil fun c hc => isBlank_of_isWord (h.name c hc)⟩
  have h₃ : run? isWord (w.name ++ (w.tail ++ ('{' :: (w.body ++ (closing ++ r))))) = some _ :=
    run?_eq_some_iff.2 ⟨rfl, h.name_ne_nil, h.name,
      stops_append_of_stops (fun c hc => isWord_of_isBlank (h.tail c hc))
        (stops_cons.2 (by decide +kernel))⟩
  have h₄ : run isBlank (w.tail ++ ('{' :: (w.body ++ (closing ++ r)))) = _ :=
    run_eq_iff.2 ⟨rfl, h.tail, stops_cons.2 (by decide)⟩
  have h₅ : after? ['{'] ('{' :: (w.body ++ (closing ++ r))) = some (w.body ++ (closing ++ r)) :=
    after?_eq_some_iff.2 rfl
  have h₆ : run? (· != '}') (w.body ++ (closing ++ r)) = some _ :=
    run?_eq_some_iff.2 ⟨rfl, h.body_ne_nil, h.body, stops_cons.2 (by decide)⟩
  simp only [read?, text, List.append_assoc, List.cons_append, after?_append, bind, pure,
    Option.bind_some, h₂, h₃, h₄, h₅, h₆]

/-- A struct is read exactly where a valid one stands. -/
theorem read?_eq_some_iff : read? s = some (w, r) ↔ w.Valid ∧ s = w.text ++ r := by
  constructor
  · exact valid_of_read?
  · rintro ⟨h, rfl⟩
    exact read?_text h

/-- The reader of structs. -/
def reader : Reader Written where
  read? := read?
  shortens h := by
    obtain ⟨-, rfl⟩ := valid_of_read? h
    have : keyword.length = 6 := rfl
    simp only [text, List.length_append]
    omega

end Written

end HeaderMeta.Declaration
