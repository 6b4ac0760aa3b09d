import HeaderMeta.Text.Class
import HeaderMeta.Text.Reader
import HeaderMeta.Text.Split

/-!
# The text of a field

A field is written as an optional marker `[[Serialize]]`, a type, a name, an optional default value
and `;`. `Written` keeps such a text piece by piece, `Written.Valid` says which pieces may stand
where, and `Written.read?` reads one off the front of a text. It reads a field exactly if the text
starts with a valid one, and no two valid fields share a start (`Written.read?_eq_some_iff`): each
piece is a longest run, because the next piece starts outside its class.
-/

namespace HeaderMeta.Field

open Text

/-- The attribute in front of a field that is to be registered. -/
def marker : List Char :=
  "[[Serialize]]".toList

theorem marker_eq_cons : marker = '[' :: "[Serialize]]".toList := rfl

/-- A field as it stands in a body, piece by piece. -/
structure Written where
  /-- Whether the marker comes first. -/
  marked : Bool
  /-- Blanks before the type. -/
  lead : List Char
  /-- The run of the type. -/
  base : List Char
  /-- Blanks and the mark of a pointer or a reference. -/
  pointer : Option (List Char × Char)
  /-- Blanks between type and name. -/
  gap : List Char
  /-- The name. -/
  name : List Char
  /-- Blanks behind the name. -/
  tail : List Char
  /-- The default value, all that stands between `=` and `;`. -/
  value : Option (List Char)

namespace Written

/-- The marker, or nothing. -/
def markerText (marked : Bool) : List Char :=
  if marked then marker else []

/-- The blanks and the mark behind a type run, or nothing. -/
def pointerText : Option (List Char × Char) → List Char
  | none => []
  | some (b, m) => b ++ [m]

/-- The default value, if there is one, and the `;`. -/
def endingText : Option (List Char) → List Char
  | none => [';']
  | some v => '=' :: v ++ [';']

/-- The text of the type, pointer mark included. -/
def type (w : Written) : List Char :=
  w.base ++ pointerText w.pointer

/-- All pieces in order. -/
def text (w : Written) : List Char :=
  markerText w.marked ++ (w.lead ++ (w.base ++ (pointerText w.pointer ++
    (w.gap ++ (w.name ++ (w.tail ++ endingText w.value))))))

/-- What may stand in each piece. -/
structure Valid (w : Written) : Prop where
  lead : ∀ c ∈ w.lead, isBlank c = true
  base_ne_nil : w.base ≠ []
  base : ∀ c ∈ w.base, isTypeRun c = true
  pointer : ∀ p ∈ w.pointer, (∀ c ∈ p.1, isBlank c = true) ∧ isPointerMark p.2 = true
  gap_ne_nil : w.gap ≠ []
  gap : ∀ c ∈ w.gap, isBlank c = true
  name_ne_nil : w.name ≠ []
  name : ∀ c ∈ w.name, isWord c = true
  tail : ∀ c ∈ w.tail, isBlank c = true
  value : ∀ v ∈ w.value, v ≠ [] ∧ ∀ c ∈ v, (c != ';') = true

/-- Reads the marker if the text starts with it. -/
def readMarker (s : List Char) : Bool × List Char :=
  match after? marker s with
  | some r => (true, r)
  | none => (false, s)

/-- Reads a pointer mark and the blanks before it if they come next. -/
def readPointer (s : List Char) : Option (List Char × Char) × List Char :=
  match run isBlank s with
  | (b, m :: r) => if isPointerMark m then (some (b, m), r) else (none, s)
  | (_, []) => (none, s)

/-- Reads the default value, if there is one, and the `;`. -/
def readEnding? : List Char → Option (Option (List Char) × List Char)
  | ';' :: r => some (none, r)
  | '=' :: s => do
    let (v, s) ← run? (· != ';') s
    let r ← after? [';'] s
    return (some v, r)
  | _ => none

/-- Reads a field off the front of a text. -/
def read? (s : List Char) : Option (Written × List Char) := do
  let (marked, s) := readMarker s
  let (lead, s) := run isBlank s
  let (base, s) ← run? isTypeRun s
  let (pointer, s) := readPointer s
  let (gap, s) ← run? isBlank s
  let (name, s) ← run? isWord s
  let (tail, s) := run isBlank s
  let (value, r) ← readEnding? s
  return (⟨marked, lead, base, pointer, gap, name, tail, value⟩, r)

variable {w : Written} {s r : List Char}

theorem readEnding?_eq_some_iff {v : Option (List Char)} :
    readEnding? s = some (v, r) ↔
      s = endingText v ++ r ∧ ∀ u ∈ v, u ≠ [] ∧ ∀ c ∈ u, (c != ';') = true := by
  unfold readEnding?
  split
  · rename_i t
    cases v with
    | none => simp [endingText]
    | some u => simp [endingText]
  · rename_i t
    cases v with
    | none => simp [endingText, Option.bind_eq_some_iff]
    | some u =>
      simp only [bind, pure, Option.bind_eq_some_iff, Prod.exists, run?_eq_some_iff,
        after?_eq_some_iff, Option.some.injEq, Prod.mk.injEq, endingText,
        List.cons_append, List.cons.injEq, true_and, Option.mem_some_iff, forall_eq']
      constructor
      · rintro ⟨u', t', ⟨rfl, hne, hu, -⟩, r', rfl, rfl, rfl⟩
        exact ⟨by simp, hne, hu⟩
      · rintro ⟨rfl, hne, hu⟩
        exact ⟨u, ';' :: r, ⟨by simp, hne, hu, by simp⟩, r, by simp, rfl, rfl⟩
  · rename_i h₁ h₂
    simp only [reduceCtorEq, false_iff, not_and]
    intro hs
    cases v with
    | none => exact absurd hs (by simpa [endingText] using h₁ r)
    | some u => exact absurd hs (by simpa [endingText] using h₂ _)

theorem eq_of_readMarker {m : Bool} (h : readMarker s = (m, r)) : s = markerText m ++ r := by
  unfold readMarker at h
  split at h <;> simp only [Prod.mk.injEq] at h <;> obtain ⟨rfl, rfl⟩ := h
  · exact after?_eq_some_iff.1 ‹_›
  · rfl

theorem eq_of_readPointer {p : Option (List Char × Char)} (h : readPointer s = (p, r)) :
    s = pointerText p ++ r ∧
      ∀ q ∈ p, (∀ c ∈ q.1, isBlank c = true) ∧ isPointerMark q.2 = true := by
  unfold readPointer at h
  split at h
  · rename_i b m t hs
    obtain ⟨rfl, hb, -⟩ := run_eq_iff.1 hs
    split at h <;> simp only [Prod.mk.injEq] at h <;> obtain ⟨rfl, rfl⟩ := h
    · simp_all [pointerText]
    · simp [pointerText]
  · simp only [Prod.mk.injEq] at h
    obtain ⟨rfl, rfl⟩ := h
    simp [pointerText]

/-- What is read is valid, and stands at the front of the text. -/
theorem valid_of_read? (h : read? s = some (w, r)) : w.Valid ∧ s = w.text ++ r := by
  unfold read? at h
  rcases h₁ : readMarker s with ⟨m, s₁⟩
  rcases h₂ : run isBlank s₁ with ⟨lead, s₂⟩
  simp only [h₁, h₂, bind, pure, Option.bind_eq_some_iff, Prod.exists] at h
  obtain ⟨base, s₃, h₃, h⟩ := h
  rcases h₄ : readPointer s₃ with ⟨pointer, s₄⟩
  simp only [h₄] at h
  obtain ⟨gap, s₅, h₅, name, s₆, h₆, h⟩ := h
  rcases h₇ : run isBlank s₆ with ⟨tail, s₇⟩
  simp only [h₇, Option.some.injEq, Prod.mk.injEq] at h
  obtain ⟨value, s₈, h₈, rfl, rfl⟩ := h
  obtain ⟨rfl, hl, -⟩ := run_eq_iff.1 h₂
  obtain ⟨rfl, hbne, hb, -⟩ := run?_eq_some_iff.1 h₃
  obtain ⟨rfl, hp⟩ := eq_of_readPointer h₄
  obtain ⟨rfl, hgne, hg, -⟩ := run?_eq_some_iff.1 h₅
  obtain ⟨rfl, hnne, hn, -⟩ := run?_eq_some_iff.1 h₆
  obtain ⟨rfl, ht, -⟩ := run_eq_iff.1 h₇
  obtain ⟨rfl, hv⟩ := readEnding?_eq_some_iff.1 h₈
  exact ⟨⟨hl, hbne, hb, hp, hgne, hg, hnne, hn, ht, hv⟩, by
    rw [eq_of_readMarker h₁]; simp [text]⟩

/-- Neither the blanks before a pointer mark nor the mark belong to a type run. -/
theorem stops_pointerText {p : Option (List Char × Char)}
    (hp : ∀ q ∈ p, (∀ c ∈ q.1, isBlank c = true) ∧ isPointerMark q.2 = true)
    (hr : Stops isTypeRun r) : Stops isTypeRun (pointerText p ++ r) := by
  cases p with
  | none => exact hr
  | some q =>
    obtain ⟨hb, hm⟩ := hp q rfl
    rw [pointerText, List.append_assoc]
    exact stops_append_of_stops (fun c hc => isTypeRun_of_isBlank (hb c hc))
      (by simpa using isTypeRun_of_isPointerMark hm)

/-- Blanks belong to the type only with a pointer mark behind them. -/
theorem readPointer_pointerText {p : Option (List Char × Char)} {b : List Char}
    (hp : ∀ q ∈ p, (∀ c ∈ q.1, isBlank c = true) ∧ isPointerMark q.2 = true)
    (hb : ∀ c ∈ b, isBlank c = true) (h₁ : Stops isBlank r) (h₂ : Stops isPointerMark r) :
    readPointer (pointerText p ++ (b ++ r)) = (p, b ++ r) := by
  unfold readPointer
  cases p with
  | none =>
    rw [pointerText, List.nil_append, run_eq_iff.2 ⟨rfl, hb, h₁⟩]
    cases r with
    | nil => rfl
    | cons c r => simp [stops_cons.1 h₂]
  | some q =>
    obtain ⟨hq, hm⟩ := hp q rfl
    rw [pointerText, List.append_assoc,
      run_eq_iff.2 ⟨rfl, hq, by simpa using isBlank_of_isPointerMark hm⟩]
    simp [hm]

/-- Only a marker starts with a bracket. -/
theorem readMarker_of_head?_ne (h : ∀ c ∈ s.head?, c ≠ '[') : readMarker s = (false, s) := by
  unfold readMarker
  cases s with
  | nil => rfl
  | cons c s =>
    have : c ≠ '[' := h c rfl
    rw [marker_eq_cons, after?, if_neg (Ne.symm this)]

namespace Valid

/-- What follows the marker starts with a blank or with the type. -/
theorem readMarker_text (h : w.Valid) :
    readMarker (w.text ++ r) = (w.marked, (w.lead ++ (w.base ++ (pointerText w.pointer ++
      (w.gap ++ (w.name ++ (w.tail ++ endingText w.value)))))) ++ r) := by
  unfold text markerText
  cases hm : w.marked with
  | true => simp only [if_true, readMarker, List.append_assoc, after?_append]
  | false =>
    simp only [Bool.false_eq_true, if_false, List.nil_append, List.append_assoc]
    refine readMarker_of_head?_ne fun c hc => ?_
    have : isBlank c = true ∨ isTypeRun c = true := by
      cases hl : w.lead with
      | cons d l =>
        obtain rfl : d = c := by simpa [hl] using hc
        exact .inl (h.lead d (by simp [hl]))
      | nil =>
        cases hb : w.base with
        | nil => exact absurd hb h.base_ne_nil
        | cons d b =>
          obtain rfl : d = c := by simpa [hl, hb] using hc
          exact .inr (h.base d (by simp [hb]))
    rintro rfl
    exact absurd this (by decide +kernel)

theorem stops_gap (h : w.Valid) {p : Char → Bool} (hp : ∀ c, isBlank c = true → p c = false) :
    Stops p (w.gap ++ r) :=
  stops_append h.gap_ne_nil fun c hc => hp c (h.gap c hc)

theorem stops_name (h : w.Valid) {p : Char → Bool} (hp : ∀ c, isWord c = true → p c = false) :
    Stops p (w.name ++ r) :=
  stops_append h.name_ne_nil fun c hc => hp c (h.name c hc)

theorem stops_pointer (h : w.Valid) :
    Stops isTypeRun (pointerText w.pointer ++ (w.gap ++ r)) :=
  stops_pointerText h.pointer (h.stops_gap fun _ => isTypeRun_of_isBlank)

theorem readPointer_text (h : w.Valid) :
    readPointer (pointerText w.pointer ++ (w.gap ++ (w.name ++ r))) =
      (w.pointer, w.gap ++ (w.name ++ r)) :=
  readPointer_pointerText h.pointer h.gap (h.stops_name fun _ => isBlank_of_isWord)
    (h.stops_name fun _ => isPointerMark_of_isWord)

theorem stops_ending {p : Char → Bool} (h₁ : p ';' = false) (h₂ : p '=' = false)
    (v : Option (List Char)) : Stops p (endingText v ++ r) := by
  cases v <;> simp [endingText, h₁, h₂]

end Valid

theorem read?_text (h : w.Valid) : read? (w.text ++ r) = some (w, r) := by
  unfold read?
  rw [h.readMarker_text]
  have h₂ : run isBlank (w.lead ++ (w.base ++ (pointerText w.pointer ++ (w.gap ++ (w.name ++
      (w.tail ++ (endingText w.value ++ r))))))) = _ :=
    run_eq_iff.2 ⟨rfl, h.lead, stops_append h.base_ne_nil fun c hc =>
      isBlank_of_isTypeRun (h.base c hc)⟩
  have h₃ : run? isTypeRun (w.base ++ (pointerText w.pointer ++ (w.gap ++ (w.name ++
      (w.tail ++ (endingText w.value ++ r)))))) = some _ :=
    run?_eq_some_iff.2 ⟨rfl, h.base_ne_nil, h.base, h.stops_pointer⟩
  have h₅ : run? isBlank (w.gap ++ (w.name ++ (w.tail ++ (endingText w.value ++ r)))) = some _ :=
    run?_eq_some_iff.2 ⟨rfl, h.gap_ne_nil, h.gap, h.stops_name fun _ => isBlank_of_isWord⟩
  have h₆ : run? isWord (w.name ++ (w.tail ++ (endingText w.value ++ r))) = some _ :=
    run?_eq_some_iff.2 ⟨rfl, h.name_ne_nil, h.name,
      stops_append_of_stops (fun c hc => isWord_of_isBlank (h.tail c hc))
        (Valid.stops_ending (by decide +kernel) (by decide +kernel) _)⟩
  have h₇ : run isBlank (w.tail ++ (endingText w.value ++ r)) = _ :=
    run_eq_iff.2 ⟨rfl, h.tail, Valid.stops_ending (by decide) (by decide) _⟩
  have h₈ : readEnding? (endingText w.value ++ r) = some (w.value, r) :=
    readEnding?_eq_some_iff.2 ⟨rfl, h.value⟩
  simp [h₂, h₃, h.readPointer_text, h₅, h₆, h₇, h₈]

/-- A field is read exactly where a valid one stands. -/
theorem read?_eq_some_iff : read? s = some (w, r) ↔ w.Valid ∧ s = w.text ++ r := by
  constructor
  · exact valid_of_read?
  · rintro ⟨h, rfl⟩
    exact read?_text h

theorem text_ne_nil (h : w.Valid) : w.text ≠ [] := by
  simp [text, h.base_ne_nil]

/-- The reader of fields. -/
def reader : Reader Written where
  read? := read?
  shortens h := by
    obtain ⟨hw, rfl⟩ := valid_of_read? h
    have := List.length_pos_iff.2 (text_ne_nil hw)
    rw [List.length_append]
    omega

end Written

end HeaderMeta.Field
