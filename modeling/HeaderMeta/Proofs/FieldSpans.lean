import Mathlib.Data.List.DropRight
import HeaderMeta.Field
import HeaderMeta.Proofs.Trail

/-!
# Every `;` that can end a field ends one

`Written.shape.Span` tells where in a body a field is written. A field holds one `;`, which is its
end, so fields that overlap end together (`Written.endsTogether`), and `Field.ofBody` gives one field
for each `;` that ends one: of all that end there, the one that starts first
(`ofBody_leftmost_spans`). That a field is leftmost also tells what stands before its type: no
character that the type could be extended by, and the marker only if the field is marked
(`ofBody_placed`).
-/

namespace HeaderMeta.Field

open Text

namespace Written
variable {v w : Written} {c : Char} {x : List Char}

/-- The fields as they may be written. -/
def shape : Shape Written where
  Valid := Valid
  text := text

@[simp] theorem shape_text : shape.text w = w.text := rfl

theorem reader_reads : reader.Reads shape :=
  fun _ _ _ => read?_eq_some_iff

/-! ### The pieces of a field -/

/-- The pieces between the marker and the default value. -/
def middle (w : Written) : List Char :=
  w.lead ++ (w.base ++ (pointerText w.pointer ++ (w.gap ++ (w.name ++ w.tail))))

/-- The default value with its `=`, or nothing. -/
def valueText : Option (List Char) → List Char
  | none => []
  | some v => '=' :: v

/-- All pieces up to the `;`. -/
def front (w : Written) : List Char :=
  markerText w.marked ++ (w.middle ++ valueText w.value)

theorem endingText_eq_append (u : Option (List Char)) : endingText u = valueText u ++ [';'] := by
  cases u <;> rfl

theorem text_eq_front : w.text = w.front ++ [';'] := by
  simp [text, front, middle, endingText_eq_append]

theorem Valid.notMem_middle (h : w.Valid) (hb : isBlank c = false) (ht : isTypeRun c = false)
    (hm : isPointerMark c = false) : c ∉ w.middle := by
  have hw : isWord c = false := by
    by_contra hw
    rw [isTypeRun_of_isWord (by simpa using hw)] at ht
    cases ht
  simp only [middle, List.mem_append, not_or]
  refine ⟨fun hc => ?_, fun hc => ?_, fun hc => ?_, fun hc => ?_, fun hc => ?_, fun hc => ?_⟩
  · rw [h.lead c hc] at hb; cases hb
  · rw [h.base c hc] at ht; cases ht
  · cases hp : w.pointer with
    | none => rw [hp] at hc; cases hc
    | some q =>
      obtain ⟨h₁, h₂⟩ := h.pointer q hp
      rw [hp, pointerText, List.mem_append, List.mem_singleton] at hc
      rcases hc with hc | rfl
      · rw [h₁ c hc] at hb; cases hb
      · rw [h₂] at hm; cases hm
  · rw [h.gap c hc] at hb; cases hb
  · rw [h.name c hc] at hw; cases hw
  · rw [h.tail c hc] at hb; cases hb

theorem Valid.notMem_front_of_notMem_value (h : w.Valid) (hb : isBlank c = false)
    (ht : isTypeRun c = false) (hm : isPointerMark c = false) (hk : c ∉ marker) (he : c ≠ '=')
    (hv : ∀ u ∈ w.value, c ∉ u) : c ∉ w.front := by
  simp only [front, List.mem_append, not_or]
  refine ⟨?_, h.notMem_middle hb ht hm, fun hc => ?_⟩
  · unfold markerText
    split
    · exact hk
    · exact List.not_mem_nil
  · cases hu : w.value with
    | none => rw [hu] at hc; cases hc
    | some u =>
      rw [hu, valueText, List.mem_cons] at hc
      rcases hc with hc | hc
      · exact he hc
      · exact hv u hu hc

theorem Valid.notMem_front (h : w.Valid) : ';' ∉ w.front := by
  refine h.notMem_front_of_notMem_value (by decide) (by decide +kernel) (by decide) (by decide)
    (by decide) fun u hu hc => ?_
  exact absurd ((h.value u hu).2 _ hc) (by decide)

theorem landmark : shape.Landmark ';' [] where
  text w hw := ⟨w.front, text_eq_front, Valid.notMem_front hw⟩
  head _ _ _ _ := List.not_mem_nil

theorem endsTogether : shape.EndsTogether :=
  landmark.endsTogether

/-! ### Markers -/

/-- `v`, all but its `;`, is the end of the default value of `w`. -/
def InValue (v w : Written) : Prop :=
  ∃ x y, w.value = some (x ++ y) ∧ v.text = y ++ [';']

theorem marker_eq_cons_cons : marker = '[' :: '[' :: "Serialize]]".toList := rfl

theorem exists_front_eq_of_marked (hm : v.marked = true) : ∃ z, v.front = '[' :: '[' :: z :=
  ⟨_, by rw [front, markerText, if_pos hm, marker_eq_cons_cons]; rfl⟩

theorem valueText_ne_cons {u : Option (List Char)} {z : List Char} (hc : c ≠ '=') :
    valueText u ≠ c :: z := by
  intro h
  cases u with
  | none => cases h
  | some u =>
    rw [valueText, List.cons.injEq] at h
    exact hc h.1.symm

/-- Two brackets only open a marker, and a marker only comes first. -/
theorem eq_nil_of_markerText_append {m : Bool} {l z : List Char} (hl : '[' ∉ l)
    (h : markerText m ++ l = x ++ '[' :: '[' :: z) : x = [] := by
  cases m with
  | false => exact absurd (by rw [show l = x ++ '[' :: '[' :: z from h]; simp) hl
  | true =>
    rw [markerText, if_pos rfl, marker_eq_cons_cons] at h
    match x, h with
    | [], _ => rfl
    | [a], h =>
      simp only [List.cons_append, List.nil_append, List.cons.injEq] at h
      exact absurd h.2.2 (by simp)
    | a :: b :: x, h =>
      simp only [List.cons_append, List.cons.injEq] at h
      have hmem : '[' ∈ "Serialize]]".toList ++ l := by rw [h.2.2]; simp
      rcases List.mem_append.1 hmem with hc | hc
      · exact absurd hc (by decide)
      · exact absurd hc hl

/-- A marked field that ends where another one does starts there as well, or in its default value. -/
theorem eq_nil_or_inValue (hw : w.Valid) (hm : v.marked = true) (h : w.text = x ++ v.text) :
    x = [] ∨ v.InValue w := by
  obtain ⟨z, hz⟩ := exists_front_eq_of_marked hm
  rw [text_eq_front, text_eq_front, ← List.append_assoc] at h
  have hfr := List.append_cancel_right h
  rw [front, ← List.append_assoc] at hfr
  rcases List.append_eq_append_iff.1 hfr with ⟨l, rfl, hl⟩ | ⟨l, hx, hl⟩
  · -- the marker stands behind the name
    refine .inr ?_
    cases hv : w.value with
    | none => rw [hv, hz] at hl; simp [valueText] at hl
    | some u =>
      rw [hv, valueText] at hl
      cases l with
      | nil => rw [hz] at hl; simp at hl
      | cons d l =>
        simp only [List.cons_append, List.cons.injEq] at hl
        exact ⟨l, v.front, by rw [hv, hl.2], text_eq_front⟩
  · -- the marker starts before the default value, so both of its brackets do
    refine .inl ?_
    rw [hz] at hl
    match l, hl with
    | [], hl => exact absurd hl.symm (valueText_ne_cons (by decide))
    | [_], hl =>
      simp only [List.cons_append, List.nil_append, List.cons.injEq] at hl
      exact absurd hl.2.symm (valueText_ne_cons (by decide))
    | a :: b :: l, hl =>
      simp only [List.cons_append, List.cons.injEq] at hl
      obtain ⟨rfl, rfl, -⟩ := hl
      exact eq_nil_of_markerText_append
        (hw.notMem_middle (by decide) (by decide +kernel) (by decide)) hx

theorem eq_or_inValue_of_leftmost {t : List Char} {i j n : Nat} (h : shape.Leftmost t i n w)
    (hv : shape.Span t j n v) (hm : v.marked = true) : (j = i ∧ v = w) ∨ v.InValue w := by
  obtain ⟨x, hx, rfl⟩ := h.exists_text_eq hv
  rcases eq_nil_or_inValue h.span.valid hm hx with rfl | hx'
  · exact .inl ⟨rfl, (reader_reads.span_eq hv h.span).2⟩
  · exact .inr hx'

theorem exists_semicolon_of_span {t : List Char} {i m : Nat} (h : shape.Span t i (m + 1) w) :
    ∃ u r, t = u ++ ';' :: r ∧ size u = m := by
  obtain ⟨-, u, r, rfl, -, hn⟩ := h
  rw [shape_text, text_eq_front, size_append, size_append] at hn
  refine ⟨u ++ w.front, r, by rw [shape_text, text_eq_front]; simp, ?_⟩
  have : size [';'] = 1 := by decide
  rw [size_append]
  omega

end Written

/-- A field is written in one way where it starts. The fields of a body are, one for each `;` that
ends a field and in their order, those that start leftmost. A marked field that ends at the same `;`
is the one that is listed, unless it lies in the default value of that one. -/
theorem ofBody_leftmost_spans (body : String) :
    (∀ i m n v w, Written.shape.Span body.toList i m v → Written.shape.Span body.toList i n w →
      m = n ∧ v = w) ∧
    ∃ semis : List Nat, semis.Pairwise (· < ·) ∧
      (∀ m ∈ semis, ∃ u r, body.toList = u ++ ';' :: r ∧ size u = m) ∧
      (∀ m, m ∈ semis ↔ ∃ i w, Written.shape.Span body.toList i (m + 1) w) ∧
      List.Forall₂ (fun m f => ∃ i w, Written.shape.Leftmost body.toList i (m + 1) w ∧
          f = ofWritten w ∧ ∀ j v, Written.shape.Span body.toList j (m + 1) v → v.marked = true →
            (j = i ∧ v = w) ∨ v.InValue w)
        semis (ofBody body) := by
  have hR := Written.reader_reads
  have hS := Written.endsTogether
  set t := body.toList
  have hpos : ∀ f ∈ Written.reader.trail t, f.stop t - 1 + 1 = f.stop t := fun f hf => by
    have := Reader.start_lt_stop hR hf
    omega
  have hiff : ∀ m, m ∈ (Written.reader.trail t).map (fun f => f.stop t - 1) ↔
      ∃ i w, Written.shape.Span t i (m + 1) w := by
    intro m
    rw [← Reader.exists_stop_eq_iff hR hS, List.mem_map]
    refine exists_congr fun f => and_congr_right fun hf => ?_
    have := hpos f hf
    omega
  refine ⟨fun i m n v w => hR.span_eq, (Written.reader.trail t).map fun f => f.stop t - 1, ?_,
    fun m hm => ?_, hiff, ?_⟩
  · have h := Reader.pairwise_stop_lt (s := t) hR
    rw [List.pairwise_map] at h ⊢
    refine h.imp_of_mem fun {f g} hf hg hfg => ?_
    have := hpos f hf
    have := hpos g hg
    omega
  · obtain ⟨i, w, hw⟩ := (hiff m).1 hm
    exact Written.exists_semicolon_of_span hw
  · rw [ofBody, Reader.forall₂_map_scan_iff]
    intro f hf
    have hl := Reader.leftmost_of_mem_trail hR hS hf
    rw [hpos f hf]
    exact ⟨_, _, hl, rfl, fun j v => Written.eq_or_inValue_of_leftmost hl⟩

example : ofBody "[[Serialize]] int a = [[Serialize]] int b;" = [⟨"a", "int", true⟩] := by decide +kernel

/-! ### What stands before a type -/

/-- Where a field's type stands: behind `p` and before `q`. -/
structure Placed (p q : List Char) (f : Field) : Prop where
  /-- Blanks, the name, perhaps blanks, and `;` or `=` follow. -/
  name : ∃ gap tail r, q = gap ++ (f.name.toList ++ (tail ++ r)) ∧ gap ≠ [] ∧
    allBlank gap = true ∧ allBlank tail = true ∧ ∃ c ∈ r.head?, c = ';' ∨ c = '='
  /-- The type is not cut on the left. -/
  whole : ∀ c ∈ p.getLast?, isTypeRun c = false
  /-- The marker stands right before it, or blanks in between, if the field is marked. -/
  marked_iff : f.marked = true ↔ marker <:+ p.rdropWhile isBlank

namespace Written
variable {t u r b : List Char} {w : Written} {i n : Nat}

/-- What stands between the start of a field and its type. -/
def opening (w : Written) : List Char :=
  markerText w.marked ++ w.lead

/-- What stands behind the type. -/
def closing (w : Written) : List Char :=
  w.gap ++ (w.name ++ (w.tail ++ endingText w.value))

theorem text_eq_opening : w.text = w.opening ++ (w.type ++ w.closing) := by
  simp [text, opening, type, closing]

/-- A field without a marker can start with one more character of the type. -/
theorem Valid.cons_base {c : Char} (h : w.Valid) (hc : isTypeRun c = true) :
    ({ w with base := c :: w.base } : Written).Valid :=
  { h with
    base_ne_nil := List.cons_ne_nil c w.base
    base := List.forall_mem_cons.2 ⟨hc, h.base⟩ }

theorem Valid.mark (h : w.Valid) (hb : ∀ c ∈ b, isBlank c = true) :
    ({ w with marked := true, lead := b ++ w.lead } : Written).Valid :=
  { h with lead := List.forall_mem_append.2 ⟨hb, h.lead⟩ }

theorem rdropWhile_append_blank (hb : ∀ c ∈ b, isBlank c = true) :
    (u ++ b).rdropWhile isBlank = u.rdropWhile isBlank := by
  rw [List.rdropWhile, List.rdropWhile, List.reverse_append,
    List.dropWhile_append_of_pos fun c hc => hb c (List.mem_reverse.1 hc)]

theorem marker_eq_concat : marker = "[[Serialize]".toList ++ [']'] := rfl

theorem rdropWhile_append_marker : (u ++ marker).rdropWhile isBlank = u ++ marker := by
  rw [marker_eq_concat, ← List.append_assoc]
  exact List.rdropWhile_concat_neg _ _ _ (by decide)

theorem exists_head?_endingText (v : Option (List Char)) :
    ∃ c ∈ (endingText v ++ r).head?, c = ';' ∨ c = '=' := by
  cases v with
  | none => exact ⟨';', rfl, .inl rfl⟩
  | some v => exact ⟨'=', rfl, .inr rfl⟩

/-- What stands before a leftmost field cannot be read as a part of it. -/
theorem eq_nil_of_leftmost {x : List Char} {w' : Written}
    (h : shape.Leftmost (u ++ (x ++ (w.text ++ r))) (size (u ++ x)) n w) (hw : w'.Valid)
    (ht : w'.text = x ++ w.text) : x = [] := by
  refine h.eq_nil_of_text_eq (j := size u) ⟨hw, u, r, ?_, rfl, ?_⟩ ht
  · rw [shape_text, ht, List.append_assoc]
  · have := h.span.stop_eq_add
    rw [shape_text, ht]
    simp only [shape_text, size_append] at this ⊢
    omega

theorem isTypeRun_getLast?_of_leftmost (h : shape.Leftmost (u ++ (w.text ++ r)) (size u) n w) :
    ∀ c ∈ (u ++ w.opening).getLast?, isTypeRun c = false := by
  intro c hc
  have hv : w.Valid := h.span.valid
  rw [opening] at hc
  rcases List.eq_nil_or_concat w.lead with hl | ⟨l, d, hl⟩
  · cases hm : w.marked with
    | true =>
      rw [hl, hm, markerText, if_pos rfl, marker_eq_concat, List.append_nil, ← List.append_assoc,
        List.getLast?_concat] at hc
      obtain rfl : ']' = c := by simpa using hc
      decide +kernel
    | false =>
      -- one more character of the type would make an earlier start
      rw [hl, hm, show markerText false = [] from rfl, List.append_nil, List.append_nil] at hc
      obtain ⟨u, rfl⟩ := List.getLast?_eq_some_iff.1 hc
      by_contra ht
      have hb := hv.cons_base (c := c) (by simpa using ht)
      rw [List.append_assoc] at h
      have := eq_nil_of_leftmost h hb (by simp [text, hm, hl, markerText])
      cases this
  · rw [hl, List.concat_eq_append, ← List.append_assoc, ← List.append_assoc,
      List.getLast?_concat] at hc
    obtain rfl : d = c := by simpa using hc
    exact isTypeRun_of_isBlank (hv.lead d (by simp [hl]))

theorem marked_iff_of_leftmost (h : shape.Leftmost (u ++ (w.text ++ r)) (size u) n w) :
    w.marked = true ↔ marker <:+ (u ++ w.opening).rdropWhile isBlank := by
  have hv : w.Valid := h.span.valid
  rw [opening, ← List.append_assoc, rdropWhile_append_blank hv.lead]
  constructor
  · intro hm
    rw [hm, markerText, if_pos rfl, rdropWhile_append_marker]
    exact List.suffix_append u marker
  · rintro ⟨u', hu'⟩
    by_contra hm
    rw [Bool.not_eq_true] at hm
    rw [hm, show markerText false = [] from rfl, List.append_nil] at hu'
    -- the marker and the blanks behind it would make an earlier start
    have hu : u = u' ++ (marker ++ u.rtakeWhile isBlank) := by
      rw [← List.append_assoc, hu', List.rdropWhile_append_rtakeWhile]
    have hb := hv.mark (b := u.rtakeWhile isBlank) fun c hc => List.mem_rtakeWhile_imp hc
    generalize u.rtakeWhile isBlank = b at hu hb
    subst hu
    rw [List.append_assoc] at h
    have := eq_nil_of_leftmost h hb (by simp [text, hm, markerText])
    simp [marker_eq_cons] at this

theorem placed_of_leftmost (h : shape.Leftmost (u ++ (w.text ++ r)) (size u) n w) :
    Placed (u ++ w.opening) (w.closing ++ r) (ofWritten w) where
  name := by
    have hv : w.Valid := h.span.valid
    refine ⟨w.gap, w.tail, endingText w.value ++ r, by simp [closing, ofWritten], hv.gap_ne_nil,
      List.all_eq_true.2 hv.gap, List.all_eq_true.2 hv.tail, exists_head?_endingText _⟩
  whole := isTypeRun_getLast?_of_leftmost h
  marked_iff := marked_iff_of_leftmost h

theorem Valid.size_opening_lt (h : w.Valid) : size w.opening < size w.text := by
  have := size_pos h.base_ne_nil
  simp only [text_eq_opening, type, size_append]
  omega

end Written

/-- The fields of a body stand one behind another, each with its whole type, and each is marked if
and only if the marker stands right before the type. -/
theorem ofBody_placed (body : String) :
    ∃ places : List Nat, places.Pairwise (· < ·) ∧
      List.Forall₂ (fun n f => ∃ p q, body.toList = p ++ (f.type.toList ++ q) ∧ size p = n ∧
          Placed p q f)
        places (ofBody body) := by
  have hR := Written.reader_reads
  have hS := Written.endsTogether
  set t := body.toList
  have hl : ∀ f ∈ Written.reader.trail t, Written.shape.Leftmost t (f.start t) (f.stop t) f.item :=
    fun f hf => Reader.leftmost_of_mem_trail hR hS hf
  refine ⟨(Written.reader.trail t).map fun f => f.start t + size f.item.opening, ?_, ?_⟩
  · rw [List.pairwise_map]
    refine (Reader.pairwise_stop_le_start hR).imp_of_mem fun {f g} hf hg hfg => ?_
    have h₁ := (hl f hf).span.stop_eq_add
    have h₂ : size f.item.opening < size (Written.shape.text f.item) :=
      Written.Valid.size_opening_lt (hl f hf).span.valid
    omega
  · rw [ofBody, Reader.forall₂_map_scan_iff]
    intro f hf
    have h := hl f hf
    obtain ⟨-, u, r, he, hu, -⟩ := h.span
    rw [← hu, he] at h
    refine ⟨u ++ f.item.opening, f.item.closing ++ r, ?_, ?_, Written.placed_of_leftmost h⟩
    · rw [he, Written.shape_text, Written.text_eq_opening]
      simp [ofWritten]
    · rw [← hu, size_append]

/-- The marker does not stand right before the type. -/
example : ofBody "[[Serialize]] unsigned int x;" = [⟨"x", "int", false⟩] := by decide +kernel

end HeaderMeta.Field
