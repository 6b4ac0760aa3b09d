import Mathlib.Data.List.Forall2
import Mathlib.Data.List.Nodup
import HeaderMeta.Text.Reader
import HeaderMeta.Text.Split

/-!
# Which items a scan finds

`Reader.trail` is `Reader.scan` with the text from each item on and the text behind it, so that it
can be said where the items stand. A `Shape` tells which items are valid and how each one is
written; `R.Reads S` says that `R` reads an item exactly where a valid one is written.

A scan goes on behind an item once it has read it, so it does not see what starts inside. Nothing is
lost by that if `S.EndsTogether`: an item that starts inside another one ends where that one ends.
Then the scan gives the leftmost of all items that end at one place, for each place where an item
ends (`trail_covers`, `leftmost_of_mem_trail`, `exists_stop_eq_iff`).
-/

namespace HeaderMeta.Text

variable {α : Type}

/-! ### Offsets -/

section
variable {u v s t : List Char}

theorem size_pos (h : u ≠ []) : 0 < size u := by
  cases u with
  | nil => exact absurd rfl h
  | cons c u => have := c.utf8Size_pos; rw [size_cons]; omega

theorem size_le_of_suffix (h : u <:+ v) : size u ≤ size v := by
  obtain ⟨x, rfl⟩ := h
  rw [size_append]; omega

/-- Of two cuts of a text, the one at the smaller offset comes first. -/
theorem exists_of_size_le (h : u ++ s = v ++ t) (hs : size u ≤ size v) :
    ∃ x, v = u ++ x ∧ s = x ++ t := by
  rcases List.append_eq_append_iff.1 h with ⟨x, rfl, rfl⟩ | ⟨x, rfl, rfl⟩
  · exact ⟨x, rfl, rfl⟩
  · have hx : x = [] := by
      by_contra hne
      have := size_pos hne
      rw [size_append] at hs; omega
    subst hx
    exact ⟨[], by simp, by simp⟩

theorem append_inj_of_size (h : u ++ s = v ++ t) (hs : size u = size v) : u = v ∧ s = t := by
  have h₁ : cut? (u ++ s) (size v) = some (u, s) := cut?_eq_some_iff.2 ⟨rfl, hs⟩
  have h₂ : cut? (u ++ s) (size v) = some (v, t) := cut?_eq_some_iff.2 ⟨h, rfl⟩
  rw [h₁] at h₂
  simpa using h₂

theorem eq_of_append_cons_eq {k : Char} (hu : k ∉ u) (hv : k ∉ v) (h : u ++ k :: s = v ++ k :: t) :
    s = t := by
  have hne : ∀ {w : List Char}, k ∉ w → ∀ c ∈ w, (c != k) = true := fun hw c hc => by
    simpa using fun e : c = k => hw (e ▸ hc)
  have h₁ : run (· != k) (u ++ k :: s) = (u, k :: s) :=
    run_eq_iff.2 ⟨rfl, hne hu, stops_cons.2 (by simp)⟩
  have h₂ : run (· != k) (u ++ k :: s) = (v, k :: t) :=
    run_eq_iff.2 ⟨h, hne hv, stops_cons.2 (by simp)⟩
  rw [h₁] at h₂
  simp only [Prod.mk.injEq, List.cons.injEq, true_and] at h₂
  exact h₂.2

end

/-! ### Shapes and spans -/

/-- A kind of text: which items are valid, and how each one is written. -/
structure Shape (α : Type) where
  Valid : α → Prop
  text : α → List Char

namespace Shape
variable {S : Shape α} {t : List Char} {i j m n : Nat} {a b : α}

/-- A valid `a` is written in `t` from the offset `start` to the offset `stop`. -/
structure Span (S : Shape α) (t : List Char) (start stop : Nat) (a : α) : Prop where
  valid : S.Valid a
  placed : ∃ u r, t = u ++ (S.text a ++ r) ∧ size u = start ∧ size (u ++ S.text a) = stop

/-- Of all that is written in `t` up to the offset `stop`, `a` starts first. -/
structure Leftmost (S : Shape α) (t : List Char) (start stop : Nat) (a : α) : Prop where
  span : S.Span t start stop a
  le : ∀ j b, S.Span t j stop b → start ≤ j

/-- An item that starts inside another one ends where that one ends. -/
def EndsTogether (S : Shape α) : Prop :=
  ∀ ⦃a b : α⦄ ⦃x y r r' : List Char⦄, S.Valid a → S.Valid b → S.text a = x ++ y → y ≠ [] →
    y ++ r = S.text b ++ r' → r = r'

/-- Every item ends with `k :: z` and has no `k` before that, and none starts with a character of `z`. -/
structure Landmark (S : Shape α) (k : Char) (z : List Char) : Prop where
  text : ∀ a, S.Valid a → ∃ y, S.text a = y ++ k :: z ∧ k ∉ y
  head : ∀ a, S.Valid a → ∀ c ∈ (S.text a).head?, c ∉ z

theorem Landmark.endsTogether {k : Char} {z : List Char} (hS : S.Landmark k z) : S.EndsTogether := by
  intro a b x y r r' ha hb hxy hy h
  obtain ⟨f, hf, hkf⟩ := hS.text a ha
  obtain ⟨g, hg, hkg⟩ := hS.text b hb
  have key : ∀ l, k ∉ l → y = l ++ k :: z → r = r' := by
    rintro l hl rfl
    rw [hg, List.append_assoc, List.append_assoc] at h
    exact List.append_cancel_left (eq_of_append_cons_eq hl hkg h)
  rw [hf] at hxy
  rcases List.append_eq_append_iff.1 hxy with ⟨l, -, hl⟩ | ⟨l, rfl, hl⟩
  · cases l with
    | nil => exact key [] List.not_mem_nil hl.symm
    | cons d l =>
      -- the second item would have to start behind the landmark
      simp only [List.cons_append, List.cons.injEq] at hl
      obtain ⟨c, y, rfl⟩ := List.exists_cons_of_ne_nil hy
      obtain ⟨e, w, he⟩ := List.exists_cons_of_ne_nil (l := S.text b) (by simp [hg])
      rw [he, List.cons_append, List.cons_append, List.cons.injEq] at h
      exact absurd (by simp [hl.2, h.1]) (hS.head b hb e (by simp [he]))
  · exact key l (fun hkl => hkf (List.mem_append_right x hkl)) hl

theorem Span.stop_eq_of_le (hS : S.EndsTogether) (ha : S.Span t i m a) (hb : S.Span t j n b)
    (hij : i ≤ j) (hjm : j < m) : m = n := by
  obtain ⟨hva, u, r, rfl, rfl, rfl⟩ := ha
  obtain ⟨hvb, v, r', h, rfl, rfl⟩ := hb
  obtain ⟨x, rfl, hx⟩ := exists_of_size_le h hij
  simp only [size_append] at hjm
  obtain ⟨y, hy, hyr⟩ := exists_of_size_le hx.symm (by omega)
  have hne : y ≠ [] := by
    rintro rfl
    have := congrArg size hy
    simp only [size_append, size_nil] at this; omega
  obtain rfl := hS hva hvb hy hne hyr.symm
  have := congrArg size hx
  simp only [size_append] at this ⊢
  omega

/-- Spans that overlap end at the same offset. -/
theorem Span.stop_eq (hS : S.EndsTogether) (ha : S.Span t i m a) (hb : S.Span t j n b)
    (h₁ : i < n) (h₂ : j < m) : m = n := by
  rcases Nat.le_total i j with hij | hij
  · exact ha.stop_eq_of_le hS hb hij h₂
  · exact (hb.stop_eq_of_le hS ha hij h₁).symm

theorem Span.stop_eq_add (h : S.Span t i n a) : i + size (S.text a) = n := by
  obtain ⟨-, u, r, -, rfl, rfl⟩ := h
  exact size_append.symm

/-- All that ends where the leftmost item ends stands at the end of its text. -/
theorem Leftmost.exists_text_eq (ha : S.Leftmost t i n a) (hb : S.Span t j n b) :
    ∃ x, S.text a = x ++ S.text b ∧ j = i + size x := by
  have hij := ha.le j b hb
  obtain ⟨-, u, r, rfl, rfl, hn⟩ := ha.span
  obtain ⟨-, v, r', h, rfl, hm⟩ := hb
  rw [← List.append_assoc, ← List.append_assoc] at h
  obtain ⟨h, -⟩ := append_inj_of_size h (hn.trans hm.symm)
  obtain ⟨x, rfl, hx⟩ := exists_of_size_le h hij
  exact ⟨x, hx, size_append⟩

/-- Nothing that is written in front of the leftmost item can be part of it. -/
theorem Leftmost.eq_nil_of_text_eq (ha : S.Leftmost t i n a) (hb : S.Span t j n b) {x : List Char}
    (h : S.text b = x ++ S.text a) : x = [] := by
  obtain ⟨y, hy, -⟩ := ha.exists_text_eq hb
  have hl := congrArg List.length h
  rw [hy] at hl
  simp only [List.length_append] at hl
  exact List.eq_nil_of_length_eq_zero (by omega)

end Shape

/-! ### The trail of a scan -/

/-- An item that was read: the text from it on, and the text behind it. -/
structure Found (α : Type) where
  here : List Char
  item : α
  rest : List Char

namespace Found

/-- The offset in `t` at which an item starts. -/
def start (t : List Char) (f : Found α) : Nat :=
  size t - size f.here

/-- The offset in `t` at which an item ends. -/
def stop (t : List Char) (f : Found α) : Nat :=
  size t - size f.rest

end Found

namespace Reader
variable {R : Reader α} {S : Shape α} {s t r : List Char} {a b : α} {c : Char} {f g : Found α}

/-- `R` reads an item off the front of a text exactly if a valid one is written there. -/
def Reads (R : Reader α) (S : Shape α) : Prop :=
  ∀ ⦃s r : List Char⦄ ⦃a : α⦄, R.read? s = some (a, r) ↔ S.Valid a ∧ s = S.text a ++ r

/-- The reader that also tells where it has read. -/
def located (R : Reader α) : Reader (Found α) where
  read? s := (R.read? s).map fun x => (⟨s, x.1, x.2⟩, x.2)
  shortens h := by
    obtain ⟨x, hx, h⟩ := Option.map_eq_some_iff.1 h
    rw [Prod.mk.injEq] at h
    exact h.2 ▸ R.shortens hx

/-- What a scan finds in a text, with the places where it stands. -/
def trail (R : Reader α) (s : List Char) : List (Found α) :=
  R.located.scan s

theorem read?_nil (R : Reader α) : R.read? [] = none := by
  cases h : R.read? [] with
  | none => rfl
  | some x => exact absurd (R.shortens h) (by simp)

/-- Induction along a scan: behind an item that is read, one character on where there is none. -/
theorem scan_induction (R : Reader α) {P : List Char → Prop} (nil : P [])
    (read : ∀ s a r, R.read? s = some (a, r) → P r → P s)
    (skip : ∀ c s, R.read? (c :: s) = none → P s → P (c :: s)) (s : List Char) : P s := by
  induction hn : s.length using Nat.strongRecOn generalizing s with
  | _ n ih =>
    subst hn
    cases h : R.read? s with
    | some x => exact read s x.1 x.2 h (ih _ (R.shortens h) _ rfl)
    | none =>
      cases s with
      | nil => exact nil
      | cons c s => exact skip c s h (ih _ (by simp) _ rfl)

@[simp] theorem trail_nil : R.trail [] = [] := by
  rw [trail, scan]

theorem trail_of_read? (h : R.read? s = some (a, r)) : R.trail s = ⟨s, a, r⟩ :: R.trail r :=
  scan_of_read? (by simp [located, h])

theorem trail_cons_of_none (h : R.read? (c :: s) = none) : R.trail (c :: s) = R.trail s :=
  scan_cons_of_none (by simp [located, h])

theorem map_item_trail : (R.trail s).map Found.item = R.scan s := by
  induction s using R.scan_induction with
  | nil => rw [trail_nil, scan, List.map_nil]
  | read s a r h ih => rw [trail_of_read? h, scan_of_read? h, List.map_cons, ih]
  | skip c s h ih => rw [trail_cons_of_none h, scan_cons_of_none h, ih]

theorem forall₂_map_scan_iff {β γ : Type} {q : β → γ → Prop} {i : Found α → β} {j : α → γ} :
    List.Forall₂ q ((R.trail s).map i) ((R.scan s).map j) ↔ ∀ f ∈ R.trail s, q (i f) (j f.item) := by
  rw [← map_item_trail, List.map_map, List.forall₂_map_left_iff, List.forall₂_map_right_iff,
    List.forall₂_same]
  rfl

namespace Reads

theorem text_ne_nil (h : R.Reads S) (ha : S.Valid a) : S.text a ≠ [] := by
  intro he
  have := R.shortens (h.2 ⟨ha, (List.append_nil _).symm⟩)
  rw [he] at this
  exact absurd this (by simp)

theorem item_eq (h : R.Reads S) {r' : List Char} (ha : S.Valid a) (hb : S.Valid b)
    (he : S.text a ++ r = S.text b ++ r') : a = b ∧ r = r' := by
  have h₁ : R.read? (S.text a ++ r) = some (a, r) := h.2 ⟨ha, rfl⟩
  have h₂ : R.read? (S.text a ++ r) = some (b, r') := h.2 ⟨hb, he⟩
  rw [h₁] at h₂
  simpa using h₂

/-- At one place one item is written, and in one way. -/
theorem span_eq (h : R.Reads S) {i m n : Nat} (ha : S.Span t i m a) (hb : S.Span t i n b) :
    m = n ∧ a = b := by
  obtain ⟨hva, u, r, rfl, rfl, rfl⟩ := ha
  obtain ⟨hvb, v, r', he, hv, rfl⟩ := hb
  obtain ⟨rfl, hrest⟩ := append_inj_of_size he hv.symm
  obtain ⟨rfl, -⟩ := h.item_eq hva hvb hrest
  exact ⟨rfl, rfl⟩

end Reads

/-! ### What the trail holds -/

section
variable (hR : R.Reads S)
include hR

theorem here_eq_of_mem_trail (h : f ∈ R.trail s) :
    S.Valid f.item ∧ f.here = S.text f.item ++ f.rest ∧ f.here <:+ s := by
  induction s using R.scan_induction with
  | nil => simp at h
  | read s a r hs ih =>
    obtain ⟨ha, rfl⟩ := hR.1 hs
    rw [trail_of_read? hs, List.mem_cons] at h
    rcases h with rfl | h
    · exact ⟨ha, rfl, List.suffix_rfl⟩
    · obtain ⟨hv, he, hf⟩ := ih h
      exact ⟨hv, he, hf.trans (List.suffix_append _ _)⟩
  | skip c s hs ih =>
    rw [trail_cons_of_none hs] at h
    obtain ⟨hv, he, hf⟩ := ih h
    exact ⟨hv, he, hf.trans (List.suffix_cons _ _)⟩

theorem valid_of_mem_scan (h : a ∈ R.scan s) : S.Valid a := by
  rw [← map_item_trail] at h
  obtain ⟨f, hf, rfl⟩ := List.mem_map.1 h
  exact (here_eq_of_mem_trail hR hf).1

/-- Where a literal that every item has does not stand, no item does. -/
theorem scan_eq_nil_of_not_infix {lit : List Char} (hlit : ∀ a, S.Valid a → lit <:+: S.text a)
    (h : ¬ lit <:+: s) : R.scan s = [] := by
  by_contra hne
  rw [← map_item_trail, List.map_eq_nil_iff] at hne
  obtain ⟨f, hf⟩ := List.exists_mem_of_ne_nil _ hne
  obtain ⟨hv, he, hs⟩ := here_eq_of_mem_trail hR hf
  have htext : S.text f.item <:+: f.here := he ▸ (List.prefix_append ..).isInfix
  exact h ((hlit f.item hv).trans (htext.trans hs.isInfix))

theorem pairwise_trail : (R.trail s).Pairwise fun f g => g.here <:+ f.rest := by
  induction s using R.scan_induction with
  | nil => simp
  | read s a r hs ih =>
    rw [trail_of_read? hs, List.pairwise_cons]
    exact ⟨fun g hg => (here_eq_of_mem_trail hR hg).2.2, ih⟩
  | skip c s hs ih => rwa [trail_cons_of_none hs]

theorem length_rest_lt (h : f ∈ R.trail s) : f.rest.length < f.here.length := by
  obtain ⟨hv, he, -⟩ := here_eq_of_mem_trail hR h
  have := List.length_pos_iff.2 (hR.text_ne_nil hv)
  rw [he, List.length_append]; omega

theorem eq_of_rest_eq (hf : f ∈ R.trail s) (hg : g ∈ R.trail s) (h : f.rest = g.rest) : f = g := by
  have hnd : ((R.trail s).map Found.rest).Nodup := by
    rw [List.Nodup, List.pairwise_map]
    refine (pairwise_trail hR).imp_of_mem fun {f g} _ hg hfg he => ?_
    have := length_rest_lt hR hg
    have := hfg.length_le
    rw [he] at this; omega
  exact List.inj_on_of_nodup_map hnd hf hg h

/-- Where an item ends there ends one that the scan finds, and it does not start later. -/
theorem trail_covers (hS : S.EndsTogether) (hb : S.Valid b) (h : S.text b ++ r <:+ s) :
    ∃ f ∈ R.trail s, f.rest = r ∧ S.text b ++ r <:+ f.here := by
  induction s using R.scan_induction with
  | nil => simp [hR.text_ne_nil hb] at h
  | read s a r' hs ih =>
    obtain ⟨ha, rfl⟩ := hR.1 hs
    rw [trail_of_read? hs]
    obtain ⟨x, hx⟩ := h
    rcases List.append_eq_append_iff.1 hx with ⟨y, hy, hyr⟩ | ⟨y, rfl, hyr⟩
    · by_cases hne : y = []
      · subst hne
        obtain ⟨f, hf, hfr⟩ := ih ⟨[], by simpa using hyr⟩
        exact ⟨f, by simp [hf], hfr⟩
      · -- the item starts inside the one that is read, so both end together
        obtain rfl := hS ha hb hy hne hyr.symm
        exact ⟨_, List.mem_cons_self .., rfl, ⟨x, hx⟩⟩
    · obtain ⟨f, hf, hfr⟩ := ih ⟨y, hyr.symm⟩
      exact ⟨f, by simp [hf], hfr⟩
  | skip c s hs ih =>
    rw [trail_cons_of_none hs]
    rcases List.suffix_cons_iff.1 h with h | h
    · rw [hR.2 ⟨hb, h.symm⟩] at hs
      exact absurd hs (by simp)
    · exact ih h

/-! ### Offsets of the trail -/

theorem size_stop_of_mem_trail (h : f ∈ R.trail s) : f.stop s + size f.rest = size s := by
  obtain ⟨-, he, hs⟩ := here_eq_of_mem_trail hR h
  have := size_le_of_suffix (he ▸ hs)
  rw [size_append] at this
  rw [Found.stop]; omega

theorem span_of_mem_trail (h : f ∈ R.trail s) : S.Span s (f.start s) (f.stop s) f.item := by
  obtain ⟨hv, he, u, rfl⟩ := here_eq_of_mem_trail hR h
  refine ⟨hv, u, f.rest, by rw [he], ?_, ?_⟩
  · rw [Found.start, size_append]; omega
  · have := congrArg size he
    simp only [Found.stop, size_append] at this ⊢; omega

theorem leftmost_of_mem_trail (hS : S.EndsTogether) (h : f ∈ R.trail s) :
    S.Leftmost s (f.start s) (f.stop s) f.item := by
  refine ⟨span_of_mem_trail hR h, ?_⟩
  rintro j b ⟨hb, u, r, rfl, rfl, hu⟩
  obtain ⟨g, hg, rfl, hgb⟩ := trail_covers (r := r) hR hS hb (List.suffix_append u _)
  have hfg : f = g := by
    refine eq_of_rest_eq hR h hg ?_
    obtain ⟨-, he, v, hv⟩ := here_eq_of_mem_trail hR h
    refine (append_inj_of_size (u := v ++ S.text f.item) (v := u ++ S.text b) ?_ ?_).2
    · rw [List.append_assoc, List.append_assoc, ← he, hv]
    · have h₁ := size_stop_of_mem_trail hR h
      have h₂ := congrArg size hv
      have h₃ := congrArg size he
      rw [size_append] at h₂ h₃
      rw [hu, size_append]; omega
  subst hfg
  have := size_le_of_suffix hgb
  rw [Found.start, size_append]; omega

/-- The scan ends an item at each offset where one ends, and nowhere else. -/
theorem exists_stop_eq_iff (hS : S.EndsTogether) {n : Nat} :
    (∃ f ∈ R.trail s, f.stop s = n) ↔ ∃ i a, S.Span s i n a := by
  constructor
  · rintro ⟨f, hf, rfl⟩
    exact ⟨_, _, span_of_mem_trail hR hf⟩
  · rintro ⟨i, b, hb, u, r, rfl, rfl, rfl⟩
    obtain ⟨f, hf, rfl, -⟩ := trail_covers (r := r) hR hS hb (List.suffix_append u _)
    refine ⟨f, hf, ?_⟩
    rw [Found.stop]
    simp only [size_append]; omega

theorem start_lt_stop (h : f ∈ R.trail s) : f.start s < f.stop s := by
  obtain ⟨hv, he, hs⟩ := here_eq_of_mem_trail hR h
  have h₁ := size_pos (hR.text_ne_nil hv)
  have h₂ := size_le_of_suffix hs
  have h₃ := congrArg size he
  rw [size_append] at h₃
  rw [Found.start, Found.stop]; omega

/-- Items are found in the order of the text, and each starts behind the ones before it. -/
theorem pairwise_stop_le_start : (R.trail s).Pairwise fun f g => f.stop s ≤ g.start s := by
  refine (pairwise_trail hR).imp fun {f g} hfg => ?_
  have := size_le_of_suffix hfg
  rw [Found.start, Found.stop]; omega

theorem pairwise_stop_lt : ((R.trail s).map (Found.stop s)).Pairwise (· < ·) := by
  rw [List.pairwise_map]
  refine (pairwise_stop_le_start hR).imp_of_mem fun {f g} _ hg hfg => ?_
  exact Nat.lt_of_le_of_lt hfg (start_lt_stop hR hg)

end

end Reader

end HeaderMeta.Text
