import HeaderMeta.Text.Split
import Mathlib.Data.List.Perm.Basic

/-!
# Where a literal stands

`offsets lit s` lists the offsets of `s` at which `lit` stands (`mem_offsets_iff`), and `occurrences lit s`
is how many they are. A literal stands only where its first character does, and does not reach over a
character that it does not have, so a text can be counted piece by piece (`occurrences_append_of_notMem`,
`occurrences_append_cons`).
-/

namespace HeaderMeta.Text

variable {lit s u v : List Char} {k c : Char} {n : Nat}

/-- The offsets at which a literal stands in a text. -/
def offsets (lit : List Char) : List Char → List Nat
  | [] => if lit = [] then [0] else []
  | c :: s => (if lit <+: c :: s then [0] else []) ++ (offsets lit s).map (c.utf8Size + ·)

/-- How often a literal stands in a text. -/
def occurrences (lit s : List Char) : Nat :=
  (offsets lit s).length

theorem mem_offsets_iff : n ∈ offsets lit s ↔ ∃ u r, s = u ++ (lit ++ r) ∧ size u = n := by
  induction s generalizing n with
  | nil =>
    rw [offsets]
    constructor
    · intro h
      split at h <;> simp only [List.mem_singleton, List.not_mem_nil] at h
      subst h
      exact ⟨[], [], by simp [*], rfl⟩
    · rintro ⟨u, r, h, rfl⟩
      obtain ⟨rfl, hlit⟩ := List.append_eq_nil_iff.1 h.symm
      obtain ⟨rfl, -⟩ := List.append_eq_nil_iff.1 hlit
      simp
  | cons c s ih =>
    rw [offsets, List.mem_append, List.mem_map]
    constructor
    · rintro (h | ⟨m, hm, rfl⟩)
      · split at h <;> simp only [List.mem_singleton, List.not_mem_nil] at h
        obtain ⟨r, hr⟩ := ‹lit <+: c :: s›
        exact ⟨[], r, hr.symm, h.symm⟩
      · obtain ⟨u, r, rfl, rfl⟩ := ih.1 hm
        exact ⟨c :: u, r, rfl, rfl⟩
    · rintro ⟨u, r, h, rfl⟩
      cases u with
      | nil =>
        have hlit : lit <+: c :: s := ⟨r, h.symm⟩
        exact .inl (by simp [hlit])
      | cons d u =>
        rw [List.cons_append, List.cons.injEq] at h
        obtain ⟨rfl, rfl⟩ := h
        exact .inr ⟨size u, ih.2 ⟨u, r, rfl, rfl⟩, rfl⟩

/-- There are no more places with a literal than the literal occurs. -/
theorem length_le_occurrences {places : List Nat} (hd : places.Nodup)
    (h : ∀ n ∈ places, ∃ u r, s = u ++ (lit ++ r) ∧ size u = n) : places.length ≤ occurrences lit s :=
  (List.subperm_of_subset hd fun n hn => mem_offsets_iff.2 (h n hn)).length_le

/-! ### Piece by piece -/

theorem occurrences_cons (lit : List Char) (c : Char) (s : List Char) :
    occurrences lit (c :: s) = (if lit <+: c :: s then 1 else 0) + occurrences lit s := by
  rw [occurrences, offsets, List.length_append, List.length_map, occurrences]
  split <;> rfl

@[simp] theorem occurrences_cons_nil : occurrences (k :: lit) [] = 0 := rfl

theorem occurrences_append_of_notMem (hk : k ∉ u) :
    occurrences (k :: lit) (u ++ s) = occurrences (k :: lit) s := by
  induction u with
  | nil => rfl
  | cons c u ih =>
    rw [List.mem_cons, not_or] at hk
    have hc : ¬ k :: lit <+: c :: (u ++ s) := fun h => hk.1 (List.cons_prefix_cons.1 h).1
    rw [List.cons_append, occurrences_cons, if_neg hc, ih hk.2, Nat.zero_add]

theorem occurrences_eq_zero (hk : k ∉ s) : occurrences (k :: lit) s = 0 := by
  have happend : occurrences (k :: lit) (s ++ []) = occurrences (k :: lit) [] :=
    occurrences_append_of_notMem hk
  rwa [List.append_nil] at happend

theorem prefix_append_cons_iff (hk : k ∉ lit) : lit <+: u ++ k :: v ↔ lit <+: u := by
  constructor
  · rintro ⟨r, h⟩
    rcases List.append_eq_append_iff.1 h with ⟨l, rfl, -⟩ | ⟨l, rfl, hl⟩
    · exact List.prefix_append ..
    · cases l with
      | nil => simp
      | cons d l =>
        rw [List.cons_append, List.cons.injEq] at hl
        exact absurd (by simp [hl.1]) hk
  · exact fun h => h.trans (List.prefix_append ..)

/-- What stands on the two sides of a character that a literal does not have is counted apart. -/
theorem occurrences_append_cons {a : Char} (hk : k ∉ a :: lit) :
    occurrences (a :: lit) (u ++ k :: v) = occurrences (a :: lit) u + occurrences (a :: lit) v := by
  induction u with
  | nil =>
    have := prefix_append_cons_iff (u := []) (v := v) hk
    rw [List.nil_append] at this
    simp [occurrences_cons, this]
  | cons c u ih =>
    have := prefix_append_cons_iff (u := c :: u) (v := v) hk
    rw [List.cons_append] at this
    simp only [List.cons_append, occurrences_cons, ih, this, Nat.add_assoc]

end HeaderMeta.Text
