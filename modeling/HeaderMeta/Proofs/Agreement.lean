import HeaderMeta.Proofs.Summary
import Mathlib.Data.List.Perm.Basic

/-!
# Descriptions that agree

`Description.agrees` compares two tables of types by going through the entries of one. As a table has no
name twice, that tells whether every look-up finds the same in both (`TypeTable.agrees_iff`), so two
descriptions agree exactly if they say the same of their struct (`agrees_ofFields_iff`). In which order
the fields came counts among those of one name, where the last one gives the type, and among the marked
ones; fields that are `Reordered` otherwise give descriptions that agree.
-/

namespace HeaderMeta

namespace TypeTable
variable {t u : TypeTable} {k v : String}

theorem get?_eq_some_iff : t.get? k = some v ↔ (k, v) ∈ t.entries :=
  Keyed.lookup_eq_some_iff_mem t.nodup_keys

theorem get?_eq_none_iff : t.get? k = none ↔ k ∉ t.keys := by
  constructor
  · intro h hk
    obtain ⟨e, he, rfl⟩ := List.mem_map.1 hk
    rw [get?_eq_some_iff.2 he] at h
    cases h
  · intro h
    cases hv : t.get? k with
    | none => rfl
    | some v => exact absurd (List.mem_map_of_mem (get?_eq_some_iff.1 hv)) h

theorem mem_keys_congr (h : t.get? k = u.get? k) : k ∈ t.keys ↔ k ∈ u.keys := by
  rw [← not_iff_not, ← get?_eq_none_iff, ← get?_eq_none_iff, h]

/-- A table that finds all entries of another one, and has no more of them, has the same names. -/
theorem perm_keys (hlength : t.entries.length = u.entries.length)
    (hget : ∀ e ∈ t.entries, u.get? e.1 = some e.2) : t.keys.Perm u.keys := by
  have hsub : t.keys ⊆ u.keys := by
    intro k hk
    obtain ⟨e, he, rfl⟩ := List.mem_map.1 hk
    exact List.mem_map_of_mem (get?_eq_some_iff.1 (hget e he))
  have hle : u.keys.length ≤ t.keys.length := by simp [keys, hlength]
  exact (List.subperm_of_subset t.nodup_keys hsub).perm_of_length_le hle

theorem agrees_iff : t.agrees u = true ↔ ∀ k, t.get? k = u.get? k := by
  rw [agrees, Bool.and_eq_true, beq_iff_eq, List.all_eq_true]
  constructor
  · rintro ⟨hlength, hall⟩ k
    have hget : ∀ e ∈ t.entries, u.get? e.1 = some e.2 := fun e he => eq_of_beq (hall e he)
    by_cases hk : k ∈ t.keys
    · obtain ⟨e, he, rfl⟩ := List.mem_map.1 hk
      rw [hget e he, get?_eq_some_iff.2 he]
    · have hu : k ∉ u.keys := fun hu => hk ((perm_keys hlength hget).mem_iff.2 hu)
      rw [get?_eq_none_iff.2 hk, get?_eq_none_iff.2 hu]
  · intro h
    have hkeys : t.keys.Perm u.keys :=
      (List.perm_ext_iff_of_nodup t.nodup_keys u.nodup_keys).2 fun k => mem_keys_congr (h k)
    have hlength := hkeys.length_eq
    rw [keys, keys, List.length_map, List.length_map] at hlength
    refine ⟨hlength, fun e he => ?_⟩
    rw [beq_iff_eq, ← h e.1, get?_eq_some_iff]
    exact he

end TypeTable

/-! ### The order of fields -/

namespace Field
variable {fs gs before after : List Field} {f g : Field}

/-- The same fields in an order in which none has moved past another one of its name, and no marked one
past a marked one. -/
structure Reordered (fs gs : List Field) : Prop where
  named : ∀ k, (fs.filter fun f => f.name = k) = gs.filter fun f => f.name = k
  marked : fs.filter Field.marked = gs.filter Field.marked

theorem filter_swap {p : Field → Bool} (h : ¬(p f = true ∧ p g = true)) :
    (before ++ f :: g :: after).filter p = (before ++ g :: f :: after).filter p := by
  simp only [List.filter_append, List.filter_cons]
  cases hf : p f <;> cases hg : p g <;> simp_all

/-- Two neighbours of different names may change places if they are not both marked. -/
theorem Reordered.swap (hname : f.name ≠ g.name) (hmarked : ¬(f.marked = true ∧ g.marked = true)) :
    Reordered (before ++ f :: g :: after) (before ++ g :: f :: after) where
  named k := by
    refine filter_swap fun h => hname ?_
    rw [of_decide_eq_true h.1, of_decide_eq_true h.2]
  marked := filter_swap hmarked

end Field

namespace Description
variable {d e : Description} {m n : String} {fs gs : List Field}

theorem agrees_iff : d.agrees e = true ↔
    d.name = e.name ∧ d.marked = e.marked ∧ ∀ k, d.types.get? k = e.types.get? k := by
  rw [agrees, Bool.and_eq_true, Bool.and_eq_true, beq_iff_eq, beq_iff_eq, and_assoc,
    TypeTable.agrees_iff]

theorem Summarizes.agrees_iff (hd : d.Summarizes m fs) (he : e.Summarizes n gs) : d.agrees e = true ↔
    m = n ∧ (fs.filter Field.marked).map Field.name = (gs.filter Field.marked).map Field.name ∧
      ∀ k, Field.lastType fs k = Field.lastType gs k := by
  simp only [Description.agrees_iff, hd.name, he.name, hd.marked, he.marked, hd.get?, he.get?,
    Field.lastType]

/-- The descriptions of two structs agree exactly if the structs have one name, the same names are marked
in the same order, and every name has the same type last or is in neither. To reorder the fields of a
struct, those of one name and the marked ones left in their order, changes nothing. -/
theorem agrees_ofFields_iff (m n : String) (fs gs : List Field) :
    ((ofFields m fs).agrees (ofFields n gs) = true ↔
      m = n ∧ (fs.filter Field.marked).map Field.name = (gs.filter Field.marked).map Field.name ∧
        ∀ k, Field.lastType fs k = Field.lastType gs k) ∧
    (Field.Reordered fs gs → (ofFields m fs).agrees (ofFields m gs) = true) := by
  refine ⟨(ofFields_summarizes m fs).agrees_iff (ofFields_summarizes n gs), fun h => ?_⟩
  refine ((ofFields_summarizes m fs).agrees_iff (ofFields_summarizes m gs)).2 ⟨rfl, ?_, fun k => ?_⟩
  · rw [h.marked]
  · rw [Field.lastType, Field.lastType, h.named k]

/-- The descriptions agree, although their tables list the names in different orders. -/
theorem agrees_ofFields_swapped :
    Field.Reordered [⟨"a", "int", true⟩, ⟨"b", "bool", false⟩, ⟨"a", "float", false⟩, ⟨"b", "int", true⟩]
      [⟨"b", "bool", false⟩, ⟨"a", "int", true⟩, ⟨"a", "float", false⟩, ⟨"b", "int", true⟩] ∧
    (ofFields "S" [⟨"a", "int", true⟩, ⟨"b", "bool", false⟩, ⟨"a", "float", false⟩,
      ⟨"b", "int", true⟩]).types.keys = ["a", "b"] ∧
    (ofFields "S" [⟨"b", "bool", false⟩, ⟨"a", "int", true⟩, ⟨"a", "float", false⟩,
      ⟨"b", "int", true⟩]).types.keys = ["b", "a"] ∧
    (ofFields "S" [⟨"a", "int", true⟩, ⟨"b", "bool", false⟩, ⟨"a", "float", false⟩,
      ⟨"b", "int", true⟩]).agrees (ofFields "S" [⟨"b", "bool", false⟩, ⟨"a", "int", true⟩,
      ⟨"a", "float", false⟩, ⟨"b", "int", true⟩]) = true := by
  have h : Field.Reordered
      ([] ++ ⟨"a", "int", true⟩ :: ⟨"b", "bool", false⟩ :: [⟨"a", "float", false⟩, ⟨"b", "int", true⟩])
      ([] ++ ⟨"b", "bool", false⟩ :: ⟨"a", "int", true⟩ :: [⟨"a", "float", false⟩, ⟨"b", "int", true⟩]) :=
    .swap (by decide) (by decide)
  exact ⟨h, by decide, by decide, (agrees_ofFields_iff "S" "S" _ _).2 h⟩

end Description

end HeaderMeta
