import HeaderMeta.Description
import Mathlib.Data.List.Forall2

/-!
# What a description says of its fields

`d.Summarizes n fs` says what `d` has to be if `n` and `fs` are the name and the fields of a struct: the
marked names in order, the names of all fields by their first appearance, and for each name the type
that it was given last. It says so field list by field list, and `Description.ofFields`, which goes
through the fields one after another, arrives there (`ofFields_summarizes`). Nothing else is left to a
description (`Summarizes.eq`, `eq_ofFields_iff`). Of its table this says what `TypeTable.Records` says of
any table that pairs were written into one after another (`summarizes_iff`).
-/

namespace HeaderMeta

/-- A table is no more than its names in order and what a look-up finds. -/
theorem TypeTable.entries_eq (t : TypeTable) :
    t.entries = t.keys.map fun k => (k, (t.get? k).getD "") := by
  obtain ⟨es, hes⟩ := t
  show es = (es.map Prod.fst).map fun k => (k, (es.lookup k).getD "")
  induction es with
  | nil => rfl
  | cons e es ih =>
    obtain ⟨k, v⟩ := e
    obtain ⟨hk, hes⟩ := List.nodup_cons.1 hes
    rw [List.map_cons, List.map_cons, List.lookup_cons_self, Option.getD_some, List.cons.injEq]
    refine ⟨rfl, (ih hes).trans (List.map_congr_left fun k' hk' => ?_)⟩
    have hne : k' ≠ k := fun h => hk (h ▸ hk')
    rw [List.lookup_cons, beq_eq_false_iff_ne.2 hne]

theorem TypeTable.eq_of_keys_eq {t u : TypeTable} (hk : t.keys = u.keys)
    (hg : ∀ n, t.get? n = u.get? n) : t = u := by
  apply TypeTable.ext
  rw [t.entries_eq, u.entries_eq, hk]
  simp only [hg]

namespace TypeTable
variable {t : TypeTable} {es : List (String × String)}

/-- What a table holds if these pairs were written into it one after another. -/
structure Records (t : TypeTable) (es : List (String × String)) : Prop where
  keys : t.keys = (es.map Prod.fst).eraseDups
  get? : ∀ k, t.get? k = ((es.filter fun e => e.1 = k).getLast?).map Prod.snd

theorem Records.insert (h : t.Records es) (k v : String) : (t.insert k v).Records (es ++ [(k, v)]) where
  keys := by
    rw [keys_insert, h.keys, List.map_append, List.eraseDups_append]
    simp only [List.mem_eraseDups]
    generalize es.map Prod.fst = names
    by_cases hk : k ∈ names
    · simp [hk, List.removeAll]
    · simp [hk, List.removeAll, List.eraseDups_cons]
  get? k' := by
    rw [get?_insert, h.get?, List.filter_append, List.getLast?_append]
    by_cases hk : k' = k
    · simp [hk]
    · simp [hk, Ne.symm hk]

theorem records_foldl_insert {before : List (String × String)} (h : t.Records before) :
    (es.foldl (fun t e => t.insert e.1 e.2) t).Records (before ++ es) := by
  induction es generalizing t before with
  | nil => rwa [List.append_nil]
  | cons e es ih =>
    have := ih (h.insert e.1 e.2)
    rwa [List.append_assoc] at this

theorem ofList_records (es : List (String × String)) : (ofList es).Records es := by
  have hempty : empty.Records [] := ⟨keys_empty, fun _ => get?_empty⟩
  exact records_foldl_insert hempty

theorem Records.eq_ofList (h : t.Records es) : t = ofList es :=
  eq_of_keys_eq (h.keys.trans (ofList_records es).keys.symm) fun k =>
    (h.get? k).trans ((ofList_records es).get? k).symm

end TypeTable

namespace Description
variable {d e : Description} {n : String} {fields : List Field} {f : Field}

/-- What the description of a struct named `n` with these fields has to say. -/
structure Summarizes (d : Description) (n : String) (fields : List Field) : Prop where
  name : d.name = n
  marked : d.marked = (fields.filter Field.marked).map Field.name
  keys : d.types.keys = (fields.map Field.name).eraseDups
  get? : ∀ k, d.types.get? k = ((fields.filter fun f => f.name = k).getLast?).map Field.type

theorem Summarizes.eq (hd : d.Summarizes n fields) (he : e.Summarizes n fields) : d = e := by
  refine Description.ext (hd.name.trans he.name.symm) (hd.marked.trans he.marked.symm) ?_
  refine TypeTable.eq_of_keys_eq (hd.keys.trans he.keys.symm) fun k => ?_
  exact (hd.get? k).trans (he.get? k).symm

theorem summarizes_named (n : String) : (named n).Summarizes n [] :=
  ⟨rfl, rfl, TypeTable.keys_empty, fun _ => TypeTable.get?_empty⟩

/-- Of the types a description says no more than that they were written field by field. -/
theorem summarizes_iff : d.Summarizes n fields ↔
    d.name = n ∧ d.marked = (fields.filter Field.marked).map Field.name ∧
      d.types.Records (fields.map fun f => (f.name, f.type)) := by
  have hkeys : (fields.map fun f => (f.name, f.type)).map Prod.fst = fields.map Field.name := by
    rw [List.map_map]
    rfl
  have hget (k : String) : ((((fields.map fun f => (f.name, f.type)).filter fun e => e.1 = k).getLast?).map
      Prod.snd) = ((fields.filter fun f => f.name = k).getLast?).map Field.type := by
    rw [List.filter_map, List.getLast?_map, Option.map_map]
    rfl
  constructor
  · exact fun h => ⟨h.name, h.marked, h.keys.trans (by rw [hkeys]), fun k => (h.get? k).trans (hget k).symm⟩
  · rintro ⟨hn, hm, ht⟩
    exact ⟨hn, hm, ht.keys.trans (by rw [hkeys]), fun k => (ht.get? k).trans (hget k)⟩

theorem Summarizes.addField (h : d.Summarizes n fields) (f : Field) :
    (d.addField f).Summarizes n (fields ++ [f]) := by
  obtain ⟨hn, hm, ht⟩ := summarizes_iff.1 h
  refine summarizes_iff.2 ⟨hn, ?_, ?_⟩
  · show (if f.marked then d.marked ++ [f.name] else d.marked) = _
    rw [List.filter_append, List.map_append, ← hm]
    cases hf : f.marked <;> simp [hf]
  · rw [List.map_append]
    exact ht.insert f.name f.type

theorem summarizes_foldl_addField {before : List Field} (h : d.Summarizes n before) :
    (fields.foldl addField d).Summarizes n (before ++ fields) := by
  induction fields generalizing d before with
  | nil => rwa [List.append_nil]
  | cons f fields ih =>
    have := ih (h.addField f)
    rwa [List.append_assoc] at this

theorem ofFields_summarizes (n : String) (fields : List Field) :
    (ofFields n fields).Summarizes n fields :=
  summarizes_foldl_addField (summarizes_named n)

theorem Summarizes.hasMarked_eq (h : d.Summarizes n fields) :
    d.hasMarked = fields.any Field.marked := by
  rw [hasMarked, h.marked, List.isEmpty_map, Bool.eq_iff_iff, Bool.not_eq_true',
    List.isEmpty_eq_false_iff, List.any_eq_true, Ne, List.filter_eq_nil_iff]
  simp only [Classical.not_forall, Classical.not_not, exists_prop]

end Description

/-! ### The last field of a name -/

namespace Field
variable {fields : List Field} {f : Field} {k : String}

/-- The type that the fields of a name have last. -/
def lastType (fields : List Field) (k : String) : Option String :=
  ((fields.filter fun f => f.name = k).getLast?).map Field.type

/-- `f` is a field, and no later one has its name. -/
def IsLast (fields : List Field) (f : Field) : Prop :=
  ∃ before after, fields = before ++ f :: after ∧ ∀ g ∈ after, g.name ≠ f.name

theorem isLast_of_getLast?_filter (h : (fields.filter fun f => f.name = k).getLast? = some f) :
    f.IsLast fields ∧ f.name = k := by
  obtain ⟨named, hnamed⟩ := List.getLast?_eq_some_iff.1 h
  obtain ⟨before, rest, rfl, -, hrest⟩ := List.filter_eq_append_iff.1 hnamed
  obtain ⟨between, after, rfl, -, hf, hafter⟩ := List.filter_eq_cons_iff.1 hrest
  obtain rfl : f.name = k := of_decide_eq_true hf
  refine ⟨⟨before ++ between, after, by rw [List.append_assoc], fun g hg => ?_⟩, rfl⟩
  simpa using List.filter_eq_nil_iff.1 hafter g hg

/-- A name that a field has is the name of a last one, marked or not. -/
theorem exists_isLast (hf : f ∈ fields) :
    ∃ g : Field, g.IsLast fields ∧ g.name = f.name ∧ lastType fields f.name = some g.type := by
  cases hg : (fields.filter fun g => g.name = f.name).getLast? with
  | none =>
    have hmem : f ∈ fields.filter fun g => g.name = f.name := List.mem_filter.2 ⟨hf, by simp⟩
    rw [List.getLast?_eq_none_iff.1 hg] at hmem
    cases hmem
  | some g =>
    obtain ⟨hlast, hname⟩ := isLast_of_getLast?_filter hg
    exact ⟨g, hlast, hname, by rw [lastType, hg, Option.map_some]⟩

end Field

namespace Description

theorem Summarizes.forall₂_markedTypes {d : Description} {n : String} {fields : List Field}
    (h : d.Summarizes n fields) :
    List.Forall₂ (fun f p => ∃ g : Field, g.IsLast fields ∧ g.name = f.name ∧ p = (f.name, some g.type))
      (fields.filter Field.marked) d.markedTypes := by
  rw [markedTypes, h.marked, List.map_map, List.forall₂_map_right_iff, List.forall₂_same]
  intro f hf
  obtain ⟨g, hlast, hname, htype⟩ := Field.exists_isLast (List.mem_of_mem_filter hf)
  exact ⟨g, hlast, hname, Prod.ext rfl ((h.get? f.name).trans htype)⟩

/-- To take the fields of a struct into account one after another gives a description that has the names
of the marked fields in order, all names by their first appearance, for every name the type that it was
given last, and with each marked field the type of the last field of its name, be that one marked or not.
It is the only description that does. -/
theorem eq_ofFields_iff (d : Description) (n : String) (fields : List Field) :
    d = ofFields n fields ↔
      d.name = n ∧
      d.marked = (fields.filter Field.marked).map Field.name ∧
      d.types.keys = (fields.map Field.name).eraseDups ∧
      (∀ k, d.types.get? k = Field.lastType fields k) ∧
      List.Forall₂ (fun f p => ∃ g : Field, g.IsLast fields ∧ g.name = f.name ∧ p = (f.name, some g.type))
        (fields.filter Field.marked) d.markedTypes := by
  constructor
  · rintro rfl
    have h := ofFields_summarizes n fields
    exact ⟨h.name, h.marked, h.keys, h.get?, h.forall₂_markedTypes⟩
  · rintro ⟨hname, hmarked, hkeys, hget, -⟩
    have h : d.Summarizes n fields := ⟨hname, hmarked, hkeys, hget⟩
    exact h.eq (ofFields_summarizes n fields)

/-- The name stays in its first place, and its type is that of the later field without a marker. -/
example : (ofFields "S" [⟨"x", "int", true⟩, ⟨"y", "int", false⟩, ⟨"x", "float", false⟩]).types.entries =
    [("x", "float"), ("y", "int")] := by
  decide

end Description

end HeaderMeta
