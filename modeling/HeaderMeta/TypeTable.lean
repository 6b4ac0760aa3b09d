import HeaderMeta.Keyed

/-!
# Types by field name

A `TypeTable` maps field names to the texts of their types and keeps the names in the order in which
they first came. Writing a name again changes its type and not its place (`keys_insert`), and a
look-up finds what was written last (`get?_insert`). `agrees` compares two tables without regard to
order.
-/

namespace HeaderMeta

/-- The types of named fields, in the order of the names' first appearance. -/
structure TypeTable where
  entries : List (String × String)
  nodup_keys : (entries.map Prod.fst).Nodup

namespace TypeTable

variable {k k' v : String} {t u : TypeTable}

/-- The table without names. -/
def empty : TypeTable :=
  ⟨[], by simp⟩

/-- Writes the type of a name. -/
def insert (t : TypeTable) (k v : String) : TypeTable :=
  ⟨Keyed.put k v t.entries, Keyed.nodup_put t.nodup_keys⟩

/-- The table of pairs written one after another. -/
def ofList (es : List (String × String)) : TypeTable :=
  es.foldl (fun t e => t.insert e.1 e.2) empty

/-- The names in order. -/
def keys (t : TypeTable) : List String :=
  t.entries.map Prod.fst

/-- The type of a name. -/
def get? (t : TypeTable) (k : String) : Option String :=
  t.entries.lookup k

/-- Whether two tables hold the same types under the same names, in whatever order. -/
def agrees (t u : TypeTable) : Bool :=
  t.entries.length == u.entries.length && t.entries.all fun (k, v) => u.get? k == some v

@[ext] theorem ext (h : t.entries = u.entries) : t = u := by
  cases t; cases u; simpa using h

@[simp] theorem get?_empty : empty.get? k = none := rfl

@[simp] theorem keys_empty : empty.keys = [] := rfl

theorem get?_insert : (t.insert k v).get? k' = if k' = k then some v else t.get? k' :=
  Keyed.lookup_put

theorem keys_insert :
    (t.insert k v).keys = if k ∈ t.keys then t.keys else t.keys ++ [k] :=
  Keyed.map_fst_put

theorem entries_foldl_insert {es : List (String × String)}
    (h : ((t.entries ++ es).map Prod.fst).Nodup) :
    (es.foldl (fun t e => t.insert e.1 e.2) t).entries = t.entries ++ es := by
  induction es generalizing t with
  | nil => rw [List.foldl_nil, List.append_nil]
  | cons e es ih =>
    have hput : (t.insert e.1 e.2).entries = t.entries ++ [e] := by
      refine Keyed.put_of_notMem fun hm => ?_
      rw [List.map_append, List.nodup_append] at h
      exact h.2.2 e.1 hm e.1 (List.mem_cons_self ..) rfl
    rw [List.foldl_cons, ih (by rwa [hput, List.append_assoc]), hput, List.append_assoc]
    rfl

/-- The entries of a table, written one after another, give the table again. -/
theorem ofList_entries (t : TypeTable) : ofList t.entries = t :=
  ext (entries_foldl_insert (t := empty) t.nodup_keys)

end TypeTable

end HeaderMeta
