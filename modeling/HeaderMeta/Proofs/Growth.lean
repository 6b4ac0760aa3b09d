import HeaderMeta.Proofs.Lookup

/-!
# Trees that grow

`Tree.bare?` tells what is at a place without what is in it, which is all that a walk looks at. Putting a
file or an empty directory under a name of a directory changes what is at that place and at no other
(`Tree.bare?_put`). A tree grows to another (`Tree.GrowsTo`) if all that is in it stays and only
directories are added; then both have the same files.
-/

namespace HeaderMeta.Files

namespace Tree
variable {t u v new : Tree} {loc ns ms : List String} {n : String} {es : List (String × Tree)}
  {c : Content} {target : String}

/-- What is at a place, without what is in it. -/
def bare? (t : Tree) (ns : List String) : Option Tree :=
  (t.find? ns).map bare

/-- A place with a directory. -/
def IsDir (t : Tree) (loc : List String) : Prop :=
  ∃ es, t.find? loc = some (.dir es)

theorem bare?_eq_none_iff : t.bare? ns = none ↔ t.find? ns = none :=
  Option.map_eq_none_iff

theorem bare?_of_find? (h : t.find? ns = some u) : t.bare? ns = some u.bare := by
  rw [bare?, h, Option.map_some]

theorem bare?_eq_file_iff : t.bare? ns = some (.file c) ↔ t.find? ns = some (.file c) := by
  refine ⟨fun h => ?_, fun h => bare?_of_find? h⟩
  obtain ⟨v, hv, hbare⟩ := Option.map_eq_some_iff.1 h
  cases v <;> cases hbare
  exact hv

theorem bare?_eq_link_iff : t.bare? ns = some (.link target) ↔ t.find? ns = some (.link target) := by
  refine ⟨fun h => ?_, fun h => bare?_of_find? h⟩
  obtain ⟨v, hv, hbare⟩ := Option.map_eq_some_iff.1 h
  cases v <;> cases hbare
  exact hv

theorem bare?_eq_empty_iff : t.bare? ns = some empty ↔ t.IsDir ns := by
  constructor
  · intro h
    obtain ⟨v, hv, hbare⟩ := Option.map_eq_some_iff.1 h
    cases v with
    | file c => cases hbare
    | link target => cases hbare
    | dir es => exact ⟨es, hv⟩
  · rintro ⟨es, hes⟩
    exact bare?_of_find? hes

/-! ### Directories on the way -/

theorem IsDir.of_append (h : t.IsDir (loc ++ ns)) : t.IsDir loc := by
  obtain ⟨es, hes⟩ := h
  rw [find?_append] at hes
  obtain ⟨u, hu, hrest⟩ := Option.bind_eq_some_iff.1 hes
  cases ns with
  | nil =>
    cases hrest
    exact ⟨es, hu⟩
  | cons n ns =>
    cases u with
    | file c => cases hrest
    | link target => cases hrest
    | dir fs => exact ⟨fs, hu⟩

theorem IsDir.dropLast (h : t.IsDir loc) : t.IsDir loc.dropLast := by
  rcases List.eq_nil_or_concat' loc with rfl | ⟨init, n, rfl⟩
  · exact h
  · rw [List.dropLast_concat]
    exact h.of_append

theorem IsDir.root (h : t.IsDir loc) : t.IsDir [] := by
  rw [← List.nil_append loc] at h
  exact h.of_append

theorem find?_append_eq_none (h : ∀ v, t.find? loc = some v → v.entries = []) (hne : ns ≠ []) :
    t.find? (loc ++ ns) = none := by
  rw [find?_append]
  cases hv : t.find? loc with
  | none => rfl
  | some v =>
    obtain ⟨n, ns, rfl⟩ := List.exists_cons_of_ne_nil hne
    rw [Option.bind_some, find?, h v hv]
    rfl

/-! ### Putting -/

theorem find?_put_append (new : Tree) (loc ns : List String) (t : Tree) :
    (put new loc t).find? (loc ++ ns) = new.find? ns := by
  induction loc generalizing t with
  | nil => rfl
  | cons n loc ih =>
    rw [List.cons_append, put, find?, entries, Keyed.lookup_put, if_pos rfl, Option.bind_some, ih]

/-- Nothing changes at a place that is neither on the way nor behind it. -/
theorem find?_put_of_not_prefix (h : ¬loc <+: ns) (h' : ¬ns <+: loc) :
    (put new loc t).find? ns = t.find? ns := by
  induction loc generalizing t ns with
  | nil => exact absurd List.nil_prefix h
  | cons n loc ih =>
    cases ns with
    | nil => exact absurd List.nil_prefix h'
    | cons m ms =>
      rw [put, find?, find?, entries, Keyed.lookup_put]
      by_cases hm : m = n
      · subst hm
        rw [List.prefix_cons_inj] at h h'
        rw [if_pos rfl, Option.bind_some, ih h h']
        cases t.entries.lookup m with
        | some u => rfl
        | none =>
          cases ms with
          | nil => exact absurd List.nil_prefix h'
          | cons k ms => rfl
      · rw [if_neg hm]

theorem isDir_put (hne : ns ≠ []) : (put new (loc ++ ns) t).IsDir loc := by
  induction loc generalizing t with
  | nil =>
    obtain ⟨n, ns, rfl⟩ := List.exists_cons_of_ne_nil hne
    exact ⟨_, rfl⟩
  | cons n loc ih =>
    obtain ⟨es, hes⟩ := ih (t := (t.entries.lookup n).getD empty)
    refine ⟨es, ?_⟩
    rw [List.cons_append, put, find?, entries, Keyed.lookup_put, if_pos rfl, Option.bind_some, hes]

/-- A file or an empty directory takes a place in a directory, in which there was none with anything in
it, and all else stays. -/
theorem bare?_put (hnew : new.entries = []) (hloc : t.IsDir loc)
    (hold : ∀ v, t.find? (loc ++ [n]) = some v → v.entries = []) :
    (put new (loc ++ [n]) t).bare? ns = if ns = loc ++ [n] then some new.bare else t.bare? ns := by
  split
  · rename_i h
    have hput := find?_put_append new (loc ++ [n]) [] t
    rw [List.append_nil] at hput
    rw [h, bare?, hput]
    rfl
  rename_i hne
  by_cases hbehind : loc ++ [n] <+: ns
  · obtain ⟨ms, rfl⟩ := hbehind
    have hms : ms ≠ [] := by
      rintro rfl
      exact hne (List.append_nil _)
    rw [bare?, bare?, find?_put_append, find?_append_eq_none hold hms]
    have hnone : new.find? ([] ++ ms) = none :=
      find?_append_eq_none (by rintro v ⟨⟩; exact hnew) hms
    rw [List.nil_append] at hnone
    rw [hnone]
  by_cases hway : ns <+: loc ++ [n]
  · obtain ⟨ms, hms⟩ := hway
    have hmsne : ms ≠ [] := by
      rintro rfl
      exact hne (by rwa [List.append_nil] at hms)
    have hdir : t.IsDir ns := by
      obtain ⟨init, m, rfl⟩ := (List.eq_nil_or_concat' ms).resolve_left hmsne
      rw [← List.append_assoc] at hms
      obtain ⟨rfl, -⟩ := List.append_inj' hms rfl
      exact hloc.of_append
    rw [bare?_eq_empty_iff.2 hdir, ← hms]
    exact bare?_eq_empty_iff.2 (isDir_put hmsne)
  · rw [bare?, bare?, find?_put_of_not_prefix hbehind hway]

theorem Proper.put (h : t.Proper) (hnew : new.Proper) (hloc : ∀ n ∈ loc, Path.IsName n) :
    (put new loc t).Proper := by
  induction loc generalizing t with
  | nil => exact hnew
  | cons n loc ih =>
    obtain ⟨hn, hloc⟩ := List.forall_mem_cons.1 hloc
    have hentries : (∀ e ∈ t.entries, Path.IsName e.1) ∧ (t.entries.map Prod.fst).Nodup ∧
        ∀ e ∈ t.entries, Proper e.2 := by
      cases h with
      | file c => exact ⟨by simp [entries], by simp [entries], by simp [entries]⟩
      | link target => exact ⟨by simp [entries], by simp [entries], by simp [entries]⟩
      | dir isName nodup proper => exact ⟨isName, nodup, proper⟩
    obtain ⟨hname, hnodup, hproper⟩ := hentries
    have hbelow : ((t.entries.lookup n).getD empty).Proper := by
      cases hu : t.entries.lookup n with
      | none => exact .dir (by simp) (by simp) (by simp)
      | some u => exact hproper _ ((Keyed.lookup_eq_some_iff_mem hnodup).1 hu)
    refine .dir (fun e he => ?_) (Keyed.nodup_put hnodup) fun e he => ?_
    · rcases Keyed.eq_or_mem_of_mem_put he with rfl | he
      · exact hn
      · exact hname e he
    · rcases Keyed.eq_or_mem_of_mem_put he with rfl | he
      · exact ih hbelow hloc
      · exact hproper e he

theorem Proper.put_concat (h : t.Proper) (hnew : new.Proper) (hloc : t.IsDir loc) (hn : Path.IsName n) :
    (Tree.put new (loc ++ [n]) t).Proper := by
  obtain ⟨es, hes⟩ := hloc
  refine h.put hnew fun m hm => ?_
  rcases List.mem_append.1 hm with hm | hm
  · exact (h.isName_of_find? hes).1 m hm
  · rw [List.mem_singleton.1 hm]
    exact hn

/-! ### Growing by directories -/

/-- The same files are in two trees, under the same names. -/
def SameFiles (t u : Tree) : Prop :=
  ∀ ns c, t.find? ns = some (.file c) ↔ u.find? ns = some (.file c)

/-- All that is in a tree is in the other, which has no more than directories besides. -/
structure GrowsTo (t u : Tree) : Prop where
  kept : ∀ {ns v}, t.bare? ns = some v → u.bare? ns = some v
  added : ∀ {ns v}, u.bare? ns = some v → t.bare? ns = some v ∨ v = empty
  proper : t.Proper → u.Proper

namespace GrowsTo

theorem refl (t : Tree) : t.GrowsTo t :=
  ⟨id, .inl, id⟩

theorem trans (h : t.GrowsTo u) (h' : u.GrowsTo v) : t.GrowsTo v where
  kept hv := h'.kept (h.kept hv)
  added hv := by
    rcases h'.added hv with hv | rfl
    · exact h.added hv
    · exact .inr rfl
  proper ht := h'.proper (h.proper ht)

theorem isDir (h : t.GrowsTo u) (hloc : t.IsDir loc) : u.IsDir loc :=
  bare?_eq_empty_iff.1 (h.kept (bare?_eq_empty_iff.2 hloc))

theorem sameFiles (h : t.GrowsTo u) : t.SameFiles u := by
  intro ns c
  rw [← bare?_eq_file_iff, ← bare?_eq_file_iff]
  refine ⟨h.kept, fun hu => ?_⟩
  rcases h.added hu with ht | he
  · exact ht
  · cases he

/-- A new directory makes a tree grow. -/
theorem put (hloc : t.IsDir loc) (hn : Path.IsName n) (hfree : t.find? (loc ++ [n]) = none) :
    t.GrowsTo (put empty (loc ++ [n]) t) := by
  have hput : ∀ ns, (Tree.put empty (loc ++ [n]) t).bare? ns =
      if ns = loc ++ [n] then some empty.bare else t.bare? ns := fun ns =>
    bare?_put rfl hloc fun v hv => by
      rw [hfree] at hv
      cases hv
  refine ⟨fun {ns v} hv => ?_, fun {ns v} hv => ?_, fun ht => ht.put_concat ?_ hloc hn⟩
  · rw [hput, if_neg]
    · exact hv
    · rintro rfl
      rw [bare?_eq_none_iff.2 hfree] at hv
      cases hv
  · rw [hput] at hv
    split at hv
    · cases hv
      exact .inr rfl
    · exact .inl hv
  · exact .dir (by simp) (by simp) (by simp)

end GrowsTo

end Tree

end HeaderMeta.Files
