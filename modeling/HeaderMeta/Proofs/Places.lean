import HeaderMeta.Files.Tree
import HeaderMeta.Proofs.ByteOrder
import HeaderMeta.Text.Split
import Mathlib.Data.List.Basic

/-!
# The places of a tree in the order of a walk

A place is what is found under a list of names. `Tree.places` lists the places of a tree as a walk
comes to them (`visits_eq`). In a tree that a file system can hold (`Tree.Proper`) these are all its
places (`mem_places_iff`), and their names increase when they are compared one by one, each by its bytes
(`pairwise_places`). So the walk depends on what is found under which names alone, and not on the order
in which a directory lists its entries (`Alike.visits_eq`).
-/

namespace HeaderMeta.Files

open Text

namespace Path

/-- A name that an entry of a directory can have. -/
structure IsName (n : String) : Prop where
  not_void : isVoid n = false
  ne_parent : n ≠ ".."
  slash_notMem : '/' ∉ n.toList
  size_le : size n.toList ≤ maxNameBytes

/-- The path of a list of names below a directory. -/
def below (path : String) (ns : List String) : String :=
  ns.foldl join path

/-- Whether names come before others: they are compared one by one, each by its bytes. -/
def Before (ns ms : List String) : Prop :=
  ns.map Utf8.bytes < ms.map Utf8.bytes

variable {n m : String} {ns ms : List String}

@[simp] theorem below_nil (path : String) : below path [] = path := rfl

@[simp] theorem below_cons (path n : String) (ns : List String) :
    below path (n :: ns) = below (join path n) ns := rfl

theorem before_nil_cons : Before [] (n :: ns) := by
  simp [Before]

theorem before_cons_cons_of_lt (h : n < m) : Before (n :: ns) (m :: ms) := by
  rw [Before, List.map_cons, List.map_cons, List.cons_lt_cons_iff]
  exact .inl (Utf8.lt_iff_bytes_lt.1 h)

theorem before_cons_cons_self : Before (n :: ns) (n :: ms) ↔ Before ns ms := by
  rw [Before, List.map_cons, List.map_cons, List.cons_lt_cons_iff, Before]
  simp

theorem Before.irrefl : ¬Before ns ns :=
  List.lt_irrefl _

theorem Before.asymm (h : Before ns ms) : ¬Before ms ns :=
  List.lt_asymm h

end Path

namespace Tree
variable {t u : Tree} {es : List (String × Tree)} {path : String} {depth : Nat} {ns : List String}

/-- A tree that a file system can hold: the entries of a directory have different names. -/
inductive Proper : Tree → Prop
  | file (c : Content) : Proper (.file c)
  | link (target : String) : Proper (.link target)
  | dir {es : List (String × Tree)} (isName : ∀ e ∈ es, Path.IsName e.1)
      (nodup : (es.map Prod.fst).Nodup) (proper : ∀ e ∈ es, Proper e.2) : Proper (.dir es)

mutual

/-- The places of a tree, each with what is there, in the order of a walk. -/
def places : Tree → List (List String × Tree)
  | .dir es =>
    ([], .dir es) :: ((placesBelow es).mergeSort fun a b => a.1 ≤ b.1).flatMap
      fun p => p.2.map fun q => (p.1 :: q.1, q.2)
  | .file c => [([], .file c)]
  | .link target => [([], .link target)]

/-- For each entry of a directory its name and the places of what is under it. -/
def placesBelow : List (String × Tree) → List (String × List (List String × Tree))
  | [] => []
  | (n, t) :: es => (n, places t) :: placesBelow es

end

/-- The stop of a walk at a place. -/
def visitAt (path : String) (depth : Nat) : List String × Tree → Visit
  | (ns, .dir _) => .directory (Path.below path ns) (depth + ns.length)
  | (ns, .file _) | (ns, .link _) => .other (Path.below path ns)

theorem placesBelow_eq_map (es : List (String × Tree)) :
    placesBelow es = es.map fun e => (e.1, places e.2) := by
  induction es with
  | nil => rfl
  | cons e es ih => rw [placesBelow, ih, List.map_cons]

theorem visitAt_cons (path n : String) (depth : Nat) (ns : List String) (t : Tree) :
    visitAt path depth (n :: ns, t) = visitAt (Path.join path n) (depth + 1) (ns, t) := by
  cases t with
  | dir es => simp [visitAt, Nat.add_comm, Nat.add_left_comm]
  | file c => rfl
  | link target => rfl

theorem visitAt_eq_other (h : ¬∃ es, t = .dir es) :
    visitAt path depth (ns, t) = .other (Path.below path ns) := by
  cases t with
  | dir es => exact absurd ⟨es, rfl⟩ h
  | file c => rfl
  | link target => rfl

mutual

theorem visits_eq (path : String) (depth : Nat) :
    ∀ t : Tree, visits path depth t = (places t).map (visitAt path depth)
  | .file c => rfl
  | .link target => rfl
  | .dir es => by
    -- The names alone are sorted by, and they are the same for the stops and the places.
    have hsort : ((visitsBelow path depth es).mergeSort fun a b => a.1 ≤ b.1) =
        ((placesBelow es).mergeSort fun a b => a.1 ≤ b.1).map
          fun p => (p.1, p.2.map (visitAt (Path.join path p.1) (depth + 1))) := by
      rw [visitsBelow_eq path depth es]
      symm
      exact List.map_mergeSort fun _ _ _ _ => rfl
    rw [visits, places, List.map_cons, hsort, List.flatMap_map, List.map_flatMap]
    simp only [List.map_map]
    congr 2
    funext p
    refine List.map_congr_left fun q _ => ?_
    exact (visitAt_cons path p.1 depth q.1 q.2).symm

theorem visitsBelow_eq (path : String) (depth : Nat) : ∀ es : List (String × Tree),
    visitsBelow path depth es = (placesBelow es).map
      fun p => (p.1, p.2.map (visitAt (Path.join path p.1) (depth + 1)))
  | [] => rfl
  | (n, t) :: es => by
    rw [visitsBelow, placesBelow, List.map_cons, visits_eq _ _ t, visitsBelow_eq _ _ es]

end

/-! ### All places, in order -/

/-- The entries of a directory in the order of a walk. -/
theorem pairwise_mergeSort_placesBelow (h : (es.map Prod.fst).Nodup) :
    ((placesBelow es).mergeSort fun a b => a.1 ≤ b.1).Pairwise fun a b => a.1 < b.1 := by
  have hsorted : ((placesBelow es).mergeSort fun a b => a.1 ≤ b.1).Pairwise
      fun a b => decide (a.1 ≤ b.1) = true :=
    List.pairwise_mergeSort
      (fun a b c hab hbc => by simpa using String.le_trans (by simpa using hab) (by simpa using hbc))
      (fun a b => by simpa using String.le_total a.1 b.1) (placesBelow es)
  have hnodup : (((placesBelow es).mergeSort fun a b => a.1 ≤ b.1).map Prod.fst).Nodup := by
    rw [((List.mergeSort_perm _ _).map Prod.fst).nodup_iff, placesBelow_eq_map, List.map_map]
    exact h
  refine (hsorted.and (List.pairwise_map.1 hnodup)).imp fun {a b} hab => ?_
  exact String.not_le.1 fun hba => hab.2 (String.le_antisymm (by simpa using hab.1) hba)

theorem Proper.mem_places_iff (h : t.Proper) : (ns, u) ∈ places t ↔ t.find? ns = some u := by
  induction h generalizing ns with
  | file c => cases ns <;> simp [places, find?, entries, eq_comm]
  | link target => cases ns <;> simp [places, find?, entries, eq_comm]
  | @dir es _ hnodup _ ih =>
    cases ns with
    | nil => simp [places, find?, eq_comm]
    | cons n ns =>
      have hmem : (n :: ns, u) ∈ places (.dir es) ↔ ∃ e ∈ es, e.1 = n ∧ (ns, u) ∈ places e.2 := by
        simp [places, placesBelow_eq_map]
      rw [hmem, find?, Option.bind_eq_some_iff]
      constructor
      · rintro ⟨⟨_, t⟩, he, rfl, hp⟩
        exact ⟨t, (Keyed.lookup_eq_some_iff_mem hnodup).2 he, (ih _ he).1 hp⟩
      · rintro ⟨t, ht, hf⟩
        have he := (Keyed.lookup_eq_some_iff_mem hnodup).1 ht
        exact ⟨(n, t), he, rfl, (ih _ he).2 hf⟩

theorem Proper.pairwise_places (h : t.Proper) :
    (places t).Pairwise fun p q => Path.Before p.1 q.1 := by
  induction h with
  | file c => exact List.pairwise_singleton _ _
  | link target => exact List.pairwise_singleton _ _
  | @dir es _ hnodup _ ih =>
    rw [places, List.pairwise_cons, List.pairwise_flatMap]
    -- The directory comes first; then two places are below one entry or below two.
    refine ⟨?_, ?_, ?_⟩
    · intro p hp
      obtain ⟨e, -, hp⟩ := List.mem_flatMap.1 hp
      obtain ⟨q, -, rfl⟩ := List.mem_map.1 hp
      exact Path.before_nil_cons
    · intro p hp
      rw [List.mem_mergeSort, placesBelow_eq_map] at hp
      obtain ⟨e, he, rfl⟩ := List.mem_map.1 hp
      exact List.pairwise_map.2 ((ih e he).imp Path.before_cons_cons_self.2)
    · refine (pairwise_mergeSort_placesBelow hnodup).imp fun {a b} hab p hp q hq => ?_
      obtain ⟨p, -, rfl⟩ := List.mem_map.1 hp
      obtain ⟨q, -, rfl⟩ := List.mem_map.1 hq
      exact Path.before_cons_cons_of_lt hab

/-! ### Trees that list the same in another order -/

theorem find?_append (t : Tree) (ns ms : List String) :
    t.find? (ns ++ ms) = (t.find? ns).bind fun u => u.find? ms := by
  induction ns generalizing t with
  | nil => rfl
  | cons n ns ih =>
    rw [List.cons_append, find?, find?]
    cases t.entries.lookup n with
    | none => rfl
    | some u => exact ih u

/-- A tree without what is in it. -/
def bare : Tree → Tree
  | .dir _ => .empty
  | .file c => .file c
  | .link target => .link target

/-- The same is found in two trees under the same names, in whatever order their directories list it. -/
def Alike (t u : Tree) : Prop :=
  ∀ ns, (t.find? ns).map bare = (u.find? ns).map bare

theorem Alike.symm (h : Alike t u) : Alike u t :=
  fun ns => (h ns).symm

theorem Alike.bare_eq (h : Alike t u) : t.bare = u.bare :=
  Option.some.inj (h [])

theorem Alike.exists_find? (h : Alike t u) {t' : Tree} (ht : t.find? ns = some t') :
    ∃ u', u.find? ns = some u' ∧ Alike t' u' := by
  have hns := h ns
  rw [ht, Option.map_some] at hns
  obtain ⟨u', hu, -⟩ := Option.map_eq_some_iff.1 hns.symm
  refine ⟨u', hu, fun ms => ?_⟩
  have := h (ns ++ ms)
  rwa [find?_append, find?_append, ht, hu] at this

theorem Alike.find?_eq_none (h : Alike t u) (hn : t.find? ns = none) : u.find? ns = none := by
  have hns := h ns
  rwa [hn, eq_comm, Option.map_none, Option.map_eq_none_iff] at hns

theorem Alike.find?_eq_file (h : Alike t u) {c : Content} (hf : t.find? ns = some (.file c)) :
    u.find? ns = some (.file c) := by
  obtain ⟨v, hv, hbare⟩ := h.exists_find? hf
  cases v with
  | file _ => exact hv.trans (congrArg some hbare.bare_eq.symm)
  | link _ => cases hbare.bare_eq
  | dir _ => cases hbare.bare_eq

theorem Alike.find?_eq_link (h : Alike t u) {target : String} (hf : t.find? ns = some (.link target)) :
    u.find? ns = some (.link target) := by
  obtain ⟨v, hv, hbare⟩ := h.exists_find? hf
  cases v with
  | file _ => cases hbare.bare_eq
  | link _ => exact hv.trans (congrArg some hbare.bare_eq.symm)
  | dir _ => cases hbare.bare_eq

theorem Alike.find?_eq_dir (h : Alike t u) (hf : t.find? ns = some (.dir es)) :
    ∃ es', u.find? ns = some (.dir es') ∧ Alike (.dir es) (.dir es') := by
  obtain ⟨v, hv, hbare⟩ := h.exists_find? hf
  cases v with
  | file _ => cases hbare.bare_eq
  | link _ => cases hbare.bare_eq
  | dir es' => exact ⟨es', hv, hbare⟩

theorem alike_of_perm {es es' : List (String × Tree)} (h : es.Perm es') (hn : (es.map Prod.fst).Nodup) :
    Alike (.dir es) (.dir es') := by
  rintro (_ | ⟨n, ns⟩)
  · rfl
  · have hlookup : es.lookup n = es'.lookup n := by
      ext t
      rw [Keyed.lookup_eq_some_iff_mem hn, Keyed.lookup_eq_some_iff_mem ((h.map _).nodup_iff.1 hn),
        h.mem_iff]
    rw [find?, find?, entries, entries, hlookup]

theorem Proper.of_perm {es es' : List (String × Tree)} (h : (Tree.dir es).Proper) (hp : es.Perm es') :
    (Tree.dir es').Proper := by
  cases h with
  | dir isName nodup proper =>
    exact .dir (fun e he => isName e (hp.mem_iff.2 he)) ((hp.map _).nodup_iff.1 nodup)
      fun e he => proper e (hp.mem_iff.2 he)

theorem visitAt_bare (path : String) (depth : Nat) (p : List String × Tree) :
    visitAt path depth (p.1, p.2.bare) = visitAt path depth p := by
  obtain ⟨ns, t⟩ := p
  cases t <;> rfl

/-- The places of a tree with what is there, but not what is in it. -/
def barePlaces (t : Tree) : List (List String × Tree) :=
  (places t).map fun p => (p.1, p.2.bare)

theorem Proper.mem_barePlaces_iff (h : t.Proper) :
    (ns, u) ∈ t.barePlaces ↔ (t.find? ns).map bare = some u := by
  simp [barePlaces, h.mem_places_iff]

theorem Proper.pairwise_barePlaces (h : t.Proper) :
    t.barePlaces.Pairwise fun p q => Path.Before p.1 q.1 :=
  List.pairwise_map.2 h.pairwise_places

theorem Proper.nodup_barePlaces (h : t.Proper) : t.barePlaces.Nodup := by
  refine h.pairwise_barePlaces.imp fun {a b} hab => ?_
  rintro rfl
  exact Path.Before.irrefl hab

theorem Alike.barePlaces_eq (h : Alike t u) (ht : t.Proper) (hu : u.Proper) :
    t.barePlaces = u.barePlaces := by
  refine List.Perm.eq_of_pairwise (fun a b _ _ hab hba => absurd hba hab.asymm)
    ht.pairwise_barePlaces hu.pairwise_barePlaces ?_
  refine (List.perm_ext_iff_of_nodup ht.nodup_barePlaces hu.nodup_barePlaces).2 fun p => ?_
  rw [ht.mem_barePlaces_iff, hu.mem_barePlaces_iff, h]

theorem Alike.visits_eq (h : Alike t u) (ht : t.Proper) (hu : u.Proper) (path : String) (depth : Nat) :
    visits path depth t = visits path depth u := by
  have hbare : ∀ t, visits path depth t = t.barePlaces.map (visitAt path depth) := fun t => by
    rw [Tree.visits_eq, barePlaces, List.map_map]
    exact List.map_congr_left fun p _ => (visitAt_bare path depth p).symm
  rw [hbare, hbare, h.barePlaces_eq ht hu]

end Tree

end HeaderMeta.Files
