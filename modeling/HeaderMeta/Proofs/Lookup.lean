import HeaderMeta.Files.Disk
import HeaderMeta.Proofs.Places

/-!
# Looking up what is below a directory

The path of names below a directory has the parts of the directory's path and the names behind them
(`Path.exists_parts_below`). Following it leads first to the directory, through whatever links its path
goes, and from there down the names (`Disk.walk_append`, `Disk.walk_names`): so what a look-up finds is
what the tree holds there, as far as it is no link and the path is not too long (`Disk.get_below`). What
is found does not depend on the order in which directories list their entries (`Disk.file?_congr`).
-/

namespace HeaderMeta.Files

open Text

/-! ### The parts of a path -/

namespace Path
variable {path n : String} {ns : List String} {s t : List Char}

theorem split_append_cons (s t : List Char) : split (s ++ '/' :: t) = split s ++ split t := by
  induction s with
  | nil => rfl
  | cons c s ih =>
    rw [List.cons_append, split, split, ih]
    split
    · rfl
    · cases hs : split s with
      | nil =>
        cases s with
        | nil => cases hs
        | cons d s =>
          rw [split] at hs
          split at hs
          · cases hs
          · split at hs <;> cases hs
      | cons p ps => rfl

theorem split_eq_singleton (h : '/' ∉ s) : split s = [s] := by
  induction s with
  | nil => rfl
  | cons c s ih =>
    rw [List.mem_cons, not_or] at h
    rw [split, if_neg (Ne.symm h.1), ih h.2]

theorem parts_slash (path name : String) :
    parts (path ++ "/" ++ name) = parts path ++ parts name := by
  have hslash : "/".toList = ['/'] := rfl
  rw [parts, String.toList_append, String.toList_append, hslash, List.append_assoc,
    List.singleton_append, split_append_cons, List.map_append, parts, parts]

theorem IsName.parts_eq (h : IsName n) : parts n = [n] := by
  rw [parts, split_eq_singleton h.slash_notMem]
  simp

theorem IsName.ne_empty (h : IsName n) : n ≠ "" := by
  rintro rfl
  exact absurd h.not_void (by decide)

/-- Whether a name that follows a path needs a slash before it. -/
def IsOpen (path : String) : Prop :=
  ∃ c, path.toList.getLast? = some c ∧ c ≠ '/'

theorem IsOpen.join_eq (h : IsOpen path) (n : String) : join path n = path ++ "/" ++ n := by
  obtain ⟨c, hc, hne⟩ := h
  rw [join, hc, Option.all_some, if_neg (by simpa using hne)]

theorem IsName.isOpen_append (h : IsName n) (path : String) : IsOpen (path ++ n) := by
  have hne : n.toList ≠ [] := fun he => h.ne_empty (String.toList_inj.1 he)
  refine ⟨n.toList.getLast hne, ?_, fun he => h.slash_notMem (he ▸ List.getLast_mem hne)⟩
  rw [String.toList_append, List.getLast?_append_of_ne_nil _ hne, List.getLast?_eq_some_getLast hne]

theorem IsName.isOpen_join (h : IsName n) (path : String) : IsOpen (join path n) := by
  rw [join]
  split <;> exact h.isOpen_append _

theorem IsOpen.parts_below (h : IsOpen path) (hns : ∀ n ∈ ns, IsName n) :
    parts (below path ns) = parts path ++ ns := by
  induction ns generalizing path with
  | nil => rw [below_nil, List.append_nil]
  | cons n ns ih =>
    obtain ⟨hn, hns⟩ := List.forall_mem_cons.1 hns
    rw [below_cons, ih (hn.isOpen_join path) hns, h.join_eq, parts_slash, hn.parts_eq,
      List.append_assoc, List.singleton_append]

theorem exists_eq_append_slash (hpath : path ≠ "") (h : ¬IsOpen path) : ∃ w : String, path = w ++ "/" := by
  have hne : path.toList ≠ [] := fun he => hpath (String.toList_inj.1 he)
  have hlast : path.toList.getLast hne = '/' := by
    by_contra hc
    exact h ⟨_, List.getLast?_eq_some_getLast hne, hc⟩
  refine ⟨String.ofList path.toList.dropLast, String.toList_inj.1 ?_⟩
  rw [String.toList_append, String.toList_ofList]
  exact (hlast ▸ List.dropLast_append_getLast hne).symm

/-- A slash at the end of a directory's path does not show in the paths below it. -/
theorem exists_parts_below (hpath : path ≠ "") : ∃ ps qs, (∀ q ∈ qs, q = "") ∧ parts path = ps ++ qs ∧
    ∀ ns, ns ≠ [] → (∀ n ∈ ns, IsName n) → parts (below path ns) = ps ++ ns := by
  by_cases h : IsOpen path
  · exact ⟨parts path, [], by simp, (List.append_nil _).symm, fun ns _ hns => h.parts_below hns⟩
  obtain ⟨w, rfl⟩ := exists_eq_append_slash hpath h
  have hslash : parts (w ++ "/") = parts w ++ [""] := by
    have := parts_slash w ""
    rwa [String.append_empty] at this
  refine ⟨parts w, [""], by simp, hslash, fun ns hne hns => ?_⟩
  obtain ⟨n, ns, rfl⟩ := List.exists_cons_of_ne_nil hne
  obtain ⟨hn, hns⟩ := List.forall_mem_cons.1 hns
  have hjoin : join (w ++ "/") n = w ++ "/" ++ n := by
    rw [join, if_pos]
    simp
  rw [below_cons, (hn.isOpen_join _).parts_below hns, hjoin, parts_slash, hn.parts_eq, List.append_assoc,
    List.singleton_append]

/-- The path of a name below a directory goes on from the directory's path. -/
theorem exists_join_eq (path n : String) : ∃ s, join path n = path ++ s := by
  rw [join]
  split
  · exact ⟨n, rfl⟩
  · exact ⟨"/" ++ n, String.append_assoc⟩

theorem exists_below_eq (path : String) (ns : List String) : ∃ s, below path ns = path ++ s := by
  induction ns generalizing path with
  | nil => exact ⟨"", String.append_empty.symm⟩
  | cons n ns ih =>
    obtain ⟨s, hs⟩ := ih (join path n)
    obtain ⟨r, hr⟩ := exists_join_eq path n
    exact ⟨r ++ s, by rw [below_cons, hs, hr, String.append_assoc]⟩

theorem below_ne_empty (hpath : path ≠ "") (ns : List String) : below path ns ≠ "" := by
  obtain ⟨s, hs⟩ := exists_below_eq path ns
  rw [hs]
  simp [hpath]

theorem isAbsolute_below (hpath : path ≠ "") (ns : List String) :
    isAbsolute (below path ns) = isAbsolute path := by
  have hne : path.toList ≠ [] := fun he => hpath (String.toList_inj.1 he)
  obtain ⟨s, hs⟩ := exists_below_eq path ns
  rw [hs, isAbsolute, isAbsolute, String.toList_append, List.head?_append_of_ne_nil _ hne]

end Path

/-! ### Following a path -/

theorem Tree.Proper.isName_of_find? {t u : Tree} {ns : List String} (h : t.Proper)
    (hf : t.find? ns = some u) : (∀ n ∈ ns, Path.IsName n) ∧ u.Proper := by
  induction ns generalizing t with
  | nil =>
    cases hf
    exact ⟨by simp, h⟩
  | cons n ns ih =>
    obtain ⟨v, hv, hrest⟩ := Option.bind_eq_some_iff.1 hf
    cases h with
    | file c => cases hv
    | link target => cases hv
    | dir isName nodup proper =>
      have hmem := (Keyed.lookup_eq_some_iff_mem nodup).1 hv
      obtain ⟨hns, hu⟩ := ih (proper _ hmem) hrest
      exact ⟨List.forall_mem_cons.2 ⟨isName _ hmem, hns⟩, hu⟩

/-- The names that lead to a spot. -/
def Spot.place : Spot → List String
  | .directory loc => loc
  | .entry loc name => loc ++ [name]

namespace Disk
variable {d : Disk} {root t u : Tree} {path : String} {links : Nat} {loc ns ps qs : List String}
  {spot : Spot} {es : List (String × Tree)}

/-- What a walk does with a part, whatever parts follow: it goes on elsewhere, perhaps with the parts
of a link before them, or it is at a file, or it fails. -/
theorem walk_step (root : Tree) (links : Nat) (loc : List String) (p : String) :
    (∃ links' loc' more, (links' < links ∨ links' = links ∧ more = []) ∧
      ∀ ps, walk root .reach links loc (p :: ps) = walk root .reach links' loc' (more ++ ps)) ∨
    (∃ c, root.find? (loc ++ [p]) = some (.file c) ∧ ∀ ps, walk root .reach links loc (p :: ps) =
      if ps.isEmpty then .ok (.entry loc p) else .error .notADirectory) ∨
    ∃ f, ∀ ps, walk root .reach links loc (p :: ps) = .error f := by
  by_cases hvoid : Path.isVoid p
  · exact .inl ⟨links, loc, [], .inr ⟨rfl, rfl⟩, fun ps => by rw [walk, if_pos hvoid]; rfl⟩
  by_cases hparent : p = ".."
  · exact .inl ⟨links, loc.dropLast, [], .inr ⟨rfl, rfl⟩, fun ps => by
      rw [walk, if_neg hvoid, if_pos hparent]; rfl⟩
  by_cases hsize : Path.maxNameBytes < size p.toList
  · exact .inr (.inr ⟨.nameTooLong, fun ps => by simp [walk, hvoid, hparent, hsize]⟩)
  cases hf : root.find? (loc ++ [p]) with
  | none => exact .inr (.inr ⟨.notFound, fun ps => by simp [walk, hvoid, hparent, hsize, hf]⟩)
  | some t =>
    cases t with
    | file c => exact .inr (.inl ⟨c, rfl, fun ps => by simp [walk, hvoid, hparent, hsize, hf]⟩)
    | dir es =>
      exact .inl ⟨links, loc ++ [p], [], .inr ⟨rfl, rfl⟩, fun ps => by
        simp [walk, hvoid, hparent, hsize, hf]⟩
    | link target =>
      cases links with
      | zero => exact .inr (.inr ⟨.tooManyLinks, fun ps => by simp [walk, hvoid, hparent, hsize, hf]⟩)
      | succ links =>
        exact .inl ⟨links, start target loc, Path.parts target, .inl (Nat.lt_succ_self links), fun ps => by
          simp [walk, hvoid, hparent, hsize, hf]⟩

@[simp] theorem start_nil (path : String) : start path [] = [] :=
  ite_self _

theorem walk_voids (h : ∀ q ∈ qs, q = "") : walk root .reach links loc qs = .ok (.directory loc) := by
  induction qs with
  | nil => rw [walk]
  | cons q qs ih =>
    obtain ⟨rfl, hqs⟩ := List.forall_mem_cons.1 h
    rw [walk, if_pos (by decide), ih hqs]

/-- A walk that ends at a directory goes on from there, without the empty parts that its path may end
with. -/
theorem walk_append (hqs : ∀ q ∈ qs, q = "") (hspot : root.find? spot.place = some (.dir es)) :
    ∀ (links : Nat) (loc ps : List String), walk root .reach links loc (ps ++ qs) = .ok spot →
      ∃ more, ∀ ns, walk root .reach links loc (ps ++ ns) = walk root .reach more spot.place ns
  | links, loc, [], h => by
    rw [List.nil_append, walk_voids hqs] at h
    cases h
    exact ⟨links, fun ns => rfl⟩
  | links, loc, p :: ps, h => by
    rcases walk_step root links loc p with
      ⟨links', loc', more, hless, hstep⟩ | ⟨c, hc, hstep⟩ | ⟨f, hstep⟩
    · -- The parts of a link come before those that are left; then a link less may be gone through.
      rw [List.cons_append, hstep, ← List.append_assoc] at h
      obtain ⟨rest, hrest⟩ := walk_append hqs hspot links' loc' (more ++ ps) h
      exact ⟨rest, fun ns => by rw [List.cons_append, hstep, ← List.append_assoc, hrest]⟩
    · -- A walk that ends at a file does not end at a directory.
      rw [List.cons_append, hstep] at h
      split at h
      · cases h
        exact absurd (hc.symm.trans hspot) (by simp)
      · cases h
    · rw [List.cons_append, hstep] at h
      cases h
termination_by links _ ps => (links, ps.length)
decreasing_by
  rcases hless with h | ⟨rfl, rfl⟩
  · exact Prod.Lex.left _ _ h
  · exact Prod.Lex.right _ (Nat.lt_succ_self _)

/-- From a directory of the tree a walk goes down names to whatever is there, if it is no link. -/
theorem walk_names (links : Nat) (hloc : root.find? loc = some t) (hns : ∀ n ∈ ns, Path.IsName n)
    (hu : t.find? ns = some u) (hlink : ∀ target, u ≠ .link target) :
    ∃ spot, walk root .reach links loc ns = .ok spot ∧ spot.place = loc ++ ns := by
  induction ns generalizing loc t with
  | nil => exact ⟨.directory loc, by rw [walk], (List.append_nil _).symm⟩
  | cons n ns ih =>
    obtain ⟨hn, hns⟩ := List.forall_mem_cons.1 hns
    obtain ⟨v, hv, hrest⟩ := Option.bind_eq_some_iff.1 hu
    have hfind : root.find? (loc ++ [n]) = some v := by
      rw [Tree.find?_append, hloc]
      simp [Tree.find?, hv]
    have hsize := Nat.not_lt.2 hn.size_le
    cases v with
    | file c =>
      cases ns with
      | nil => exact ⟨.entry loc n, by simp [walk, hn.not_void, hn.ne_parent, hsize, hfind], rfl⟩
      | cons m ms => cases hrest
    | link target =>
      cases ns with
      | nil => exact absurd (Option.some.inj hrest).symm (hlink target)
      | cons m ms => cases hrest
    | dir es =>
      obtain ⟨spot, hwalk, hplace⟩ := ih hfind hns hrest
      refine ⟨spot, ?_, by rw [hplace, List.append_assoc, List.singleton_append]⟩
      simp [walk, hn.not_void, hn.ne_parent, hsize, hfind, hwalk]

/-! ### What is found -/

theorem get_eq_ok_iff : d.get path = .ok t ↔
    ∃ spot, d.locate .reach path (Path.parts path) = .ok spot ∧ d.root.find? spot.place = some t := by
  rw [get]
  cases hl : d.locate .reach path (Path.parts path) with
  | error f => simp [bind, Except.bind]
  | ok spot =>
    cases spot with
    | directory loc =>
      cases h : d.root.find? loc <;> simp [bind, Except.bind, pure, Except.pure, Spot.place, h]
    | entry loc n =>
      cases h : d.root.find? (loc ++ [n]) <;> simp [bind, Except.bind, pure, Except.pure, Spot.place, h]

theorem locate_eq_ok_iff {purpose : Purpose} : d.locate purpose path ps = .ok spot ↔ path ≠ "" ∧
    size path.toList ≤ Path.maxBytes ∧ walk d.root purpose maxLinks (start path d.cwd) ps = .ok spot := by
  rw [locate]
  split_ifs with hpath hsize
  · simp [hpath]
  · simp [hsize]
  · simp [hpath, Nat.not_lt.1 hsize]

theorem directory?_eq_some_iff : d.directory? path = some es ↔ d.get path = .ok (.dir es) := by
  rw [directory?]
  split <;> simp_all

theorem file?_eq_some_iff {c : Content} : d.file? path = some c ↔ d.get path = .ok (.file c) := by
  rw [file?]
  split <;> simp_all

theorem proper_of_get (hd : d.root.Proper) (h : d.get path = .ok t) : t.Proper := by
  obtain ⟨spot, -, hfind⟩ := get_eq_ok_iff.1 h
  exact (hd.isName_of_find? hfind).2

theorem size_le_of_get (h : d.get path = .ok t) : path ≠ "" ∧ size path.toList ≤ Path.maxBytes := by
  obtain ⟨spot, hspot, -⟩ := get_eq_ok_iff.1 h
  obtain ⟨hpath, hsize, -⟩ := locate_eq_ok_iff.1 hspot
  exact ⟨hpath, hsize⟩

/-- What the tree holds under names below a directory is found, if it is no link and the path is not too
long. -/
theorem get_below (hd : d.root.Proper) (h : d.directory? path = some es)
    (hu : (Tree.dir es).find? ns = some u) (hlink : ∀ target, u ≠ .link target)
    (hsize : size (Path.below path ns).toList ≤ Path.maxBytes) : d.get (Path.below path ns) = .ok u := by
  rcases eq_or_ne ns [] with rfl | hne
  · cases hu
    exact directory?_eq_some_iff.1 h
  obtain ⟨spot, hspot, hfind⟩ := get_eq_ok_iff.1 (directory?_eq_some_iff.1 h)
  obtain ⟨hpath, -, hwalk⟩ := locate_eq_ok_iff.1 hspot
  have hnames := ((hd.isName_of_find? hfind).2.isName_of_find? hu).1
  obtain ⟨ps, qs, hqs, hparts, hbelow⟩ := Path.exists_parts_below hpath
  rw [hparts] at hwalk
  obtain ⟨more, hmore⟩ := walk_append hqs hfind _ _ _ hwalk
  obtain ⟨spot', hwalk', hplace⟩ := walk_names more hfind hnames hu hlink
  refine get_eq_ok_iff.2 ⟨spot', locate_eq_ok_iff.2 ⟨Path.below_ne_empty hpath ns, hsize, ?_⟩, ?_⟩
  · rw [hbelow ns hne hnames, start, Path.isAbsolute_below hpath]
    exact (hmore ns).trans hwalk'
  · rw [hplace, Tree.find?_append, hfind]
    exact hu

/-! ### The order of entries -/

theorem walk_congr (h : root.Alike t) (purpose : Purpose) (links : Nat) (loc ps : List String) :
    walk root purpose links loc ps = walk t purpose links loc ps := by
  fun_induction walk root purpose links loc ps with
  | case1 => rw [walk]
  | case2 _ _ _ _ hvoid ih => rw [ih, eq_comm, walk, if_pos hvoid]
  | case3 _ _ _ hvoid ih => rw [ih, eq_comm, walk, if_neg hvoid, if_pos rfl]
  | case4 _ _ _ _ hvoid hparent hfile => rw [walk, if_neg hvoid, if_neg hparent, if_pos hfile]
  | case5 _ _ _ _ hvoid hparent hfile hsize =>
    rw [walk, if_neg hvoid, if_neg hparent, if_neg hfile, if_pos hsize]
  | case6 _ _ _ _ hvoid hparent hfile hsize hf hlast =>
    rw [walk, if_neg hvoid, if_neg hparent, if_neg hfile, if_neg hsize, h.find?_eq_none hf]
    exact (if_pos hlast).symm
  | case7 _ _ _ _ hvoid hparent hfile hsize hf hlast =>
    rw [walk, if_neg hvoid, if_neg hparent, if_neg hfile, if_neg hsize, h.find?_eq_none hf]
    exact (if_neg hlast).symm
  | case8 _ _ _ _ hvoid hparent hfile hsize _ hf hlast =>
    rw [walk, if_neg hvoid, if_neg hparent, if_neg hfile, if_neg hsize, h.find?_eq_file hf]
    exact (if_pos hlast).symm
  | case9 _ _ _ _ hvoid hparent hfile hsize _ hf hlast =>
    rw [walk, if_neg hvoid, if_neg hparent, if_neg hfile, if_neg hsize, h.find?_eq_file hf]
    exact (if_neg hlast).symm
  | case10 _ _ _ _ hvoid hparent hfile hsize _ hf ih =>
    obtain ⟨es', hes', -⟩ := h.find?_eq_dir hf
    rw [ih, eq_comm, walk, if_neg hvoid, if_neg hparent, if_neg hfile, if_neg hsize, hes']
  | case11 _ _ _ _ hvoid hparent hfile hsize _ hf hlast =>
    rw [walk, if_neg hvoid, if_neg hparent, if_neg hfile, if_neg hsize, h.find?_eq_link hf]
    exact (if_pos hlast).symm
  | case12 _ _ _ hvoid hparent hfile hsize _ hf hlast =>
    rw [walk, if_neg hvoid, if_neg hparent, if_neg hfile, if_neg hsize, h.find?_eq_link hf]
    exact (if_neg hlast).symm
  | case13 _ _ _ hvoid hparent hfile hsize _ hf hlast _ ih =>
    rw [ih, eq_comm, walk, if_neg hvoid, if_neg hparent, if_neg hfile, if_neg hsize, h.find?_eq_link hf]
    exact if_neg hlast

theorem get_congr (h : d.root.Alike t) (hu : d.get path = .ok u) :
    ∃ v, Disk.get ⟨t, d.cwd⟩ path = .ok v ∧ u.Alike v := by
  obtain ⟨spot, hspot, hfind⟩ := get_eq_ok_iff.1 hu
  obtain ⟨hpath, hsize, hwalk⟩ := locate_eq_ok_iff.1 hspot
  obtain ⟨v, hv, huv⟩ := h.exists_find? hfind
  refine ⟨v, get_eq_ok_iff.2 ⟨spot, locate_eq_ok_iff.2 ⟨hpath, hsize, ?_⟩, hv⟩, huv⟩
  rw [← walk_congr h]
  exact hwalk

theorem file?_eq_some_congr {c : Content} (h : d.root.Alike t) (hc : d.file? path = some c) :
    Disk.file? ⟨t, d.cwd⟩ path = some c := by
  obtain ⟨v, hv, halike⟩ := get_congr h (file?_eq_some_iff.1 hc)
  have hbare := halike.bare_eq
  cases v with
  | file c' =>
    cases hbare
    exact file?_eq_some_iff.2 hv
  | link target => cases hbare
  | dir es => cases hbare

/-- Whether a path leads to a file, and which, is the same for trees that list the same. -/
theorem file?_congr (h : d.root.Alike t) (path : String) :
    Disk.file? ⟨t, d.cwd⟩ path = d.file? path := by
  ext c
  exact ⟨file?_eq_some_congr (d := ⟨t, d.cwd⟩) h.symm, file?_eq_some_congr h⟩

theorem directory?_congr (h : d.root.Alike t) (he : d.directory? path = some es) :
    ∃ es', Disk.directory? ⟨t, d.cwd⟩ path = some es' ∧ (Tree.dir es).Alike (.dir es') := by
  obtain ⟨v, hv, halike⟩ := get_congr h (directory?_eq_some_iff.1 he)
  have hbare := halike.bare_eq
  cases v with
  | file c => cases hbare
  | link target => cases hbare
  | dir es' => exact ⟨es', directory?_eq_some_iff.2 hv, halike⟩

end Disk

end HeaderMeta.Files
