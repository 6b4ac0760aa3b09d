import HeaderMeta.Header
import HeaderMeta.Proofs.Lookup

/-!
# The headers that are collected

`Header.Selects` says which entries below a directory are headers, and `Header.FailsAt` where a walk can
fail. `Header.collect` gives the contents of all headers in the order of their names, or the first
failure in that order (`collect_spec`): a place of the tree gives a header, a failure or nothing by
itself (`ofVisit?_eq_some_iff`, `ofVisit?_eq_error_iff`), and the walk comes to the places in order.
-/

namespace HeaderMeta

open Files Text

/-! ### Extensions -/

theorem Files.Path.extensionOf?_eq_some_iff {name e : List Char} : extensionOf? name = some e ↔
    ∃ stem, stem ≠ [] ∧ name = stem ++ '.' :: e ∧ '.' ∉ e := by
  constructor
  · intro h
    obtain ⟨hname, htail, hdot⟩ := run_eq_iff.1 (rfl : run (· != '.') name.reverse = _)
    rw [extensionOf?] at h
    split at h
    · cases h
    · cases h
    · rename_i c d r hd
      cases h
      rw [hd] at hname hdot
      have hc : c = '.' := by simpa [stops_cons] using hdot
      subst hc
      refine ⟨(d :: r).reverse, by simp, ?_, fun hm => ?_⟩
      · rw [← List.reverse_inj]
        simpa using hname
      · exact absurd (htail _ (List.mem_reverse.1 hm)) (by decide)
  · rintro ⟨stem, hstem, rfl, he⟩
    have hrun : run (· != '.') (stem ++ '.' :: e).reverse = (e.reverse, '.' :: stem.reverse) := by
      refine run_eq_iff.2 ⟨by simp, fun c hc => ?_, stops_cons.2 rfl⟩
      have : c ≠ '.' := by
        rintro rfl
        exact he (List.mem_reverse.1 hc)
      simpa using this
    obtain ⟨htail, hrest⟩ := Prod.mk.inj hrun
    obtain ⟨d, r, hr⟩ := List.exists_cons_of_ne_nil (List.reverse_ne_nil_iff.2 hstem)
    rw [extensionOf?, htail, hrest, hr]
    simp

namespace Header

/-- What is behind the last dot of a name, unless that is its first character. -/
def HasExtension (extension name : String) : Prop :=
  ∃ stem, stem ≠ "" ∧ name = stem ++ "." ++ extension ∧ '.' ∉ extension.toList

/-- An entry below a directory that resolves to a file and has the extension in its name. Names lead to
it through directories and no links; it may be a link itself. A path that is too long leads nowhere. -/
structure Selects (d : Disk) (root extension : String) (es : List (String × Tree)) (ns : List String)
    (c : Content) : Prop where
  entry : ∃ t, (Tree.dir es).find? ns = some t
  resolves : d.file? (Path.below root ns) = some c
  extension : ∃ n ∈ ns.getLast?, HasExtension extension n

/-- A directory whose path is too long to list it, or a header that cannot be read. -/
inductive FailsAt (d : Disk) (root extension : String) (es : List (String × Tree)) (ns : List String) :
    Failure → Prop
  | unlisted {fs : List (String × Tree)} (entry : (Tree.dir es).find? ns = some (.dir fs))
      (long : Path.maxBytes < size (Path.below root ns).toList) :
      FailsAt d root extension es ns (.unlisted (Path.below root ns) ns.length .nameTooLong)
  | unreadable (selected : Selects d root extension es ns .unreadable) :
      FailsAt d root extension es ns (.unreadable (Path.below root ns) .inputOutput)

variable {d : Disk} {root extension : String} {es : List (String × Tree)} {ns : List String} {t : Tree}

theorem extension?_below_eq_some_iff (hroot : root ≠ "") (hns : ∀ n ∈ ns, Path.IsName n)
    (hne : ns ≠ []) : Path.extension? (Path.below root ns) = some extension ↔
      ∃ n ∈ ns.getLast?, HasExtension extension n := by
  obtain ⟨ps, qs, -, -, hbelow⟩ := Path.exists_parts_below hroot
  have hsplit : Path.split (Path.below root ns).toList = (ps ++ ns).map String.toList := by
    rw [← hbelow ns hne hns, Path.parts, List.map_map]
    simp
  rw [Path.extension?, hsplit, List.getLast?_map, List.getLast?_append_of_ne_nil _ hne,
    List.getLast?_eq_some_getLast hne, Option.map_some, Option.bind_some, Option.map_eq_some_iff]
  generalize ns.getLast hne = n
  constructor
  · rintro ⟨e, he, rfl⟩
    obtain ⟨stem, hstem, hn, hdot⟩ := Path.extensionOf?_eq_some_iff.1 he
    exact ⟨n, rfl, String.ofList stem, by simpa using hstem, String.toList_inj.1 (by simp [hn]),
      by simpa using hdot⟩
  · rintro ⟨m, hm, stem, hstem, hname, hdot⟩
    cases hm
    subst hname
    have hof := Path.extensionOf?_eq_some_iff.2
      ⟨stem.toList, by simpa using hstem, rfl, hdot⟩
    exact ⟨extension.toList, by simpa using hof, String.ofList_toList⟩

/-! ### What one stop gives -/

theorem ofVisit?_other_eq_error_iff {path : String} {f : Failure} :
    ofVisit? d extension (.other path) = .error f ↔
      (d.file? path = some .unreadable ∧ Path.extension? path = some extension) ∧
        f = .unreadable path .inputOutput := by
  rw [ofVisit?]
  cases d.file? path with
  | none => simp
  | some c =>
    by_cases he : Path.extension? path = some extension
    · cases c <;> simp [he, eq_comm]
    · simp [he]

theorem ofVisit?_other_eq_some_iff {path : String} {r : Header} :
    ofVisit? d extension (.other path) = .ok (some r) ↔
      ∃ data, (d.file? path = some (.bytes data) ∧ Path.extension? path = some extension) ∧
        r = ⟨path, String.ofList (Utf8.decode data)⟩ := by
  rw [ofVisit?]
  cases d.file? path with
  | none => simp
  | some c =>
    by_cases he : Path.extension? path = some extension
    · cases c <;> simp [he, eq_comm]
    · simp [he]

theorem failsAt_iff (ht : (Tree.dir es).find? ns = some t) (hdir : ¬∃ fs, t = .dir fs) {f : Failure} :
    FailsAt d root extension es ns f ↔ Selects d root extension es ns .unreadable ∧
      f = .unreadable (Path.below root ns) .inputOutput := by
  constructor
  · rintro (⟨hfs, -⟩ | hs)
    · exact absurd ⟨_, Option.some.inj (ht.symm.trans hfs)⟩ hdir
    · exact ⟨hs, rfl⟩
  · rintro ⟨hs, rfl⟩
    exact .unreadable hs

section
variable (hd : d.root.Proper) (h : d.directory? root = some es)
include hd h

theorem not_selects_dir {fs : List (String × Tree)} (hdir : (Tree.dir es).find? ns = some (.dir fs))
    {c : Content} : ¬Selects d root extension es ns c := by
  intro hc
  have hget := Disk.file?_eq_some_iff.1 hc.resolves
  rw [Disk.get_below hd h hdir (fun _ => Tree.noConfusion) (Disk.size_le_of_get hget).2] at hget
  cases hget

theorem failsAt_dir_iff {fs : List (String × Tree)} (hdir : (Tree.dir es).find? ns = some (.dir fs))
    {f : Failure} : FailsAt d root extension es ns f ↔ Path.maxBytes < size (Path.below root ns).toList ∧
      f = .unlisted (Path.below root ns) ns.length .nameTooLong := by
  constructor
  · rintro (⟨-, hlong⟩ | hs)
    · exact ⟨hlong, rfl⟩
    · exact absurd hs (not_selects_dir hd h hdir)
  · rintro ⟨hlong, rfl⟩
    exact .unlisted hdir hlong

theorem selects_iff (ht : (Tree.dir es).find? ns = some t) (hdir : ¬∃ fs, t = .dir fs) {c : Content} :
    Selects d root extension es ns c ↔ d.file? (Path.below root ns) = some c ∧
      Path.extension? (Path.below root ns) = some extension := by
  have hne : ns ≠ [] := by
    rintro rfl
    exact hdir ⟨es, (Option.some.inj ht).symm⟩
  have hget := Disk.directory?_eq_some_iff.1 h
  have hnames : ∀ n ∈ ns, Path.IsName n := ((Disk.proper_of_get hd hget).isName_of_find? ht).1
  rw [extension?_below_eq_some_iff (Disk.size_le_of_get hget).1 hnames hne]
  exact ⟨fun hs => ⟨hs.resolves, hs.extension⟩, fun hs => ⟨⟨t, ht⟩, hs.1, hs.2⟩⟩

/-- A stop of a walk fails if its place does. -/
theorem ofVisit?_eq_error_iff (ht : (Tree.dir es).find? ns = some t) {f : Failure} :
    ofVisit? d extension (Tree.visitAt root 0 (ns, t)) = .error f ↔ FailsAt d root extension es ns f := by
  by_cases hdir : ∃ fs, t = .dir fs
  · obtain ⟨fs, rfl⟩ := hdir
    rw [failsAt_dir_iff hd h ht, Tree.visitAt, Nat.zero_add, ofVisit?]
    split <;> simp_all [eq_comm]
  · rw [failsAt_iff ht hdir, selects_iff hd h ht hdir, Tree.visitAt_eq_other hdir,
      ofVisit?_other_eq_error_iff]

/-- A stop of a walk gives a header if its place has one. -/
theorem ofVisit?_eq_some_iff (ht : (Tree.dir es).find? ns = some t) {r : Header} :
    ofVisit? d extension (Tree.visitAt root 0 (ns, t)) = .ok (some r) ↔
      ∃ data, Selects d root extension es ns (.bytes data) ∧
        r = ⟨Path.below root ns, String.ofList (Utf8.decode data)⟩ := by
  by_cases hdir : ∃ fs, t = .dir fs
  · obtain ⟨fs, rfl⟩ := hdir
    have hnone : ofVisit? d extension (Tree.visitAt root 0 (ns, .dir fs)) ≠ .ok (some r) := by
      rw [Tree.visitAt, ofVisit?]
      split <;> simp
    refine iff_of_false hnone ?_
    rintro ⟨data, hs, -⟩
    exact not_selects_dir hd h ht hs
  · simp only [selects_iff hd h ht hdir, Tree.visitAt_eq_other hdir, ofVisit?_other_eq_some_iff]

end

/-! ### Running through the stops -/

section
variable {α β ε : Type} {F : α → Except ε (Option β)}

/-- If no stop fails, all that they give is collected. -/
theorem mapM_of_ok {γ : Type} {S : α → γ → Prop} {g : α → γ → β} {l : List α}
    (hok : ∀ a ∈ l, ∀ e, F a ≠ .error e)
    (hS : ∀ a ∈ l, ∀ b, F a = .ok (some b) ↔ ∃ c, S a c ∧ b = g a c)
    (hunique : ∀ a c c', S a c → S a c' → c = c') :
    ∃ found : List (α × γ), (found.map Prod.fst).Sublist l ∧ (∀ a c, (a, c) ∈ found ↔ a ∈ l ∧ S a c) ∧
      ∃ bs, l.mapM F = .ok bs ∧ bs.filterMap id = found.map fun p => g p.1 p.2 := by
  induction l with
  | nil => exact ⟨[], .slnil, by simp, [], rfl, rfl⟩
  | cons a l ih =>
    obtain ⟨hoka, hokl⟩ := List.forall_mem_cons.1 hok
    obtain ⟨hSa, hSl⟩ := List.forall_mem_cons.1 hS
    obtain ⟨found, hsub, hmem, bs, hbs, hfilter⟩ := ih hokl hSl
    cases hF : F a with
    | error e => exact absurd hF (hoka e)
    | ok o =>
      have hrun : (a :: l).mapM F = .ok (o :: bs) := by
        rw [List.mapM_cons, hF, hbs]
        rfl
      cases o with
      | none =>
        have hnone : ∀ c, ¬S a c := fun c hc => by
          have := (hSa _).2 ⟨c, hc, rfl⟩
          rw [hF] at this
          cases this
        refine ⟨found, hsub.cons a, fun x c => ?_, none :: bs, hrun, hfilter⟩
        rw [hmem, List.mem_cons]
        constructor
        · rintro ⟨hx, hc⟩
          exact ⟨.inr hx, hc⟩
        · rintro ⟨rfl | hx, hc⟩
          · exact absurd hc (hnone c)
          · exact ⟨hx, hc⟩
      | some b =>
        obtain ⟨c, hc, rfl⟩ := (hSa b).1 hF
        refine ⟨(a, c) :: found, hsub.cons_cons a, fun x c' => ?_, some (g a c) :: bs, hrun, ?_⟩
        · rw [List.mem_cons, Prod.mk.injEq, hmem, List.mem_cons]
          constructor
          · rintro (⟨rfl, rfl⟩ | ⟨hx, hc'⟩)
            · exact ⟨.inl rfl, hc⟩
            · exact ⟨.inr hx, hc'⟩
          · rintro ⟨rfl | hx, hc'⟩
            · exact .inl ⟨rfl, hunique x c' c hc' hc⟩
            · exact .inr ⟨hx, hc'⟩
        · exact congrArg (g a c :: ·) hfilter

/-- The first stop that fails is the failure of all. -/
theorem mapM_of_error {l : List α} (h : ∃ a ∈ l, ∃ e, F a = .error e) :
    ∃ l₁ a l₂ e, l = l₁ ++ a :: l₂ ∧ (∀ x ∈ l₁, ∀ e, F x ≠ .error e) ∧ F a = .error e ∧
      l.mapM F = .error e := by
  induction l with
  | nil =>
    obtain ⟨a, ha, -⟩ := h
    cases ha
  | cons a l ih =>
    cases hF : F a with
    | error e =>
      refine ⟨[], a, l, e, rfl, by simp, hF, ?_⟩
      rw [List.mapM_cons, hF]
      rfl
    | ok o =>
      have hlater : ∃ a ∈ l, ∃ e, F a = .error e := by
        obtain ⟨x, hx, e, he⟩ := h
        rcases List.mem_cons.1 hx with rfl | hx
        · rw [hF] at he
          cases he
        · exact ⟨x, hx, e, he⟩
      obtain ⟨l₁, b, l₂, e, rfl, hl₁, hb, hrun⟩ := ih hlater
      refine ⟨a :: l₁, b, l₂, e, rfl, List.forall_mem_cons.2 ⟨fun e he => ?_, hl₁⟩, hb, ?_⟩
      · rw [hF] at he
        cases he
      · rw [List.mapM_cons, hF, hrun]
        rfl

end

theorem collect_eq (h : d.directory? root = some es) : collect d root extension =
    ((Tree.dir es).places.mapM fun p => ofVisit? d extension (Tree.visitAt root 0 p)) >>=
      fun found => .ok (found.filterMap id) := by
  rw [collect, h]
  show (Tree.visits root 0 (.dir es)).mapM (ofVisit? d extension) >>= _ = _
  rw [Tree.visits_eq, List.mapM_map]
  rfl

theorem collect_congr (hd : d.root.Proper) {u : Tree} (hu : u.Proper) (h : d.root.Alike u) :
    collect ⟨u, d.cwd⟩ root extension = collect d root extension := by
  have hvisit : ofVisit? ⟨u, d.cwd⟩ extension = ofVisit? d extension := by
    funext v
    cases v with
    | directory path depth => rfl
    | other path => rw [ofVisit?, ofVisit?, Disk.file?_congr h]
  cases he : d.directory? root with
  | none =>
    cases he' : Disk.directory? ⟨u, d.cwd⟩ root with
    | none => rw [collect, collect, he, he']
    | some es' =>
      obtain ⟨es, hes, -⟩ := Disk.directory?_congr (d := ⟨u, d.cwd⟩) h.symm he'
      cases he.symm.trans hes
  | some es =>
    obtain ⟨es', hes', halike⟩ := Disk.directory?_congr h he
    have hproper := Disk.proper_of_get hd (Disk.directory?_eq_some_iff.1 he)
    have hproper' := Disk.proper_of_get (d := ⟨u, d.cwd⟩) hu (Disk.directory?_eq_some_iff.1 hes')
    rw [collect, collect, he, hes']
    show (Tree.visits root 0 (.dir es')).mapM _ >>= _ = (Tree.visits root 0 (.dir es)).mapM _ >>= _
    rw [halike.visits_eq hproper hproper', hvisit]

section
variable (hd : d.root.Proper) (h : d.directory? root = some es)
include hd h

/-- If nothing fails, the headers come in the order of their names. -/
theorem collect_of_forall_not_failsAt (hok : ∀ ns f, ¬FailsAt d root extension es ns f) :
    ∃ found : List (List String × List UInt8), found.Pairwise (fun p q => Path.Before p.1 q.1) ∧
      (∀ ns data, (ns, data) ∈ found ↔ Selects d root extension es ns (.bytes data)) ∧
      collect d root extension = .ok (found.map fun p =>
        ⟨Path.below root p.1, String.ofList (Utf8.decode p.2)⟩) := by
  have hproper := Disk.proper_of_get hd (Disk.directory?_eq_some_iff.1 h)
  have hplace : ∀ p ∈ (Tree.dir es).places, (Tree.dir es).find? p.1 = some p.2 := fun p =>
    hproper.mem_places_iff.1
  obtain ⟨found, hsub, hmem, bs, hbs, hfilter⟩ := mapM_of_ok
    (S := fun p data => Selects d root extension es p.1 (.bytes data))
    (g := fun p data => ⟨Path.below root p.1, String.ofList (Utf8.decode data)⟩)
    (fun p hp f hf => hok p.1 f ((ofVisit?_eq_error_iff hd h (hplace p hp)).1 hf))
    (fun p hp r => ofVisit?_eq_some_iff hd h (hplace p hp))
    (fun p data data' hs hs' => by simpa using hs.resolves.symm.trans hs'.resolves)
  refine ⟨found.map fun q => (q.1.1, q.2), ?_, fun ns data => ?_, ?_⟩
  · have hpairwise := hproper.pairwise_places.sublist hsub
    rw [List.pairwise_map] at hpairwise ⊢
    exact hpairwise
  · constructor
    · intro hm
      obtain ⟨⟨p, data⟩, hq, heq⟩ := List.mem_map.1 hm
      cases heq
      exact ((hmem p data).1 hq).2
    · intro hs
      obtain ⟨t, ht⟩ := hs.entry
      exact List.mem_map.2 ⟨((ns, t), data), (hmem _ _).2 ⟨hproper.mem_places_iff.2 ht, hs⟩, rfl⟩
  · rw [collect_eq h, hbs, List.map_map]
    exact congrArg Except.ok hfilter

/-- What fails first is the failure of the whole. -/
theorem collect_of_failsAt (hfail : ∃ ns f, FailsAt d root extension es ns f) :
    ∃ ns f, FailsAt d root extension es ns f ∧
      (∀ ms g, FailsAt d root extension es ms g → ms = ns ∧ g = f ∨ Path.Before ns ms) ∧
      collect d root extension = .error f := by
  have hproper := Disk.proper_of_get hd (Disk.directory?_eq_some_iff.1 h)
  have hplace : ∀ p ∈ (Tree.dir es).places, (Tree.dir es).find? p.1 = some p.2 := fun p =>
    hproper.mem_places_iff.1
  have hentry : ∀ {ms g}, FailsAt d root extension es ms g → ∃ t, (ms, t) ∈ (Tree.dir es).places := by
    intro ms g hg
    cases hg with
    | unlisted hdir _ => exact ⟨_, hproper.mem_places_iff.2 hdir⟩
    | unreadable hs => exact hs.entry.imp fun t => hproper.mem_places_iff.2
  obtain ⟨ms, g, hg⟩ := hfail
  obtain ⟨t, ht⟩ := hentry hg
  obtain ⟨l₁, p, l₂, f, hl, hl₁, hp, hrun⟩ := mapM_of_error
    (F := fun p => ofVisit? d extension (Tree.visitAt root 0 p))
    ⟨(ms, t), ht, g, (ofVisit?_eq_error_iff hd h (hplace _ ht)).2 hg⟩
  have hpairwise := hproper.pairwise_places
  rw [hl] at hplace hpairwise
  have hp' := hplace p (by simp)
  refine ⟨p.1, f, (ofVisit?_eq_error_iff hd h hp').1 hp, fun ns e he => ?_, ?_⟩
  · obtain ⟨u, hu⟩ := hentry he
    have hfails := (ofVisit?_eq_error_iff hd h (hproper.mem_places_iff.1 hu)).2 he
    rw [hl] at hu
    rcases List.mem_append.1 hu with hu | hu
    · exact absurd hfails (hl₁ _ hu e)
    · rcases List.mem_cons.1 hu with rfl | hu
      · rw [hp] at hfails
        cases hfails
        exact .inl ⟨rfl, rfl⟩
      · exact .inr ((List.pairwise_cons.1 (List.pairwise_append.1 hpairwise).2.1).1 _ hu)
  · rw [collect_eq h, hrun]
    rfl

end

/-- What `collect` gives: the headers below a directory in the order of their names, whatever the order
in which directories list them, or the first failure in that order. -/
theorem collect_spec (d : Disk) (hd : d.root.Proper) (root extension : String) :
    (d.directory? root = none → collect d root extension = .error (.noDirectory root)) ∧
    (∀ es, d.directory? root = some es →
      ((∀ ns f, ¬FailsAt d root extension es ns f) →
        ∃ found : List (List String × List UInt8), found.Pairwise (fun p q => Path.Before p.1 q.1) ∧
          (∀ ns data, (ns, data) ∈ found ↔ Selects d root extension es ns (.bytes data)) ∧
          collect d root extension = .ok (found.map fun p =>
            ⟨Path.below root p.1, String.ofList (Utf8.decode p.2)⟩)) ∧
      ((∃ ns f, FailsAt d root extension es ns f) → ∃ ns f, FailsAt d root extension es ns f ∧
        (∀ ms g, FailsAt d root extension es ms g → ms = ns ∧ g = f ∨ Path.Before ns ms) ∧
        collect d root extension = .error f) ∧
      ∀ ns c, (Tree.dir es).find? ns = some (.file c) →
        size (Path.below root ns).toList ≤ Path.maxBytes → d.file? (Path.below root ns) = some c) ∧
    ∀ t, t.Proper → d.root.Alike t → collect ⟨t, d.cwd⟩ root extension = collect d root extension := by
  refine ⟨fun h => ?_, fun es h => ⟨collect_of_forall_not_failsAt hd h, collect_of_failsAt hd h, ?_⟩,
    fun t ht halike => collect_congr hd ht halike⟩
  · rw [collect, h]
  · intro ns c hc hsize
    exact Disk.file?_eq_some_iff.2 (Disk.get_below hd h hc (fun _ => Tree.noConfusion) hsize)

/-- Two headers that are listed out of order. -/
def swapped : List (String × Tree) :=
  [("b.hpp", .file (.bytes [98])), ("a.hpp", .file (.bytes [97]))]

theorem proper_swapped : (Tree.dir swapped).Proper := by
  refine .dir (fun e he => ?_) (by decide) fun e he => ?_
  · simp only [swapped, List.mem_cons, List.not_mem_nil, or_false] at he
    rcases he with rfl | rfl <;> exact ⟨by decide, by decide, by decide, by decide⟩
  · simp only [swapped, List.mem_cons, List.not_mem_nil, or_false] at he
    rcases he with rfl | rfl <;> exact .file _

theorem directory?_swapped : Disk.directory? ⟨.dir swapped, []⟩ "/" = some swapped := by
  have hparts : Path.parts "/" = ["", ""] := by decide
  rw [Disk.directory?_eq_some_iff, Disk.get_eq_ok_iff, hparts]
  exact ⟨.directory [], Disk.locate_eq_ok_iff.2 ⟨by decide, by decide, Disk.walk_voids (by simp)⟩, rfl⟩

theorem find?_swapped {ns : List String} {t : Tree} (h : (Tree.dir swapped).find? ns = some t) :
    ns = [] ∨ ∃ data, t = .file (.bytes data) := by
  have hm := proper_swapped.mem_places_iff.2 h
  simp only [Tree.places, Tree.placesBelow, swapped, List.mem_cons, Prod.mk.injEq, List.mem_flatMap,
    List.mem_mergeSort, List.mem_map, List.not_mem_nil, or_false] at hm
  rcases hm with ⟨rfl, -⟩ | ⟨_, rfl | rfl, p, hp, -, rfl⟩
  · exact .inl rfl
  · exact .inr ⟨[98], congrArg Prod.snd (List.mem_singleton.1 hp)⟩
  · exact .inr ⟨[97], congrArg Prod.snd (List.mem_singleton.1 hp)⟩

theorem not_failsAt_swapped (ns : List String) (f : Failure) :
    ¬FailsAt ⟨.dir swapped, []⟩ "/" "hpp" swapped ns f := by
  rintro (⟨hdir, hlong⟩ | ⟨⟨t, ht⟩, hfile, hext⟩)
  · rcases find?_swapped hdir with rfl | ⟨data, hdata⟩
    · exact absurd hlong (by decide)
    · cases hdata
  · rcases find?_swapped ht with rfl | ⟨data, rfl⟩
    · obtain ⟨n, hn, -⟩ := hext
      cases hn
    · rw [Disk.file?_eq_some_iff] at hfile
      rw [Disk.get_below proper_swapped directory?_swapped ht (fun _ => Tree.noConfusion)
        (Disk.size_le_of_get hfile).2] at hfile
      cases hfile

theorem collect_spec_swapped :
    (Tree.dir swapped).Proper ∧
    (∃ found : List (List String × List UInt8), found.Pairwise (fun p q => Path.Before p.1 q.1) ∧
      (∀ ns data, (ns, data) ∈ found ↔
        Selects ⟨.dir swapped, []⟩ "/" "hpp" swapped ns (.bytes data)) ∧
      collect ⟨.dir swapped, []⟩ "/" "hpp" = .ok (found.map fun p =>
        ⟨Path.below "/" p.1, String.ofList (Utf8.decode p.2)⟩)) ∧
    collect ⟨.dir swapped.reverse, []⟩ "/" "hpp" = collect ⟨.dir swapped, []⟩ "/" "hpp" := by
  have hspec := collect_spec ⟨.dir swapped, []⟩ proper_swapped "/" "hpp"
  have hperm := (List.reverse_perm swapped).symm
  exact ⟨proper_swapped, (hspec.2.1 swapped directory?_swapped).1 not_failsAt_swapped,
    hspec.2.2 _ (proper_swapped.of_perm hperm) (Tree.alike_of_perm hperm (by decide))⟩

end Header

end HeaderMeta
