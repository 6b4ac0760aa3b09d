import HeaderMeta.Proofs.Growth

/-!
# Making directories and writing a file

What the operations on a disk leave behind. Making directories, whether it succeeds or not, makes the
tree grow (`Disk.makeLineage_growsTo`). Writing changes what is at one place, where there was no
directory and no link, and afterwards the path leads there (`Disk.exists_stores`); for a walk that ends at
a file passes directories and links alone, and of these none is lost (`Disk.walk_reach_of_walk`).
-/

namespace HeaderMeta.Files

open Text

theorem Path.slash_notMem_of_mem_split {s p : List Char} (h : p ∈ split s) : '/' ∉ p := by
  induction s generalizing p with
  | nil =>
    rw [List.mem_singleton.1 h]
    exact List.not_mem_nil
  | cons c s ih =>
    rw [split] at h
    split at h
    · rcases List.mem_cons.1 h with rfl | h
      · exact List.not_mem_nil
      · exact ih h
    · rename_i hc
      split at h
      · rw [List.mem_singleton.1 h, List.mem_singleton]
        exact Ne.symm hc
      · rename_i q qs hs
        rcases List.mem_cons.1 h with rfl | h
        · rw [List.mem_cons, not_or]
          exact ⟨Ne.symm hc, ih (hs ▸ List.mem_cons_self ..)⟩
        · exact ih (hs ▸ List.mem_cons_of_mem q h)

theorem Path.slash_notMem_of_mem_parts {path p : String} (h : p ∈ parts path) : '/' ∉ p.toList := by
  obtain ⟨q, hq, rfl⟩ := List.mem_map.1 h
  rw [String.toList_ofList]
  exact slash_notMem_of_mem_split hq

namespace Disk
variable {d d' : Disk} {t u : Tree} {path : String} {purpose : Purpose} {links : Nat}
  {loc ns ps place : List String} {n : String} {spot : Spot} {data : List UInt8}

/-! ### Where a walk ends -/

theorem isDir_start (h : t.IsDir loc) (path : String) : t.IsDir (start path loc) := by
  rw [start]
  split
  · exact h.root
  · exact h

/-- A walk that starts at a directory ends at one, or at a name in one. Under the name there may be a
file, if nothing must be there nothing, and if a directory is to be made a link. -/
theorem walk_entry {l : List String} (hloc : t.IsDir loc) (hps : ∀ p ∈ ps, '/' ∉ p.toList)
    (h : walk t purpose links loc ps = .ok (.entry l n)) : t.IsDir l ∧ Path.IsName n ∧
      ((t.find? (l ++ [n]) = none ∧ purpose ≠ .reach) ∨ (∃ c, t.find? (l ++ [n]) = some (.file c)) ∨
        (∃ target, t.find? (l ++ [n]) = some (.link target)) ∧ purpose = .make) := by
  fun_induction walk t purpose links loc ps with
  | case1 => cases h
  | case2 _ _ _ _ _ ih => exact ih hloc (fun p hp => hps p (List.mem_cons_of_mem _ hp)) h
  | case3 _ _ _ _ ih => exact ih hloc.dropLast (fun p hp => hps p (List.mem_cons_of_mem _ hp)) h
  | case4 => cases h
  | case5 => cases h
  | case6 links loc p ps hvoid hparent _ hsize hf hlast =>
    cases h
    refine ⟨hloc, ⟨by simpa using hvoid, hparent, hps _ (List.mem_cons_self ..), Nat.not_lt.1 hsize⟩, ?_⟩
    exact .inl ⟨hf, hlast.2⟩
  | case7 => cases h
  | case8 links loc p ps hvoid hparent _ hsize c hf hlast =>
    cases h
    refine ⟨hloc, ⟨by simpa using hvoid, hparent, hps _ (List.mem_cons_self ..), Nat.not_lt.1 hsize⟩, ?_⟩
    exact .inr (.inl ⟨c, hf⟩)
  | case9 => cases h
  | case10 links loc p ps _ _ _ _ es hf ih =>
    exact ih ⟨es, hf⟩ (fun p hp => hps p (List.mem_cons_of_mem _ hp)) h
  | case11 links loc p ps hvoid hparent _ hsize target hf hlast =>
    cases h
    refine ⟨hloc, ⟨by simpa using hvoid, hparent, hps _ (List.mem_cons_self ..), Nat.not_lt.1 hsize⟩, ?_⟩
    exact .inr (.inr ⟨⟨target, hf⟩, hlast.2⟩)
  | case12 => cases h
  | case13 loc p ps _ _ _ _ target _ _ links ih =>
    refine ih (isDir_start hloc target) (fun q hq => ?_) h
    rcases List.mem_append.1 hq with hq | hq
    · exact Path.slash_notMem_of_mem_parts hq
    · exact hps q (List.mem_cons_of_mem _ hq)

theorem exists_file_of_reach {l : List String} (h : walk t .reach links loc ps = .ok (.entry l n)) :
    ∃ c, t.find? (l ++ [n]) = some (.file c) := by
  generalize hp : Purpose.reach = purpose at h
  fun_induction walk t purpose links loc ps with
  | case1 => cases h
  | case2 _ _ _ _ _ ih => exact ih h
  | case3 _ _ _ _ ih => exact ih h
  | case4 => cases h
  | case5 => cases h
  | case6 _ _ _ _ _ _ _ _ _ hlast => exact absurd hp.symm hlast.2
  | case7 => cases h
  | case8 _ _ _ _ _ _ _ _ c hf _ =>
    cases h
    exact ⟨c, hf⟩
  | case9 => cases h
  | case10 _ _ _ _ _ _ _ _ _ _ ih => exact ih h
  | case11 _ _ _ _ _ _ _ _ _ _ hlast =>
    rw [← hp] at hlast
    cases hlast.2
  | case12 => cases h
  | case13 _ _ _ _ _ _ _ _ _ _ _ ih => exact ih h

/-- On its way a walk passes directories and links. In a tree that has them too it ends at the same
place, if it ends at a directory or there is a file now. -/
theorem walk_reach_of_walk (hpurpose : purpose ≠ .make)
    (hkept : ∀ ns v, (∀ c, v ≠ .file c) → t.bare? ns = some v → u.bare? ns = some v)
    (hfile : ∀ l n, spot = .entry l n → ∃ c, u.find? (l ++ [n]) = some (.file c))
    (h : walk t purpose links loc ps = .ok spot) : walk u .reach links loc ps = .ok spot := by
  fun_induction walk t purpose links loc ps with
  | case1 =>
    cases h
    rw [walk]
  | case2 _ _ _ _ hvoid ih => rw [walk, if_pos hvoid, ih h]
  | case3 _ _ _ hvoid ih => rw [walk, if_neg hvoid, if_pos rfl, ih h]
  | case4 => cases h
  | case5 => cases h
  | case6 links loc p ps hvoid hparent _ hsize _ hlast =>
    cases h
    obtain ⟨c, hc⟩ := hfile loc p rfl
    rw [walk, if_neg hvoid, if_neg hparent, if_neg (by simp), if_neg hsize, hc]
    exact if_pos hlast.1
  | case7 => cases h
  | case8 links loc p ps hvoid hparent _ hsize _ _ hlast =>
    cases h
    obtain ⟨c, hc⟩ := hfile loc p rfl
    rw [walk, if_neg hvoid, if_neg hparent, if_neg (by simp), if_neg hsize, hc]
    exact if_pos hlast
  | case9 => cases h
  | case10 links loc p ps hvoid hparent _ hsize es hf ih =>
    have hdir := hkept _ _ (fun _ => Tree.noConfusion) (Tree.bare?_eq_empty_iff.2 ⟨es, hf⟩)
    obtain ⟨es', hes'⟩ := Tree.bare?_eq_empty_iff.1 hdir
    rw [walk, if_neg hvoid, if_neg hparent, if_neg (by simp), if_neg hsize, hes']
    exact ih h
  | case11 links loc p ps _ _ _ _ _ _ hlast => exact absurd hlast.2 hpurpose
  | case12 => cases h
  | case13 loc p ps hvoid hparent _ hsize target hf _ links ih =>
    have hlink := hkept _ _ (fun _ => Tree.noConfusion) (Tree.bare?_eq_link_iff.2 hf)
    rw [walk, if_neg hvoid, if_neg hparent, if_neg (by simp), if_neg hsize,
      Tree.bare?_eq_link_iff.1 hlink]
    dsimp only
    rw [if_neg (by simp)]
    exact ih h

/-! ### Where a path leads -/

/-- Where a path leads, if it leads to a directory or a file. -/
def LeadsTo (d : Disk) (path : String) (place : List String) : Prop :=
  ∃ spot, d.locate .reach path (Path.parts path) = .ok spot ∧ spot.place = place

theorem LeadsTo.unique {place' : List String} (h : d.LeadsTo path place) (h' : d.LeadsTo path place') :
    place = place' := by
  obtain ⟨spot, hspot, rfl⟩ := h
  obtain ⟨spot', hspot', rfl⟩ := h'
  cases hspot.symm.trans hspot'
  rfl

theorem get_eq_ok_iff_leadsTo :
    d.get path = .ok t ↔ ∃ place, d.LeadsTo path place ∧ d.root.find? place = some t := by
  rw [get_eq_ok_iff]
  constructor
  · rintro ⟨spot, hspot, ht⟩
    exact ⟨spot.place, ⟨spot, hspot, rfl⟩, ht⟩
  · rintro ⟨_, ⟨spot, hspot, rfl⟩, ht⟩
    exact ⟨spot, hspot, ht⟩

theorem file?_eq_some_iff_leadsTo {c : Content} :
    d.file? path = some c ↔ ∃ place, d.LeadsTo path place ∧ d.root.find? place = some (.file c) :=
  file?_eq_some_iff.trans get_eq_ok_iff_leadsTo

theorem LeadsTo.file? {c : Content} (h : d.LeadsTo path place)
    (hc : d.root.find? place = some (.file c)) : d.file? path = some c :=
  file?_eq_some_iff_leadsTo.2 ⟨place, h, hc⟩

theorem LeadsTo.mono (hcwd : d'.cwd = d.cwd)
    (hkept : ∀ ns v, (∀ c, v ≠ .file c) → d.root.bare? ns = some v → d'.root.bare? ns = some v)
    (hfile : ∀ c, d.root.find? place = some (.file c) → ∃ c', d'.root.find? place = some (.file c'))
    (h : d.LeadsTo path place) : d'.LeadsTo path place := by
  obtain ⟨spot, hspot, rfl⟩ := h
  obtain ⟨hpath, hsize, hwalk⟩ := locate_eq_ok_iff.1 hspot
  refine ⟨spot, locate_eq_ok_iff.2 ⟨hpath, hsize, ?_⟩, rfl⟩
  rw [hcwd]
  refine walk_reach_of_walk (by decide) hkept (fun l n he => ?_) hwalk
  subst he
  obtain ⟨c, hc⟩ := exists_file_of_reach hwalk
  exact hfile c hc

/-! ### Making directories -/

/-- The tree of a disk grows. -/
structure GrowsTo (d d' : Disk) : Prop where
  cwd : d'.cwd = d.cwd
  root : d.root.GrowsTo d'.root

theorem GrowsTo.refl (d : Disk) : d.GrowsTo d :=
  ⟨rfl, .refl d.root⟩

theorem GrowsTo.trans {d'' : Disk} (h : d.GrowsTo d') (h' : d'.GrowsTo d'') : d.GrowsTo d'' :=
  ⟨h'.cwd.trans h.cwd, h.root.trans h'.root⟩

theorem GrowsTo.isDir_cwd (h : d.GrowsTo d') (hd : d.root.IsDir d.cwd) : d'.root.IsDir d'.cwd := by
  rw [h.cwd]
  exact h.root.isDir hd

theorem makeDirectory_growsTo (hd : d.root.IsDir d.cwd) (h : d.makeDirectory path = .ok d') :
    d.GrowsTo d' := by
  rw [makeDirectory] at h
  cases hl : d.locate .make path ((Path.parts path).reverse.dropWhile (· == "")).reverse with
  | error f =>
    rw [hl] at h
    cases h
  | ok spot =>
    rw [hl] at h
    cases spot with
    | directory loc => cases h
    | entry loc n =>
      obtain ⟨-, -, hwalk⟩ := locate_eq_ok_iff.1 hl
      obtain ⟨hloc, hn, -⟩ := walk_entry (isDir_start hd path) (fun p hp => by
        rw [List.mem_reverse] at hp
        have hp := (List.dropWhile_suffix _).subset hp
        exact Path.slash_notMem_of_mem_parts (List.mem_reverse.1 hp)) hwalk
      cases hf : d.root.find? (loc ++ [n]) with
      | some v =>
        simp only [bind, Except.bind, hf] at h
        cases h
      | none =>
        simp only [bind, Except.bind, hf] at h
        cases h
        exact ⟨rfl, .put hloc hn hf⟩

theorem makeLineage_growsTo (hd : d.root.IsDir d.cwd) (paths : List String) :
    d.GrowsTo (d.makeLineage paths).1 := by
  induction paths with
  | nil => exact .refl d
  | cons path above ih =>
    rw [makeLineage]
    cases hmake : d.makeDirectory path with
    | ok d' => exact makeDirectory_growsTo hd hmake
    | error f =>
      cases f with
      | notFound =>
        rcases hrest : d.makeLineage above with ⟨d', _ | u⟩
        · rw [hrest] at ih
          exact ih
        · rw [hrest] at ih
          dsimp only
          cases hagain : d'.makeDirectory path with
          | ok d'' => exact ih.trans (makeDirectory_growsTo (ih.isDir_cwd hd) hagain)
          | error f => exact ih
      | _ => exact .refl d

/-! ### Writing -/

/-- A file was written under a path, which leads to it now, in place of another or of nothing. Besides,
no more than directories were made. -/
structure Stores (d : Disk) (path : String) (data : List UInt8) (place : List String) (d' : Disk) :
    Prop where
  cwd : d'.cwd = d.cwd
  leadsTo : d'.LeadsTo path place
  holds : d'.root.find? place = some (.file (.bytes data))
  replaces : ∀ v, d.root.bare? place = some v → ∃ old, v = .file (.bytes old)
  kept : ∀ {ns v}, ns ≠ place → d.root.bare? ns = some v → d'.root.bare? ns = some v
  added : ∀ {ns v}, d'.root.bare? ns = some v → d.root.bare? ns = some v ∨ v = .empty ∨ ns = place
  proper : d.root.Proper → d'.root.Proper

/-- Directories may have been made before. -/
theorem GrowsTo.stores {d₁ : Disk} (hgrows : d.GrowsTo d₁) (h : d₁.Stores path data place d') :
    d.Stores path data place d' where
  cwd := h.cwd.trans hgrows.cwd
  leadsTo := h.leadsTo
  holds := h.holds
  replaces v hv := h.replaces v (hgrows.root.kept hv)
  kept hns hv := h.kept hns (hgrows.root.kept hv)
  added hv := by
    rcases h.added hv with hv | hv
    · exact (hgrows.root.added hv).imp_right .inl
    · exact .inr hv
  proper hd := h.proper (hgrows.root.proper hd)

theorem exists_entry_of_writeFile (h : d.writeFile path data = .ok d') :
    ∃ loc n, d.locate .write path (Path.parts path) = .ok (.entry loc n) ∧
      d.root.find? (loc ++ [n]) ≠ some (.file .unreadable) ∧
      d' = d.put (loc ++ [n]) (.file (.bytes data)) := by
  rw [writeFile] at h
  cases hl : d.locate .write path (Path.parts path) with
  | error f =>
    rw [hl] at h
    cases h
  | ok spot =>
    rw [hl] at h
    cases spot with
    | directory loc => cases h
    | entry loc n =>
      simp only [bind, Except.bind] at h
      split at h
      · cases h
      · rename_i hreadable
        cases h
        exact ⟨loc, n, rfl, hreadable, rfl⟩

theorem exists_stores (hd : d.root.IsDir d.cwd) (h : d.writeFile path data = .ok d') :
    ∃ place, d.Stores path data place d' := by
  obtain ⟨loc, n, hl, hreadable, rfl⟩ := exists_entry_of_writeFile h
  obtain ⟨hpath, hsize, hwalk⟩ := locate_eq_ok_iff.1 hl
  obtain ⟨hloc, hn, hentry⟩ := walk_entry (isDir_start hd path)
    (fun p => Path.slash_notMem_of_mem_parts) hwalk
  have hreplaces : ∀ v, d.root.find? (loc ++ [n]) = some v → ∃ old, v = .file (.bytes old) := by
    intro v hv
    rw [hv] at hentry hreadable
    rcases hentry with ⟨hnone, -⟩ | ⟨c, hc⟩ | ⟨-, hmake⟩
    · cases hnone
    · cases hc
      cases c with
      | bytes old => exact ⟨old, rfl⟩
      | unreadable => exact absurd rfl hreadable
    · cases hmake
  have hbare : ∀ ns, (d.put (loc ++ [n]) (.file (.bytes data))).root.bare? ns =
      if ns = loc ++ [n] then some (.file (.bytes data)) else d.root.bare? ns := fun ns =>
    Tree.bare?_put rfl hloc fun v hv => by
      obtain ⟨old, rfl⟩ := hreplaces v hv
      rfl
  have hholds := Tree.bare?_eq_file_iff.1 ((hbare _).trans (if_pos rfl))
  refine ⟨loc ++ [n], rfl, ⟨.entry loc n, locate_eq_ok_iff.2 ⟨hpath, hsize, ?_⟩, rfl⟩, hholds,
    fun v hv => ?_, fun {ns v} hns hv => ?_, fun {ns v} hv => ?_,
    fun hproper => hproper.put_concat (.file _) hloc hn⟩
  · refine walk_reach_of_walk (by decide) (fun ns v hv hns => ?_) (fun l m he => ?_) hwalk
    · rw [hbare, if_neg]
      · exact hns
      · rintro rfl
        obtain ⟨u, hu, rfl⟩ := Option.map_eq_some_iff.1 hns
        obtain ⟨old, rfl⟩ := hreplaces u hu
        exact hv _ rfl
    · cases he
      exact ⟨_, hholds⟩
  · obtain ⟨u, hu, rfl⟩ := Option.map_eq_some_iff.1 hv
    obtain ⟨old, rfl⟩ := hreplaces u hu
    exact ⟨old, rfl⟩
  · rw [hbare, if_neg hns]
    exact hv
  · rw [hbare] at hv
    split at hv
    · rename_i hns
      exact .inr (.inr hns)
    · exact .inl hv

namespace Stores

theorem file? (h : d.Stores path data place d') : d'.file? path = some (.bytes data) :=
  h.leadsTo.file? h.holds

/-- Directories and links stay. -/
theorem kept_of_not_file {v : Tree} (h : d.Stores path data place d') (hv : ∀ c, v ≠ .file c)
    (hns : d.root.bare? ns = some v) : d'.root.bare? ns = some v := by
  refine h.kept ?_ hns
  rintro rfl
  obtain ⟨old, rfl⟩ := h.replaces v hns
  exact hv _ rfl

theorem isDir_cwd (h : d.Stores path data place d') (hd : d.root.IsDir d.cwd) :
    d'.root.IsDir d'.cwd := by
  rw [h.cwd]
  exact Tree.bare?_eq_empty_iff.1
    (h.kept_of_not_file (fun _ => Tree.noConfusion) (Tree.bare?_eq_empty_iff.2 hd))

theorem find?_eq_file_iff {c : Content} (h : d.Stores path data place d') (hns : ns ≠ place) :
    d'.root.find? ns = some (.file c) ↔ d.root.find? ns = some (.file c) := by
  rw [← Tree.bare?_eq_file_iff, ← Tree.bare?_eq_file_iff]
  refine ⟨fun hc => ?_, h.kept hns⟩
  rcases h.added hc with hold | hempty | hplace
  · exact hold
  · cases hempty
  · exact absurd hplace hns

/-- A path leads where it led before. -/
theorem mono {p : String} (h : d.Stores path data place d') (hleads : d.LeadsTo p ns) :
    d'.LeadsTo p ns := by
  refine hleads.mono h.cwd (fun _ _ => h.kept_of_not_file) fun c hc => ?_
  by_cases hns : ns = place
  · exact ⟨_, hns ▸ h.holds⟩
  · exact ⟨c, (h.find?_eq_file_iff hns).2 hc⟩

/-- The same is written again to the same place. -/
theorem sameFiles_of_again {d'' : Disk} {place' : List String} (h : d.Stores path data place d')
    (hagain : d'.Stores path data place' d'') : d'.root.SameFiles d''.root := by
  obtain rfl := (hagain.mono h.leadsTo).unique hagain.leadsTo
  intro ns c
  by_cases hns : ns = place
  · rw [hns, h.holds, hagain.holds]
  · rw [hagain.find?_eq_file_iff hns]

end Stores

end Disk

end HeaderMeta.Files
