import HeaderMeta.Proofs.Collected
import HeaderMeta.Proofs.Decoding
import HeaderMeta.Proofs.Readback
import HeaderMeta.Proofs.Rescan
import HeaderMeta.Proofs.Runs

/-!
# Running again

A second run reads what the first one left: the file that it generated, which may be a header itself, and
the directories that it made. The file holds no struct, so a header that leads to it adds nothing. The
directories hold nothing else, but a path that leads nowhere can come to lead somewhere when one of its
parts comes to exist, and out again through `..` to any file. So a link can become a header
(`Disk.Revives`), and the output can take the place of one (`Header.IsReplaced`). Either can make the
second run generate another file (`rerun_differs`); where neither happens to a header with structs, the
second run changes nothing (`rerun_changes_no_file`).
-/

namespace HeaderMeta

open Files Text

/-! ### Lists in order -/

/-- Two lists in the same order give the same if they have the same members that give anything. -/
theorem flatMap_eq_of_pairwise {α β : Type} {R : α → α → Prop} {l₁ l₂ : List α} {f : α → List β}
    (hR : ∀ a b, R a b → ¬R b a) (h₁ : l₁.Pairwise R) (h₂ : l₂.Pairwise R)
    (hmem : ∀ a, f a ≠ [] → (a ∈ l₁ ↔ a ∈ l₂)) : l₁.flatMap f = l₂.flatMap f := by
  have : Std.Irrefl R := ⟨fun a h => hR a a h h⟩
  have : Std.Antisymm R := ⟨fun a b h h' => absurd h' (hR a b h)⟩
  have heq : (l₁.filter fun a => !(f a).isEmpty) = l₂.filter fun a => !(f a).isEmpty := by
    refine (h₁.filter _).eq_of_mem_iff (h₂.filter _) fun a => ?_
    rw [List.mem_filter, List.mem_filter, Bool.not_eq_true', List.isEmpty_eq_false_iff]
    exact and_congr_left (hmem a)
  rw [← flatMap_filter_isEmpty f l₁, heq, flatMap_filter_isEmpty]

/-! ### What is generated holds no struct -/

namespace CommandLine

theorem Format.ofText_render {format : Format} {ns : Option String}
    (hns : ∀ n ∈ ns, ¬Declaration.closing <:+: n.toList) (texts : List String) :
    Description.ofText (format.render ns (Catalog.ofTexts texts)) = [] := by
  have hsound : ∀ d ∈ (Catalog.ofTexts texts).descriptions, d.Sound := fun d => Catalog.sound_of_mem_ofTexts
  refine Description.ofText_eq_nil (Declaration.ofText_eq_nil ?_)
  cases format with
  | entt => exact Registration.not_infix_render hns hsound
  | json => exact Manifest.not_infix_render hsound

end CommandLine

/-! ### What a run leaves to the next -/

namespace Files.Disk

/-- A path that leads nowhere comes to lead to a file that was there all along and stays as it was. -/
def Revives (d d' : Disk) (path : String) (data : List UInt8) : Prop :=
  d.exists? path = false ∧
    ∃ place, d'.LeadsTo path place ∧ d.root.find? place = some (.file (.bytes data)) ∧
      d'.root.find? place = some (.file (.bytes data))

/-- A path that leads to another file than the new one led to it before, or leads to a file of before by
what was made. -/
theorem Stores.file?_or_revives {d d' : Disk} {output path : String} {data data' : List UInt8}
    {place : List String} (h : d.Stores output data place d') (hdata : data' ≠ data)
    (hfile : d'.file? path = some (.bytes data')) :
    d.file? path = some (.bytes data') ∨ d.Revives d' path data' := by
  obtain ⟨q, hleads, hq⟩ := file?_eq_some_iff_leadsTo.1 hfile
  have hne : q ≠ place := by
    rintro rfl
    cases hq.symm.trans h.holds
    exact hdata rfl
  have hold := (h.find?_eq_file_iff hne).1 hq
  cases hget : d.get path with
  | ok t =>
    obtain ⟨q', hleads', ht⟩ := get_eq_ok_iff_leadsTo.1 hget
    obtain rfl := (h.mono hleads').unique hleads
    exact .inl (hleads'.file? hold)
  | error f =>
    have hnone : d.exists? path = false := by
      rw [exists?, hget]
      rfl
    exact .inr ⟨hnone, q, hleads, hold, hq⟩

end Files.Disk

namespace Header

/-- The structs of a header with these bytes. -/
def descriptionsOf (data : List UInt8) : List Description :=
  Description.ofText (String.ofList (Utf8.decode data))

/-- A path to a link below a directory that is a header if it leads to a file. -/
def IsLink (d : Disk) (root extension path : String) : Prop :=
  ∃ es ns target, d.directory? root = some es ∧ (Tree.dir es).find? ns = some (.link target) ∧
    (∃ n ∈ ns.getLast?, HasExtension extension n) ∧ path = Path.below root ns

/-- A header with these bytes is at the place that the path of the output leads to afterwards. -/
def IsReplaced (d d' : Disk) (root output extension : String) (old : List UInt8) : Prop :=
  ∃ es ns place, d.directory? root = some es ∧ Selects d root extension es ns (.bytes old) ∧
    d.LeadsTo (Path.below root ns) place ∧ d'.LeadsTo output place

variable {d d' : Disk} {root output extension : String} {es es' : List (String × Tree)} {ns : List String}
  {data data' : List UInt8} {place : List String} {headers headers' : List Header}

section
variable (h : d.Stores output data place d') (hes : d.directory? root = some es)
  (hes' : d'.directory? root = some es')
include h hes hes'

/-- The directory of the headers is at one place, before and after. -/
theorem exists_base : ∃ base, ∀ ns, (Tree.dir es).find? ns = d.root.find? (base ++ ns) ∧
    (Tree.dir es').find? ns = d'.root.find? (base ++ ns) := by
  obtain ⟨base, hleads, ht⟩ := Disk.get_eq_ok_iff_leadsTo.1 (Disk.directory?_eq_some_iff.1 hes)
  obtain ⟨base', hleads', hu⟩ := Disk.get_eq_ok_iff_leadsTo.1 (Disk.directory?_eq_some_iff.1 hes')
  obtain rfl := (h.mono hleads).unique hleads'
  refine ⟨base, fun ns => ⟨?_, ?_⟩⟩
  · rw [Tree.find?_append, ht, Option.bind_some]
  · rw [Tree.find?_append, hu, Option.bind_some]

/-- A header stays one, if it is not what is overwritten. -/
theorem Selects.of_stores (hs : Selects d root extension es ns (.bytes data'))
    (hreplaced : ¬IsReplaced d d' root output extension data') :
    Selects d' root extension es' ns (.bytes data') := by
  obtain ⟨base, hbase⟩ := exists_base h hes hes'
  refine ⟨?_, ?_, hs.extension⟩
  · obtain ⟨t, ht⟩ := hs.entry
    rw [(hbase ns).2]
    rw [(hbase ns).1] at ht
    by_cases hns : base ++ ns = place
    · exact ⟨_, hns ▸ h.holds⟩
    · obtain ⟨u, hu, -⟩ := Option.map_eq_some_iff.1 (h.kept hns (Tree.bare?_of_find? ht))
      exact ⟨u, hu⟩
  · obtain ⟨q, hleads, hq⟩ := Disk.file?_eq_some_iff_leadsTo.1 hs.resolves
    have hne : q ≠ place := by
      rintro rfl
      exact hreplaced ⟨es, ns, q, hes, hs, hleads, h.leadsTo⟩
    exact (h.mono hleads).file? ((h.find?_eq_file_iff hne).2 hq)

/-- What is a header afterwards was one before, or it is what was written or its link was revived. -/
theorem Selects.before_stores (hd : d.root.Proper) (hdata : data' ≠ data)
    (hlinks : ∀ path, IsLink d root extension path → ¬d.Revives d' path data')
    (hs : Selects d' root extension es' ns (.bytes data')) :
    Selects d root extension es ns (.bytes data') := by
  obtain ⟨base, hbase⟩ := exists_base h hes hes'
  obtain ⟨t, ht⟩ := hs.entry
  have hfind := (hbase ns).2.symm.trans ht
  cases t with
  | dir fs => exact absurd hs (not_selects_dir (h.proper hd) hes' ht)
  | file c =>
    have hget := Disk.file?_eq_some_iff.1 hs.resolves
    have hsize := (Disk.size_le_of_get hget).2
    rw [Disk.get_below (h.proper hd) hes' ht (fun _ => Tree.noConfusion) hsize] at hget
    cases hget
    have hns : base ++ ns ≠ place := by
      intro hns
      rw [hns, h.holds] at hfind
      cases hfind
      exact hdata rfl
    have hold := (hbase ns).1.trans ((h.find?_eq_file_iff hns).1 hfind)
    refine ⟨⟨_, hold⟩, Disk.file?_eq_some_iff.2 ?_, hs.extension⟩
    exact Disk.get_below hd hes hold (fun _ => Tree.noConfusion) hsize
  | link target =>
    rcases h.added (Tree.bare?_eq_link_iff.2 hfind) with hold | hempty | hns
    · have hold := (hbase ns).1.trans (Tree.bare?_eq_link_iff.1 hold)
      rcases h.file?_or_revives hdata hs.resolves with hfile | hrevives
      · exact ⟨⟨_, hold⟩, hfile, hs.extension⟩
      · exact absurd hrevives (hlinks _ ⟨es, ns, target, hes, hold, hs.extension, rfl⟩)
    · cases hempty
    · rw [hns, h.holds] at hfind
      cases hfind

end

theorem exists_found (hd : d.root.Proper) (h : collect d root extension = .ok headers) :
    ∃ es, d.directory? root = some es ∧ ∃ found : List (List String × List UInt8),
      found.Pairwise (fun p q => Path.Before p.1 q.1) ∧
      (∀ ns data, (ns, data) ∈ found ↔ Selects d root extension es ns (.bytes data)) ∧
      headers.flatMap (fun r => Description.ofText r.text) = found.flatMap fun p => descriptionsOf p.2 := by
  cases hes : d.directory? root with
  | none =>
    rw [collect, hes] at h
    cases h
  | some es =>
    refine ⟨es, rfl, ?_⟩
    have hok : ∀ ns f, ¬FailsAt d root extension es ns f := by
      intro ns f hf
      obtain ⟨_, g, -, -, hg⟩ := collect_of_failsAt hd hes ⟨ns, f, hf⟩
      cases h.symm.trans hg
    obtain ⟨found, hpairwise, hmem, hcollect⟩ := collect_of_forall_not_failsAt hd hes hok
    refine ⟨found, hpairwise, hmem, ?_⟩
    cases h.symm.trans hcollect
    rw [List.flatMap_map]
    rfl

/-- The headers hold the same structs before and after, if none is in what is written, in what is
overwritten or in what a link comes to lead to. -/
theorem flatMap_of_stores (h : d.Stores output data place d') (hd : d.root.Proper)
    (hempty : descriptionsOf data = [])
    (hreplaced : ∀ old, IsReplaced d d' root output extension old → descriptionsOf old = [])
    (hlinks : ∀ path old, IsLink d root extension path → d.Revives d' path old → descriptionsOf old = [])
    (hcollect : collect d root extension = .ok headers)
    (hcollect' : collect d' root extension = .ok headers') :
    headers.flatMap (fun r => Description.ofText r.text) =
      headers'.flatMap fun r => Description.ofText r.text := by
  obtain ⟨es, hes, found, hpairwise, hfound, heq⟩ := exists_found hd hcollect
  obtain ⟨es', hes', found', hpairwise', hfound', heq'⟩ := exists_found (h.proper hd) hcollect'
  rw [heq, heq']
  refine flatMap_eq_of_pairwise (fun p q => Path.Before.asymm) hpairwise hpairwise' ?_
  rintro ⟨ns, data'⟩ hstructs
  rw [hfound, hfound']
  constructor
  · intro hs
    exact hs.of_stores h hes hes' fun hold => hstructs (hreplaced data' hold)
  · intro hs
    refine hs.before_stores h hes hes' hd ?_ fun path hlink hrevives => ?_
    · rintro rfl
      exact hstructs hempty
    · exact hstructs (hlinks path data' hlink hrevives)

end Header

/-! ### What is generated again -/

namespace CommandLine

theorem descriptions_ofTexts_text (headers : List Header) :
    (Catalog.ofTexts (headers.map Header.text)).descriptions =
      headers.flatMap fun r => Description.ofText r.text := by
  rw [Catalog.descriptions_ofTexts, List.flatMap_map]

theorem generated_eq {format : Format} {ns : Option String} {headers headers' : List Header}
    (h : headers.flatMap (fun r => Description.ofText r.text) =
      headers'.flatMap fun r => Description.ofText r.text) :
    generated format ns headers = generated format ns headers' := by
  have hdescriptions : (Catalog.ofTexts (headers.map Header.text)).descriptions =
      (Catalog.ofTexts (headers'.map Header.text)).descriptions := by
    rw [descriptions_ofTexts_text, descriptions_ofTexts_text, h]
  have hcatalog : Catalog.ofTexts (headers.map Header.text) = Catalog.ofTexts (headers'.map Header.text) :=
    congrArg Catalog.mk hdescriptions
  rw [generated, generated, hcatalog]

/-- A registration tells how many structs there were. -/
theorem length_of_generated_eq {ns : Option String} {headers headers' : List Header}
    (h : generated .entt ns headers = generated .entt ns headers') :
    (headers.flatMap fun r => Description.ofText r.text).length =
      (headers'.flatMap fun r => Description.ofText r.text).length := by
  have htext := congrArg (fun data => String.ofList (Utf8.decode data)) h
  simp only [generated, Utf8.decode_bytes] at htext
  have hsame := Registration.sameCalls_of_render_eq (fun _ => Catalog.sound_of_mem_ofTexts)
    (fun _ => Catalog.sound_of_mem_ofTexts) htext
  rw [descriptions_ofTexts_text, descriptions_ofTexts_text] at hsame
  exact hsame.length_eq

theorem descriptionsOf_generated {format : Format} {ns : Option String}
    (hns : ∀ n ∈ ns, ¬Declaration.closing <:+: n.toList) (headers : List Header) :
    Header.descriptionsOf (generated format ns headers) = [] := by
  rw [Header.descriptionsOf, generated, Utf8.decode_bytes]
  exact Format.ofText_render hns _

/-! ### The small project again -/

section
variable {target : String}

/-- What a second run reads, with what its link leads to now. -/
theorem collect_project_nested {data old linked : List UInt8}
    (hlink : (project target data (nested old)).file? "./b.hpp" = some (.bytes linked)) :
    Header.collect (project target data (nested old)) "." "hpp" =
      .ok [⟨"./a.hpp", String.ofList (Utf8.decode data)⟩, ⟨"./b.hpp", String.ofList (Utf8.decode linked)⟩,
        ⟨"./gen/out.hpp", String.ofList (Utf8.decode old)⟩] := by
  have hout : Path.parts "./gen/out.hpp" = [".", "gen", "out.hpp"] := by decide
  have hnested : (project target data (nested old)).file? "./gen/out.hpp" = some (.bytes old) := by
    simp +decide [Disk.file?, Disk.get, Disk.locate, Disk.walk, bind, Except.bind, pure, Except.pure,
      project, nested, Tree.find?, Tree.entries, List.lookup, hout]
  have hvisits : Tree.visits "." 0 (project target data (nested old)).root =
      [.directory "." 0, .other "./a.hpp", .other "./b.hpp", .directory "./gen" 1,
        .other "./gen/out.hpp"] := by cbv
  simp +decide [collect_of_visits hvisits, Header.ofVisit?, file?_project, hlink, hnested, bind, Except.bind,
    pure, Except.pure]

theorem store_project_nested (data old : List UInt8) (text : String) :
    store (project target data (nested old)) "gen/out.hpp" text =
      (project target data (nested (Utf8.bytes text)), .ok ()) := by
  have hparent : Path.parent? "gen/out.hpp" = some "gen" := by decide
  have hthere : (project target data (nested old)).exists? "gen" = true := by
    simp +decide [Disk.exists?, Disk.get, Disk.locate, Disk.walk, bind, Except.bind, pure, Except.pure,
      project, nested, Tree.find?, Tree.entries, List.lookup, Except.isOk, Except.toBool]
  have hwrite := writeFile_project target data (Utf8.encode text.toList) (.inr ⟨old, rfl⟩)
  rw [← nested] at hwrite
  simp [store, makeRoom, hparent, hthere, hwrite, Utf8.bytes]

/-- The output of the first run, and of a second one if the link leads to some bytes then. -/
def firstOutput : List UInt8 :=
  generated .entt none [⟨"./a.hpp", serialized⟩]

def secondOutput (linked : List UInt8) : List UInt8 :=
  generated .entt none [⟨"./a.hpp", serialized⟩, ⟨"./b.hpp", String.ofList (Utf8.decode linked)⟩,
    ⟨"./gen/out.hpp", String.ofList (Utf8.decode firstOutput)⟩]

theorem ofText_firstOutput : Description.ofText (String.ofList (Utf8.decode firstOutput)) = [] :=
  descriptionsOf_generated (by simp) _

theorem length_ofText_serialized : (Description.ofText serialized).length = 1 := by
  decide +kernel

theorem length_of_eq_firstOutput {headers : List Header} (h : generated .entt none headers = firstOutput) :
    (headers.flatMap fun r => Description.ofText r.text).length = 1 := by
  rw [length_of_generated_eq h, List.flatMap_singleton, length_ofText_serialized]

theorem rerun_project {linked : List UInt8} (htarget : ∃ p ps, Path.parts target = "gen" :: p :: ps)
    (hlink : (project target (Utf8.bytes serialized) (nested firstOutput)).file? "./b.hpp" =
      some (.bytes linked)) :
    (run (run (untouched target) [] (inPlace "gen/out.hpp")).disk [] (inPlace "gen/out.hpp")).exit = 0 ∧
    (run (run (untouched target) [] (inPlace "gen/out.hpp")).disk [] (inPlace "gen/out.hpp")).disk =
      project target (Utf8.bytes serialized) (nested (secondOutput linked)) := by
  rw [(run_project htarget).2]
  have hcollect := collect_project_nested hlink
  rw [Utf8.decode_bytes] at hcollect
  refine run_of_store parse_inPlace hcollect fun text htext => ?_
  exact (store_project_nested _ _ text).trans (by rw [htext]; rfl)

theorem proper_untouched (target : String) : (untouched target).root.Proper := by
  refine .dir (fun e he => ?_) (by simp) fun e he => ?_
  · simp only [List.append_nil, List.mem_cons, List.not_mem_nil, or_false] at he
    rcases he with rfl | rfl
    · show Path.IsName "a.hpp"
      exact ⟨by decide, by decide, by decide, by decide⟩
    · show Path.IsName "b.hpp"
      exact ⟨by decide, by decide, by decide, by decide⟩
  · simp only [List.append_nil, List.mem_cons, List.not_mem_nil, or_false] at he
    rcases he with rfl | rfl
    · exact .file _
    · exact .link _

theorem leadsTo_nested (data old : List UInt8) :
    (project target data (nested old)).LeadsTo "gen/out.hpp" ["gen", "out.hpp"] := by
  refine ⟨.entry ["gen"] "out.hpp", Disk.locate_eq_ok_iff.2 ⟨by decide, by decide, ?_⟩, rfl⟩
  simp +decide [Disk.walk, project, nested, Tree.find?, Tree.entries, List.lookup]

theorem exists?_untouched (target : String) : (untouched target).exists? "gen/out.hpp" = false := by
  simp +decide [Disk.exists?, Disk.get, Disk.locate, Disk.walk, bind, Except.bind, untouched, project,
    Tree.find?, Tree.entries, List.lookup, Except.isOk, Except.toBool]

/-- There is one link in the project. -/
theorem eq_of_find?_untouched {loc : List String} {target' : String}
    (h : (untouched target).root.find? loc = some (.link target')) : loc = ["b.hpp"] := by
  have hmem := (proper_untouched target).mem_places_iff.2 h
  simp only [untouched, project, Tree.places, Tree.placesBelow, List.append_nil, List.mem_cons, Prod.mk.injEq,
    List.mem_flatMap, List.mem_mergeSort, List.mem_map, List.not_mem_nil, or_false] at hmem
  rcases hmem with ⟨-, hdir⟩ | ⟨_, rfl | rfl, p, hp, hloc⟩
  · cases hdir
  · cases List.mem_singleton.1 hp
    cases hloc.2
  · cases List.mem_singleton.1 hp
    exact hloc.1.symm

end

/-- A link to the output leads to it when it is there. -/
theorem leadsTo_link (data old : List UInt8) :
    (project "gen/out.hpp" data (nested old)).LeadsTo "./b.hpp" ["gen", "out.hpp"] := by
  refine ⟨.entry ["gen"] "out.hpp", Disk.locate_eq_ok_iff.2 ⟨by decide, by decide, ?_⟩, rfl⟩
  simp +decide [Disk.walk, Disk.maxLinks, project, nested, Tree.find?, Tree.entries, List.lookup]

@[simp] theorem parts_above : Path.parts "gen/.." = ["gen", ".."] := by decide

@[simp] theorem parts_beside : Path.parts "gen/../a.hpp" = ["gen", "..", "a.hpp"] := by decide

theorem parse_inPlace_parent : Invocation.empty.parse (Values.ofEnvironment []) (inPlace "gen/../a.hpp") =
    some (.generate "." "gen/../a.hpp" .entt "hpp" none) := by
  decide

theorem writeFile_project_parent (target : String) (data new : List UInt8) :
    (project target data [("gen", .dir [])]).writeFile "gen/../a.hpp" new =
      .ok (project target new [("gen", .dir [])]) := by
  simp +decide [Disk.writeFile, Disk.locate, Disk.walk, bind, Except.bind, pure, Except.pure, project,
    Tree.find?, Tree.entries, List.lookup, Disk.put, Tree.put, Keyed.put]

theorem directory?_project_parent (target : String) (data : List UInt8) :
    ((project target data [("gen", .dir [])]).directory? "gen/..").isSome ∧
      (project target data [("gen", .dir [])]).exists? "gen/.." = true := by
  simp +decide [Disk.directory?, Disk.exists?, Disk.get, Disk.locate, Disk.walk, bind, Except.bind, pure,
    Except.pure, project, Tree.find?, Tree.entries, List.lookup, Except.isOk, Except.toBool]

/-- To write through a directory that is missing makes it. -/
theorem store_project_parent {target : String} (data : List UInt8) {made : List (String × Tree)}
    (hmade : made = [] ∨ made = [("gen", .dir [])]) (text : String) :
    store (project target data made) "gen/../a.hpp" text =
      (project target (Utf8.bytes text) [("gen", .dir [])], .ok ()) := by
  have hparent : Path.parent? "gen/../a.hpp" = some "gen/.." := by decide
  have hlineage : Path.lineage "gen/.." = ["gen/..", "gen"] := by decide
  obtain ⟨hdir, hthere⟩ := directory?_project_parent target data
  have hwrite := writeFile_project_parent target data (Utf8.encode text.toList)
  rcases hmade with rfl | rfl
  · have hmissing : (project target data []).exists? "gen/.." = false := by
      simp +decide [Disk.exists?, Disk.get, Disk.locate, Disk.walk, bind, Except.bind, project, Tree.find?,
        Tree.entries, List.lookup, Except.isOk, Except.toBool]
    have hfirst : (project target data []).makeDirectory "gen/.." = .error .notFound := by
      simp +decide [Disk.makeDirectory, Disk.locate, Disk.walk, bind, Except.bind, project, Tree.find?,
        Tree.entries, List.lookup]
    have hmake : (project target data []).makeDirectory "gen" =
        .ok (project target data [("gen", .dir [])]) := by
      simp +decide [Disk.makeDirectory, Disk.locate, Disk.walk, bind, Except.bind, pure, Except.pure, project,
        Tree.find?, Tree.entries, Tree.empty, List.lookup, Disk.put, Tree.put, Keyed.put]
    have hagain : (project target data [("gen", .dir [])]).makeDirectory "gen/.." =
        .error .alreadyExists := by
      simp +decide [Disk.makeDirectory, Disk.locate, Disk.walk, bind, Except.bind, project, Tree.find?,
        Tree.entries, List.lookup]
      rfl
    simp [store, makeRoom, hparent, hmissing, Disk.makeDirectories, hlineage, Disk.makeLineage, hfirst, hmake,
      hagain, hdir, hwrite, Utf8.bytes]
  · simp [store, makeRoom, hparent, hthere, hwrite, Utf8.bytes]

theorem collect_project_parent (data : List UInt8) :
    Header.collect (project "gen/out.hpp" data [("gen", .dir [])]) "." "hpp" =
      .ok [⟨"./a.hpp", String.ofList (Utf8.decode data)⟩] := by
  have hlink : (project "gen/out.hpp" data [("gen", .dir [])]).file? "./b.hpp" = none := by
    simp +decide [Disk.file?, Disk.get, Disk.locate, Disk.walk, Disk.maxLinks, bind, Except.bind, project,
      Tree.find?, Tree.entries, List.lookup]
  have hvisits : Tree.visits "." 0 (project "gen/out.hpp" data [("gen", .dir [])]).root =
      [.directory "." 0, .other "./a.hpp", .other "./b.hpp", .directory "./gen" 1] := by cbv
  simp +decide [collect_of_visits hvisits, Header.ofVisit?, file?_project, hlink, bind, Except.bind, pure,
    Except.pure]

/-! ### What a second run writes -/

/-- A run like the one before it changes no file, unless that one wrote over a header with structs, or made
a link that led nowhere lead to a file with structs. -/
theorem rerun_changes_no_file (d : Disk) (hd : d.root.Proper) (hcwd : d.root.IsDir d.cwd)
    (env : List (String × String)) (args : List String) (root output extension : String)
    (format : Format) (ns : Option String)
    (hargs : Invocation.empty.parse (Values.ofEnvironment env) args =
      some (.generate root output format extension ns))
    (hns : ∀ n ∈ ns, ¬"\x7d;".toList <:+: n.toList)
    (hfirst : (run d env args).exit = 0)
    (hsecond : (run (run d env args).disk env args).exit = 0)
    (hreplaced : ∀ old, Header.IsReplaced d (run d env args).disk root output extension old →
      Header.descriptionsOf old = [])
    (hlinks : ∀ path old, Header.IsLink d root extension path → d.Revives (run d env args).disk path old →
      Header.descriptionsOf old = []) :
    (run d env args).disk.root.SameFiles (run (run d env args).disk env args).disk.root := by
  have hrun : ∀ d, run d env args = generate d root output format extension ns := fun d => run_eq hargs
  simp only [hrun] at hfirst hsecond hreplaced hlinks ⊢
  obtain ⟨headers, place, hcollect, hstores⟩ := generate_of_ok hcwd hfirst
  obtain ⟨headers', place', hcollect', hstores'⟩ := generate_of_ok (hstores.isDir_cwd hcwd) hsecond
  have hdata : generated format ns headers' = generated format ns headers := generated_eq
    (Header.flatMap_of_stores hstores hd (descriptionsOf_generated hns headers) hreplaced hlinks hcollect
      hcollect').symm
  rw [hdata] at hstores'
  exact hstores.sameFiles_of_again hstores'

theorem rerun_changes_no_file_project :
    (untouched "gen/out.hpp").exists? "gen/out.hpp" = false ∧
    (untouched "gen/out.hpp").root.find? ["b.hpp"] = some (.link "gen/out.hpp") ∧
    (run (untouched "gen/out.hpp") [] (inPlace "gen/out.hpp")).exit = 0 ∧
    (run (run (untouched "gen/out.hpp") [] (inPlace "gen/out.hpp")).disk []
      (inPlace "gen/out.hpp")).exit = 0 ∧
    (run (untouched "gen/out.hpp") [] (inPlace "gen/out.hpp")).disk.root.SameFiles
      (run (run (untouched "gen/out.hpp") [] (inPlace "gen/out.hpp")).disk []
        (inPlace "gen/out.hpp")).disk.root := by
  have htarget : ∃ p ps, Path.parts "gen/out.hpp" = "gen" :: p :: ps := ⟨"out.hpp", [], parts_out⟩
  obtain ⟨hfirst, hdisk⟩ := run_project htarget
  have hlink := leadsTo_link (Utf8.bytes serialized) firstOutput
  obtain ⟨hsecond, -⟩ := rerun_project htarget (hlink.file? rfl)
  refine ⟨exists?_untouched _, rfl, hfirst, hsecond, rerun_changes_no_file _ (proper_untouched _) ⟨_, rfl⟩ []
    (inPlace "gen/out.hpp") "." "gen/out.hpp" "hpp" .entt none parse_inPlace (by simp) hfirst hsecond ?_ ?_⟩
  -- Nothing was where the output is now, so no header was there, and nothing that the link could come to.
  · rintro old ⟨es, ns, place, -, hs, hleads, hout⟩
    rw [hdisk] at hout
    cases hout.unique (leadsTo_nested _ _)
    obtain ⟨q, hleads', hfile⟩ := Disk.file?_eq_some_iff_leadsTo.1 hs.resolves
    cases hleads.unique hleads'
    cases hfile
  · rintro path old ⟨es, loc, target, hes, hloc, -, rfl⟩ ⟨-, place, hleads, hfile, -⟩
    rw [hdisk] at hleads
    cases (directory?_dot _).symm.trans hes
    cases eq_of_find?_untouched hloc
    cases hleads.unique hlink
    cases hfile

/-- Two runs alike that end well and leave different files, though nothing was under the path of the
output. -/
structure Unsettled (d : Disk) (output : String) : Prop where
  proper : d.root.Proper
  isDir : d.root.IsDir d.cwd
  asked : Invocation.empty.parse (Values.ofEnvironment []) (inPlace output) =
    some (.generate "." output .entt "hpp" none)
  fresh : d.exists? output = false
  first : (run d [] (inPlace output)).exit = 0
  second : (run (run d [] (inPlace output)).disk [] (inPlace output)).exit = 0
  differs : ¬(run d [] (inPlace output)).disk.root.SameFiles
    (run (run d [] (inPlace output)).disk [] (inPlace output)).disk.root

theorem unsettled_link : Unsettled (untouched "gen/../a.hpp") "gen/out.hpp" := by
  have hlink : (project "gen/../a.hpp" (Utf8.bytes serialized) (nested firstOutput)).file? "./b.hpp" =
      some (.bytes (Utf8.bytes serialized)) := by
    simp +decide [Disk.file?, Disk.get, Disk.locate, Disk.walk, Disk.maxLinks, bind, Except.bind, pure,
      Except.pure, project, nested, Tree.find?, Tree.entries, List.lookup]
  obtain ⟨hfirst, hdisk⟩ := run_project ⟨_, _, parts_beside⟩
  obtain ⟨hsecond, hdisk'⟩ := rerun_project ⟨_, _, parts_beside⟩ hlink
  refine ⟨proper_untouched _, ⟨_, rfl⟩, parse_inPlace, exists?_untouched _, hfirst, hsecond, fun hsame => ?_⟩
  rw [hdisk', hdisk] at hsame
  have hheld := (hsame ["gen", "out.hpp"] (.bytes firstOutput)).1 rfl
  have hlength := length_of_eq_firstOutput (Content.bytes.inj (Tree.file.inj (Option.some.inj hheld)))
  simp [ofText_firstOutput, length_ofText_serialized, Utf8.decode_bytes] at hlength

theorem unsettled_output : Unsettled (untouched "gen/out.hpp") "gen/../a.hpp" := by
  have hstore : ∀ text, Utf8.bytes text = firstOutput → store (untouched "gen/out.hpp") "gen/../a.hpp" text =
      (project "gen/out.hpp" firstOutput [("gen", .dir [])], .ok ()) := fun text htext => by
    rw [untouched, store_project_parent _ (.inl rfl), htext]
  obtain ⟨hfirst, hdisk⟩ := run_of_store parse_inPlace_parent (collect_untouched ⟨_, _, parts_out⟩) hstore
  have hcollect' := collect_project_parent firstOutput
  obtain ⟨hsecond, hdisk'⟩ := run_of_store parse_inPlace_parent hcollect' fun text htext => by
    rw [store_project_parent _ (.inr rfl), htext]
  rw [← hdisk] at hsecond hdisk'
  have hfresh : (untouched "gen/out.hpp").exists? "gen/../a.hpp" = false := by
    simp +decide [Disk.exists?, Disk.get, Disk.locate, Disk.walk, bind, Except.bind, untouched, project,
      Tree.find?, Tree.entries, List.lookup, Except.isOk, Except.toBool]
  refine ⟨proper_untouched _, ⟨_, rfl⟩, parse_inPlace_parent, hfresh, hfirst, hsecond, fun hsame => ?_⟩
  rw [hdisk', hdisk] at hsame
  have hheld := (hsame ["a.hpp"] (.bytes firstOutput)).1 rfl
  have hlength := length_of_eq_firstOutput (Content.bytes.inj (Tree.file.inj (Option.some.inj hheld)))
  simp [ofText_firstOutput] at hlength

/-- A link can lead to a header once more, and the output can take the place of one. -/
theorem rerun_differs :
    Unsettled (untouched "gen/../a.hpp") "gen/out.hpp" ∧
      Unsettled (untouched "gen/out.hpp") "gen/../a.hpp" :=
  ⟨unsettled_link, unsettled_output⟩

end CommandLine

end HeaderMeta
