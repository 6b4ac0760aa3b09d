import HeaderMeta.CommandLine.Run
import HeaderMeta.Proofs.Decoding
import HeaderMeta.Proofs.Writing

/-!
# What a run writes

A run writes the whole file that it is to generate, printed from the headers as they were before, or it
touches no file (`run_writes_or_touches_no_file`). All that can fail comes before the one write, and what
comes before makes directories at most (`store_of_error`, `store_of_ok`). A run generates a file if it has
two paths and is not asked for help or the version (`exists_request_of_parse`).
-/

namespace HeaderMeta.CommandLine

open Files Text

/-! ### Arguments -/

/-- The arguments that name paths: those behind two dashes, and before them those that are neither an
option nor the value of one. -/
def positionals : List String → List String
  | [] => []
  | a :: rest =>
    match Argument.ofString a, rest with
    | .dashes, rest => rest
    | .plain, rest => a :: positionals rest
    | .long name none, v :: rest =>
      if (Setting.ofName? name).isSome then positionals rest else positionals (v :: rest)
    | _, rest => positionals rest

namespace Invocation
variable {i j : Invocation} {env : Values} {args : List String} {r : Request}

theorem paths_of_set? {o : Setting} {v : String} (h : i.set? o v = some j) : j.paths = i.paths := by
  rw [set?] at h
  split at h <;> cases h
  rfl

theorem paths_of_addPath? {path : String} (h : i.addPath? path = some j) :
    j.paths = i.paths ++ [path] ∧ j.paths.length ≤ 2 := by
  rw [addPath?] at h
  split at h <;> cases h
  rename_i hfew
  refine ⟨rfl, ?_⟩
  rw [List.length_append]
  exact Nat.succ_le_of_lt hfew.2

theorem paths_of_addPaths? {paths : List String} (hi : i.paths.length ≤ 2)
    (h : i.addPaths? paths = some j) : j.paths = i.paths ++ paths ∧ j.paths.length ≤ 2 := by
  induction paths generalizing i with
  | nil =>
    cases h
    exact ⟨(List.append_nil _).symm, hi⟩
  | cons path paths ih =>
    obtain ⟨k, hk, hj⟩ := Option.bind_eq_some_iff.1 h
    obtain ⟨hpaths, hlength⟩ := paths_of_addPath? hk
    obtain ⟨hpaths', hlength'⟩ := ih hlength hj
    refine ⟨?_, hlength'⟩
    rw [hpaths', hpaths, List.append_assoc, List.singleton_append]

/-- What is asked for is help, the version, or what all arguments and paths together say. -/
theorem exists_request_of_parse (hi : i.paths.length ≤ 2) (h : i.parse env args = some r) :
    (∃ full, r = .help full) ∨ r = .version ∨
      ∃ j : Invocation, j.paths = i.paths ++ positionals args ∧ j.paths.length ≤ 2 ∧
        j.request? env = some r := by
  fun_induction parse i env args with
  | case1 i => exact .inr (.inr ⟨i, by rw [positionals, List.append_nil], hi, h⟩)
  | case2 i a rest ha =>
    obtain ⟨j, hj, hr⟩ := Option.bind_eq_some_iff.1 h
    obtain ⟨hpaths, hlength⟩ := paths_of_addPaths? hi hj
    refine .inr (.inr ⟨j, ?_, hlength, hr⟩)
    simp [hpaths, positionals, ha]
  | case3 i a rest ha ih =>
    obtain ⟨k, hk, hr⟩ := Option.bind_eq_some_iff.1 h
    obtain ⟨hpaths, hlength⟩ := paths_of_addPath? hk
    refine (ih k hlength hr).imp_right (Or.imp_right fun ⟨j, hj, hr⟩ => ⟨j, ?_, hr⟩)
    simp [hj, hpaths, positionals, ha]
  | case4 =>
    cases h
    exact .inl ⟨false, rfl⟩
  | case5 =>
    cases h
    exact .inr (.inl rfl)
  | case6 => cases h
  | case7 =>
    cases h
    exact .inl ⟨true, rfl⟩
  | case8 =>
    cases h
    exact .inr (.inl rfl)
  | case9 => cases h
  | case10 i a name o v rest _ ha _ _ ih =>
    obtain ⟨k, hk, hr⟩ := Option.bind_eq_some_iff.1 h
    have hpaths := paths_of_set? hk
    refine (ih k (hpaths ▸ hi) hr).imp_right (Or.imp_right fun ⟨j, hj, hr⟩ => ⟨j, ?_, hr⟩)
    simp [hj, hpaths, positionals, ha]
  | case11 => cases h
  | case12 i a name o v rest ho _ ha _ _ ih =>
    obtain ⟨k, hk, hr⟩ := Option.bind_eq_some_iff.1 h
    have hpaths := paths_of_set? hk
    refine (ih k (hpaths ▸ hi) hr).imp_right (Or.imp_right fun ⟨j, hj, hr⟩ => ⟨j, ?_, hr⟩)
    simp [hj, hpaths, positionals, ha, ho]
  | case13 => cases h

/-- All that is not help or the version is to generate a file, if there are two paths. -/
theorem request?_cases (h : i.request? env = some r) (hlength : i.paths.length ≤ 2) :
    (r = .usage ∧ i.paths.length < 2) ∨ ∃ root output format extension ns,
      i.paths = [root, output] ∧ r = .generate root output format extension ns := by
  rw [request?] at h
  by_cases hfew : i.paths.length < 2
  · refine .inl ⟨?_, hfew⟩
    have hother : ∀ root output, i.paths ≠ [root, output] := by
      rintro root output hpaths
      simp [hpaths] at hfew
    split at h <;> obtain ⟨format, -, h⟩ := Option.bind_eq_some_iff.1 h <;> split at h <;> cases h
    · exact absurd ‹_› (hother _ _)
    · rfl
    · exact absurd ‹_› (hother _ _)
    · rfl
  · obtain ⟨root, output, hpaths⟩ := List.length_eq_two.1 (Nat.le_antisymm hlength (Nat.not_lt.1 hfew))
    refine .inr ⟨root, output, ?_⟩
    rw [hpaths] at h
    split at h <;> obtain ⟨format, -, h⟩ := Option.bind_eq_some_iff.1 h <;> cases h <;>
      exact ⟨_, _, _, hpaths, rfl⟩

end Invocation

/-- Arguments that ask for no file: there are fewer than two paths, or help or the version is asked for. -/
def AskForNoFile (env : List (String × String)) (args : List String) : Prop :=
  (positionals args).length < 2 ∨
    (∃ full, Invocation.empty.parse (Values.ofEnvironment env) args = some (.help full)) ∨
    Invocation.empty.parse (Values.ofEnvironment env) args = some .version

/-- A file is generated exactly if it is asked for. -/
theorem request_cases {env : List (String × String)} {args : List String} {r : Request}
    (h : Invocation.empty.parse (Values.ofEnvironment env) args = some r) :
    (AskForNoFile env args ∧ ∀ root output format extension ns,
      r ≠ .generate root output format extension ns) ∨
    (¬AskForNoFile env args ∧ ∃ root output format extension ns, positionals args = [root, output] ∧
      r = .generate root output format extension ns) := by
  rcases Invocation.exists_request_of_parse (i := .empty) (Nat.zero_le 2) h with
    ⟨full, rfl⟩ | rfl | ⟨j, hpaths, hlength, hj⟩
  · exact .inl ⟨.inr (.inl ⟨full, h⟩), by simp⟩
  · exact .inl ⟨.inr (.inr h), by simp⟩
  · change j.paths = positionals args at hpaths
    rcases Invocation.request?_cases hj hlength with
      ⟨rfl, hfew⟩ | ⟨root, output, format, extension, ns, htwo, rfl⟩
    · exact .inl ⟨.inl (hpaths ▸ hfew), by simp⟩
    · refine .inr ⟨?_, root, output, format, extension, ns, hpaths ▸ htwo, rfl⟩
      rintro (hfew | ⟨full, hhelp⟩ | hversion)
      · rw [← hpaths, htwo] at hfew
        exact absurd hfew (by simp)
      · cases h.symm.trans hhelp
      · cases h.symm.trans hversion

/-! ### Storing the result -/

variable {d d' : Disk} {root output text : String} {f : Fault}

theorem makeRoom_growsTo (hd : d.root.IsDir d.cwd) (output : String) : d.GrowsTo (makeRoom d output).1 := by
  rw [makeRoom]
  split
  · exact .refl d
  · split
    · exact .refl d
    · exact Disk.makeLineage_growsTo hd _

/-- Where the result cannot be stored, directories are made at most. -/
theorem store_of_error (hd : d.root.IsDir d.cwd) (h : store d output text = (d', .error f)) :
    d.GrowsTo d' := by
  have hroom := makeRoom_growsTo hd output
  rw [store] at h
  split at h
  · rename_i heq
    cases h
    rwa [heq] at hroom
  · rename_i d₁ heq
    rw [heq] at hroom
    split at h <;> cases h
    exact hroom

/-- Where it is stored, directories are made and then the one file is written. -/
theorem store_of_ok (hd : d.root.IsDir d.cwd) (h : store d output text = (d', .ok ())) :
    ∃ place, d.Stores output (Utf8.bytes text) place d' := by
  have hroom := makeRoom_growsTo hd output
  rw [store] at h
  split at h
  · cases h
  · rename_i d₁ heq
    rw [heq] at hroom
    split at h
    · rename_i d₂ hwrite
      cases h
      obtain ⟨place, hstores⟩ := Disk.exists_stores (hroom.isDir_cwd hd) hwrite
      exact ⟨place, hroom.stores hstores⟩
    · cases h

/-! ### Runs -/

/-- What is generated for headers. -/
def generated (format : Format) (ns : Option String) (headers : List Header) : List UInt8 :=
  Utf8.bytes (format.render ns (Catalog.ofTexts (headers.map Header.text)))

section
variable {format : Format} {extension : String} {ns : Option String}

theorem generate_of_error (hd : d.root.IsDir d.cwd)
    (h : (generate d root output format extension ns).exit ≠ 0) :
    d.GrowsTo (generate d root output format extension ns).disk := by
  revert h
  rw [generate]
  cases hcollect : Header.collect d root extension with
  | error f => exact fun _ => .refl d
  | ok headers =>
    dsimp only
    rcases hstore : store d output (format.render ns (Catalog.ofTexts (headers.map Header.text))) with
      ⟨d', f | u⟩
    · exact fun _ => store_of_error hd hstore
    · exact fun h => absurd rfl h

/-- A run that ends well has read all headers of the disk as it was and written what is printed for these
headers. -/
theorem generate_of_ok (hd : d.root.IsDir d.cwd)
    (h : (generate d root output format extension ns).exit = 0) :
    ∃ headers place, Header.collect d root extension = .ok headers ∧
      d.Stores output (generated format ns headers) place
        (generate d root output format extension ns).disk := by
  revert h
  rw [generate]
  cases hcollect : Header.collect d root extension with
  | error f => exact fun h => absurd h (by simp [failed])
  | ok headers =>
    dsimp only
    rcases hstore : store d output (format.render ns (Catalog.ofTexts (headers.map Header.text))) with
      ⟨d', f | u⟩
    · exact fun h => absurd h (by simp [failed])
    · intro _
      obtain ⟨place, hstores⟩ := store_of_ok hd hstore
      exact ⟨headers, place, rfl, hstores⟩

end

theorem run_eq {env : List (String × String)} {args : List String} {r : Request}
    (h : Invocation.empty.parse (Values.ofEnvironment env) args = some r) :
    run d env args = perform d (Values.ofEnvironment env) (wantsColor env) r := by
  rw [run, h]

theorem run_of_store {env : List (String × String)} {args : List String} {format : Format}
    {extension : String} {ns : Option String} {headers : List Header}
    (hargs : Invocation.empty.parse (Values.ofEnvironment env) args =
      some (.generate root output format extension ns))
    (hcollect : Header.collect d root extension = .ok headers)
    (hstore : ∀ text, Utf8.bytes text = generated format ns headers → store d output text = (d', .ok ())) :
    (run d env args).exit = 0 ∧ (run d env args).disk = d' := by
  rw [run_eq hargs, perform, generate, hcollect]
  dsimp only
  rw [hstore _ rfl]
  exact ⟨rfl, rfl⟩

/-! ### A small project -/

/-- A header and a link to what may not be there, and what is made beside them. -/
def project (target : String) (data : List UInt8) (made : List (String × Tree)) : Disk :=
  ⟨.dir ([("a.hpp", .file (.bytes data)), ("b.hpp", .link target)] ++ made), []⟩

/-- A generated file below a directory of its own. -/
def nested (data : List UInt8) : List (String × Tree) :=
  [("gen", .dir [("out.hpp", .file (.bytes data))])]

@[simp] theorem parts_header : Path.parts "./a.hpp" = [".", "a.hpp"] := by decide

@[simp] theorem parts_link : Path.parts "./b.hpp" = [".", "b.hpp"] := by decide

@[simp] theorem parts_gen : Path.parts "gen" = ["gen"] := by decide

@[simp] theorem parts_out : Path.parts "gen/out.hpp" = ["gen", "out.hpp"] := by decide

section
variable {target : String}

theorem directory?_dot (es : List (String × Tree)) : Disk.directory? ⟨.dir es, []⟩ "." = some es := by
  have hdot : Path.parts "." = ["."] := by decide
  simp +decide [Disk.directory?, Disk.get, Disk.locate, Disk.walk, bind, Except.bind, pure, Except.pure,
    Tree.find?, hdot]

theorem file?_project (data : List UInt8) (made : List (String × Tree)) :
    (project target data made).file? "./a.hpp" = some (.bytes data) := by
  simp +decide [Disk.file?, Disk.get, Disk.locate, Disk.walk, bind, Except.bind, pure, Except.pure, project,
    Tree.find?, Tree.entries]

/-- The link leads nowhere as long as the first directory on its way is missing. -/
theorem get_project_link (data : List UInt8) (htarget : ∃ p ps, Path.parts target = "gen" :: p :: ps) :
    (project target data []).get "./b.hpp" = .error .notFound := by
  obtain ⟨p, ps, htarget⟩ := htarget
  simp +decide [Disk.get, Disk.locate, Disk.walk, Disk.maxLinks, bind, Except.bind, project, Tree.find?,
    Tree.entries, List.lookup, htarget]

theorem collect_of_visits {data : List UInt8} {made : List (String × Tree)} {stops : List Tree.Visit}
    (hvisits : Tree.visits "." 0 (project target data made).root = stops) :
    Header.collect (project target data made) "." "hpp" =
      stops.mapM (Header.ofVisit? (project target data made) "hpp") >>= fun found =>
        .ok (found.filterMap id) := by
  rw [Header.collect, project, directory?_dot, ← hvisits]
  rfl

theorem collect_project (data : List UInt8) (htarget : ∃ p ps, Path.parts target = "gen" :: p :: ps) :
    Header.collect (project target data []) "." "hpp" =
      .ok [⟨"./a.hpp", String.ofList (Utf8.decode data)⟩] := by
  have hlink : (project target data []).file? "./b.hpp" = none := by
    rw [Disk.file?, get_project_link data htarget]
  have hvisits : Tree.visits "." 0 (project target data []).root =
      [.directory "." 0, .other "./a.hpp", .other "./b.hpp"] := by cbv
  simp +decide [collect_of_visits hvisits, Header.ofVisit?, file?_project, hlink, bind, Except.bind, pure,
    Except.pure]

theorem writeFile_project (target : String) (data new : List UInt8) {es : List (String × Tree)}
    (hes : es = [] ∨ ∃ old, es = [("out.hpp", .file (.bytes old))]) :
    (project target data [("gen", .dir es)]).writeFile "gen/out.hpp" new =
      .ok (project target data (nested new)) := by
  rcases hes with rfl | ⟨old, rfl⟩ <;>
    simp +decide [Disk.writeFile, Disk.locate, Disk.walk, bind, Except.bind, pure, Except.pure, project,
      nested, Tree.find?, Tree.entries, List.lookup, Disk.put, Tree.put, Keyed.put]

theorem store_project (data : List UInt8) (text : String) :
    store (project target data []) "gen/out.hpp" text =
      (project target data (nested (Utf8.bytes text)), .ok ()) := by
  have hparent : Path.parent? "gen/out.hpp" = some "gen" := by decide
  have hlineage : Path.lineage "gen" = ["gen"] := by decide
  have hmissing : (project target data []).exists? "gen" = false := by
    simp +decide [Disk.exists?, Disk.get, Disk.locate, Disk.walk, bind, Except.bind, project, Tree.find?,
      Tree.entries, List.lookup, Except.isOk, Except.toBool]
  have hmake : (project target data []).makeDirectories "gen" =
      (project target data [("gen", .dir [])], .ok ()) := by
    simp +decide [Disk.makeDirectories, hlineage, Disk.makeLineage, Disk.makeDirectory, Disk.locate,
      Disk.walk, bind, Except.bind, pure, Except.pure, project, Tree.find?, Tree.entries, Tree.empty,
      List.lookup, Disk.put, Tree.put, Keyed.put]
  have hwrite := writeFile_project target data (Utf8.encode text.toList) (.inl rfl)
  simp [store, makeRoom, hparent, hmissing, hmake, hwrite, Utf8.bytes]

end

/-- A struct that is printed. -/
def serialized : String :=
  "struct A \x7b [[Serialize]] int x; \x7d;"

/-- The project before anything is made. -/
def untouched (target : String) : Disk :=
  project target (Utf8.bytes serialized) []

theorem collect_untouched {target : String} (htarget : ∃ p ps, Path.parts target = "gen" :: p :: ps) :
    Header.collect (untouched target) "." "hpp" = .ok [⟨"./a.hpp", serialized⟩] := by
  have hcollect := collect_project (Utf8.bytes serialized) htarget
  rwa [Utf8.decode_bytes] at hcollect

/-- The arguments of a run in the working directory. -/
def inPlace (output : String) : List String :=
  [".", output]

theorem parse_inPlace : Invocation.empty.parse (Values.ofEnvironment []) (inPlace "gen/out.hpp") =
    some (.generate "." "gen/out.hpp" .entt "hpp" none) := by
  decide

theorem run_project {target : String} (htarget : ∃ p ps, Path.parts target = "gen" :: p :: ps) :
    (run (untouched target) [] (inPlace "gen/out.hpp")).exit = 0 ∧
    (run (untouched target) [] (inPlace "gen/out.hpp")).disk =
      project target (Utf8.bytes serialized) (nested (generated .entt none [⟨"./a.hpp", serialized⟩])) := by
  refine run_of_store parse_inPlace (collect_untouched htarget) fun text htext => ?_
  rw [untouched, store_project, htext]

/-! ### What is written -/

/-- A run that fails, or is asked for no file, changes no file. A run that is asked for one and ends well
leaves under the path of the output what is printed for the headers that were there before it, and
changes no other file. -/
theorem run_writes_or_touches_no_file (d : Disk) (hd : d.root.IsDir d.cwd)
    (env : List (String × String)) (args : List String) :
    ((run d env args).exit ≠ 0 ∨ AskForNoFile env args → d.root.SameFiles (run d env args).disk.root) ∧
    ((run d env args).exit = 0 → ¬AskForNoFile env args →
      ∃ root output format extension ns headers place, positionals args = [root, output] ∧
        Invocation.empty.parse (Values.ofEnvironment env) args =
          some (.generate root output format extension ns) ∧
        Header.collect d root extension = .ok headers ∧
        (run d env args).disk.LeadsTo output place ∧
        (run d env args).disk.file? output = some (.bytes (generated format ns headers)) ∧
        ∀ loc c, loc ≠ place →
          ((run d env args).disk.root.find? loc = some (.file c) ↔ d.root.find? loc = some (.file c))) := by
  cases hparse : Invocation.empty.parse (Values.ofEnvironment env) args with
  | none =>
    have hrun : run d env args = ⟨refusedExit, "", "error: invalid arguments; try --help\n", d⟩ := by
      rw [run, hparse]
    rw [hrun]
    exact ⟨fun _ _ _ => Iff.rfl, fun h => absurd h (by simp [refusedExit])⟩
  | some r =>
    rw [run_eq hparse]
    rcases request_cases hparse with
      ⟨hnone, hother⟩ | ⟨hfile, root, output, format, extension, ns, hpaths, rfl⟩
    · have hdisk : (perform d (Values.ofEnvironment env) (wantsColor env) r).disk = d := by
        cases r with
        | generate root output format extension ns =>
          exact absurd rfl (hother root output format extension ns)
        | _ => rfl
      rw [hdisk]
      exact ⟨fun _ _ _ => Iff.rfl, fun _ h => absurd hnone h⟩
    · rw [perform]
      constructor
      · rintro (h | h)
        · exact (generate_of_error hd h).root.sameFiles
        · exact absurd h hfile
      · intro h _
        obtain ⟨headers, place, hcollect, hstores⟩ := generate_of_ok hd h
        exact ⟨root, output, format, extension, ns, headers, place, hpaths, rfl, hcollect,
          hstores.leadsTo, hstores.file?, fun loc c => hstores.find?_eq_file_iff⟩

theorem run_writes_or_touches_no_file_project :
    (untouched "gen/out.hpp").root.IsDir [] ∧
    (¬AskForNoFile [] (inPlace "gen/out.hpp") ∧
      (run (untouched "gen/out.hpp") [] (inPlace "gen/out.hpp")).exit = 0 ∧
      (run (untouched "gen/out.hpp") [] (inPlace "gen/out.hpp")).disk.file?
        "gen/out.hpp" = some (.bytes (generated .entt none [⟨"./a.hpp", serialized⟩]))) ∧
    (run (untouched "gen/out.hpp") [] ["./b.hpp", "gen/out.hpp"]).exit ≠ 0 ∧
    (untouched "gen/out.hpp").root.SameFiles
      (run (untouched "gen/out.hpp") [] ["./b.hpp", "gen/out.hpp"]).disk.root := by
  have hd : (untouched "gen/out.hpp").root.IsDir [] := ⟨_, rfl⟩
  have htarget : ∃ p ps, Path.parts "gen/out.hpp" = "gen" :: p :: ps := ⟨"out.hpp", [], parts_out⟩
  have hfile : ¬AskForNoFile [] (inPlace "gen/out.hpp") := by
    rcases request_cases parse_inPlace with ⟨-, hother⟩ | ⟨hfile, -⟩
    · exact absurd rfl (hother _ _ _ _ _)
    · exact hfile
  obtain ⟨hexit, -⟩ := run_project htarget
  have hfails : (run (untouched "gen/out.hpp") []
      ["./b.hpp", "gen/out.hpp"]).exit ≠ 0 := by
    have hargs : Invocation.empty.parse (Values.ofEnvironment []) ["./b.hpp", "gen/out.hpp"] =
        some (.generate "./b.hpp" "gen/out.hpp" .entt "hpp" none) := by decide
    rw [run_eq hargs, perform, generate, Header.collect, Disk.directory?, untouched,
      get_project_link _ htarget]
    simp [failed]
  obtain ⟨root, output, format, extension, ns, headers, place, -, hargs, hcollect, -, hout, -⟩ :=
    (run_writes_or_touches_no_file _ hd [] (inPlace "gen/out.hpp")).2 hexit hfile
  cases hargs.symm.trans parse_inPlace
  cases hcollect.symm.trans (collect_untouched htarget)
  exact ⟨hd, ⟨hfile, hexit, hout⟩, hfails,
    (run_writes_or_touches_no_file _ hd [] ["./b.hpp", "gen/out.hpp"]).1 (.inl hfails)⟩

end HeaderMeta.CommandLine
