import HeaderMeta.Proofs.Comments
import HeaderMeta.Proofs.Occurrences
import HeaderMeta.Proofs.Runs

/-!
# A registration header, counted

A literal without a line end is counted line by line (`occurrences_linesText_append`). One that starts with
a dot can stand in the code of calls alone, as no name, no type and, by assumption, no namespace has a dot
in it: `.type("` stands once for each struct and `.data<&` once for each marked field
(`occurrences_type_render`, `occurrences_data_render`). A `;` stands in no call either, so that the one
behind the last call is all that a struct has (`ClosedAtEnd`). What a run reports are these numbers of the
file that it has written (`counts_agree`).
-/

namespace HeaderMeta

open Text

namespace Registration
variable {indent n f : String} {a : Char} {lit s : List Char} {c : Call} {cs : List Call}
  {d : Description} {ns : Option String}

/-! ### Line by line -/

theorem occurrences_linesText_cons (hk : '\n' ∉ a :: lit) (l : String) (ls : List String) :
    occurrences (a :: lit) (linesText (l :: ls)) =
      occurrences (a :: lit) l.toList + occurrences (a :: lit) (linesText ls) := by
  rw [linesText_cons, occurrences_append_cons hk]

theorem occurrences_linesText_append (hk : '\n' ∉ a :: lit) (ls ms : List String) :
    occurrences (a :: lit) (linesText (ls ++ ms)) =
      occurrences (a :: lit) (linesText ls) + occurrences (a :: lit) (linesText ms) := by
  induction ls with
  | nil => exact (Nat.zero_add _).symm
  | cons l ls ih =>
    rw [List.cons_append, occurrences_linesText_cons hk, occurrences_linesText_cons hk, ih, Nat.add_assoc]

theorem occurrences_linesText_flatMap {α β : Type} {f : α → List String} {g : α → List β} {l : List α}
    (hk : '\n' ∉ a :: lit) (h : ∀ x ∈ l, occurrences (a :: lit) (linesText (f x)) = (g x).length) :
    occurrences (a :: lit) (linesText (l.flatMap f)) = (l.flatMap g).length := by
  induction l with
  | nil => rfl
  | cons x l ih =>
    obtain ⟨hx, hl⟩ := List.forall_mem_cons.1 h
    rw [List.flatMap_cons, List.flatMap_cons, occurrences_linesText_append hk, hx, ih hl,
      List.length_append]

/-! ### Calls -/

/-- The comment of a call has neither a dot nor a `;`, and its code has no `;`. -/
structure Call.Tame (c : Call) : Prop where
  comment : ∀ t ∈ c.comment, '.' ∉ t.toList ∧ ';' ∉ t.toList
  code : ';' ∉ c.code.toList

theorem tame_typeCall (hn : IsName n) : (typeCall n).Tame where
  comment _ h := by cases h
  code := by simp [typeCall, hn.semicolon_notMem]

theorem tame_dataCall (hn : IsName n) {p : String × Option String} (hp : Registrable p) :
    (dataCall n p.1 p.2).Tame := by
  obtain ⟨f, t⟩ := p
  obtain ⟨hf, t, rfl, ht⟩ := hp
  constructor
  · rintro _ ⟨⟩
    exact ⟨ht.dot_notMem, ht.semicolon_notMem⟩
  · simp [dataCall, hn.semicolon_notMem, hf.semicolon_notMem]

theorem tame_of_mem_calls (hd : d.Sound) (hc : c ∈ calls d) : c.Tame := by
  rcases List.mem_cons.1 hc with rfl | hc
  · exact tame_typeCall hd.name
  · obtain ⟨p, hp, rfl⟩ := List.mem_map.1 hc
    exact tame_dataCall hd.name (registrable_of_mem hd hp)

theorem notMem_commentText (hi : ∀ c ∈ indent.toList, c = ' ') (ha : a ∉ " //\n".toList)
    (hc : ∀ t ∈ c.comment, a ∉ t.toList) : a ∉ commentText indent c := by
  obtain ⟨hspace, hslash, hnewline⟩ : a ≠ ' ' ∧ a ≠ '/' ∧ a ≠ '\n' := by simpa using ha
  have hindent : a ∉ indent.toList := notMem_indent hi hspace
  cases ht : c.comment with
  | none => simp [commentText, ht]
  | some t => simp [commentText, ht, hindent, hc t ht, hspace, hslash, hnewline]

/-! ### Literals that start with a dot -/

theorem occurrences_dot_cons (hs : '.' ∉ s) :
    occurrences ('.' :: lit) ('.' :: s) = if lit <+: s then 1 else 0 := by
  rw [occurrences_cons, occurrences_eq_zero hs, Nat.add_zero]
  simp only [List.cons_prefix_cons, true_and]

theorem occurrences_call (hk : '\n' ∉ '.' :: lit) (hs : ';' ∉ '.' :: lit)
    (hi : ∀ c ∈ indent.toList, c = ' ') (hc : c.Tame) (cs : List Call) :
    occurrences ('.' :: lit) (linesText (c.lines indent (stopBefore cs))) =
      occurrences ('.' :: lit) c.code.toList := by
  have hindent : '.' ∉ indent.toList := notMem_indent hi (by decide)
  have hcode : occurrences ('.' :: lit) (linesText [indent ++ c.code ++ stopBefore cs]) =
      occurrences ('.' :: lit) c.code.toList := by
    -- neither the blanks before the code nor the `;` behind it can be part of the literal
    rw [occurrences_linesText_cons hk, String.toList_append, String.toList_append, List.append_assoc,
      occurrences_append_of_notMem hindent]
    cases cs with
    | nil => exact occurrences_append_cons (v := []) hs
    | cons _ _ => simp [stopBefore]
  have hcomment : '.' ∉ commentText indent c :=
    notMem_commentText hi (by decide) fun t ht => (hc.comment t ht).1
  rw [Call.lines, linesText_append, ← commentText, occurrences_append_of_notMem hcomment, hcode]

theorem occurrences_chainLines (hk : '\n' ∉ '.' :: lit) (hs : ';' ∉ '.' :: lit)
    (hi : ∀ c ∈ indent.toList, c = ' ') (hcs : ∀ c ∈ cs, c.Tame) :
    occurrences ('.' :: lit) (linesText (chainLines indent cs)) =
      occurrences ('.' :: lit) (linesText (cs.map Call.code)) := by
  induction cs with
  | nil => rfl
  | cons c cs ih =>
    obtain ⟨hc, hcs⟩ := List.forall_mem_cons.1 hcs
    rw [chainLines_cons, List.map_cons, occurrences_linesText_append hk, occurrences_linesText_cons hk,
      occurrences_call hk hs hi hc, ih hcs]

theorem occurrences_struct (hk : '\n' ∉ '.' :: lit) (hs : ';' ∉ '.' :: lit)
    (hi : ∀ c ∈ indent.toList, c = ' ') (hd : d.Sound) :
    occurrences ('.' :: lit) (linesText ("" :: structLines indent d)) =
      occurrences ('.' :: lit) (linesText ((calls d).map Call.code)) := by
  have hindent : '.' ∉ indent.toList := notMem_indent hi (by decide)
  have hstart : '.' ∉ (indent ++ "entt::meta_factory<" ++ d.name ++ ">()").toList := by
    simp [hindent, hd.name.dot_notMem]
  rw [structLines, occurrences_linesText_cons hk, occurrences_linesText_cons hk,
    occurrences_eq_zero hstart, occurrences_chainLines hk hs (eq_space_of_mem_indent hi)
      fun _ => tame_of_mem_calls hd]
  simp

theorem occurrences_dataCall (hn : IsName n) (hf : IsName f) (t : Option String) :
    occurrences ('.' :: lit) (dataCall n f t).code.toList =
      (if '.' :: lit <+: (dataCall n f t).code.toList then 1 else 0) +
        if lit <+: ("custom<std::string>(\"" ++ f ++ "\")").toList then 1 else 0 := by
  -- a literal may stand at either of the two dots
  have hcode : (dataCall n f t).code.toList =
      '.' :: (("data<&" ++ n ++ "::" ++ f ++ ">(\"" ++ f ++ "\"_hs)").toList ++
        '.' :: ("custom<std::string>(\"" ++ f ++ "\")").toList) := by
    simp [dataCall]
  rw [hcode, occurrences_cons, occurrences_append_of_notMem
    (by simp [hn.dot_notMem, hf.dot_notMem]), occurrences_dot_cons (by simp [hf.dot_notMem])]

theorem occurrences_calls (hk : '\n' ∉ '.' :: lit) (hd : d.Sound)
    {g : String × Option String → List String} (h : ∀ p ∈ d.markedTypes,
      occurrences ('.' :: lit) (dataCall d.name p.1 p.2).code.toList = (g p).length) :
    occurrences ('.' :: lit) (linesText ((calls d).map Call.code)) =
      (if lit <+: ("type(\"" ++ d.name ++ "\"_hs)").toList then 1 else 0) +
        (d.markedTypes.flatMap g).length := by
  have htype : (typeCall d.name).code.toList = '.' :: ("type(\"" ++ d.name ++ "\"_hs)").toList := by
    simp [typeCall]
  have hcodes : (calls d).map Call.code = (typeCall d.name).code ::
      d.markedTypes.flatMap fun p => [(dataCall d.name p.1 p.2).code] := by
    rw [calls, List.map_cons, List.map_map, List.map_eq_flatMap]
    rfl
  have hdata : ∀ p ∈ d.markedTypes,
      occurrences ('.' :: lit) (linesText [(dataCall d.name p.1 p.2).code]) = (g p).length := fun p hp => by
    rw [occurrences_linesText_cons hk, h p hp, linesText_nil, occurrences_cons_nil, Nat.add_zero]
  rw [hcodes, occurrences_linesText_cons hk, htype, occurrences_dot_cons (by simp [hd.name.dot_notMem]),
    occurrences_linesText_flatMap hk hdata]

theorem occurrences_type_struct (hi : ∀ c ∈ indent.toList, c = ' ') (hd : d.Sound) :
    occurrences ('.' :: "type(\"".toList) (linesText ("" :: structLines indent d)) = 1 := by
  have hdata : ∀ p ∈ d.markedTypes, occurrences ('.' :: "type(\"".toList)
      (dataCall d.name p.1 p.2).code.toList = ([] : List String).length := fun p hp => by
    rw [occurrences_dataCall hd.name (registrable_of_mem hd hp).1]
    simp [dataCall]
  rw [occurrences_struct (by decide) (by decide) hi hd, occurrences_calls (by decide) hd hdata]
  simp

theorem occurrences_data_struct (hi : ∀ c ∈ indent.toList, c = ' ') (hd : d.Sound) :
    occurrences ('.' :: "data<&".toList) (linesText ("" :: structLines indent d)) = d.marked.length := by
  have hdata : ∀ p ∈ d.markedTypes, occurrences ('.' :: "data<&".toList)
      (dataCall d.name p.1 p.2).code.toList = [p.1].length := fun p hp => by
    rw [occurrences_dataCall hd.name (registrable_of_mem hd hp).1]
    simp [dataCall]
  rw [occurrences_struct (by decide) (by decide) hi hd, occurrences_calls (by decide) hd hdata,
    ← List.map_eq_flatMap, List.length_map, Description.markedTypes, List.length_map]
  simp

/-! ### What closes a registration -/

/-- The one `;` of a registration stands at the end of its last call. -/
def ClosedAtEnd (indent : String) (d : Description) : Prop :=
  ∃ front last, linesText (structLines indent d) = front ++ (last.code.toList ++ [';', '\n']) ∧
    (calls d).getLast? = some last ∧ ';' ∉ front ∧ ';' ∉ last.code.toList

theorem exists_linesText_chainLines (hi : ∀ c ∈ indent.toList, c = ' ') (c : Call) (cs : List Call)
    (hcs : ∀ b ∈ c :: cs, b.Tame) :
    ∃ front last, linesText (chainLines indent (c :: cs)) = front ++ (last.code.toList ++ [';', '\n']) ∧
      (c :: cs).getLast? = some last ∧ ';' ∉ front := by
  have hindent : ';' ∉ indent.toList := notMem_indent hi (by decide)
  have hcomment : ∀ b : Call, b.Tame → ';' ∉ commentText indent b := fun b hb =>
    notMem_commentText hi (by decide) fun t ht => (hb.comment t ht).2
  induction cs generalizing c with
  | nil =>
    have hc := hcs c (List.mem_cons_self ..)
    refine ⟨commentText indent c ++ indent.toList, c, ?_, rfl, ?_⟩
    · rw [linesText_chainLines, tailText, List.append_assoc]
    · simp [hcomment c hc, hindent]
  | cons b cs ih =>
    obtain ⟨hc, hcs⟩ := List.forall_mem_cons.1 hcs
    obtain ⟨front, last, hlines, hlast, hfront⟩ := ih b hcs
    refine ⟨commentText indent c ++ (indent.toList ++ (c.code.toList ++ '\n' :: front)), last, ?_, ?_, ?_⟩
    · rw [linesText_chainLines, tailText, hlines]
      simp
    · rw [List.getLast?_cons_cons, hlast]
    · simp [hcomment c hc, hindent, hc.code, hfront]

theorem closedAtEnd (hi : ∀ c ∈ indent.toList, c = ' ') (hd : d.Sound) : ClosedAtEnd indent d := by
  have hindent : ';' ∉ indent.toList := notMem_indent hi (by decide)
  obtain ⟨front, last, hlines, hlast, hfront⟩ := exists_linesText_chainLines (eq_space_of_mem_indent hi) _ _
    fun _ => tame_of_mem_calls hd
  refine ⟨(indent ++ "entt::meta_factory<" ++ d.name ++ ">()").toList ++ '\n' :: front, last, ?_, hlast, ?_,
    (tame_of_mem_calls hd (List.mem_of_getLast? hlast)).code⟩
  · rw [structLines, linesText_cons, calls, hlines, List.append_assoc, List.cons_append]
  · simp [hindent, hd.name.semicolon_notMem, hfront]

theorem ClosedAtEnd.occurrences_eq_one (h : ClosedAtEnd indent d) :
    occurrences [';'] (linesText ("" :: structLines indent d)) = 1 := by
  obtain ⟨front, last, hlines, -, hfront, hlast⟩ := h
  rw [occurrences_linesText_cons (by decide), hlines, occurrences_append_of_notMem hfront,
    occurrences_append_of_notMem hlast]
  rfl

/-! ### Headers -/

/-- The first lines of `RegisterMeta()`, set in by `indent`. -/
def functionStart (indent : String) : List String :=
  [indent ++ "inline void RegisterMeta()", indent ++ "\x7b",
    indent ++ "    using namespace entt::literals;"]

/-- The lines before the structs. -/
def opening (ns : Option String) : List String :=
  preamble ++
  match effectiveNamespace ns with
  | none => functionStart ""
  | some n => ["namespace " ++ n, "\x7b"] ++ functionStart "    "

/-- How far the structs are set in. -/
def structIndent (ns : Option String) : String :=
  match effectiveNamespace ns with
  | none => "    "
  | some _ => "        "

/-- The lines behind the structs. -/
def ending (ns : Option String) : List String :=
  match effectiveNamespace ns with
  | none => ["\x7d"]
  | some _ => ["    \x7d", "\x7d"]

theorem lines_eq (ns : Option String) (c : Catalog) : lines ns c = opening ns ++
    ((c.descriptions.flatMap fun d => "" :: structLines (structIndent ns) d) ++ ending ns) := by
  have hindent : "    " ++ "    " = "        " := by decide
  have hend : "    " ++ "\x7d" = "    \x7d" := by decide
  rw [lines, opening, structIndent, ending]
  cases effectiveNamespace ns with
  | none => simp only [functionLines, functionStart, String.empty_append, List.append_assoc]
  | some n => simp only [functionLines, functionStart, hindent, hend, List.append_assoc, List.singleton_append]

theorem eq_space_of_mem_structIndent (ns : Option String) : ∀ c ∈ (structIndent ns).toList, c = ' ' := by
  rw [structIndent]
  split <;> simp

theorem occurrences_opening {m : Nat} (hk : '\n' ∉ a :: lit) (ha : a ∉ "namespace ".toList)
    (hns : ∀ n ∈ ns, a ∉ n.toList)
    (hnone : occurrences (a :: lit) (linesText (preamble ++ functionStart "")) = m)
    (hsome : occurrences (a :: lit) (linesText (preamble ++ "\x7b" :: functionStart "    ")) = m) :
    occurrences (a :: lit) (linesText (opening ns)) = m := by
  rw [opening]
  cases hn : effectiveNamespace ns with
  | none => exact hnone
  | some n =>
    have hline : a ∉ ("namespace " ++ n).toList := by
      rw [String.toList_append, List.mem_append, not_or]
      exact ⟨ha, hns n (Option.filter_eq_some_iff.1 hn).1⟩
    change occurrences (a :: lit)
      (linesText (preamble ++ ("namespace " ++ n) :: "\x7b" :: functionStart "    ")) = m
    rw [← hsome, occurrences_linesText_append hk, occurrences_linesText_append hk,
      occurrences_linesText_cons hk, occurrences_eq_zero hline, Nat.zero_add]

theorem notMem_ending (ha : a ∉ " \x7d\n".toList) (ns : Option String) : a ∉ linesText (ending ns) := by
  obtain ⟨hspace, hbrace, hnewline⟩ : a ≠ ' ' ∧ a ≠ '\x7d' ∧ a ≠ '\n' := by simpa using ha
  rw [ending]
  split <;> simp [hspace, hbrace, hnewline]

theorem occurrences_render {β : Type} {c : Catalog} {g : Description → List β} {m : Nat}
    (hk : '\n' ∉ a :: lit) (ha : a ∉ " \x7d\n".toList)
    (hopening : occurrences (a :: lit) (linesText (opening ns)) = m)
    (h : ∀ d ∈ c.descriptions,
      occurrences (a :: lit) (linesText ("" :: structLines (structIndent ns) d)) = (g d).length) :
    occurrences (a :: lit) (render ns c).toList = m + (c.descriptions.flatMap g).length := by
  rw [toList_render, lines_eq, occurrences_linesText_append hk, occurrences_linesText_append hk, hopening,
    occurrences_linesText_flatMap hk h, occurrences_eq_zero (notMem_ending ha ns), Nat.add_zero]

section
variable {texts : List String}

theorem occurrences_type_render (hns : ∀ n ∈ ns, '.' ∉ n.toList) :
    occurrences ('.' :: "type(\"".toList) (render ns (.ofTexts texts)).toList =
      (Catalog.ofTexts texts).size := by
  have hopening : occurrences ('.' :: "type(\"".toList) (linesText (opening ns)) = 0 :=
    occurrences_opening (by decide) (by decide) hns (by decide +kernel) (by decide +kernel)
  have hstruct : ∀ d ∈ (Catalog.ofTexts texts).descriptions, occurrences ('.' :: "type(\"".toList)
      (linesText ("" :: structLines (structIndent ns) d)) = [d].length := fun _ hd =>
    occurrences_type_struct (eq_space_of_mem_structIndent ns) (Catalog.sound_of_mem_ofTexts hd)
  rw [occurrences_render (by decide) (by decide) hopening hstruct, Nat.zero_add, List.flatMap_singleton']
  rfl

theorem occurrences_data_render (hns : ∀ n ∈ ns, '.' ∉ n.toList) :
    occurrences ('.' :: "data<&".toList) (render ns (.ofTexts texts)).toList =
      (Catalog.ofTexts texts).markedCount := by
  have hopening : occurrences ('.' :: "data<&".toList) (linesText (opening ns)) = 0 :=
    occurrences_opening (by decide) (by decide) hns (by decide +kernel) (by decide +kernel)
  rw [occurrences_render (by decide) (by decide) hopening fun _ hd =>
    occurrences_data_struct (eq_space_of_mem_structIndent ns) (Catalog.sound_of_mem_ofTexts hd), Nat.zero_add]
  rfl

theorem occurrences_semicolon_render (hns : ∀ n ∈ ns, ';' ∉ n.toList) :
    occurrences [';'] (render ns (.ofTexts texts)).toList = (Catalog.ofTexts texts).size + 1 := by
  have hopening : occurrences [';'] (linesText (opening ns)) = 1 :=
    occurrences_opening (by decide) (by decide) hns (by decide +kernel) (by decide +kernel)
  have hstruct : ∀ d ∈ (Catalog.ofTexts texts).descriptions, occurrences [';']
      (linesText ("" :: structLines (structIndent ns) d)) = [d].length := fun _ hd =>
    (closedAtEnd (eq_space_of_mem_structIndent ns) (Catalog.sound_of_mem_ofTexts hd)).occurrences_eq_one
  rw [occurrences_render (by decide) (by decide) hopening hstruct, Nat.add_comm, List.flatMap_singleton']
  rfl

end

end Registration

/-! ### What a run reports -/

namespace CommandLine

open Files Registration

theorem stdout_of_collect {d : Disk} {root output extension : String} {format : Format} {ns : Option String}
    {headers : List Header} (hcollect : Header.collect d root extension = .ok headers)
    (h : (generate d root output format extension ns).exit = 0) :
    (generate d root output format extension ns).stdout = startLine root extension ++
      endLine format (.ofTexts (headers.map Header.text)) headers.length output := by
  revert h
  rw [generate, hcollect]
  dsimp only
  rcases store d output (format.render ns (Catalog.ofTexts (headers.map Header.text))) with ⟨d', f | u⟩
  · exact fun h => absurd h (by simp [failed])
  · exact fun _ => rfl

/-- In a header that is printed for texts, `.type("` stands once for each struct, `.data<&` once for each
marked field, and `;` once before the structs and then at the end of each. So a run prints how often they
stand in the file that it has written. -/
theorem counts_agree (ns : Option String) (hns : ∀ n ∈ ns, '.' ∉ n.toList ∧ ';' ∉ n.toList) :
    (∀ texts : List String,
      occurrences ".type(\"".toList (render ns (.ofTexts texts)).toList = (Catalog.ofTexts texts).size ∧
      occurrences ".data<&".toList (render ns (.ofTexts texts)).toList =
        (Catalog.ofTexts texts).markedCount ∧
      occurrences ";".toList (render ns (.ofTexts texts)).toList = (Catalog.ofTexts texts).size + 1 ∧
      lines ns (.ofTexts texts) = opening ns ++ (((Catalog.ofTexts texts).descriptions.flatMap fun d =>
        "" :: structLines (structIndent ns) d) ++ ending ns) ∧
      ∀ d ∈ (Catalog.ofTexts texts).descriptions, ClosedAtEnd (structIndent ns) d) ∧
    ∀ (d : Disk) (root output extension : String), d.root.IsDir d.cwd →
      (generate d root output .entt extension ns).exit = 0 →
      ∃ headers text, Header.collect d root extension = .ok headers ∧
        (generate d root output .entt extension ns).disk.file? output = some (.bytes (Utf8.bytes text)) ∧
        (generate d root output .entt extension ns).stdout = startLine root extension ++
          ("Wrote entt metadata for " ++ toString (occurrences ".type(\"".toList text.toList) ++
            " structs (" ++ toString (occurrences ".data<&".toList text.toList) ++ " fields, " ++
            toString headers.length ++ " files) to " ++ Text.quoted output ++ ".\n") := by
  have hdot : ∀ n ∈ ns, '.' ∉ n.toList := fun n hn => (hns n hn).1
  have htype : ".type(\"".toList = '.' :: "type(\"".toList := rfl
  have hdata : ".data<&".toList = '.' :: "data<&".toList := rfl
  rw [htype, hdata]
  constructor
  · intro texts
    refine ⟨occurrences_type_render hdot, occurrences_data_render hdot,
      occurrences_semicolon_render fun n hn => (hns n hn).2, lines_eq ns _, fun d hd => ?_⟩
    exact closedAtEnd (eq_space_of_mem_structIndent ns) (Catalog.sound_of_mem_ofTexts hd)
  · intro d root output extension hd hexit
    obtain ⟨headers, place, hcollect, hstores⟩ := generate_of_ok hd hexit
    refine ⟨headers, render ns (.ofTexts (headers.map Header.text)), hcollect, hstores.file?, ?_⟩
    rw [stdout_of_collect hcollect hexit, occurrences_type_render hdot, occurrences_data_render hdot]
    rfl

theorem counts_agree_project :
    (∀ n ∈ some "Neo", '.' ∉ n.toList ∧ ';' ∉ n.toList) ∧
    occurrences ".type(\"".toList (render (some "Neo") (.ofTexts [serialized])).toList = 1 ∧
    (untouched "gen/out.hpp").root.IsDir [] ∧
    (generate (untouched "gen/out.hpp") "." "gen/out.hpp" .entt "hpp" (some "Neo")).exit = 0 ∧
    ∃ text, (generate (untouched "gen/out.hpp") "." "gen/out.hpp" .entt "hpp" (some "Neo")).disk.file?
        "gen/out.hpp" = some (.bytes (Utf8.bytes text)) ∧
      (generate (untouched "gen/out.hpp") "." "gen/out.hpp" .entt "hpp" (some "Neo")).stdout =
        startLine "." "hpp" ++
          ("Wrote entt metadata for " ++ toString (occurrences ".type(\"".toList text.toList) ++
            " structs (" ++ toString (occurrences ".data<&".toList text.toList) ++ " fields, " ++
            toString 1 ++ " files) to " ++ Text.quoted "gen/out.hpp" ++ ".\n") := by
  have hns : ∀ n ∈ some "Neo", '.' ∉ n.toList ∧ ';' ∉ n.toList := by decide
  have hd : (untouched "gen/out.hpp").root.IsDir [] := ⟨_, rfl⟩
  have hcollect : Header.collect (untouched "gen/out.hpp") "." "hpp" = .ok [⟨"./a.hpp", serialized⟩] :=
    collect_untouched ⟨"out.hpp", [], parts_out⟩
  have hexit : (generate (untouched "gen/out.hpp") "." "gen/out.hpp" .entt "hpp" (some "Neo")).exit = 0 := by
    rw [generate, hcollect]
    dsimp only
    rw [untouched, store_project]
  obtain ⟨hrender, hrun⟩ := counts_agree (some "Neo") hns
  obtain ⟨headers, text, hcollect', hfile, hstdout⟩ := hrun _ _ _ _ hd hexit
  cases hcollect.symm.trans hcollect'
  have hsize : (Catalog.ofTexts [serialized]).size = 1 := by decide +kernel
  exact ⟨hns, (hrender _).1.trans hsize, hd, hexit, text, hfile, hstdout⟩

/-- A namespace can bring a `;` of its own. -/
example : occurrences ";".toList (linesText (lines (some "a;") .empty)) = 2 := by
  decide +kernel

end CommandLine

end HeaderMeta
