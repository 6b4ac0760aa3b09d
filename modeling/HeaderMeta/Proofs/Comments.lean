import HeaderMeta.Proofs.Readback

/-!
# What the comments of a registration header hold

The types of fields stand in comments. A type may have line ends among the blanks before its pointer
mark, and what is behind the first of them stands on lines of its own, which are no comments as no
type holds a slash (`codeLines_comment`). These lines, the `spill` of a field, are all that a header
without its comments (`withoutComments`) shows of the types: it tells the structs, the marked fields
and their spills apart, and nothing else (`withoutComments_render_eq_iff`). The lines are compared from
the first to the last, where a spill ends at the first line with a dot in it.
-/

namespace HeaderMeta

open Text

/-! ### Lines that are no comments -/

/-- A line that starts, behind blanks, with two slashes. -/
def isComment (l : List Char) : Bool :=
  "//".toList.isPrefixOf (l.dropWhile isBlank)

/-- The lines of a text that are no comments. -/
def codeLines (s : List Char) : List (List Char) :=
  (s.splitOn '\n').filter fun l => !isComment l

/-- A text from which the lines are deleted that are comments. -/
def withoutComments (s : String) : String :=
  String.ofList (['\n'].intercalate (codeLines s.toList))

theorem codeLines_append_cons (u v : List Char) :
    codeLines (u ++ '\n' :: v) = codeLines u ++ codeLines v := by
  rw [codeLines, List.splitOn_append_cons_self, List.filter_append]
  rfl

theorem mem_of_mem_splitOn {k c : Char} {s l : List Char} (hl : l ∈ s.splitOn k) (hc : c ∈ l) :
    c ∈ s ∧ c ≠ k := by
  induction s generalizing l with
  | nil =>
    rw [List.mem_singleton.1 hl] at hc
    cases hc
  | cons d s ih =>
    have hlater : ∀ l ∈ s.splitOn k, c ∈ l → c ∈ d :: s ∧ c ≠ k := fun l hl hc =>
      ⟨List.mem_cons_of_mem d (ih hl hc).1, (ih hl hc).2⟩
    rw [List.splitOn_cons_eq_if_modifyHead] at hl
    split at hl
    · rcases List.mem_cons.1 hl with rfl | hl
      · cases hc
      · exact hlater l hl hc
    · rename_i hd
      cases hs : s.splitOn k with
      | nil => exact absurd hs (List.splitOn_ne_nil k s)
      | cons m ms =>
        rw [hs] at hl hlater
        rcases List.mem_cons.1 hl with rfl | hl
        · rcases List.mem_cons.1 hc with rfl | hc
          · exact ⟨List.mem_cons_self .., by simpa using hd⟩
          · exact hlater m (List.mem_cons_self ..) hc
        · exact hlater l (List.mem_cons_of_mem m hl) hc

theorem isComment_eq_false {l : List Char} (h : '/' ∉ l) : isComment l = false := by
  rw [isComment, Bool.eq_false_iff]
  intro hp
  have := (List.isPrefixOf_iff_prefix.1 hp).subset (List.mem_cons_self ..)
  exact h ((List.dropWhile_sublist _).subset this)

/-- A text without a slash has no comments. -/
theorem codeLines_eq_splitOn {s : List Char} (h : '/' ∉ s) : codeLines s = s.splitOn '\n' := by
  refine List.filter_eq_self.2 fun l hl => ?_
  rw [isComment_eq_false fun hc => h (mem_of_mem_splitOn hl hc).1]
  rfl

theorem codeLines_eq_singleton {l : List Char} (hl : '\n' ∉ l) (hc : isComment l = false) :
    codeLines l = [l] := by
  rw [codeLines, List.splitOn_eq_singleton hl, List.filter_singleton, hc]
  rfl

theorem isComment_append {u : List Char} (hu : ∀ c ∈ u, c = ' ') (s : List Char) :
    isComment (u ++ s) = isComment s := by
  rw [isComment, isComment, List.dropWhile_append_of_pos fun c hc => hu c hc ▸ by decide]

/-- Of a text behind slashes all lines are code but the first. -/
theorem codeLines_comment {u s : List Char} (hu : '\n' ∉ u) (hc : ∀ v, isComment (u ++ v) = true)
    (h : '/' ∉ s) : codeLines (u ++ s) = (s.splitOn '\n').tail := by
  have hline : ∀ a, '\n' ∉ a → codeLines (u ++ a) = [] := fun a ha => by
    rw [codeLines, List.splitOn_eq_singleton (by simp [hu, ha]), List.filter_singleton, hc]
    rfl
  by_cases hs : '\n' ∈ s
  · obtain ⟨a, b, rfl, ha⟩ := List.eq_append_cons_of_mem hs
    rw [List.mem_append, not_or, List.mem_cons, not_or] at h
    rw [← List.append_assoc, codeLines_append_cons, hline a ha, codeLines_eq_splitOn h.2.2,
      List.splitOn_append_cons_self, List.splitOn_eq_singleton ha]
    rfl
  · rw [hline s hs, List.splitOn_eq_singleton hs]
    rfl

theorem withoutComments_eq_iff {s t : String} (hs : codeLines s.toList ≠ []) (ht : codeLines t.toList ≠ []) :
    withoutComments s = withoutComments t ↔ codeLines s.toList = codeLines t.toList := by
  have hlines : ∀ u : List Char, ∀ l ∈ codeLines u, '\n' ∉ l := fun u l hl hc =>
    (mem_of_mem_splitOn (List.mem_filter.1 hl).1 hc).2 rfl
  constructor
  · intro h
    rw [← List.splitOn_intercalate '\n' (hlines _) hs, ← List.splitOn_intercalate '\n' (hlines _) ht,
      String.ofList_inj.1 h]
  · intro h
    rw [withoutComments, withoutComments, h]

theorem IsName.newline_notMem {n : String} (h : IsName n) : '\n' ∉ n.toList :=
  h.notMem (by decide)

namespace Registration
variable {indent n stop : String} {p q : String × Option String}
  {fs gs : List (String × Option String)} {cs cs' : List Call} {d e : Description}
  {r s : List (List Char)}

/-! ### Code line by line -/

/-- The lines of a field's type behind the first. -/
def spill (p : String × Option String) : List (List Char) :=
  ((p.2.getD "unknown").toList.splitOn '\n').tail

/-- The lines of code of a text that is given line by line. -/
def codeOf (ls : List String) : List (List Char) :=
  ls.flatMap fun l => codeLines l.toList

@[simp] theorem codeOf_cons (l : String) (ls : List String) :
    codeOf (l :: ls) = codeLines l.toList ++ codeOf ls :=
  List.flatMap_cons

@[simp] theorem codeOf_append (ls ms : List String) : codeOf (ls ++ ms) = codeOf ls ++ codeOf ms :=
  List.flatMap_append

theorem codeLines_linesText (ls : List String) : codeLines (linesText ls) = codeOf ls ++ [[]] := by
  induction ls with
  | nil => rfl
  | cons l ls ih =>
    rw [linesText_cons, codeLines_append_cons, ih, codeOf_cons, List.append_assoc]

theorem notMem_indent (hi : ∀ c ∈ indent.toList, c = ' ') {k : Char} (hk : k ≠ ' ') :
    k ∉ indent.toList :=
  fun h => hk (hi k h)

theorem newline_notMem_indent (hi : ∀ c ∈ indent.toList, c = ' ') : '\n' ∉ indent.toList :=
  notMem_indent hi (by decide)

/-- Behind blanks, a line that is no comment is a line of code. -/
theorem codeLines_indent (hi : ∀ c ∈ indent.toList, c = ' ') {x : List Char} (hx : '\n' ∉ x)
    (hc : isComment x = false) : codeLines (indent.toList ++ x) = [indent.toList ++ x] :=
  codeLines_eq_singleton (by simp [newline_notMem_indent hi, hx]) (by rw [isComment_append hi, hc])

/-! ### The code of calls -/

/-- The calls for fields, each with its type. -/
def dataCalls (n : String) (fs : List (String × Option String)) : List Call :=
  fs.map fun p => dataCall n p.1 p.2

@[simp] theorem dataCalls_cons (n : String) (p : String × Option String) (fs : List (String × Option String)) :
    dataCalls n (p :: fs) = dataCall n p.1 p.2 :: dataCalls n fs := rfl

/-- How a call of a chain is closed if these follow. -/
def stopBefore : List Call → String
  | [] => ";"
  | _ :: _ => ""

theorem newline_notMem_stopBefore (cs : List Call) : '\n' ∉ (stopBefore cs).toList := by
  cases cs with
  | nil => decide
  | cons _ _ => exact List.not_mem_nil

theorem chainLines_cons (indent : String) (c : Call) (cs : List Call) :
    chainLines indent (c :: cs) = c.lines indent (stopBefore cs) ++ chainLines indent cs := by
  cases cs with
  | nil => exact (List.append_nil _).symm
  | cons d cs =>
    rw [chainLines]
    · rfl
    · simp

/-- The line of a call before others. -/
def callLine (indent : String) (c : Call) (cs : List Call) : List Char :=
  indent.toList ++ c.code.toList ++ (stopBefore cs).toList

/-- The line of a call is code, as the call starts with a dot. -/
theorem codeLines_callLine (hi : ∀ c ∈ indent.toList, c = ' ') {c : Call}
    (hdot : c.code.toList.head? = some '.') (hc : '\n' ∉ c.code.toList) (cs : List Call) :
    codeLines (callLine indent c cs) = [callLine indent c cs] := by
  obtain ⟨x, hx⟩ := List.head?_eq_some_iff.1 hdot
  rw [callLine, List.append_assoc]
  refine codeLines_indent hi (by simp [hc, newline_notMem_stopBefore]) ?_
  rw [hx]
  rfl

theorem codeOf_typeCall (hi : ∀ c ∈ indent.toList, c = ' ') (hn : IsName n) (cs : List Call) :
    codeOf ((typeCall n).lines indent (stopBefore cs)) = [callLine indent (typeCall n) cs] := by
  have hline := codeLines_callLine hi (c := typeCall n) (by simp [typeCall])
    (by simp [typeCall, hn.newline_notMem]) cs
  simpa [Call.lines, typeCall, callLine, codeOf] using hline

theorem codeOf_dataCall (hi : ∀ c ∈ indent.toList, c = ' ') (hn : IsName n) (hp : Registrable p)
    (cs : List Call) : codeOf ((dataCall n p.1 p.2).lines indent (stopBefore cs)) =
      spill p ++ [callLine indent (dataCall n p.1 p.2) cs] := by
  obtain ⟨f, t⟩ := p
  obtain ⟨hf, t, rfl, ht⟩ := hp
  have hslashes : ∀ v, isComment ((indent.toList ++ "// ".toList) ++ v) = true := fun v => by
    rw [List.append_assoc, isComment_append hi]
    rfl
  have hcomment := codeLines_comment (by simp [newline_notMem_indent hi]) hslashes
    (ht.notMem (c := '/') (by decide) (by decide) (by decide))
  have hline := codeLines_callLine hi (c := dataCall n f (some t)) (by simp [dataCall])
    (by simp [dataCall, hn.newline_notMem, hf.newline_notMem]) cs
  have hlines : (dataCall n f (some t)).lines indent (stopBefore cs) =
      [indent ++ "// " ++ t, indent ++ (dataCall n f (some t)).code ++ stopBefore cs] := rfl
  have hcode : (indent ++ (dataCall n f (some t)).code ++ stopBefore cs).toList =
      callLine indent (dataCall n f (some t)) cs := by
    rw [String.toList_append, String.toList_append, callLine]
  rw [hlines, codeOf_cons, codeOf_cons, hcode, hline, String.toList_append, String.toList_append,
    hcomment]
  rfl

/-! A dot tells the line of a call from what its field's type spills. -/

theorem dot_mem_callLine : '.' ∈ callLine indent (dataCall n p.1 p.2) cs := by
  simp [callLine, dataCall]

theorem dot_notMem_spill (hp : Registrable p) {l : List Char} (hl : l ∈ spill p) : '.' ∉ l := by
  obtain ⟨f, t⟩ := p
  obtain ⟨hf, t, rfl, ht⟩ := hp
  intro hc
  exact ht.dot_notMem (mem_of_mem_splitOn (List.mem_of_mem_tail hl) hc).1

/-- Two stretches before the first element of another kind are compared as wholes. -/
theorem append_cons_eq_iff {α : Type} {P : α → Prop} {u v r s : List α} {a b : α}
    (hu : ∀ x ∈ u, ¬P x) (hv : ∀ x ∈ v, ¬P x) (ha : P a) (hb : P b) :
    u ++ a :: r = v ++ b :: s ↔ u = v ∧ a :: r = b :: s := by
  induction u generalizing v with
  | nil =>
    cases v with
    | nil => simp
    | cons y v =>
      have : a ≠ y := fun h => hv y (List.mem_cons_self ..) (h ▸ ha)
      simp [this]
  | cons x u ih =>
    cases v with
    | nil =>
      have : x ≠ b := fun h => hu x (List.mem_cons_self ..) (h ▸ hb)
      simp [this]
    | cons y v =>
      rw [List.cons_append, List.cons_append, List.cons.injEq, List.cons.injEq, and_assoc,
        ih (fun x hx => hu x (List.mem_cons_of_mem _ hx)) fun x hx => hv x (List.mem_cons_of_mem _ hx)]

theorem spill_append_inj (hp : Registrable p) (hq : Registrable q) :
    spill p ++ callLine indent (dataCall n p.1 p.2) cs :: r =
        spill q ++ callLine indent (dataCall n q.1 q.2) cs' :: s ↔
      spill p = spill q ∧ callLine indent (dataCall n p.1 p.2) cs :: r =
        callLine indent (dataCall n q.1 q.2) cs' :: s :=
  append_cons_eq_iff (P := fun l => '.' ∈ l) (fun _ => dot_notMem_spill hp)
    (fun _ => dot_notMem_spill hq) dot_mem_callLine dot_mem_callLine

theorem callLine_inj (hp : IsName p.1) (hq : IsName q.1)
    (h : callLine indent (dataCall n p.1 p.2) cs = callLine indent (dataCall n q.1 q.2) cs') :
    p.1 = q.1 := by
  have hangle : ">(\"".toList = '>' :: "(\"".toList := rfl
  simp only [callLine, dataCall, String.toList_append, List.append_assoc, List.append_cancel_left_eq,
    hangle, List.cons_append] at h
  exact (hp.append_inj hq (by decide +kernel) (by decide +kernel) h).1

/-! ### The code of structs -/

/-- Two fields of one name with types that spill the same. -/
def SameSpill (p q : String × Option String) : Prop :=
  p.1 = q.1 ∧ spill p = spill q

/-- The same fields of one struct are registered, with types that spill the same. -/
def SameCode (d e : Description) : Prop :=
  d.name = e.name ∧ List.Forall₂ SameSpill d.markedTypes e.markedTypes

theorem codeOf_chain (hi : ∀ c ∈ indent.toList, c = ' ') (hn : IsName n) (hp : Registrable p) :
    codeOf (chainLines indent (dataCalls n (p :: fs))) ++ r =
      spill p ++ callLine indent (dataCall n p.1 p.2) (dataCalls n fs) ::
        (codeOf (chainLines indent (dataCalls n fs)) ++ r) := by
  rw [dataCalls_cons, chainLines_cons, codeOf_append, codeOf_dataCall hi hn hp, List.append_assoc,
    List.append_assoc, List.singleton_append]

/-- Two chains that start alike have the same code exactly if the calls behind their starts agree. -/
theorem chain_code_iff (hi : ∀ c ∈ indent.toList, c = ' ') (hn : IsName n)
    (hf : ∀ p ∈ fs, Registrable p) (hg : ∀ p ∈ gs, Registrable p) (c : Call) :
    callLine indent c (dataCalls n fs) :: (codeOf (chainLines indent (dataCalls n fs)) ++ r) =
        callLine indent c (dataCalls n gs) :: (codeOf (chainLines indent (dataCalls n gs)) ++ s) ↔
      List.Forall₂ SameSpill fs gs ∧ r = s := by
  -- Each call in turn is the start of what is left, so the start is whatever call it is.
  induction fs generalizing gs c with
  | nil =>
    cases gs with
    | nil => simp
    | cons q gs => simp [dataCalls, callLine, stopBefore]
  | cons p fs ih =>
    cases gs with
    | nil => simp [dataCalls, callLine, stopBefore]
    | cons q gs =>
      obtain ⟨hp, hfs⟩ := List.forall_mem_cons.1 hf
      obtain ⟨hq, hgs⟩ := List.forall_mem_cons.1 hg
      have hcode : p.1 = q.1 → ∀ cs, callLine indent (dataCall n p.1 p.2) cs =
          callLine indent (dataCall n q.1 q.2) cs := fun h cs => by
        rw [callLine, callLine, dataCall, dataCall, h]
      rw [codeOf_chain hi hn hp, codeOf_chain hi hn hq, List.cons.injEq, spill_append_inj hp hq,
        List.forall₂_cons, SameSpill]
      constructor
      · rintro ⟨-, hspill, h⟩
        have hname := callLine_inj hp.1 hq.1 (List.cons.inj h).1
        rw [hcode hname] at h
        obtain ⟨hrest, hrs⟩ := (ih hfs hgs _).1 h
        exact ⟨⟨⟨hname, hspill⟩, hrest⟩, hrs⟩
      · rintro ⟨⟨⟨hname, hspill⟩, hrest⟩, hrs⟩
        refine ⟨rfl, hspill, ?_⟩
        rw [hcode hname]
        exact (ih hfs hgs _).2 ⟨hrest, hrs⟩

/-- The line that starts the chain of a struct. -/
def startLine (indent n : String) : List Char :=
  indent.toList ++ ("entt::meta_factory<".toList ++ (n.toList ++ ">()".toList))

theorem startLine_inj {m : String} (hm : IsName m) (hn : IsName n)
    (h : startLine indent m = startLine indent n) : m = n := by
  have hangle : ">()".toList = '>' :: "()".toList := rfl
  rw [startLine, startLine, List.append_cancel_left_eq, List.append_cancel_left_eq, hangle] at h
  exact (hm.append_inj hn (by decide +kernel) (by decide +kernel) h).1

theorem codeOf_struct (hi : ∀ c ∈ indent.toList, c = ' ') (hn : IsName d.name) :
    codeOf ("" :: structLines indent d) ++ r = [] :: startLine indent d.name ::
      callLine (indent ++ "    ") (typeCall d.name) (dataCalls d.name d.markedTypes) ::
        (codeOf (chainLines (indent ++ "    ") (dataCalls d.name d.markedTypes)) ++ r) := by
  have hstart : codeLines (startLine indent d.name) = [startLine indent d.name] :=
    codeLines_indent hi (by simp [hn.newline_notMem]) rfl
  have hline : (indent ++ "entt::meta_factory<" ++ d.name ++ ">()").toList = startLine indent d.name := by
    simp [startLine]
  have hcalls : calls d = typeCall d.name :: dataCalls d.name d.markedTypes := rfl
  rw [structLines, hcalls, chainLines_cons, codeOf_cons, codeOf_cons, codeOf_append, hline, hstart,
    codeOf_typeCall (eq_space_of_mem_indent hi) hn, List.append_assoc, List.append_assoc,
    List.append_assoc]
  rfl

theorem struct_code_iff (hi : ∀ c ∈ indent.toList, c = ' ') (hd : d.Sound) (he : e.Sound) :
    codeOf ("" :: structLines indent d) ++ r = codeOf ("" :: structLines indent e) ++ s ↔
      SameCode d e ∧ r = s := by
  have hchain := chain_code_iff (r := r) (s := s) (eq_space_of_mem_indent hi) hd.name
    (fun _ => registrable_of_mem hd) (fun _ => registrable_of_mem he) (typeCall d.name)
  rw [codeOf_struct hi hd.name, codeOf_struct hi he.name, List.cons.injEq, List.cons.injEq, SameCode]
  constructor
  · rintro ⟨-, hstart, h⟩
    have hname := startLine_inj hd.name he.name hstart
    rw [← hname] at h
    obtain ⟨hcalls, hrs⟩ := hchain.1 h
    exact ⟨⟨hname, hcalls⟩, hrs⟩
  · rintro ⟨⟨hname, hcalls⟩, hrs⟩
    rw [← hname]
    exact ⟨rfl, rfl, hchain.2 ⟨hcalls, hrs⟩⟩

theorem structs_code_iff {ds es : List Description} (hi : ∀ c ∈ indent.toList, c = ' ')
    (hd : ∀ d ∈ ds, d.Sound) (he : ∀ e ∈ es, e.Sound) (hr : [] ∉ r.head?) :
    codeOf (ds.flatMap fun d => "" :: structLines indent d) ++ r =
      codeOf (es.flatMap fun d => "" :: structLines indent d) ++ r ↔ List.Forall₂ SameCode ds es := by
  -- A struct starts with an empty line, which what follows the structs does not.
  have hnil : ∀ d s, d.Sound → codeOf ("" :: structLines indent d) ++ s ≠ r := by
    rintro d s hd rfl
    rw [codeOf_struct hi hd.name] at hr
    simp at hr
  induction ds generalizing es with
  | nil =>
    cases es with
    | nil => simp
    | cons e es =>
      rw [List.flatMap_nil, List.flatMap_cons, codeOf_append, List.append_assoc]
      exact iff_of_false (hnil e _ (he e (List.mem_cons_self ..))).symm (by simp)
  | cons d ds ih =>
    obtain ⟨hd, hds⟩ := List.forall_mem_cons.1 hd
    cases es with
    | nil =>
      rw [List.flatMap_nil, List.flatMap_cons, codeOf_append, List.append_assoc]
      exact iff_of_false (hnil d _ hd) (by simp)
    | cons e es =>
      obtain ⟨he, hes⟩ := List.forall_mem_cons.1 he
      rw [List.flatMap_cons, List.flatMap_cons, codeOf_append, codeOf_append, List.append_assoc,
        List.append_assoc, struct_code_iff hi hd he, List.forall₂_cons]
      exact and_congr_right' (ih hds hes)

/-! ### The code of headers -/

theorem function_code_iff {c c' : Catalog} (hi : ∀ c ∈ indent.toList, c = ' ')
    (hc : ∀ d ∈ c.descriptions, d.Sound) (hc' : ∀ d ∈ c'.descriptions, d.Sound) :
    codeOf (functionLines indent c) ++ r = codeOf (functionLines indent c') ++ r ↔
      List.Forall₂ SameCode c.descriptions c'.descriptions := by
  have hbrace : codeOf [indent ++ "\x7d"] = [indent.toList ++ "\x7d".toList] := by
    simpa [codeOf] using codeLines_indent hi (x := "\x7d".toList) (by decide) rfl
  rw [functionLines, functionLines, codeOf_append, codeOf_append, codeOf_append, codeOf_append, hbrace,
    List.append_assoc, List.append_assoc, List.append_assoc, List.append_assoc,
    List.append_cancel_left_eq]
  exact structs_code_iff (eq_space_of_mem_indent hi) hc hc' (by simp)

theorem codeOf_lines_eq_iff {ns : Option String} {c c' : Catalog}
    (hc : ∀ d ∈ c.descriptions, d.Sound) (hc' : ∀ d ∈ c'.descriptions, d.Sound) :
    codeOf (lines ns c) = codeOf (lines ns c') ↔
      List.Forall₂ SameCode c.descriptions c'.descriptions := by
  rw [lines, lines, codeOf_append, codeOf_append, List.append_cancel_left_eq]
  split
  · have hi : ∀ c ∈ "".toList, c = ' ' := by simp
    simpa using function_code_iff (r := []) hi hc hc'
  · rw [codeOf_append, codeOf_append, codeOf_append, codeOf_append, List.append_assoc,
      List.append_assoc, List.append_cancel_left_eq]
    exact function_code_iff (by simp) hc hc'

theorem withoutComments_eq_iff_sameCode {ns : Option String} {c c' : Catalog}
    (hc : ∀ d ∈ c.descriptions, d.Sound) (hc' : ∀ d ∈ c'.descriptions, d.Sound) :
    withoutComments (render ns c) = withoutComments (render ns c') ↔
      List.Forall₂ SameCode c.descriptions c'.descriptions := by
  have hcode : ∀ c, codeLines (render ns c).toList = codeOf (lines ns c) ++ [[]] := fun c => by
    rw [toList_render, codeLines_linesText]
  rw [withoutComments_eq_iff (by rw [hcode]; simp) (by rw [hcode]; simp), hcode, hcode,
    List.append_cancel_right_eq, codeOf_lines_eq_iff hc hc']

/-- Without comments, the headers printed for two lists of texts are the same exactly if the same
fields of the same structs are registered, in the same order, with types that are the same behind their
first lines. -/
theorem withoutComments_render_eq_iff (ns : Option String) (texts texts' : List String) :
    withoutComments (render ns (.ofTexts texts)) = withoutComments (render ns (.ofTexts texts')) ↔
      List.Forall₂ (fun d e => d.name = e.name ∧
          List.Forall₂ (fun p q => p.1 = q.1 ∧ spill p = spill q) d.markedTypes e.markedTypes)
        (Catalog.ofTexts texts).descriptions (Catalog.ofTexts texts').descriptions :=
  withoutComments_eq_iff_sameCode (fun _ => Catalog.sound_of_mem_ofTexts)
    (fun _ => Catalog.sound_of_mem_ofTexts)

/-- A line end before a pointer mark is enough for two headers that register the same fields to differ in
their code. -/
theorem spill_is_code :
    ¬∀ (ns : Option String) (texts texts' : List String), (∀ n ∈ ns, '\n' ∉ n.toList) →
      List.Forall₂ (fun d e => d.name = e.name ∧ d.marked = e.marked)
        (Catalog.ofTexts texts).descriptions (Catalog.ofTexts texts').descriptions →
      withoutComments (render ns (.ofTexts texts)) = withoutComments (render ns (.ofTexts texts')) := by
  intro h
  have hsame := h none ["struct A \x7b [[Serialize]] int\n* p; \x7d;"]
    ["struct A \x7b [[Serialize]] int p; \x7d;"] (by simp) (by decide +kernel)
  have hcalls := (withoutComments_eq_iff_sameCode (fun _ => Catalog.sound_of_mem_ofTexts)
    (fun _ => Catalog.sound_of_mem_ofTexts)).1 hsame
  revert hcalls
  unfold SameCode SameSpill
  decide +kernel

end Registration

end HeaderMeta
