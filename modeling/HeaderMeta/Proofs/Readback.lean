import HeaderMeta.Proofs.Sound
import HeaderMeta.Registration
import Mathlib.Data.List.Forall2

/-!
# Registration headers tell catalogs apart

Two catalogs that are printed alike register the same (`render_eq_iff`). The text is compared from
left to right, each piece together with all that follows it: a piece of two texts is the same if it
belongs to a class and what follows it starts outside (`append_inj_of_stops`). So a name ends at the
bracket or quote behind it, and a type at the first blank that no pointer mark follows
(`Field.IsType.append_inj`), wherever its own blanks break the line. The last call of a chain tells by
its `;` that no other follows (`chain_inj`), and a struct starts with an empty line, which the end of
the function does not.
-/

namespace HeaderMeta

open Text

theorem Text.append_inj_of_stops {p : Char → Bool} {u v r s : List Char} (hu : ∀ c ∈ u, p c = true)
    (hv : ∀ c ∈ v, p c = true) (hr : Stops p r) (hs : Stops p s) (h : u ++ r = v ++ s) :
    u = v ∧ r = s := by
  have hrun : run p (u ++ r) = (u, r) := run_eq_iff.2 ⟨rfl, hu, hr⟩
  rw [h, run_eq_iff.2 ⟨rfl, hv, hs⟩, Prod.mk.injEq] at hrun
  exact ⟨hrun.1.symm, hrun.2.symm⟩

theorem IsName.append_inj {m n : String} (hm : IsName m) (hn : IsName n) {c d : Char} {r s : List Char}
    (hc : isWord c = false) (hd : isWord d = false)
    (h : m.toList ++ c :: r = n.toList ++ d :: s) : m = n ∧ c :: r = d :: s := by
  obtain ⟨hmn, hrs⟩ := append_inj_of_stops hm.2 hn.2 (stops_cons.2 hc) (stops_cons.2 hd) h
  exact ⟨String.toList_inj.1 hmn, hrs⟩

/-- A type ends before blanks that no pointer mark follows. -/
theorem Field.IsType.append_inj {t u : String} (ht : IsType t) (hu : IsType u) {b r s : List Char}
    (hne : b ≠ []) (hb : ∀ c ∈ b, isBlank c = true) (hr : Stops isBlank r ∧ Stops isPointerMark r)
    (hs : Stops isBlank s ∧ Stops isPointerMark s) (h : t.toList ++ (b ++ r) = u.toList ++ (b ++ s)) :
    t = u ∧ r = s := by
  obtain ⟨base, p, htl, -, hbase, hp⟩ := ht
  obtain ⟨base', q, hul, -, hbase', hq⟩ := hu
  have hgap : ∀ r, Stops isTypeRun (b ++ r) := fun r =>
    stops_append hne fun c hc => isTypeRun_of_isBlank (hb c hc)
  rw [htl, hul, List.append_assoc, List.append_assoc] at h
  obtain ⟨rfl, hrest⟩ := append_inj_of_stops hbase hbase' (Written.stops_pointerText hp (hgap r))
    (Written.stops_pointerText hq (hgap s)) h
  have hread := Written.readPointer_pointerText hp hb hr.1 hr.2
  rw [hrest, Written.readPointer_pointerText hq hb hs.1 hs.2, Prod.mk.injEq] at hread
  obtain ⟨rfl, hrs⟩ := hread
  exact ⟨String.toList_inj.1 (htl.trans hul.symm), (List.append_cancel_left hrs).symm⟩

/-! ### Lines -/

namespace Registration

/-- The text of lines. -/
def linesText (ls : List String) : List Char :=
  ls.flatMap fun l => l.toList ++ ['\n']

theorem toList_render (ns : Option String) (c : Catalog) :
    (render ns c).toList = linesText (lines ns c) := by
  simp [render, String.toList_join, List.flatMap_map, linesText]

@[simp] theorem linesText_nil : linesText [] = [] := rfl

@[simp] theorem linesText_cons (l : String) (ls : List String) :
    linesText (l :: ls) = l.toList ++ '\n' :: linesText ls := by
  simp [linesText]

@[simp] theorem linesText_append (ls ms : List String) :
    linesText (ls ++ ms) = linesText ls ++ linesText ms :=
  List.flatMap_append

/-! ### Chains -/

/-- The line above a call. -/
def commentText (indent : String) (c : Call) : List Char :=
  linesText (c.comment.toList.map fun t => indent ++ "// " ++ t)

theorem linesText_call (indent stop : String) (c : Call) : linesText (c.lines indent stop) =
    commentText indent c ++ (indent.toList ++ (c.code.toList ++ (stop.toList ++ ['\n']))) := by
  simp [Call.lines, commentText]

/-- What stands behind the code of a call: the `;`, or the calls that follow. -/
def tailText (indent : String) : List Call → List Char
  | [] => [';', '\n']
  | c :: cs => '\n' :: linesText (chainLines indent (c :: cs))

theorem linesText_chainLines (indent : String) (c : Call) (cs : List Call) :
    linesText (chainLines indent (c :: cs)) =
      commentText indent c ++ (indent.toList ++ (c.code.toList ++ tailText indent cs)) := by
  cases cs with
  | nil => exact linesText_call indent ";" c
  | cons d cs =>
    rw [chainLines, linesText_append, linesText_call]
    · simp [tailText]
    · simp

/-- What can be registered as it stands: a name, and a type that is known. -/
def Registrable (p : String × Option String) : Prop :=
  IsName p.1 ∧ ∃ t, p.2 = some t ∧ Field.IsType t

section
variable {indent n : String} {fs gs : List (String × Option String)} {p q : String × Option String}
  {x y r s : List Char}

/-- The call for a field shows its name and, above it, its type. -/
theorem dataCall_inj (hi : ∀ c ∈ indent.toList, c = ' ') (hp : Registrable p) (hq : Registrable q)
    (h : commentText indent (dataCall n p.1 p.2) ++
        (indent.toList ++ ((dataCall n p.1 p.2).code.toList ++ x)) =
      commentText indent (dataCall n q.1 q.2) ++
        (indent.toList ++ ((dataCall n q.1 q.2).code.toList ++ y))) :
    p = q := by
  obtain ⟨f, t⟩ := p
  obtain ⟨g, u⟩ := q
  obtain ⟨hf, t, rfl, ht⟩ := hp
  obtain ⟨hg, u, rfl, hu⟩ := hq
  have hblank : ∀ c ∈ '\n' :: indent.toList, isBlank c = true := by
    rintro c hc
    rcases List.mem_cons.1 hc with rfl | hc
    · decide
    · rw [hi c hc]
      decide
  simp only [commentText, dataCall, Option.toList_some, Option.getD_some, List.map_cons, List.map_nil,
    linesText_cons, linesText_nil, String.toList_append, List.append_assoc, List.cons_append,
    List.nil_append, List.append_cancel_left_eq] at h
  have hdata : ".data<&".toList = '.' :: "data<&".toList := rfl
  have hangle : ">(\"".toList = '>' :: "(\"".toList := rfl
  have hstops : ∀ x, Stops isBlank (".data<&".toList ++ x) ∧ Stops isPointerMark (".data<&".toList ++ x) := by
    intro x
    rw [hdata]
    exact ⟨stops_cons.2 (by decide), stops_cons.2 (by decide)⟩
  obtain ⟨rfl, hcode⟩ := ht.append_inj hu (b := '\n' :: indent.toList) (List.cons_ne_nil _ _) hblank
    (hstops _) (hstops _) h
  simp only [List.append_cancel_left_eq, hangle, List.cons_append] at hcode
  obtain ⟨rfl, -⟩ := hf.append_inj hg (by decide +kernel) (by decide +kernel) hcode
  rfl

/-- The calls behind a first one, and what follows the chain. -/
theorem chain_inj (hi : ∀ c ∈ indent.toList, c = ' ') (hf : ∀ p ∈ fs, Registrable p)
    (hg : ∀ p ∈ gs, Registrable p) (c : Call)
    (h : linesText (chainLines indent (c :: fs.map fun p => dataCall n p.1 p.2)) ++ r =
      linesText (chainLines indent (c :: gs.map fun p => dataCall n p.1 p.2)) ++ s) :
    fs = gs ∧ r = s := by
  simp only [linesText_chainLines, List.append_assoc, List.append_cancel_left_eq] at h
  induction fs generalizing gs with
  | nil =>
    cases gs with
    | nil => exact ⟨rfl, by simpa [tailText] using h⟩
    | cons q gs => simp [tailText] at h
  | cons p fs ih =>
    cases gs with
    | nil => simp [tailText] at h
    | cons q gs =>
      obtain ⟨hp, hfs⟩ := List.forall_mem_cons.1 hf
      obtain ⟨hq, hgs⟩ := List.forall_mem_cons.1 hg
      rw [List.map_cons, List.map_cons, tailText, tailText, linesText_chainLines,
        linesText_chainLines] at h
      simp only [List.cons_append, List.cons.injEq, true_and, List.append_assoc] at h
      obtain rfl := dataCall_inj hi hp hq h
      simp only [List.append_cancel_left_eq] at h
      obtain ⟨rfl, hrs⟩ := ih hfs hgs h
      exact ⟨rfl, hrs⟩

end

/-! ### Structs -/

theorem registrable_of_mem {d : Description} (hd : d.Sound) {p : String × Option String}
    (hp : p ∈ d.markedTypes) : Registrable p := by
  obtain ⟨f, hf, rfl⟩ := List.mem_map.1 hp
  exact ⟨hd.isName_of_mem_marked hf, hd.exists_isType hf⟩

theorem eq_space_of_mem_indent {indent : String} (hi : ∀ c ∈ indent.toList, c = ' ') :
    ∀ c ∈ (indent ++ "    ").toList, c = ' ' := by
  rw [String.toList_append]
  exact List.forall_mem_append.2 ⟨hi, by simp⟩

/-- The same fields of one struct are registered, with the same types. -/
def SameCalls (d e : Description) : Prop :=
  d.name = e.name ∧ d.markedTypes = e.markedTypes

theorem struct_inj {indent : String} {d e : Description} {r s : List Char}
    (hi : ∀ c ∈ indent.toList, c = ' ') (hd : d.Sound) (he : e.Sound)
    (h : linesText (structLines indent d) ++ r = linesText (structLines indent e) ++ s) :
    SameCalls d e ∧ r = s := by
  have hangle : ">()".toList = '>' :: "()".toList := rfl
  simp only [structLines, linesText_cons, String.toList_append, List.append_assoc, hangle,
    List.append_cancel_left_eq, List.cons_append] at h
  obtain ⟨hn, hchain⟩ := hd.name.append_inj he.name (by decide +kernel) (by decide +kernel) h
  simp only [List.cons.injEq, true_and, List.append_cancel_left_eq, calls, hn] at hchain
  obtain ⟨hm, hrs⟩ := chain_inj (eq_space_of_mem_indent hi) (fun _ => registrable_of_mem hd)
    (fun _ => registrable_of_mem he) _ hchain
  exact ⟨⟨hn, hm⟩, hrs⟩

theorem structs_inj {indent : String} {ds es : List Description} {r : List Char}
    (hi : ∀ c ∈ indent.toList, c = ' ') (hd : ∀ d ∈ ds, d.Sound) (he : ∀ e ∈ es, e.Sound)
    (hr : '\n' ∉ r.head?)
    (h : linesText (ds.flatMap fun d => "" :: structLines indent d) ++ r =
      linesText (es.flatMap fun d => "" :: structLines indent d) ++ r) :
    List.Forall₂ SameCalls ds es := by
  induction ds generalizing es with
  | nil =>
    cases es with
    | nil => exact .nil
    | cons e es =>
      rw [List.flatMap_nil, linesText_nil, List.nil_append] at h
      rw [h] at hr
      simp at hr
  | cons d ds ih =>
    cases es with
    | nil =>
      rw [List.flatMap_nil, linesText_nil, List.nil_append] at h
      rw [← h] at hr
      simp at hr
    | cons e es =>
      obtain ⟨hd, hds⟩ := List.forall_mem_cons.1 hd
      obtain ⟨he, hes⟩ := List.forall_mem_cons.1 he
      simp only [List.flatMap_cons, List.cons_append, linesText_cons, linesText_append,
        List.append_assoc, List.append_cancel_left_eq, List.cons.injEq, true_and] at h
      obtain ⟨hcalls, hrest⟩ := struct_inj hi hd he h
      exact .cons hcalls (ih hds hes hrest)

theorem function_inj {indent : String} {c c' : Catalog} (hi : ∀ c ∈ indent.toList, c = ' ')
    (hc : ∀ d ∈ c.descriptions, d.Sound) (hc' : ∀ d ∈ c'.descriptions, d.Sound)
    (h : linesText (functionLines indent c) = linesText (functionLines indent c')) :
    List.Forall₂ SameCalls c.descriptions c'.descriptions := by
  simp only [functionLines, linesText_append, List.append_assoc, List.append_cancel_left_eq] at h
  refine structs_inj (eq_space_of_mem_indent hi) hc hc' ?_ h
  rw [linesText_cons, String.toList_append]
  cases hl : indent.toList with
  | nil => decide
  | cons d l =>
    rw [hi d (by simp [hl])]
    simp

theorem sameCalls_of_render_eq {ns : Option String} {c c' : Catalog}
    (hc : ∀ d ∈ c.descriptions, d.Sound) (hc' : ∀ d ∈ c'.descriptions, d.Sound)
    (h : render ns c = render ns c') : List.Forall₂ SameCalls c.descriptions c'.descriptions := by
  have hlines : linesText (lines ns c) = linesText (lines ns c') := by
    rw [← toList_render, ← toList_render, h]
  unfold lines at hlines
  rw [linesText_append, linesText_append, List.append_cancel_left_eq] at hlines
  split at hlines
  · exact function_inj (by simp) hc hc' hlines
  · simp only [linesText_append, List.append_assoc, List.append_cancel_left_eq,
      List.append_cancel_right_eq] at hlines
    exact function_inj (by simp) hc hc' hlines

theorem structLines_congr {d e : Description} (h : SameCalls d e) (indent : String) :
    structLines indent d = structLines indent e := by
  rw [structLines, structLines, calls, calls, h.1, h.2]

theorem functionLines_congr {c c' : Catalog} (h : List.Forall₂ SameCalls c.descriptions c'.descriptions)
    (indent : String) : functionLines indent c = functionLines indent c' := by
  rw [functionLines, functionLines]
  generalize c.descriptions = ds at h
  generalize c'.descriptions = es at h
  congr 2
  induction h with
  | nil => rfl
  | cons hde _ ih => rw [List.flatMap_cons, List.flatMap_cons, structLines_congr hde, ih]

theorem render_congr {c c' : Catalog} (h : List.Forall₂ SameCalls c.descriptions c'.descriptions)
    (ns : Option String) : render ns c = render ns c' := by
  simp only [render, lines, functionLines_congr h]

/-- The headers printed for two lists of texts are the same exactly if the same fields of the same
structs are registered with the same types, in the same order. -/
theorem render_eq_iff (ns : Option String) (texts texts' : List String) :
    render ns (.ofTexts texts) = render ns (.ofTexts texts') ↔
      List.Forall₂ (fun d e => d.name = e.name ∧ d.markedTypes = e.markedTypes)
        (Catalog.ofTexts texts).descriptions (Catalog.ofTexts texts').descriptions := by
  constructor
  · exact sameCalls_of_render_eq (fun _ => Catalog.sound_of_mem_ofTexts)
      (fun _ => Catalog.sound_of_mem_ofTexts)
  · exact fun h => render_congr h ns

end Registration

end HeaderMeta
