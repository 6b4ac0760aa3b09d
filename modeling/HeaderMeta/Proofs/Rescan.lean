import HeaderMeta.Manifest.Printer
import HeaderMeta.Proofs.Sound
import HeaderMeta.Registration

/-!
# Scanning what was printed

A struct ends with `};`, so a text without these two characters in a row holds none
(`Declaration.ofText_eq_nil`). No printer writes them: a manifest has no `;` at all, as neither names
nor types have one (`Manifest.semicolon_notMem_render`), and in a registration header the lines with a
brace are those that hold nothing else (`Registration.not_infix_render`). The one line that is not made
of sound texts names the namespace, which is why that must not have `};` itself.
-/

namespace HeaderMeta

open Text

theorem Declaration.ofText_eq_nil {t : String} (h : ¬ closing <:+: t.toList) : ofText t = [] := by
  have hlit : ∀ w, Written.shape.Valid w → closing <:+: Written.shape.text w := by
    intro w _
    rw [Written.shape_text, Written.text_eq_front]
    exact (List.suffix_append ..).isInfix
  rw [ofText, Reader.scan_eq_nil_of_not_infix Written.reader_reads hlit h, List.map_nil]

theorem Description.ofText_eq_nil {t : String} (h : Declaration.ofText t = []) : ofText t = [] := by
  rw [ofText, h]
  rfl

/-! ### Parts of a text -/

section
variable {lit u v : List Char} {k : Char}

theorem not_infix_of_notMem (hk : k ∈ lit) (h : k ∉ u) : ¬ lit <:+: u :=
  fun hi => h (hi.subset hk)

/-- A literal does not reach over a character that it does not have. -/
theorem infix_of_infix_append_cons (hk : k ∉ lit) (h : lit <:+: u ++ k :: v) :
    lit <:+: u ∨ lit <:+: v := by
  have hpre : ∀ l, l <+: k :: v → k ∉ l → l = [] := by
    intro l hl hkl
    rcases List.prefix_cons_iff.1 hl with rfl | ⟨t, rfl, -⟩
    · rfl
    · exact absurd (List.mem_cons_self ..) hkl
  rcases List.infix_append_iff.1 h with h | h | ⟨l, m, rfl, hl, hm⟩
  · exact .inl h
  · rcases List.infix_cons_iff.1 h with h | h
    · exact .inl (hpre lit h hk ▸ List.nil_infix)
    · exact .inr h
  · have := hpre m hm fun hkm => hk (List.mem_append_right l hkm)
    rw [this, List.append_nil]
    exact .inl hl.isInfix

theorem infix_of_infix_append (hk : k ∉ u) (h : k :: lit <:+: u ++ v) : k :: lit <:+: v := by
  induction u with
  | nil => exact h
  | cons c u ih =>
    rw [List.mem_cons, not_or] at hk
    rcases List.infix_cons_iff.1 h with h | h
    · rw [List.cons_prefix_cons] at h
      exact absurd h.1 hk.1
    · exact ih hk.2 h

theorem not_infix_join {ls : List String} (hne : lit ≠ []) (hlit : '\n' ∉ lit)
    (h : ∀ l ∈ ls, ¬ lit <:+: l.toList) : ¬ lit <:+: (String.join (ls.map (· ++ "\n"))).toList := by
  rw [String.toList_join, List.flatMap_map]
  induction ls with
  | nil => simpa using hne
  | cons l ls ih =>
    intro hi
    rw [List.flatMap_cons, String.toList_append, List.append_assoc] at hi
    rcases infix_of_infix_append_cons hlit hi with hi | hi
    · exact h l (List.mem_cons_self ..) hi
    · exact ih (fun m hm => h m (List.mem_cons_of_mem l hm)) hi

end

theorem notMem_toList_append {k : Char} {s t : String} :
    k ∉ (s ++ t).toList ↔ k ∉ s.toList ∧ k ∉ t.toList := by
  rw [String.toList_append, List.mem_append, not_or]

/-! ### Registration headers -/

namespace Registration
variable {d : Description} {indent stop : String} {l : String}

theorem brace_notMem_of_isName {n : String} (h : IsName n) : '}' ∉ n.toList :=
  h.notMem (by decide +kernel)

theorem brace_notMem_of_isType {t : String} (h : Field.IsType t) : '}' ∉ t.toList :=
  h.notMem (by decide) (by decide +kernel) (by decide)

/-- A call without a closing brace. -/
structure Call.Braceless (c : Call) : Prop where
  comment : ∀ t ∈ c.comment, '}' ∉ t.toList
  code : '}' ∉ c.code.toList

theorem braceless_of_mem_calls (h : d.Sound) {c : Call} (hc : c ∈ calls d) : c.Braceless := by
  have hname := brace_notMem_of_isName h.name
  rcases List.mem_cons.1 hc with rfl | hc
  · refine ⟨fun t ht => (by cases ht), ?_⟩
    simp only [typeCall, notMem_toList_append, hname, not_false_eq_true, and_true]
    decide
  · obtain ⟨⟨f, t⟩, hft, rfl⟩ := List.mem_map.1 hc
    obtain ⟨f, hf, he⟩ := List.mem_map.1 hft
    obtain ⟨rfl, rfl⟩ := Prod.mk.injEq .. ▸ he
    have hfield := brace_notMem_of_isName (h.isName_of_mem_marked hf)
    refine ⟨?_, ?_⟩
    · rintro t ⟨⟩
      cases ht : d.types.get? f with
      | none => decide
      | some t => exact brace_notMem_of_isType (h.isType_of_get? ht)
    · simp only [dataCall, notMem_toList_append, hname, hfield, not_false_eq_true, and_true]
      decide

theorem brace_notMem_of_mem_lines {c : Call} (hc : c.Braceless) (hi : '}' ∉ indent.toList)
    (hs : '}' ∉ stop.toList) (hl : l ∈ c.lines indent stop) : '}' ∉ l.toList := by
  rcases List.mem_append.1 hl with hl | hl
  · obtain ⟨t, ht, rfl⟩ := List.mem_map.1 hl
    simp only [notMem_toList_append]
    exact ⟨⟨hi, by decide⟩, hc.comment t (by simpa using ht)⟩
  · rw [List.mem_singleton.1 hl]
    simp only [notMem_toList_append]
    exact ⟨⟨hi, hc.code⟩, hs⟩

theorem brace_notMem_of_mem_chainLines {cs : List Call} (hcs : ∀ c ∈ cs, c.Braceless)
    (hi : '}' ∉ indent.toList) (hl : l ∈ chainLines indent cs) : '}' ∉ l.toList := by
  fun_induction chainLines indent cs with
  | case1 => cases hl
  | case2 c => exact brace_notMem_of_mem_lines (hcs c (by simp)) hi (by decide) hl
  | case3 c cs _ ih =>
    rcases List.mem_append.1 hl with hl | hl
    · exact brace_notMem_of_mem_lines (hcs c (by simp)) hi (by decide) hl
    · exact ih (fun c hc => hcs c (by simp [hc])) hl

theorem brace_notMem_of_mem_structLines (h : d.Sound) (hi : '}' ∉ indent.toList)
    (hl : l ∈ structLines indent d) : '}' ∉ l.toList := by
  rcases List.mem_cons.1 hl with rfl | hl
  · simp only [notMem_toList_append]
    exact ⟨⟨⟨hi, by decide⟩, brace_notMem_of_isName h.name⟩, by decide⟩
  · exact brace_notMem_of_mem_chainLines (fun c => braceless_of_mem_calls h)
      (notMem_toList_append.2 ⟨hi, by decide⟩) hl

theorem not_infix_of_mem_functionLines {c : Catalog} (hc : ∀ d ∈ c.descriptions, d.Sound)
    (hb : '}' ∉ indent.toList) (hs : ';' ∉ indent.toList) (hl : l ∈ functionLines indent c) :
    ¬ Declaration.closing <:+: l.toList := by
  have hbrace : '}' ∉ l.toList → ¬ Declaration.closing <:+: l.toList :=
    not_infix_of_notMem (by decide)
  rcases List.mem_append.1 hl with hl | hl
  · rcases List.mem_append.1 hl with hl | hl
    · apply hbrace
      simp only [List.mem_cons, List.not_mem_nil, or_false] at hl
      rcases hl with rfl | rfl | rfl <;> exact notMem_toList_append.2 ⟨hb, by decide⟩
    · apply hbrace
      obtain ⟨d, hd, hl⟩ := List.mem_flatMap.1 hl
      rcases List.mem_cons.1 hl with rfl | hl
      · decide
      · exact brace_notMem_of_mem_structLines (hc d hd) (notMem_toList_append.2 ⟨hb, by decide⟩) hl
  · -- the line that closes the function has a brace, but no semicolon
    rw [List.mem_singleton.1 hl]
    exact not_infix_of_notMem (k := ';') (by decide) (notMem_toList_append.2 ⟨hs, by decide⟩)

theorem not_infix_render {ns : Option String} {c : Catalog}
    (hn : ∀ n ∈ ns, ¬ Declaration.closing <:+: n.toList) (hc : ∀ d ∈ c.descriptions, d.Sound) :
    ¬ Declaration.closing <:+: (render ns c).toList := by
  apply not_infix_join (by decide) (by decide)
  intro l hl
  rcases List.mem_append.1 hl with hl | hl
  · have key : ∀ l ∈ preamble, '}' ∉ l.toList := by decide
    exact not_infix_of_notMem (by decide) (key l hl)
  · cases he : effectiveNamespace ns with
    | none =>
      rw [he] at hl
      exact not_infix_of_mem_functionLines hc (by decide) (by decide) hl
    | some n =>
      have hns : n ∈ ns := (Option.filter_eq_some_iff.1 he).1
      rw [he] at hl
      simp only [List.mem_append, List.mem_cons, List.not_mem_nil, or_false] at hl
      rcases hl with ((rfl | rfl) | hl) | rfl
      · intro hi
        rw [String.toList_append] at hi
        exact hn n hns (infix_of_infix_append (by decide) hi)
      · decide
      · exact not_infix_of_mem_functionLines hc (by decide) (by decide) hl
      · decide

end Registration

/-! ### Manifests -/

namespace Manifest
variable {d : Description} {s : String}

theorem semicolon_notMem_escape {c : Char} (hc : c ≠ ';') : ';' ∉ escape c := by
  have hdigit : ∀ n < 16, Nat.digitChar n ≠ ';' := by decide
  unfold escape
  repeat' split
  any_goals decide
  · have h₁ := hdigit (c.toNat / 16) (by omega)
    have h₂ := hdigit (c.toNat % 16) (by omega)
    simp [h₁.symm, h₂.symm]
  · simpa using hc.symm

theorem semicolon_notMem_quote (h : ';' ∉ s.toList) : ';' ∉ quote s := by
  intro hm
  rcases List.mem_append.1 hm with hm | hm
  · rcases List.mem_cons.1 hm with hm | hm
    · cases hm
    · obtain ⟨c, hc, hm⟩ := List.mem_flatMap.1 hm
      exact semicolon_notMem_escape (fun e => h (e ▸ hc)) hm
  · exact absurd hm (by decide)

theorem semicolon_notMem_newline (depth : Nat) : ';' ∉ newline depth := by
  simp [newline, List.mem_replicate]

theorem semicolon_notMem_block {opening closing : Char} (ho : opening ≠ ';') (hc : closing ≠ ';')
    (depth : Nat) {is : List (List Char)} (h : ∀ i ∈ is, ';' ∉ i) :
    ';' ∉ block opening closing depth is := by
  cases is with
  | nil => simp [block, ho.symm, hc.symm]
  | cons i is =>
    have hi := h i (List.mem_cons_self ..)
    have his : ';' ∉ is.flatMap fun j => ',' :: newline (depth + 1) ++ j := by
      intro hm
      obtain ⟨j, hj, hm⟩ := List.mem_flatMap.1 hm
      rcases List.mem_append.1 hm with hm | hm
      · exact semicolon_notMem_newline (depth + 1) (by simpa using hm)
      · exact h j (List.mem_cons_of_mem i hj) hm
    simp only [block, List.mem_cons, List.mem_append, List.not_mem_nil, or_false, not_or]
    exact ⟨ho.symm, ⟨⟨⟨semicolon_notMem_newline _, hi⟩, his⟩, semicolon_notMem_newline _⟩, hc.symm⟩

theorem semicolon_notMem_member {v : List Char} (hs : ';' ∉ s.toList) (hv : ';' ∉ v) :
    ';' ∉ member s v := by
  simp only [member, List.mem_append, List.mem_cons, not_or]
  exact ⟨semicolon_notMem_quote hs, by decide, by decide, hv⟩

theorem semicolon_notMem_printDescription (h : d.Sound) : ';' ∉ printDescription d := by
  apply semicolon_notMem_block (by decide) (by decide)
  simp only [List.mem_cons, List.not_mem_nil, or_false]
  rintro i (rfl | rfl | rfl)
  · exact semicolon_notMem_member (by decide)
      (semicolon_notMem_quote h.name.semicolon_notMem)
  · refine semicolon_notMem_member (by decide) (semicolon_notMem_block (by decide) (by decide) 2 ?_)
    intro i hi
    obtain ⟨n, hn, rfl⟩ := List.mem_map.1 hi
    exact semicolon_notMem_quote (h.isName_of_mem_marked hn).semicolon_notMem
  · refine semicolon_notMem_member (by decide) (semicolon_notMem_block (by decide) (by decide) 2 ?_)
    intro i hi
    obtain ⟨e, he, rfl⟩ := List.mem_map.1 hi
    exact semicolon_notMem_member (h.key e.1 (List.mem_map_of_mem he)).semicolon_notMem
      (semicolon_notMem_quote (h.type e he).semicolon_notMem)

theorem semicolon_notMem_render {c : Catalog} (hc : ∀ d ∈ c.descriptions, d.Sound) :
    ';' ∉ (render c).toList := by
  rw [render, String.toList_ofList, List.mem_append, not_or]
  refine ⟨semicolon_notMem_block (by decide) (by decide) 0 ?_, by decide⟩
  intro i hi
  obtain ⟨d, hd, rfl⟩ := List.mem_map.1 hi
  exact semicolon_notMem_printDescription (hc d hd)

theorem not_infix_render {c : Catalog} (hc : ∀ d ∈ c.descriptions, d.Sound) :
    ¬ Declaration.closing <:+: (render c).toList :=
  not_infix_of_notMem (k := ';') (by decide) (semicolon_notMem_render hc)

end Manifest

theorem Catalog.descriptions_ofTexts_cons_of_eq_nil {out : String} (h : Description.ofText out = [])
    (before after : List String) : (ofTexts (before ++ out :: after)).descriptions =
      (ofTexts (before ++ after)).descriptions := by
  simp only [descriptions_ofTexts, List.flatMap_append, List.flatMap_cons, h, List.nil_append]

/-- No struct can be read in what is printed for headers, in either format, and a header that was
printed adds nothing when it is read among others. -/
theorem ofText_printed_eq_nil (texts : List String) (ns : Option String)
    (hn : ∀ n ∈ ns, ¬ "\x7d;".toList <:+: n.toList) :
    ∀ out ∈ [Registration.render ns (Catalog.ofTexts texts), Manifest.render (Catalog.ofTexts texts)],
      Declaration.ofText out = [] ∧ Description.ofText out = [] ∧
        ∀ before after : List String, (Catalog.ofTexts (before ++ out :: after)).descriptions =
          (Catalog.ofTexts (before ++ after)).descriptions := by
  have hc : ∀ d ∈ (Catalog.ofTexts texts).descriptions, d.Sound := fun d => Catalog.sound_of_mem_ofTexts
  intro out hout
  have hnot : ¬ Declaration.closing <:+: out.toList := by
    simp only [List.mem_cons, List.not_mem_nil, or_false] at hout
    rcases hout with rfl | rfl
    · exact Registration.not_infix_render hn hc
    · exact Manifest.not_infix_render hc
  have hnil := Declaration.ofText_eq_nil hnot
  have hnil' := Description.ofText_eq_nil hnil
  exact ⟨hnil, hnil', Catalog.descriptions_ofTexts_cons_of_eq_nil hnil'⟩

/-- The namespace may hold a struct that is not closed, and names and types the keyword. -/
theorem ofText_printed_open_namespace :
    (∀ n ∈ some "a struct b \x7b int x; \x7d ;", ¬ "\x7d;".toList <:+: n.toList) ∧
    (Catalog.ofTexts ["struct structs \x7b [[Serialize]] struct::t * x; \x7d;"]).names = ["structs"] ∧
    Declaration.ofText (Registration.render (some "a struct b \x7b int x; \x7d ;")
      (Catalog.ofTexts ["struct structs \x7b [[Serialize]] struct::t * x; \x7d;"])) = [] := by
  have hn : ∀ n ∈ some "a struct b \x7b int x; \x7d ;", ¬ "\x7d;".toList <:+: n.toList := by
    rintro n ⟨⟩
    decide +kernel
  exact ⟨hn, by decide +kernel, (ofText_printed_eq_nil _ _ hn _ (List.mem_cons_self ..)).1⟩

end HeaderMeta
