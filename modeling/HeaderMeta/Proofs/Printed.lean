import HeaderMeta.Proofs.DeclarationSpans
import HeaderMeta.Proofs.FieldSpans
import HeaderMeta.Proofs.Summary

/-!
# Printed headers are read back

A `Field.Line` is a field with blanks before it, a `Declaration.Block` a struct whose body is made of
lines, with some text before it, and `Declaration.print` puts blocks one behind another. Blanks stand
wherever they may, the text before a block is free as long as the keyword is not in it, and so is what
stands behind the last block.

The scans go over such a text block by block (`Declaration.Written.scan_block`) and line by line
(`Field.Written.scan_line`). What they pass over in between starts no item: before a block it would
take the keyword, which does not overlap the keyword of the block, and before a line a type.
-/

namespace HeaderMeta

open Text

/-! ### Fields -/

namespace Field

/-- A field and the blanks before it, which come before the marker if there is one. -/
structure Line where
  indent : List Char
  written : Written

namespace Line

def text (l : Line) : List Char :=
  l.indent ++ l.written.text

def field (l : Line) : Field :=
  ofWritten l.written

/-- The default value must not close the body. -/
structure Valid (l : Line) : Prop where
  indent : ∀ c ∈ l.indent, isBlank c = true
  written : l.written.Valid
  value : ∀ v ∈ l.written.value, '}' ∉ v

end Line

namespace Written
variable {w : Written} {b s r : List Char} {l : Line}

theorem Valid.indent (h : w.Valid) (hb : ∀ c ∈ b, isBlank c = true) :
    ({ w with lead := b ++ w.lead } : Written).Valid :=
  { h with lead := List.forall_mem_append.2 ⟨hb, h.lead⟩ }

/-- Blanks start a field only if its type follows. -/
theorem read?_blank_append {c : Char} (hc : isBlank c = true) (hb : ∀ d ∈ b, isBlank d = true)
    (h₁ : Stops isBlank s) (h₂ : Stops isTypeRun s) : read? (c :: (b ++ s)) = none := by
  have hmark : readMarker (c :: (b ++ s)) = (false, c :: (b ++ s)) := by
    refine readMarker_of_head?_ne fun d hd => ?_
    obtain rfl : c = d := by simpa using hd
    rintro rfl
    exact absurd hc (by decide)
  have hlead : run isBlank (c :: (b ++ s)) = (c :: b, s) :=
    run_eq_iff.2 ⟨rfl, List.forall_mem_cons.2 ⟨hc, hb⟩, h₁⟩
  have hbase : run? isTypeRun s = none := by
    have : run isTypeRun s = ([], s) := run_eq_iff.2 ⟨rfl, List.forall_mem_nil _, h₂⟩
    rw [run?, this, if_pos rfl]
  simp only [read?, hmark, hlead, hbase]
  rfl

theorem scan_blank_append (hb : ∀ c ∈ b, isBlank c = true) (h₁ : Stops isBlank s)
    (h₂ : Stops isTypeRun s) : reader.scan (b ++ s) = reader.scan s := by
  induction b with
  | nil => rfl
  | cons c b ih =>
    obtain ⟨hc, hb⟩ := List.forall_mem_cons.1 hb
    rw [List.cons_append, Reader.scan_cons_of_none (read?_blank_append hc hb h₁ h₂), ih hb]

theorem stops_text_of_marked (hm : w.marked = true) {p : Char → Bool} (hp : p '[' = false) :
    Stops p (w.text ++ r) := by
  rw [text, hm, markerText, if_pos rfl, marker_eq_cons]
  simpa using hp

/-- The blanks of a line belong to a field without a marker; one with a marker starts behind them. -/
theorem scan_line (h : l.Valid) (r : List Char) :
    ∃ w, ofWritten w = l.field ∧ reader.scan (l.text ++ r) = w :: reader.scan r := by
  cases hm : l.written.marked with
  | true =>
    refine ⟨l.written, rfl, ?_⟩
    rw [Line.text, List.append_assoc, scan_blank_append h.indent
      (stops_text_of_marked hm (by decide)) (stops_text_of_marked hm (by decide +kernel))]
    exact Reader.scan_of_read? (read?_text h.written)
  | false =>
    refine ⟨{ l.written with lead := l.indent ++ l.written.lead }, rfl, ?_⟩
    have ht : l.text = ({ l.written with lead := l.indent ++ l.written.lead } : Written).text := by
      simp [Line.text, text, hm, markerText]
    rw [ht]
    exact Reader.scan_of_read? (read?_text (h.written.indent h.indent))

theorem map_scan_lines {lines : List Line} (hl : ∀ l ∈ lines, l.Valid)
    (hb : ∀ c ∈ b, isBlank c = true) :
    (reader.scan (lines.flatMap Line.text ++ b)).map ofWritten = lines.map Line.field := by
  induction lines with
  | nil =>
    have := scan_blank_append (s := []) hb stops_nil stops_nil
    rw [List.append_nil] at this
    rw [List.flatMap_nil, List.nil_append, this, Reader.scan, List.map_nil, List.map_nil]
  | cons l lines ih =>
    obtain ⟨hl, hlines⟩ := List.forall_mem_cons.1 hl
    obtain ⟨w, hw, hscan⟩ := scan_line hl (lines.flatMap Line.text ++ b)
    rw [List.flatMap_cons, List.append_assoc, hscan, List.map_cons, ih hlines, hw, List.map_cons]

theorem Valid.brace_notMem_text (h : w.Valid) (hv : ∀ v ∈ w.value, '}' ∉ v) : '}' ∉ w.text := by
  have := h.notMem_front_of_notMem_value (c := '}') (by decide) (by decide +kernel) (by decide)
    (by decide) (by decide) hv
  simpa [text_eq_front] using this

end Written

theorem Line.Valid.brace_notMem_text {l : Line} (h : l.Valid) : '}' ∉ l.text := by
  rw [Line.text, List.mem_append, not_or]
  refine ⟨fun hc => ?_, h.written.brace_notMem_text h.value⟩
  have := h.indent _ hc
  exact absurd this (by decide)

end Field

/-! ### Structs -/

namespace Declaration

/-- A struct with its fields line by line, and the text before it. -/
structure Block where
  before : List Char
  gap : List Char
  name : List Char
  tail : List Char
  lines : List Field.Line
  /-- Blanks behind the last field. -/
  last : List Char

namespace Block
variable {b : Block}

def body (b : Block) : List Char :=
  b.lines.flatMap Field.Line.text ++ b.last

def written (b : Block) : Written :=
  ⟨b.gap, b.name, b.tail, b.body⟩

def text (b : Block) : List Char :=
  b.before ++ b.written.text

def fields (b : Block) : List Field :=
  b.lines.map Field.Line.field

def hasMarked (b : Block) : Bool :=
  b.fields.any Field.marked

structure Valid (b : Block) : Prop where
  before : ¬ keyword <:+: b.before
  gap_ne_nil : b.gap ≠ []
  gap : ∀ c ∈ b.gap, isBlank c = true
  name_ne_nil : b.name ≠ []
  name : ∀ c ∈ b.name, isWord c = true
  tail : ∀ c ∈ b.tail, isBlank c = true
  lines_ne_nil : b.lines ≠ []
  line : ∀ l ∈ b.lines, l.Valid
  last : ∀ c ∈ b.last, isBlank c = true

theorem Valid.brace_notMem_body (h : b.Valid) : '}' ∉ b.body := by
  rw [body, List.mem_append, not_or]
  constructor
  · intro hc
    obtain ⟨l, hl, hc⟩ := List.mem_flatMap.1 hc
    exact (h.line l hl).brace_notMem_text hc
  · intro hc
    have := h.last _ hc
    exact absurd this (by decide)

theorem Valid.body_ne_nil (h : b.Valid) : b.body ≠ [] := by
  obtain ⟨l, lines, hl⟩ := List.exists_cons_of_ne_nil h.lines_ne_nil
  have hw := Field.Written.text_ne_nil (h.line l (by simp [hl])).written
  simp [body, hl, Field.Line.text, hw]

theorem Valid.written (h : b.Valid) : b.written.Valid where
  gap_ne_nil := h.gap_ne_nil
  gap := h.gap
  name_ne_nil := h.name_ne_nil
  name := h.name
  tail := h.tail
  body_ne_nil := h.body_ne_nil
  body c hc := by
    rw [bne_iff_ne]
    rintro rfl
    exact h.brace_notMem_body hc

theorem ofBody_body (h : b.Valid) : Field.ofBody (String.ofList b.body) = b.fields := by
  rw [Field.ofBody, String.toList_ofList]
  exact Field.Written.map_scan_lines h.line h.last

end Block

/-- A header: blocks one behind another, and the text behind them. -/
def print (blocks : List Block) (after : List Char) : String :=
  String.ofList (blocks.flatMap Block.text ++ after)

namespace Written
variable {g s : List Char}

theorem keyword_prefix_of_read? {w : Written} {r : List Char} (h : read? s = some (w, r)) :
    keyword <+: s := by
  obtain ⟨-, rfl⟩ := valid_of_read? h
  rw [text, List.append_assoc]
  exact List.prefix_append ..

/-- The keyword does not start in a text without it, even if the keyword follows: no end of the word
is one of its beginnings. -/
theorem not_prefix_append_keyword (hg : ¬ keyword <:+: g) (hne : g ≠ []) :
    ¬ keyword <+: g ++ (keyword ++ s) := by
  rintro ⟨t, h⟩
  rcases List.append_eq_append_iff.1 h with ⟨m, rfl, -⟩ | ⟨m, hm, h⟩
  · exact hg (List.prefix_append ..).isInfix
  · obtain ⟨c, g, rfl⟩ := List.exists_cons_of_ne_nil hne
    cases m with
    | nil =>
      rw [List.append_nil] at hm
      exact hg (hm ▸ List.infix_rfl)
    | cons d m =>
      rw [keyword_eq_cons, List.cons_append, List.cons.injEq] at hm
      rw [keyword_eq_cons, List.cons_append, List.cons_append, List.cons.injEq] at h
      have hmem : 's' ∈ "truct".toList := by rw [hm.2, h.1]; simp
      exact absurd hmem (by decide)

theorem scan_before (hg : ¬ keyword <:+: g) :
    reader.scan (g ++ (keyword ++ s)) = reader.scan (keyword ++ s) := by
  induction g with
  | nil => rfl
  | cons c g ih =>
    have hnone : reader.read? (c :: (g ++ (keyword ++ s))) = none := by
      cases hr : reader.read? (c :: (g ++ (keyword ++ s))) with
      | none => rfl
      | some x =>
        have := keyword_prefix_of_read? hr
        exact absurd this (not_prefix_append_keyword hg (List.cons_ne_nil c g))
    rw [List.cons_append, Reader.scan_cons_of_none hnone]
    exact ih fun h => hg (List.infix_cons h)

theorem scan_block {b : Block} (h : b.Valid) (r : List Char) :
    reader.scan (b.text ++ r) = b.written :: reader.scan r := by
  have ht : b.text ++ r = b.before ++ (b.written.text ++ r) := List.append_assoc ..
  have hk : ∃ s, b.written.text ++ r = keyword ++ s := ⟨_, List.append_assoc ..⟩
  obtain ⟨s, hs⟩ := hk
  rw [ht, hs, scan_before h.before, ← hs]
  exact Reader.scan_of_read? (read?_text h.written)

theorem scan_blocks {blocks : List Block} (hb : ∀ b ∈ blocks, b.Valid) {after : List Char}
    (ha : ¬ keyword <:+: after) :
    reader.scan (blocks.flatMap Block.text ++ after) = blocks.map Block.written := by
  induction blocks with
  | nil =>
    refine Reader.scan_eq_nil_of_not_infix reader_reads (fun w _ => ?_) ha
    exact (List.prefix_append ..).isInfix
  | cons b blocks ih =>
    obtain ⟨hb, hblocks⟩ := List.forall_mem_cons.1 hb
    rw [List.flatMap_cons, List.append_assoc, scan_block hb, ih hblocks, List.map_cons]

end Written

theorem ofText_print {blocks : List Block} (hb : ∀ b ∈ blocks, b.Valid) {after : List Char}
    (ha : ¬ keyword <:+: after) :
    ofText (print blocks after) = blocks.map fun b => ofWritten b.written := by
  rw [ofText, print, String.toList_ofList, Written.scan_blocks hb ha, List.map_map]
  rfl

end Declaration

theorem Description.ofDeclaration_written {b : Declaration.Block} (h : b.Valid) :
    ofDeclaration (Declaration.ofWritten b.written) = ofFields (String.ofList b.name) b.fields := by
  show ofFields _ (Field.ofBody (String.ofList b.body)) = _
  rw [Declaration.Block.ofBody_body h]
  rfl

theorem Description.forall₂_summarizes_ofText_print {blocks : List Declaration.Block}
    {after : List Char} (hb : ∀ b ∈ blocks, b.Valid) (ha : ¬ Declaration.keyword <:+: after) :
    List.Forall₂ (fun b d => d.Summarizes (String.ofList b.name) b.fields)
      (blocks.filter Declaration.Block.hasMarked) (ofText (Declaration.print blocks after)) := by
  have hd : (Declaration.ofText (Declaration.print blocks after)).map Description.ofDeclaration =
      blocks.map fun b => Description.ofFields (String.ofList b.name) b.fields := by
    rw [Declaration.ofText_print hb ha, List.map_map]
    exact List.map_congr_left fun b h => Description.ofDeclaration_written (hb b h)
  have hm : (Description.hasMarked ∘ fun b : Declaration.Block =>
      Description.ofFields (String.ofList b.name) b.fields) = Declaration.Block.hasMarked := by
    funext b
    exact (Description.ofFields_summarizes _ _).hasMarked_eq
  rw [Description.ofText, hd, List.filter_map, hm, List.forall₂_map_right_iff, List.forall₂_same]
  exact fun b _ => Description.ofFields_summarizes _ _

/-- What a printed header is described by: one description for each struct with a marked field, in
order, which has the struct's name, the marked names, and for every name the type that it has last. -/
theorem ofText_print_eq_iff (blocks : List Declaration.Block) (after : List Char)
    (hb : ∀ b ∈ blocks, b.Valid) (ha : ¬ Declaration.keyword <:+: after) (ds : List Description) :
    Description.ofText (Declaration.print blocks after) = ds ↔
      List.Forall₂ (fun b d => d.Summarizes (String.ofList b.name) b.fields)
        (blocks.filter Declaration.Block.hasMarked) ds := by
  have h := Description.forall₂_summarizes_ofText_print hb ha
  have hu : Relator.RightUnique fun (b : Declaration.Block) (d : Description) =>
      d.Summarizes (String.ofList b.name) b.fields := fun _ _ _ hd he => hd.eq he
  constructor
  · rintro rfl
    exact h
  · intro hds
    exact List.right_unique_forall₂' hu h hds

/-- A struct behind a stray brace. Its name, its types and a default value have the keyword in them,
and its first field comes once more, without a marker. -/
def Declaration.Block.crowded : Declaration.Block where
  before := "\x7d struc; ".toList
  gap := " ".toList
  name := "mystruct".toList
  tail := "\n".toList
  lines := [
    ⟨"\n ".toList, true, " ".toList, "struct".toList, some (" ".toList, '*'), "\t".toList,
      "a".toList, [], none⟩,
    ⟨" ".toList, false, [], "struct::t".toList, none, " ".toList, "b".toList, " ".toList,
      some " struct B \x7b int c".toList⟩,
    ⟨[], false, [], "float".toList, none, " ".toList, "a".toList, [], none⟩]
  last := "\n".toList

theorem Declaration.Block.valid_crowded : crowded.Valid where
  before := by decide +kernel
  gap_ne_nil := by decide
  gap := List.all_eq_true.1 (by decide)
  name_ne_nil := by decide
  name := List.all_eq_true.1 (by decide +kernel)
  tail := List.all_eq_true.1 (by decide)
  lines_ne_nil h := by cases h
  line := by
    refine List.forall_mem_cons.2 ⟨?_, List.forall_mem_cons.2 ⟨?_, List.forall_mem_singleton.2 ?_⟩⟩
    all_goals
      refine ⟨List.all_eq_true.1 (by decide), ?_, by decide⟩
      exact {
        lead := List.all_eq_true.1 (by decide)
        base_ne_nil := by decide
        base := List.all_eq_true.1 (by decide +kernel)
        pointer := by
          rintro p ⟨⟩ <;> exact ⟨List.all_eq_true.1 (by decide), by decide⟩
        gap_ne_nil := by decide
        gap := List.all_eq_true.1 (by decide)
        name_ne_nil := by decide
        name := List.all_eq_true.1 (by decide +kernel)
        tail := List.all_eq_true.1 (by decide)
        value := by
          rintro v ⟨⟩ <;> exact ⟨by decide, List.all_eq_true.1 (by decide)⟩ }
  last := List.all_eq_true.1 (by decide)

theorem ofText_print_crowded :
    (∀ b ∈ [Declaration.Block.crowded], b.Valid) ∧ ¬ Declaration.keyword <:+: "\x7d;".toList ∧
    ∃ d, Description.ofText (Declaration.print [.crowded] "\x7d;".toList) = [d] ∧
      d.name = "mystruct" ∧ d.marked = ["a"] ∧ d.types.keys = ["a", "b"] ∧
      d.types.get? "a" = some "float" := by
  have hb : ∀ b ∈ [Declaration.Block.crowded], b.Valid :=
    List.forall_mem_singleton.2 Declaration.Block.valid_crowded
  have ha : ¬ Declaration.keyword <:+: "\x7d;".toList := by decide +kernel
  have h := (ofText_print_eq_iff [.crowded] "\x7d;".toList hb ha _).1 rfl
  have hm : [Declaration.Block.crowded].filter Declaration.Block.hasMarked = [.crowded] := rfl
  rw [hm] at h
  generalize Description.ofText (Declaration.print [.crowded] "\x7d;".toList) = ds at h
  cases h with
  | cons hd hnil =>
    cases hnil
    refine ⟨hb, ha, _, rfl, hd.name, hd.marked, hd.keys.trans ?_, (hd.get? "a").trans ?_⟩
    · rfl
    · rfl

end HeaderMeta
