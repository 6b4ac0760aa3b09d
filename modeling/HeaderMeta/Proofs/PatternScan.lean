import HeaderMeta.Proofs.DeclarationSpans
import HeaderMeta.Proofs.FieldSpans
import HeaderMeta.Proofs.Pattern

/-!
# The scans agree with two patterns

`Declaration.pattern` and `Field.pattern` are the regular expressions for structs and for fields. A
backtracking matcher has many choices in them: how far a run of blanks or of a name goes, whether
the blanks before a pointer mark belong to the type, how the blanks behind `=` are shared out. The
readers make none of these choices. `denotes_pattern_iff` says what each pattern matches, which is
what the readers read; hence all choices but one lead to nothing or to the same match, and the
matches of a whole text are its structs, those of a body its fields (`scans_eq_findAll`).
-/

namespace HeaderMeta

open Text Pattern

namespace Declaration

/-- The pattern `struct\s+(\w+)\s*\{([^}]+)\};`. -/
def pattern : Pattern :=
  .all [.lit "struct".toList, .plus (.char isBlank), .group 1 (.plus (.char isWord)),
    .star (.char isBlank), .lit ['{'], .group 2 (.plus (.char (· != '}'))), .lit ['}', ';']]

theorem denotes_pattern_iff (t : List Char) (g : List (Nat × List Char)) :
    pattern.Denotes t g ↔
      ∃ w, Written.shape.Valid w ∧ t = Written.shape.text w ∧ g = [(2, w.body), (1, w.name)] := by
  constructor
  · intro h
    obtain ⟨_, rfl, h₁⟩ := denotes_lit_cons_iff.1 h
    obtain ⟨gap, _, rfl, hgne, hg, h₂⟩ := denotes_plus_cons_iff.1 h₁
    obtain ⟨name, _, _, rfl, rfl, hnne, hn, h₃⟩ := denotes_group_plus_cons_iff.1 h₂
    obtain ⟨tail, _, rfl, ht, h₄⟩ := denotes_star_cons_iff.1 h₃
    obtain ⟨_, rfl, h₅⟩ := denotes_lit_cons_iff.1 h₄
    obtain ⟨body, _, _, rfl, rfl, hbne, hb, h₆⟩ := denotes_group_plus_cons_iff.1 h₅
    obtain ⟨_, rfl, h₇⟩ := denotes_lit_cons_iff.1 h₆
    obtain ⟨rfl, rfl⟩ := denotes_all_nil_iff.1 h₇
    exact ⟨⟨gap, name, tail, body⟩, ⟨hgne, hg, hnne, hn, ht, hbne, hb⟩, rfl, rfl⟩
  · rintro ⟨w, hw, rfl, rfl⟩
    refine denotes_lit_cons_iff.2 ⟨_, rfl, ?_⟩
    refine denotes_plus_cons_iff.2 ⟨w.gap, _, rfl, hw.gap_ne_nil, hw.gap, ?_⟩
    refine denotes_group_plus_cons_iff.2 ⟨w.name, _, [(2, w.body)], rfl, rfl, hw.name_ne_nil, hw.name, ?_⟩
    refine denotes_star_cons_iff.2 ⟨w.tail, _, rfl, hw.tail, ?_⟩
    refine denotes_lit_cons_iff.2 ⟨_, rfl, ?_⟩
    refine denotes_group_plus_cons_iff.2 ⟨w.body, _, [], rfl, rfl, hw.body_ne_nil, hw.body, ?_⟩
    exact denotes_lit_cons_iff.2 ⟨[], rfl, .nothing⟩

end Declaration

namespace Field

/-- The pattern `(\[\[Serialize\]\])?\s*([\w:<>]+(?:\s*[*&])?)\s+(\w+)\s*(?:=\s*[^;]+)?;`. -/
def pattern : Pattern :=
  .all [.opt (.group 1 (.lit "[[Serialize]]".toList)), .star (.char isBlank),
    .group 2 (.all [.plus (.char isTypeRun), .opt (.all [.star (.char isBlank), .char isPointerMark])]),
    .plus (.char isBlank), .group 3 (.plus (.char isWord)), .star (.char isBlank),
    .opt (.all [.lit ['='], .star (.char isBlank), .plus (.char (· != ';'))]), .lit [';']]

/-- The groups that take part in matching a field. -/
def groups (w : Written) : List (Nat × List Char) :=
  [(3, w.name), (2, w.type)] ++ if w.marked then [(1, marker)] else []

theorem denotes_marker_iff {t : List Char} {g : List (Nat × List Char)} :
    (opt (.group 1 (.lit "[[Serialize]]".toList))).Denotes t g ↔
      ∃ m, t = Written.markerText m ∧ g = if m then [(1, marker)] else [] := by
  rw [denotes_opt_iff, denotes_group_iff]
  constructor
  · rintro (⟨_, rfl, h⟩ | ⟨rfl, rfl⟩)
    · obtain ⟨rfl, rfl⟩ := denotes_lit_iff.1 h
      exact ⟨true, rfl, rfl⟩
    · exact ⟨false, rfl, rfl⟩
  · rintro ⟨m, rfl, rfl⟩
    cases m with
    | true => exact .inl ⟨[], rfl, denotes_lit_iff.2 ⟨rfl, rfl⟩⟩
    | false => exact .inr ⟨rfl, rfl⟩

theorem denotes_pointer_iff {t : List Char} {g : List (Nat × List Char)} :
    (opt (.all [.star (.char isBlank), .char isPointerMark])).Denotes t g ↔
      g = [] ∧ ∃ p, t = Written.pointerText p ∧
        ∀ q ∈ p, (∀ c ∈ q.1, isBlank c = true) ∧ isPointerMark q.2 = true := by
  rw [denotes_opt_iff]
  constructor
  · rintro (h | ⟨rfl, rfl⟩)
    · obtain ⟨b, _, rfl, hb, h₁⟩ := denotes_star_cons_iff.1 h
      obtain ⟨_, _, _, _, rfl, rfl, h₂, h₃⟩ := denotes_all_cons_iff.1 h₁
      obtain ⟨rfl, rfl⟩ := denotes_all_nil_iff.1 h₃
      obtain ⟨m, rfl, rfl, hm⟩ := denotes_char_iff.1 h₂
      exact ⟨rfl, some (b, m), rfl, by simpa using ⟨hb, hm⟩⟩
    · exact ⟨rfl, none, rfl, by simp⟩
  · rintro ⟨rfl, p, rfl, hp⟩
    cases p with
    | none => exact .inr ⟨rfl, rfl⟩
    | some q =>
      obtain ⟨hb, hm⟩ := hp q rfl
      exact .inl (denotes_star_cons_iff.2 ⟨q.1, [q.2], rfl, hb, .seq (.char hm) .nothing⟩)

/-- The blanks behind `=` may be matched before the value or as a part of it. -/
theorem denotes_value_iff {t : List Char} {g : List (Nat × List Char)} :
    (opt (.all [.lit ['='], .star (.char isBlank), .plus (.char (· != ';'))])).Denotes t g ↔
      g = [] ∧ ∃ v, t = Written.valueText v ∧ ∀ u ∈ v, u ≠ [] ∧ ∀ c ∈ u, (c != ';') = true := by
  rw [denotes_opt_iff]
  constructor
  · rintro (h | ⟨rfl, rfl⟩)
    · obtain ⟨_, rfl, h₁⟩ := denotes_lit_cons_iff.1 h
      obtain ⟨b, _, rfl, hb, h₂⟩ := denotes_star_cons_iff.1 h₁
      obtain ⟨u, _, rfl, hne, hu, h₃⟩ := denotes_plus_cons_iff.1 h₂
      obtain ⟨rfl, rfl⟩ := denotes_all_nil_iff.1 h₃
      refine ⟨rfl, some (b ++ u), by simp [Written.valueText], ?_⟩
      rintro _ ⟨⟩
      refine ⟨by simp [hne], List.forall_mem_append.2 ⟨fun c hc => ?_, hu⟩⟩
      have hblank := hb c hc
      rw [bne_iff_ne]
      rintro rfl
      exact absurd hblank (by decide)
    · exact ⟨rfl, none, rfl, by simp⟩
  · rintro ⟨rfl, v, rfl, hv⟩
    cases v with
    | none => exact .inr ⟨rfl, rfl⟩
    | some u =>
      obtain ⟨hne, hu⟩ := hv u rfl
      refine .inl (denotes_lit_cons_iff.2 ⟨u, rfl, ?_⟩)
      refine denotes_star_cons_iff.2 ⟨[], u, rfl, List.forall_mem_nil _, ?_⟩
      exact denotes_plus_cons_iff.2 ⟨u, [], (List.append_nil u).symm, hne, hu, .nothing⟩

theorem denotes_type_iff {t : List Char} {g : List (Nat × List Char)} :
    (group 2 (.all [.plus (.char isTypeRun),
      .opt (.all [.star (.char isBlank), .char isPointerMark])])).Denotes t g ↔
      g = [(2, t)] ∧ ∃ base p, t = base ++ Written.pointerText p ∧ base ≠ [] ∧
        (∀ c ∈ base, isTypeRun c = true) ∧
        ∀ q ∈ p, (∀ c ∈ q.1, isBlank c = true) ∧ isPointerMark q.2 = true := by
  rw [denotes_group_iff]
  constructor
  · rintro ⟨_, rfl, h₁⟩
    obtain ⟨base, _, rfl, hne, hb, h₂⟩ := denotes_plus_cons_iff.1 h₁
    obtain ⟨_, _, _, _, rfl, rfl, h₃, h₄⟩ := denotes_all_cons_iff.1 h₂
    obtain ⟨rfl, rfl⟩ := denotes_all_nil_iff.1 h₄
    obtain ⟨rfl, p, rfl, hp⟩ := denotes_pointer_iff.1 h₃
    exact ⟨rfl, base, p, by rw [List.append_nil], hne, hb, hp⟩
  · rintro ⟨rfl, base, p, rfl, hne, hb, hp⟩
    refine ⟨[], rfl, denotes_plus_cons_iff.2 ⟨base, _, rfl, hne, hb, ?_⟩⟩
    refine denotes_all_cons_iff.2 ⟨_, [], [], [], (List.append_nil _).symm, rfl, ?_, .nothing⟩
    exact denotes_pointer_iff.2 ⟨rfl, p, rfl, hp⟩

theorem denotes_pattern_iff (t : List Char) (g : List (Nat × List Char)) :
    pattern.Denotes t g ↔
      ∃ w, Written.shape.Valid w ∧ t = Written.shape.text w ∧ g = groups w := by
  constructor
  · intro h
    obtain ⟨_, _, _, _, rfl, rfl, h₁, h₂⟩ := denotes_all_cons_iff.1 h
    obtain ⟨m, rfl, rfl⟩ := denotes_marker_iff.1 h₁
    obtain ⟨lead, _, rfl, hl, h₃⟩ := denotes_star_cons_iff.1 h₂
    obtain ⟨_, _, _, _, rfl, rfl, h₄, h₅⟩ := denotes_all_cons_iff.1 h₃
    obtain ⟨rfl, base, p, rfl, hbne, hb, hp⟩ := denotes_type_iff.1 h₄
    obtain ⟨gap, _, rfl, hgne, hg, h₆⟩ := denotes_plus_cons_iff.1 h₅
    obtain ⟨name, _, _, rfl, rfl, hnne, hn, h₇⟩ := denotes_group_plus_cons_iff.1 h₆
    obtain ⟨tail, _, rfl, ht, h₈⟩ := denotes_star_cons_iff.1 h₇
    obtain ⟨_, _, _, _, rfl, rfl, h₉, h₁₀⟩ := denotes_all_cons_iff.1 h₈
    obtain ⟨rfl, v, rfl, hv⟩ := denotes_value_iff.1 h₉
    obtain ⟨_, rfl, h₁₁⟩ := denotes_lit_cons_iff.1 h₁₀
    obtain ⟨rfl, rfl⟩ := denotes_all_nil_iff.1 h₁₁
    refine ⟨⟨m, lead, base, p, gap, name, tail, v⟩,
      ⟨hl, hbne, hb, hp, hgne, hg, hnne, hn, ht, hv⟩, ?_, rfl⟩
    simp [Written.shape, Written.text_eq_front, Written.front, Written.middle]
  · rintro ⟨w, hw, rfl, rfl⟩
    rw [Written.shape_text, Written.text_eq_opening]
    simp only [Written.opening, Written.closing, Written.endingText_eq_append, List.append_assoc]
    refine denotes_all_cons_iff.2 ⟨_, _, _, [(3, w.name), (2, w.type)], rfl, rfl,
      denotes_marker_iff.2 ⟨w.marked, rfl, rfl⟩, ?_⟩
    refine denotes_star_cons_iff.2 ⟨w.lead, _, rfl, hw.lead, ?_⟩
    refine denotes_all_cons_iff.2 ⟨w.type, _, _, [(3, w.name)], rfl, rfl,
      denotes_type_iff.2 ⟨rfl, w.base, w.pointer, rfl, hw.base_ne_nil, hw.base, hw.pointer⟩, ?_⟩
    refine denotes_plus_cons_iff.2 ⟨w.gap, _, rfl, hw.gap_ne_nil, hw.gap, ?_⟩
    refine denotes_group_plus_cons_iff.2 ⟨w.name, _, [], rfl, rfl, hw.name_ne_nil, hw.name, ?_⟩
    refine denotes_star_cons_iff.2 ⟨w.tail, _, rfl, hw.tail, ?_⟩
    refine denotes_all_cons_iff.2 ⟨_, _, _, [], rfl, rfl,
      denotes_value_iff.2 ⟨rfl, w.value, rfl, hw.value⟩, ?_⟩
    exact denotes_lit_cons_iff.2 ⟨[], rfl, .nothing⟩

end Field

/-- The structs of a text are the matches of `Declaration.pattern`, with the name and the body as its
groups 1 and 2, and the fields of a body are the matches of `Field.pattern`, with the marker, the
type and the name as its groups 1, 2 and 3. -/
theorem scans_eq_findAll :
    (∀ text : String, (Declaration.ofText text).map (fun d => (some d.name.toList, some d.body.toList)) =
      (Declaration.pattern.findAll text.toList).map fun m => (m.group? 1, m.group? 2)) ∧
    ∀ body : String, (Field.ofBody body).map (fun f => (f.marked, some f.type.toList, some f.name.toList)) =
      (Field.pattern.findAll body.toList).map fun m =>
        ((m.group? 1).isSome, m.group? 2, m.group? 3) := by
  constructor
  · intro text
    rw [findAll_eq_map_trail Declaration.Written.reader_reads Declaration.denotes_pattern_iff,
      Declaration.ofText, ← Reader.map_item_trail, List.map_map, List.map_map, List.map_map]
    refine List.map_congr_left fun f _ => ?_
    simp [Declaration.ofWritten, Match.group?, List.lookup_cons]
  · intro body
    rw [findAll_eq_map_trail Field.Written.reader_reads Field.denotes_pattern_iff,
      Field.ofBody, ← Reader.map_item_trail, List.map_map, List.map_map, List.map_map]
    refine List.map_congr_left fun f _ => ?_
    cases hm : f.item.marked <;> simp [Field.ofWritten, Field.groups, Match.group?, List.lookup_cons, hm]

end HeaderMeta
