import HeaderMeta.Proofs.Occurrences
import HeaderMeta.Proofs.Sound
import HeaderMeta.Proofs.Summary

/-!
# Every marked field has a marker of its own

The marked names of all descriptions of a text are the names of its `Field.sites`: the marked fields of
each struct's body, struct by struct. The bodies stand one behind another in the text and the fields one
behind another in a body, so the sites stand at offsets that increase (`Field.pairwise_offset_sites`),
and at each of them stands a marker, with the type and the name of the field behind it
(`Field.markedAt_of_mem_sites`). What is recorded of a field later on, or dropped with its struct, takes
no marker from another one, so there are no more marked names than markers
(`flatMap_marked_behind_markers`).
-/

namespace HeaderMeta

open Text

/-- What stands between the start of a struct and its body. -/
def Declaration.Written.opening (w : Declaration.Written) : List Char :=
  keyword ++ (w.gap ++ (w.name ++ (w.tail ++ ['{'])))

theorem Declaration.Written.text_eq_opening (w : Declaration.Written) :
    w.text = w.opening ++ (w.body ++ closing) := by
  simp [text, opening]

namespace Field
variable {t : List Char} {p : Found Declaration.Written × Found Written}

/-- The marker stands at the offset `n`. Behind it, with blanks before and between, stand a type and the
whole of a name. -/
def MarkedAt (t : List Char) (n : Nat) (name : String) : Prop :=
  ∃ u lead type gap r, t = u ++ (marker ++ (lead ++ (type.toList ++ (gap ++ (name.toList ++ r))))) ∧
    size u = n ∧ allBlank lead = true ∧ IsType type ∧ gap ≠ [] ∧ allBlank gap = true ∧ Stops isWord r

/-- The marked fields in the body of a struct, each with the struct. -/
def sitesIn (f : Found Declaration.Written) : List (Found Declaration.Written × Found Written) :=
  ((Written.reader.trail f.item.body).filter fun g => g.item.marked).map fun g => (f, g)

/-- The marked fields of a text. -/
def sites (t : List Char) : List (Found Declaration.Written × Found Written) :=
  (Declaration.Written.reader.trail t).flatMap sitesIn

/-- The offset in the text at which a field in the body of a struct starts. -/
def offset (t : List Char) (p : Found Declaration.Written × Found Written) : Nat :=
  p.1.start t + size p.1.item.opening + p.2.start p.1.item.body

/-- The name of a field in the body of a struct. -/
def siteName (p : Found Declaration.Written × Found Written) : String :=
  String.ofList p.2.item.name

theorem mem_sitesIn_iff {f : Found Declaration.Written} : p ∈ sitesIn f ↔
    p.1 = f ∧ p.2 ∈ Written.reader.trail p.1.item.body ∧ p.2.item.marked = true := by
  rw [sitesIn, List.mem_map]
  constructor
  · rintro ⟨g, hg, rfl⟩
    exact ⟨rfl, List.mem_filter.1 hg⟩
  · rintro ⟨rfl, hg⟩
    exact ⟨p.2, List.mem_filter.2 hg, rfl⟩

theorem mem_sites_iff : p ∈ sites t ↔ p.1 ∈ Declaration.Written.reader.trail t ∧
    p.2 ∈ Written.reader.trail p.1.item.body ∧ p.2.item.marked = true := by
  rw [sites, List.mem_flatMap]
  constructor
  · rintro ⟨f, hf, h⟩
    obtain ⟨rfl, hg⟩ := mem_sitesIn_iff.1 h
    exact ⟨hf, hg⟩
  · rintro ⟨hf, hg⟩
    exact ⟨p.1, hf, mem_sitesIn_iff.2 ⟨rfl, hg⟩⟩

theorem markedAt_of_mem_sites (h : p ∈ sites t) : MarkedAt t (offset t p) (siteName p) := by
  obtain ⟨f, g⟩ := p
  obtain ⟨hf, hg, hm⟩ := mem_sites_iff.1 h
  obtain ⟨-, u, r, ht, hu, -⟩ := Reader.span_of_mem_trail Declaration.Written.reader_reads hf
  obtain ⟨hv, v, s, hb, hv', -⟩ := Reader.span_of_mem_trail Written.reader_reads hg
  have hg : g.item.Valid := hv
  have htext : g.item.text = marker ++ (g.item.lead ++ (g.item.type ++ g.item.closing)) := by
    rw [Written.text_eq_opening, Written.opening, hm, Written.markerText, if_pos rfl, List.append_assoc]
  refine ⟨u ++ (f.item.opening ++ v), g.item.lead, String.ofList g.item.type, g.item.gap,
    g.item.tail ++ (Written.endingText g.item.value ++ (s ++ (Declaration.closing ++ r))), ?_, ?_,
    List.all_eq_true.2 hg.lead, hg.isType, hg.gap_ne_nil, List.all_eq_true.2 hg.gap, ?_⟩
  · rw [ht, Declaration.Written.shape_text, Declaration.Written.text_eq_opening, hb, Written.shape_text,
      htext]
    simp [Written.closing, siteName]
  · rw [size_append, size_append, hu, hv', offset, Nat.add_assoc]
  · exact stops_append_of_stops (fun c hc => isWord_of_isBlank (hg.tail c hc))
      (Written.Valid.stops_ending (by decide +kernel) (by decide +kernel) _)

/-- A field ends in the body that it stands in, so before the end of the struct. -/
theorem offset_lt_stop (h : p ∈ sites t) : offset t p < p.1.stop t := by
  obtain ⟨hf, hg, -⟩ := mem_sites_iff.1 h
  have hlt := Reader.start_lt_stop Written.reader_reads hg
  have hle : p.2.stop p.1.item.body ≤ size p.1.item.body := Nat.sub_le ..
  have hstop := (Reader.span_of_mem_trail Declaration.Written.reader_reads hf).stop_eq_add
  rw [Declaration.Written.shape_text, Declaration.Written.text_eq_opening, size_append, size_append]
    at hstop
  rw [offset]
  omega

theorem start_le_offset : p.1.start t ≤ offset t p := by
  rw [offset, Nat.add_assoc]
  exact Nat.le_add_right ..

theorem pairwise_offset_sites (t : List Char) : ((sites t).map (offset t)).Pairwise (· < ·) := by
  rw [List.pairwise_map, sites, List.pairwise_flatMap]
  constructor
  · intro f _
    rw [sitesIn, List.pairwise_map]
    refine ((Reader.pairwise_stop_le_start Written.reader_reads).filter _).imp_of_mem ?_
    intro g g' hg _ hle
    have hlt := Reader.start_lt_stop Written.reader_reads (List.mem_of_mem_filter hg)
    simp only [offset]
    omega
  · -- a field of one struct comes before the end of that struct, one of the next behind its start
    refine (Reader.pairwise_stop_le_start Declaration.Written.reader_reads).imp_of_mem ?_
    intro f f' hf _ hle x hx y hy
    obtain ⟨rfl, hg⟩ := mem_sitesIn_iff.1 hx
    obtain ⟨rfl, -⟩ := mem_sitesIn_iff.1 hy
    calc offset t x < x.1.stop t := offset_lt_stop (mem_sites_iff.2 ⟨hf, hg⟩)
      _ ≤ y.1.start t := hle
      _ ≤ offset t y := start_le_offset

end Field

namespace Description

theorem marked_ofDeclaration (f : Found Declaration.Written) :
    (ofDeclaration (.ofWritten f.item)).marked = (Field.sitesIn f).map Field.siteName := by
  have hbody : Field.ofBody (String.ofList f.item.body) =
      (Field.Written.reader.trail f.item.body).map (Field.ofWritten ∘ Found.item) := by
    rw [Field.ofBody, String.toList_ofList, ← Reader.map_item_trail, List.map_map]
  calc (ofDeclaration (.ofWritten f.item)).marked
      = ((Field.ofBody (String.ofList f.item.body)).filter Field.marked).map Field.name :=
        (ofFields_summarizes ..).marked
    _ = (Field.sitesIn f).map Field.siteName := by
        rw [hbody, List.filter_map, List.map_map, Field.sitesIn, List.map_map]
        rfl

/-- The marked names of all descriptions are those of the sites, in order. -/
theorem flatMap_marked_eq (text : String) :
    (ofText text).flatMap marked = (Field.sites text.toList).map Field.siteName := by
  rw [flatMap_marked_ofText, Declaration.ofText, ← Reader.map_item_trail, List.map_map, List.flatMap_map,
    Field.sites, List.map_flatMap]
  exact List.flatMap_congr fun f _ => marked_ofDeclaration f

/-- The marked names of a text, those of all its descriptions in order, stand behind markers of the text at
offsets that increase, each with a type before it. So they are no more than the markers, and a text
without a marker has no description. -/
theorem flatMap_marked_behind_markers (text : String) :
    (∃ places : List Nat, places.Pairwise (· < ·) ∧
      List.Forall₂ (Field.MarkedAt text.toList) places ((ofText text).flatMap marked)) ∧
    ((ofText text).flatMap marked).length ≤ occurrences Field.marker text.toList ∧
    (¬ Field.marker <:+: text.toList → ofText text = []) := by
  set t := text.toList
  have hplace : ∀ n ∈ (Field.sites t).map (Field.offset t),
      ∃ u r, t = u ++ (Field.marker ++ r) ∧ size u = n := by
    intro n hn
    obtain ⟨p, hp, rfl⟩ := List.mem_map.1 hn
    obtain ⟨u, lead, type, gap, r, ht, hu, -⟩ := Field.markedAt_of_mem_sites hp
    exact ⟨u, _, ht, hu⟩
  rw [flatMap_marked_eq]
  refine ⟨⟨(Field.sites t).map (Field.offset t), Field.pairwise_offset_sites t, ?_⟩, ?_, fun h => ?_⟩
  · rw [List.forall₂_map_left_iff, List.forall₂_map_right_iff, List.forall₂_same]
    exact fun p => Field.markedAt_of_mem_sites
  · have hle := length_le_occurrences ((Field.pairwise_offset_sites t).imp Nat.ne_of_lt) hplace
    rwa [List.length_map] at hle ⊢
  · by_contra hne
    obtain ⟨d, hd⟩ := List.exists_mem_of_ne_nil _ hne
    obtain ⟨name, hname⟩ := List.exists_mem_of_ne_nil _ (sound_of_mem_ofText hd).marked_ne_nil
    have hmem : name ∈ (ofText text).flatMap marked := List.mem_flatMap.2 ⟨d, hd, hname⟩
    rw [flatMap_marked_eq] at hmem
    obtain ⟨p, hp, -⟩ := List.mem_map.1 hmem
    obtain ⟨u, r, ht, -⟩ := hplace _ (List.mem_map_of_mem hp)
    exact h ⟨u, r, by rw [List.append_assoc]; exact ht.symm⟩

/-- Not a marker, as it has a blank in it. -/
theorem flatMap_marked_behind_markers_unmarked :
    ¬ Field.marker <:+: "struct A { [[Serialize ]] int x; };".toList ∧
    Declaration.ofText "struct A { [[Serialize ]] int x; };" ≠ [] ∧
    ofText "struct A { [[Serialize ]] int x; };" = [] := by
  have h : ¬ Field.marker <:+: "struct A { [[Serialize ]] int x; };".toList := by decide +kernel
  exact ⟨h, by decide +kernel, (flatMap_marked_behind_markers _).2.2 h⟩

/-- Of four markers two are lost. The name that is marked twice has two of its own. -/
example : (ofText "struct A { [[Serialize]] unsigned int x; [[Serialize]] T y; [[Serialize]] T* y; }; [[Serialize]] int z;").flatMap
    marked = ["y", "y"] := by
  decide +kernel

end Description

end HeaderMeta
