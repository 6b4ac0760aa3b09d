import HeaderMeta.Proofs.FieldSpans
import HeaderMeta.Proofs.OffsetReads

/-!
# A field can be read in one way

At a place of a text a field is written in at most one way: where the marker stands it belongs to the field,
the run of the type is as long as it can be, and blanks behind it belong to the type exactly if the mark of a
pointer follows them. So an attempt that tries one way after the other finds the field that is written there
or nothing, in whatever order it tries them (`atOffset_unambiguous`).
-/

namespace HeaderMeta

open Text

namespace Text
variable {α β : Type} {text : List Char} {n : Nat}

/-- The offset of a place, by what stands behind it. -/
theorem Place.size_sub_size_after (p : Place text) : size text - size p.after = p.offset := by
  have := p.offset_add_size_after
  omega

theorem Agrees.yields {m : Cutting (Option (β × Nat))} {o : Option (β × List Char)} (h : Agrees text m o) :
    Yields m (o.map fun (b, r) => (b, size text - size r)) := by
  match o, h with
  | none, h => exact h
  | some (b, r), ⟨q, hq, h⟩ =>
    subst hq
    rw [Option.map_some]
    simpa only [q.size_sub_size_after] using h

/-- What is written at a place ends at another one. -/
theorem Shape.span_iff_exists {S : Shape α} {a : α} (p : Place text) :
    S.Span text p.offset n a ↔
      S.Valid a ∧ ∃ q : Place text, p.after = S.text a ++ q.after ∧ q.offset = n := by
  constructor
  · rintro ⟨ha, u, r, he, hu, rfl⟩
    obtain ⟨rfl, hr⟩ := append_inj_of_size (he.symm.trans p.before_append_after.symm) hu
    refine ⟨ha, p.advance hr, hr.symm, ?_⟩
    rw [Place.offset_advance, size_append]
    rfl
  · rintro ⟨ha, q, hq, rfl⟩
    refine ⟨ha, p.before, q.after, ?_, rfl, ?_⟩
    · rw [← hq, p.before_append_after]
    · rw [← Place.before_eq_of_after hq]
      rfl

end Text

namespace Field
variable {text : List Char} {w : Written} {f : Field} {n : Nat}

namespace Written

theorem span_iff_read? (p : Place text) :
    shape.Span text p.offset n w ↔ ∃ q : Place text, read? p.after = some (w, q.after) ∧ q.offset = n := by
  simp only [Shape.span_iff_exists, read?_eq_some_iff, ← exists_and_left, and_assoc]
  rfl

/-- The run of the type is as long as it can be. -/
theorem exists_run_base (p : Place text) (h : shape.Span text p.offset n w) :
    ∃ s, p.after = w.opening ++ s ∧ (run isTypeRun s).1 = w.base := by
  obtain ⟨hw, q, hq, -⟩ := (Shape.span_iff_exists p).1 h
  rw [shape_text, text_eq_opening, List.append_assoc] at hq
  refine ⟨_, hq, ?_⟩
  have hrun : run isTypeRun (w.base ++ (pointerText w.pointer ++ (w.closing ++ q.after))) = _ :=
    run_eq_iff.2 ⟨rfl, hw.base, by rw [closing, List.append_assoc]; exact hw.stops_pointer⟩
  rw [type, List.append_assoc, List.append_assoc, hrun]

end Written

/-- The field that is read at a place, and the offset behind it. -/
def readAt? (p : Place text) : Option (Field × Nat) :=
  (Written.read? p.after).map fun (w, r) => (ofWritten w, size text - size r)

theorem readAt?_eq_some_iff (p : Place text) :
    readAt? p = some (f, n) ↔ ∃ w, Written.shape.Span text p.offset n w ∧ ofWritten w = f := by
  rw [readAt?, Option.map_eq_some_iff]
  constructor
  · rintro ⟨⟨w, r⟩, hread, he⟩
    obtain ⟨rfl, rfl⟩ := Prod.mk.inj he
    have happend := (Written.read?_eq_some_iff.1 hread).2.symm
    exact ⟨w, (Written.span_iff_read? p).2 ⟨p.advance happend, hread,
      (p.advance happend).size_sub_size_after.symm⟩, rfl⟩
  · rintro ⟨w, hw, rfl⟩
    obtain ⟨q, hread, rfl⟩ := (Written.span_iff_read? p).1 hw
    exact ⟨(w, q.after), hread, by simp only [q.size_sub_size_after]⟩

theorem inOrder_yields (marks : Reordering Bool) (ends : Bool → Reordering Nat) (p : Place text) :
    Yields (inOrder marks ends text p.offset) (readAt? p) := by
  have hyields := (inOrder_agrees marks ends p).yields
  rwa [Option.map_map] at hyields

/-- At a place a field is read in at most one way, with the longest run of a type and with no blank at the ends
of the type. An attempt finds it, with the offset behind it, exactly if there is one, and so it does in every
order of the ways to read one: without the marker nothing is found where the marker stands. -/
theorem atOffset_unambiguous (p : Place text) :
    (∀ v w m n, Written.shape.Span text p.offset m v → Written.shape.Span text p.offset n w →
      v = w ∧ m = n) ∧
    (∀ w n, Written.shape.Span text p.offset n w →
      (∃ s, p.after = w.opening ++ s ∧ (run isTypeRun s).1 = w.base) ∧ trimmed w.type = w.type) ∧
    (∀ f n, readAt? p = some (f, n) ↔ ∃ w, Written.shape.Span text p.offset n w ∧ ofWritten w = f) ∧
    Yields (atOffset text p.offset) (readAt? p) ∧
    (∀ marks ends, Yields (inOrder marks ends text p.offset) (readAt? p)) ∧
    ∀ ends, marker <+: p.after → Yields (markedInOrder ends text p.offset false) none := by
  refine ⟨fun v w m n hv hw => ?_, fun w n hw => ⟨?_, ?_⟩, fun f n => readAt?_eq_some_iff p, ?_,
    fun marks ends => inOrder_yields marks ends p, fun ends hmarker => ?_⟩
  · obtain ⟨hstop, hsame⟩ := Written.reader_reads.span_eq hv hw
    exact ⟨hsame, hstop⟩
  · exact Written.exists_run_base p hw
  · have hvalid : w.Valid := hw.valid
    exact trimmed_type hvalid.isType
  · rw [← inOrder_same]
    exact inOrder_yields .same (fun _ => .same) p
  · obtain ⟨r, hr⟩ := hmarker
    exact markedInOrder_yields_none ends (after?_eq_some_iff.2 hr.symm)

/-- Without the marker first, and without the mark of a pointer first. -/
example :
    let ρ {α : Type} : Reordering α := ⟨List.reverse, List.mem_reverse⟩
    ((inOrder ρ (fun _ => ρ) "[[Serialize]] Node * p = 0;".toList 0).run []).map (·.1) =
      some (some (⟨"p", "Node *", true⟩, 27)) := by
  decide +kernel

end Field

end HeaderMeta
