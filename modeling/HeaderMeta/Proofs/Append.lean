import HeaderMeta.Description
import HeaderMeta.Proofs.DeclarationSpans
import HeaderMeta.Proofs.FieldSpans

/-!
# Texts put together

What a scan finds in `u ++ v` begins with what it finds in `u` (`Reader.scan_prefix_scan_append`). The
scan of `u` passes over an item that starts in `u` and goes on in `v`, and looks at what stands inside;
but all that ends there would have to end where that item ends, so nothing was found in its place.

If no item goes on behind `u` at all, `u` and `v` are scanned each for itself
(`Reader.scan_append_of_closed`). Such a `u` is `S.Closed`; a text that ends with the landmark of a
shape always is, so a header may be cut behind any `};`, and a body behind any `;`.
-/

namespace HeaderMeta.Text

variable {α : Type}

namespace Shape
variable {S : Shape α} {u v : List Char} {k : Char} {z : List Char}

/-- No item starts in `u` and goes on behind it, whatever follows. -/
def Closed (S : Shape α) (u : List Char) : Prop :=
  ∀ ⦃a : α⦄ ⦃x y : List Char⦄, S.Valid a → S.text a = x ++ y → x ≠ [] → x <:+ u → y = []

theorem Closed.of_suffix (hu : S.Closed u) (h : v <:+ u) : S.Closed v :=
  fun _ _ _ ha hxy hx hxv => hu ha hxy hx (hxv.trans h)

/-- An item has its landmark at the end only. -/
theorem Landmark.eq_nil_of_text_eq (hS : S.Landmark k z) {a : α} (ha : S.Valid a) {l y : List Char}
    (h : S.text a = l ++ k :: (z ++ y)) : y = [] := by
  obtain ⟨f, hf, hkf⟩ := hS.text a ha
  rw [hf] at h
  rcases List.append_eq_append_iff.1 h with ⟨m, -, hm⟩ | ⟨m, rfl, hm⟩
  · have := congrArg List.length hm
    simp only [List.length_append, List.length_cons] at this
    exact List.eq_nil_of_length_eq_zero (by omega)
  · cases m with
    | nil => simpa using hm
    | cons d m =>
      rw [List.cons_append, List.cons.injEq] at hm
      exact absurd (by simp [hm.1]) hkf

theorem Landmark.closed (hS : S.Landmark k z) (u : List Char) : S.Closed (u ++ k :: z) := by
  intro a x y ha hxy hx hxu
  rcases List.suffix_or_suffix_of_suffix hxu (List.suffix_append u (k :: z)) with h | ⟨l, rfl⟩
  · rcases List.suffix_cons_iff.1 h with rfl | h
    · exact hS.eq_nil_of_text_eq ha (l := []) hxy
    · -- the item would start behind the first character of the landmark
      obtain ⟨c, x, rfl⟩ := List.exists_cons_of_ne_nil hx
      exact absurd (h.subset (List.mem_cons_self ..)) (hS.head a ha c (by simp [hxy]))
  · exact hS.eq_nil_of_text_eq ha (by simpa using hxy)

end Shape

namespace Reader
variable {R : Reader α} {S : Shape α} {s r u v : List Char} {a b : α}

section
variable (hR : R.Reads S)
include hR

theorem read?_append_of_read? (h : R.read? s = some (a, r)) (v : List Char) :
    R.read? (s ++ v) = some (a, r ++ v) := by
  obtain ⟨ha, rfl⟩ := hR.1 h
  exact hR.2 ⟨ha, by rw [List.append_assoc]⟩

/-- What can be read only with `v` behind it goes on in `v`. -/
theorem exists_text_eq_of_read?_append (hs : R.read? s = none) (h : R.read? (s ++ v) = some (b, r)) :
    S.Valid b ∧ ∃ y, y ≠ [] ∧ S.text b = s ++ y := by
  obtain ⟨hb, he⟩ := hR.1 h
  refine ⟨hb, ?_⟩
  have hread : ∀ x, s ≠ S.text b ++ x := by
    intro x hx
    rw [hR.2 ⟨hb, hx⟩] at hs
    cases hs
  rcases List.append_eq_append_iff.1 he with ⟨y, hy, -⟩ | ⟨x, hx, -⟩
  · refine ⟨y, ?_, hy⟩
    rintro rfl
    exact hread [] (by simpa using hy.symm)
  · exact absurd hx (hread x)

theorem scan_append_of_closed (hu : S.Closed u) (v : List Char) :
    R.scan (u ++ v) = R.scan u ++ R.scan v := by
  induction u using R.scan_induction with
  | nil => simp [scan]
  | read s a r h ih =>
    obtain ⟨-, rfl⟩ := hR.1 h
    rw [scan_of_read? (read?_append_of_read? hR h v), scan_of_read? h,
      ih (hu.of_suffix (List.suffix_append ..)), List.cons_append]
  | skip c s h ih =>
    have hv : R.read? (c :: s ++ v) = none := by
      cases hb : R.read? (c :: s ++ v) with
      | none => rfl
      | some x =>
        obtain ⟨hx, y, hy, he⟩ := exists_text_eq_of_read?_append hR h hb
        exact absurd (hu hx he (List.cons_ne_nil c s) List.suffix_rfl) hy
    rw [List.cons_append] at hv ⊢
    rw [scan_cons_of_none hv, scan_cons_of_none h, ih (hu.of_suffix (List.suffix_cons c s))]

/-- Inside an item that goes on behind `s` nothing is found. -/
theorem scan_eq_nil_of_text_eq (hS : S.EndsTogether) (hb : S.Valid b) {c : Char} {y : List Char}
    (hy : y ≠ []) (he : S.text b = c :: s ++ y) : R.scan s = [] := by
  by_contra hne
  rw [← map_item_trail, List.map_eq_nil_iff] at hne
  obtain ⟨f, hf⟩ := List.exists_mem_of_ne_nil _ hne
  obtain ⟨ha, hh, x, rfl⟩ := here_eq_of_mem_trail hR hf
  rw [hh] at he
  have hrest : [] = f.rest ++ y := by
    refine hS (x := c :: x) (y := S.text f.item ++ (f.rest ++ y)) hb ha ?_ ?_ ?_
    · rw [he]; simp
    · simp [hR.text_ne_nil ha]
    · rw [List.append_nil]
  exact hy (List.append_eq_nil_iff.1 hrest.symm).2

theorem scan_prefix_scan_append (hS : S.EndsTogether) (u v : List Char) :
    R.scan u <+: R.scan (u ++ v) := by
  induction u using R.scan_induction with
  | nil => simp [scan]
  | read s a r h ih =>
    rw [scan_of_read? (read?_append_of_read? hR h v), scan_of_read? h]
    exact (List.prefix_cons_inj a).2 ih
  | skip c s h ih =>
    rw [scan_cons_of_none h]
    cases hb : R.read? (c :: s ++ v) with
    | none =>
      rw [List.cons_append] at hb ⊢
      rwa [scan_cons_of_none hb]
    | some x =>
      -- what is read here goes on in `v`: the scan of `u` was inside it and found nothing
      obtain ⟨hx, y, hy, he⟩ := exists_text_eq_of_read?_append hR h hb
      rw [scan_eq_nil_of_text_eq hR hS hx hy he]
      exact List.nil_prefix

end

end Reader

end HeaderMeta.Text

namespace HeaderMeta

open Text

theorem Declaration.ofText_prefix (u v : String) : ofText u <+: ofText (u ++ v) := by
  rw [ofText, ofText, String.toList_append]
  exact (Reader.scan_prefix_scan_append Written.reader_reads Written.endsTogether _ _).map ofWritten

theorem Declaration.ofText_append_of_suffix {u : String} (h : Declaration.closing <:+ u.toList)
    (v : String) : ofText (u ++ v) = ofText u ++ ofText v := by
  obtain ⟨x, hx⟩ := h
  have hu : Written.shape.Closed u.toList := hx ▸ Written.landmark.closed x
  rw [ofText, String.toList_append, Reader.scan_append_of_closed Written.reader_reads hu,
    List.map_append]
  rfl

theorem Description.ofText_prefix (u v : String) : ofText u <+: ofText (u ++ v) :=
  ((Declaration.ofText_prefix u v).map ofDeclaration).filter hasMarked

theorem Description.ofText_append_of_suffix {u : String} (h : Declaration.closing <:+ u.toList)
    (v : String) : ofText (u ++ v) = ofText u ++ ofText v := by
  rw [ofText, Declaration.ofText_append_of_suffix h, List.map_append, List.filter_append]
  rfl

theorem Field.ofBody_prefix (a b : String) : ofBody a <+: ofBody (a ++ b) := by
  rw [ofBody, ofBody, String.toList_append]
  exact (Reader.scan_prefix_scan_append Written.reader_reads Written.endsTogether _ _).map ofWritten

theorem Field.ofBody_append_semicolon (a b : String) :
    ofBody (a ++ ";" ++ b) = ofBody (a ++ ";") ++ ofBody b := by
  have ha : Written.shape.Closed (a ++ ";").toList := by
    rw [String.toList_append]
    exact Written.landmark.closed a.toList
  rw [ofBody, String.toList_append, Reader.scan_append_of_closed Written.reader_reads ha,
    List.map_append]
  rfl

/-- More text behind a header takes back none of its structs, and more text behind a body none of its
fields. A header that is closed by `\x7d;` and the text behind it give their structs each for itself,
and so do a body that is closed by `;` and what follows it. -/
theorem scans_incremental :
    (∀ u v : String, Declaration.ofText u <+: Declaration.ofText (u ++ v) ∧
      Description.ofText u <+: Description.ofText (u ++ v)) ∧
    (∀ u v : String, Description.ofText (u ++ "\x7d;" ++ v) =
      Description.ofText (u ++ "\x7d;") ++ Description.ofText v) ∧
    (∀ a b : String, Field.ofBody a <+: Field.ofBody (a ++ b)) ∧
    ∀ a b : String, Field.ofBody (a ++ ";" ++ b) = Field.ofBody (a ++ ";") ++ Field.ofBody b := by
  refine ⟨fun u v => ?_, fun u v => ?_, fun a b => ?_, fun a b => ?_⟩
  · exact ⟨Declaration.ofText_prefix u v, Description.ofText_prefix u v⟩
  · apply Description.ofText_append_of_suffix
    rw [String.toList_append]
    exact List.suffix_append u.toList Declaration.closing
  · exact Field.ofBody_prefix a b
  · exact Field.ofBody_append_semicolon a b

end HeaderMeta
