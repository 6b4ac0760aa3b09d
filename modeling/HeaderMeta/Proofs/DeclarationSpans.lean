import HeaderMeta.Declaration
import HeaderMeta.Proofs.Trail

/-!
# Every struct of a text is listed once

`Written.shape.Span` tells where in a text a struct is written. A struct holds one `}`, right before
its final `;`, so structs that overlap have that brace in common and end at the same offset
(`Written.endsTogether`). Hence `Declaration.ofText` gives one struct for each offset where one ends,
and of all that end there it gives the one that starts first (`ofText_leftmost_spans`).
-/

namespace HeaderMeta.Declaration

open Text

namespace Written
variable {w : Written} {c : Char}

/-- The structs as they may be written. -/
def shape : Shape Written where
  Valid := Valid
  text := text

@[simp] theorem shape_text : shape.text w = w.text := rfl

theorem reader_reads : reader.Reads shape :=
  fun _ _ _ => read?_eq_some_iff

/-- All pieces up to the closing brace. -/
def front (w : Written) : List Char :=
  keyword ++ (w.gap ++ (w.name ++ (w.tail ++ ('{' :: w.body))))

theorem keyword_eq_cons : keyword = 's' :: "truct".toList := rfl

theorem text_eq_front : w.text = w.front ++ closing := by
  simp [text, front]

theorem Valid.notMem_front (h : w.Valid) : '}' ∉ w.front := by
  have hblank : isBlank '}' = false := by decide
  have hword : isWord '}' = false := by decide +kernel
  simp only [front, List.mem_append, List.mem_cons, not_or]
  refine ⟨by decide, fun hc => ?_, fun hc => ?_, fun hc => ?_, by decide, fun hc => ?_⟩
  · rw [h.gap _ hc] at hblank; cases hblank
  · rw [h.name _ hc] at hword; cases hword
  · rw [h.tail _ hc] at hblank; cases hblank
  · exact absurd (h.body _ hc) (by decide)

theorem landmark : shape.Landmark '}' [';'] where
  text w hw := ⟨w.front, text_eq_front, Valid.notMem_front hw⟩
  head w _ c hc := by
    rw [shape_text, text, keyword_eq_cons, List.cons_append, List.head?_cons] at hc
    obtain rfl : 's' = c := by simpa using hc
    decide

theorem endsTogether : shape.EndsTogether :=
  landmark.endsTogether

end Written

/-- A struct is written in one way where it starts, and structs that overlap end together. The structs
of a text are, one for each offset where a struct ends and in the order of these offsets, those that
start leftmost. -/
theorem ofText_leftmost_spans (text : String) :
    (∀ i m n v w, Written.shape.Span text.toList i m v → Written.shape.Span text.toList i n w →
      m = n ∧ v = w) ∧
    (∀ i j m n v w, Written.shape.Span text.toList i m v → Written.shape.Span text.toList j n w →
      i < n → j < m → m = n) ∧
    ∃ ends : List Nat, ends.Pairwise (· < ·) ∧
      (∀ n, n ∈ ends ↔ ∃ i w, Written.shape.Span text.toList i n w) ∧
      List.Forall₂ (fun n d => ∃ i w, Written.shape.Leftmost text.toList i n w ∧ d = ofWritten w)
        ends (ofText text) := by
  have hR := Written.reader_reads
  have hS := Written.endsTogether
  refine ⟨fun i m n v w => hR.span_eq, fun i j m n v w hv hw => hv.stop_eq hS hw, ?_⟩
  refine ⟨(Written.reader.trail text.toList).map (Found.stop text.toList),
    Reader.pairwise_stop_lt hR, fun n => ?_, ?_⟩
  · rw [List.mem_map, Reader.exists_stop_eq_iff hR hS]
  · rw [ofText, Reader.forall₂_map_scan_iff]
    intro f hf
    exact ⟨_, _, Reader.leftmost_of_mem_trail hR hS hf, rfl⟩

/-- Both structs end at the last character, and the outer one starts first. -/
example : ofText "struct A \x7b struct B \x7b int x; \x7d;" = [⟨"A", " struct B \x7b int x; "⟩] := by
  decide +kernel

end HeaderMeta.Declaration
