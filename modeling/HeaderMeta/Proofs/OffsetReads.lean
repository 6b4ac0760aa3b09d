import HeaderMeta.Description
import HeaderMeta.Proofs.Gathered
import HeaderMeta.Proofs.Offsets
import HeaderMeta.Proofs.Trail

/-!
# Structs and fields at an offset

`Declaration.atOffset` and `Field.atOffset` find the struct or the field that starts at an offset of a
text, and the offset behind it, going from offset to offset. What may stand in a field in two ways is tried
in both, one after the other (`firstOf`). Started at a place they do not fail and find what is read there
(`Declaration.atOffset_agrees`, `Field.atOffset_agrees`). In which order the ways are tried makes no
difference (`Field.inOrder_agrees`): where one of them finds a field, the others find nothing.
-/

namespace HeaderMeta

open Text

namespace Text
variable {α β : Type} {text s u v r : List Char} {cls : Char → Bool}

theorem size_eq_zero_iff : size s = 0 ↔ s = [] := by
  constructor
  · intro h
    by_contra hs
    exact absurd (size_pos hs) (by omega)
  · rintro rfl
    rfl

/-- Nothing stands between two places exactly if their offsets are the same. -/
theorem Place.offset_eq_iff {p q : Place text} (h : q.before = p.before ++ u) :
    q.offset = p.point.offset ↔ u = [] := by
  rw [offset_eq_of_before h]
  exact Nat.add_eq_left.trans size_eq_zero_iff

theorem run?_of_run (h : run cls s = (u, v)) : run? cls s = if u = [] then none else some (u, v) := by
  rw [run?, h]

/-- `m` finds what is given and the offset behind it. -/
def Agrees (text : List Char) (m : Cutting (Option (β × Nat))) : Option (β × List Char) → Prop
  | none => Yields m none
  | some (b, r) => ∃ q : Place text, q.after = r ∧ Yields m (some (b, q.offset))

theorem Yields.agrees {m : Cutting α} {a : α} {f : α → Cutting (Option (β × Nat))}
    {o : Option (β × List Char)} (hm : Yields m a) (hf : Agrees text (f a) o) : Agrees text (m >>= f) o := by
  match o, hf with
  | none, hf => exact Yields.bind hm hf
  | some (b, r), ⟨q, hq, hf⟩ => exact ⟨q, hq, Yields.bind hm hf⟩

/-- The first of several ways that finds something. -/
def firstOf (f : α → Cutting (Option β)) : List α → Cutting (Option β)
  | [] => return none
  | a :: as => do
    match ← f a with
    | some b => return some b
    | none => firstOf f as

theorem firstOf_yields_none {f : α → Cutting (Option β)} {as : List α} (h : ∀ a ∈ as, Yields (f a) none) :
    Yields (firstOf f as) none := by
  induction as with
  | nil => exact .pure _
  | cons a as ih =>
    obtain ⟨ha, has⟩ := List.forall_mem_cons.1 h
    exact ha.bind (ih has)

/-- If every way finds what is given or nothing, and one of them finds it, then it does not matter where in
the list that one is. -/
theorem firstOf_agrees {f : α → Cutting (Option (β × Nat))} {as : List α} {o : Option (β × List Char)}
    (hall : ∀ a ∈ as, Agrees text (f a) o ∨ Yields (f a) none) (hex : ∃ a ∈ as, Agrees text (f a) o) :
    Agrees text (firstOf f as) o := by
  match o with
  | none => exact firstOf_yields_none fun a ha => (hall a ha).elim id id
  | some (b, r) =>
    induction as with
    | nil =>
      obtain ⟨a, ha, -⟩ := hex
      cases ha
    | cons a as ih =>
      obtain ⟨hhead, htail⟩ := List.forall_mem_cons.1 hall
      have hfound : Agrees text (f a) (some (b, r)) → Agrees text (firstOf f (a :: as)) (some (b, r)) :=
        fun ⟨q, hq, hy⟩ => ⟨q, hq, Yields.bind hy (.pure _)⟩
      obtain ⟨a', ha', hagrees⟩ := hex
      rcases List.mem_cons.1 ha' with rfl | ha'
      · exact hfound hagrees
      rcases hhead with hhead | hnone
      · exact hfound hhead
      · exact Yields.agrees hnone (ih htail ⟨a', ha', hagrees⟩)

/-- Another order to try the same ways in. -/
structure Reordering (α : Type) where
  order : List α → List α
  mem_order {as : List α} {a : α} : a ∈ order as ↔ a ∈ as

namespace Reordering

/-- The order in which they stand. -/
def same : Reordering α :=
  ⟨id, Iff.rfl⟩

theorem firstOf_agrees (ρ : Reordering α) {f : α → Cutting (Option (β × Nat))} {as : List α}
    {o : Option (β × List Char)} (hall : ∀ a ∈ as, Agrees text (f a) o ∨ Yields (f a) none)
    (hex : ∃ a ∈ as, Agrees text (f a) o) : Agrees text (firstOf f (ρ.order as)) o := by
  obtain ⟨a, ha, hagrees⟩ := hex
  exact Text.firstOf_agrees (fun a ha => hall a (ρ.mem_order.1 ha)) ⟨a, ρ.mem_order.2 ha, hagrees⟩

end Reordering

/-! ### Names -/

/-- Goes past blanks, a name and the blanks behind it, and gives the name. -/
def Point.takeName (p : Point) : Cutting (Option (List Char × Point)) := do
  let (n, p) ← p.skipBlanks
  if n = 0 then return none
  let (name, p) ← p.takeRun isWord
  if name = [] then return none
  let (_, p) ← p.skipBlanks
  return some (name, p)

/-- Reads blanks, a name and the blanks behind it. -/
def readName? (s : List Char) : Option ((List Char × List Char × List Char) × List Char) := do
  let (gap, s) ← run? isBlank s
  let (name, s) ← run? isWord s
  return ((gap, name, (run isBlank s).1), (run isBlank s).2)

theorem takeName_cases (p : Place text) :
    (readName? p.after = none ∧ Yields p.point.takeName none) ∨
      ∃ (gap name tail : List Char) (q : Place text),
        readName? p.after = some ((gap, name, tail), q.after) ∧ Yields p.point.takeName (some (name, q.point)) := by
  unfold Point.takeName readName?
  simp only [Option.bind_eq_bind, Option.pure_def]
  obtain ⟨gap, s₁, h₁⟩ : ∃ u v, run isBlank p.after = (u, v) := ⟨_, _, rfl⟩
  obtain ⟨p₁, rfl, -, hy₁⟩ := Place.exists_skipBlanks h₁
  rw [run?_of_run h₁]
  by_cases hgap : gap = []
  · refine .inl ⟨by rw [if_pos hgap]; rfl, hy₁.bind ?_⟩
    simp only [size_eq_zero_iff, if_pos hgap]
    exact .pure _
  obtain ⟨name, s₂, h₂⟩ : ∃ u v, run isWord p₁.after = (u, v) := ⟨_, _, rfl⟩
  obtain ⟨p₂, rfl, -, hy₂⟩ := Place.exists_takeRun h₂
  rw [if_neg hgap, Option.bind_some, run?_of_run h₂]
  by_cases hname : name = []
  · refine .inl ⟨by rw [if_pos hname]; rfl, hy₁.bind ?_⟩
    simp only [size_eq_zero_iff, if_neg hgap]
    refine hy₂.bind ?_
    simp only [if_pos hname]
    exact .pure _
  obtain ⟨tail, s₃, h₃⟩ : ∃ u v, run isBlank p₂.after = (u, v) := ⟨_, _, rfl⟩
  obtain ⟨p₃, rfl, -, hy₃⟩ := Place.exists_skipBlanks h₃
  refine .inr ⟨gap, name, tail, p₃, by rw [if_neg hname, Option.bind_some, h₃], hy₁.bind ?_⟩
  simp only [size_eq_zero_iff, if_neg hgap]
  refine hy₂.bind ?_
  simp only [if_neg hname]
  exact hy₃.bind (.pure _)

end Text

/-! ### Structs -/

namespace Declaration
variable {text : List Char}

/-- Finds the rest of a struct from behind the opening brace, and the offset behind it. -/
def bodyAtOffset (text : List Char) (p : Point) : Cutting (Option (List Char × Nat)) := do
  let some close ← p.find '\x7d' | return none
  if close = p.offset then return none
  let q ← Point.goTo text close
  let (_, q) ← q.takeChar '\x7d'
  let (b, q) ← q.takeChar ';'
  if !b then return none
  return some (← slice text p.offset close, q.offset)

/-- Finds the struct that starts at an offset, and the offset behind it. -/
def atOffset (text : List Char) (start : Nat) : Cutting (Option (Declaration × Nat)) := do
  let p ← Point.goTo text start
  let (b, p) ← p.takeText keyword
  if !b then return none
  let some (name, p) ← p.takeName | return none
  let (b, p) ← p.takeChar '\x7b'
  if !b then return none
  let some (body, stop) ← bodyAtOffset text p | return none
  return some (⟨String.ofList name, String.ofList body⟩, stop)

/-- Reads the rest of a struct from behind the opening brace. -/
def readBody? (s : List Char) : Option (List Char × List Char) := do
  let (body, s) ← run? (· != '\x7d') s
  let r ← after? closing s
  return (body, r)

theorem read?_eq (s : List Char) : Written.read? s =
    (after? keyword s).bind fun s => (readName? s).bind fun ((gap, name, tail), s) =>
      (after? ['\x7b'] s).bind fun s => (readBody? s).map fun (body, r) => (⟨gap, name, tail, body⟩, r) := by
  simp only [Written.read?, readName?, readBody?, Option.bind_eq_bind, Option.pure_def, Option.bind_assoc,
    Option.bind_some, Option.map_bind, Function.comp_def, Option.map_some]

theorem bodyAtOffset_agrees (p : Place text) : Agrees text (bodyAtOffset text p.point) (readBody? p.after) := by
  unfold bodyAtOffset readBody?
  obtain ⟨body, s₁, h₁⟩ : ∃ u v, run (· != '\x7d') p.after = (u, v) := ⟨_, _, rfl⟩
  rw [run?_of_run h₁]
  rcases Place.find_cases h₁ with ⟨rfl, hy⟩ | ⟨close, s₂, rfl, h₂, hbefore, hy⟩
  · refine hy.agrees ?_
    by_cases hbody : body = []
    · rw [if_pos hbody]
      exact Yields.pure _
    · rw [if_neg hbody]
      exact Yields.pure _
  refine hy.agrees ?_
  simp only [Place.offset_eq_iff hbefore]
  by_cases hbody : body = []
  · rw [if_pos hbody, if_pos hbody]
    exact Yields.pure _
  rw [if_neg hbody, if_neg hbody]
  refine close.goTo_yields.agrees ?_
  obtain ⟨p₂, rfl, -, hy⟩ := Place.exists_takeChar (p := close) (after?_eq_some_iff.2 h₂)
  refine hy.agrees ?_
  have hclosing : after? closing ('\x7d' :: p₂.after) = after? [';'] p₂.after := rfl
  simp only [Option.bind_eq_bind, Option.bind_some, hclosing]
  cases h₃ : after? [';'] p₂.after with
  | none => exact (Place.takeChar_yields_of_none h₃).agrees (Yields.pure _)
  | some s₃ =>
  obtain ⟨p₃, rfl, -, hy⟩ := Place.exists_takeChar h₃
  refine hy.agrees ?_
  exact (Place.slice_yields hbefore).agrees ⟨p₃, rfl, Yields.pure _⟩

theorem atOffset_agrees (p : Place text) :
    Agrees text (atOffset text p.offset) ((Written.read? p.after).map fun (w, r) => (ofWritten w, r)) := by
  rw [read?_eq]
  refine p.goTo_yields.agrees ?_
  cases h₁ : after? keyword p.after with
  | none => exact (Place.takeText_yields_of_none h₁).agrees (Yields.pure _)
  | some s₁ =>
  obtain ⟨p₁, rfl, -, hy⟩ := Place.exists_takeText h₁
  refine hy.agrees ?_
  rcases takeName_cases p₁ with ⟨h₂, hy⟩ | ⟨gap, name, tail, p₂, h₂, hy⟩
  · rw [Option.bind_some, h₂]
    exact hy.agrees (Yields.pure _)
  simp only [Option.bind_some, h₂]
  refine hy.agrees ?_
  cases h₃ : after? ['\x7b'] p₂.after with
  | none => exact (Place.takeChar_yields_of_none h₃).agrees (Yields.pure _)
  | some s₃ =>
  obtain ⟨p₃, rfl, -, hy⟩ := Place.exists_takeChar h₃
  rw [Option.bind_some]
  refine hy.agrees ?_
  have hbody := bodyAtOffset_agrees p₃
  cases h₄ : readBody? p₃.after with
  | none =>
    rw [h₄] at hbody
    exact Yields.agrees hbody (Yields.pure _)
  | some x =>
    rw [h₄] at hbody
    obtain ⟨q, hq, hy⟩ := hbody
    exact hy.agrees ⟨q, hq, Yields.pure _⟩

end Declaration

/-! ### Fields -/

namespace Field
variable {text s u v r : List Char} {c : Char} {marked : Bool}

/-- Finds the name of a field and the rest of it, from where the type ends, and the offset behind it. -/
def nameAtOffset (text : List Char) (start : Nat) : Cutting (Option (List Char × Nat)) := do
  let p ← Point.goTo text start
  let some (name, p) ← p.takeName | return none
  let (b, p) ← p.takeChar ';'
  if b then return some (name, p.offset)
  let (b, p) ← p.takeChar '='
  if !b then return none
  let some semi ← p.find ';' | return none
  if semi = p.offset then return none
  return some (name, semi + 1)

/-- A text without the blanks at its two ends. -/
def trimmed (s : List Char) : List Char :=
  ((s.dropWhile isBlank).reverse.dropWhile isBlank).reverse

/-- Finds a field whose type stands between two offsets, and the offset behind it. -/
def typedAtOffset (text : List Char) (marked : Bool) (start stop : Nat) : Cutting (Option (Field × Nat)) := do
  let some (name, behind) ← nameAtOffset text stop | return none
  let type ← slice text start stop
  return some (⟨String.ofList name, String.ofList (trimmed type), marked⟩, behind)

/-- Finds a field from behind its marker: first with a mark of a pointer, then without one. -/
def unmarkedAtOffset (text : List Char) (marked : Bool) (p : Point) : Cutting (Option (Field × Nat)) := do
  let (_, p) ← p.skipBlanks
  let (base, q) ← p.takeRun isTypeRun
  if base = [] then return none
  let (_, m) ← q.skipBlanks
  let mark := (← m.peek).filter isPointerMark
  firstOf (typedAtOffset text marked p.offset)
    ((mark.map fun c => m.offset + c.utf8Size).toList ++ [q.offset])

/-- Finds the field that starts at an offset, with a marker or without one as it is told. -/
def markedAtOffset (text : List Char) (start : Nat) (marked : Bool) : Cutting (Option (Field × Nat)) := do
  let p ← Point.goTo text start
  if marked then
    let (_, p) ← p.takeText marker
    unmarkedAtOffset text marked p
  else unmarkedAtOffset text marked p

/-- Finds the field that starts at an offset: first with a marker, then without one. -/
def atOffset (text : List Char) (start : Nat) : Cutting (Option (Field × Nat)) := do
  let s ← (Point.mk text start).rest
  firstOf (markedAtOffset text start) (if marker.isPrefixOf s then [true, false] else [false])

/-- `unmarkedAtOffset` with the two ends of the type tried in another order. -/
def unmarkedInOrder (ends : Reordering Nat) (text : List Char) (marked : Bool) (p : Point) :
    Cutting (Option (Field × Nat)) := do
  let (_, p) ← p.skipBlanks
  let (base, q) ← p.takeRun isTypeRun
  if base = [] then return none
  let (_, m) ← q.skipBlanks
  let mark := (← m.peek).filter isPointerMark
  firstOf (typedAtOffset text marked p.offset)
    (ends.order ((mark.map fun c => m.offset + c.utf8Size).toList ++ [q.offset]))

/-- `markedAtOffset` with the ends of the type tried in other orders. -/
def markedInOrder (ends : Bool → Reordering Nat) (text : List Char) (start : Nat) (marked : Bool) :
    Cutting (Option (Field × Nat)) := do
  let p ← Point.goTo text start
  if marked then
    let (_, p) ← p.takeText marker
    unmarkedInOrder (ends marked) text marked p
  else unmarkedInOrder (ends marked) text marked p

/-- `atOffset` with everything that may stand in two ways tried in other orders. -/
def inOrder (marks : Reordering Bool) (ends : Bool → Reordering Nat) (text : List Char) (start : Nat) :
    Cutting (Option (Field × Nat)) := do
  let s ← (Point.mk text start).rest
  firstOf (markedInOrder ends text start)
    (marks.order (if marker.isPrefixOf s then [true, false] else [false]))

theorem inOrder_same (text : List Char) (start : Nat) :
    inOrder .same (fun _ => .same) text start = atOffset text start := rfl

/-- Reads the name of a field and the rest of it. -/
def readNamed? (s : List Char) :
    Option ((List Char × List Char × List Char × Option (List Char)) × List Char) :=
  (readName? s).bind fun ((gap, name, tail), s) =>
    (Written.readEnding? s).map fun (value, r) => ((gap, name, tail, value), r)

/-- Reads a field from behind its marker. -/
def readUnmarked? (marked : Bool) (s : List Char) : Option (Written × List Char) :=
  (run? isTypeRun (run isBlank s).2).bind fun (base, t) =>
    (readNamed? (Written.readPointer t).2).map fun ((gap, name, tail, value), r) =>
      (⟨marked, (run isBlank s).1, base, (Written.readPointer t).1, gap, name, tail, value⟩, r)

theorem read?_eq (s : List Char) :
    Written.read? s = readUnmarked? (Written.readMarker s).1 (Written.readMarker s).2 := by
  simp only [Written.read?, readUnmarked?, readNamed?, readName?, Option.bind_eq_bind, Option.pure_def,
    Option.bind_assoc, Option.bind_some, Function.comp_def, Option.map_eq_bind]

theorem readEnding?_eq (s : List Char) : Written.readEnding? s = match after? [';'] s with
    | some r => some (none, r)
    | none => (after? ['='] s).bind fun s => (run? (· != ';') s).bind fun (v, s) =>
        (after? [';'] s).map fun r => (some v, r) := by
  unfold Written.readEnding?
  split
  · rfl
  · simp only [Option.bind_eq_bind, Option.pure_def, Option.map_eq_bind]
    rfl
  · rename_i h₁ h₂
    cases s with
    | nil => rfl
    | cons c s =>
      have hc₁ : ';' ≠ c := fun h => h₁ s (by rw [h])
      have hc₂ : '=' ≠ c := fun h => h₂ s (by rw [h])
      simp only [after?, if_neg hc₁, if_neg hc₂, Option.bind_none]

theorem nameAtOffset_agrees (p : Place text) :
    Agrees text (nameAtOffset text p.offset) ((readNamed? p.after).map fun (w, r) => (w.2.1, r)) := by
  refine p.goTo_yields.agrees ?_
  unfold readNamed?
  rcases takeName_cases p with ⟨h₁, hy⟩ | ⟨gap, name, tail, p₁, h₁, hy⟩
  · rw [h₁]
    exact hy.agrees (Yields.pure _)
  simp only [h₁, Option.bind_some, readEnding?_eq]
  refine hy.agrees ?_
  cases h₂ : after? [';'] p₁.after with
  | some s₂ =>
    obtain ⟨p₂, rfl, -, hy⟩ := Place.exists_takeChar h₂
    exact hy.agrees ⟨p₂, rfl, Yields.pure _⟩
  | none =>
  refine (Place.takeChar_yields_of_none h₂).agrees ?_
  cases h₃ : after? ['='] p₁.after with
  | none => exact (Place.takeChar_yields_of_none h₃).agrees (Yields.pure _)
  | some s₃ =>
  obtain ⟨p₃, rfl, -, hy⟩ := Place.exists_takeChar h₃
  refine hy.agrees ?_
  obtain ⟨value, s₄, h₄⟩ : ∃ u v, run (· != ';') p₃.after = (u, v) := ⟨_, _, rfl⟩
  simp only [Option.bind_some, run?_of_run h₄]
  rcases Place.find_cases h₄ with ⟨rfl, hy⟩ | ⟨semi, s₅, rfl, h₅, hbefore, hy⟩
  · refine hy.agrees ?_
    by_cases hvalue : value = []
    · rw [if_pos hvalue]
      exact Yields.pure _
    · rw [if_neg hvalue]
      exact Yields.pure _
  refine hy.agrees ?_
  simp only [Place.offset_eq_iff hbefore]
  by_cases hvalue : value = []
  · rw [if_pos hvalue, if_pos hvalue]
    exact Yields.pure _
  rw [if_neg hvalue, if_neg hvalue]
  have hbehind : [';'] ++ s₅ = semi.after := h₅.symm
  refine ⟨semi.advance hbehind, rfl, ?_⟩
  rw [Place.offset_advance]
  exact Yields.pure _

theorem trimmed_eq_self (h₁ : ∀ c ∈ s.head?, isBlank c = false) (h₂ : ∀ c ∈ s.getLast?, isBlank c = false) :
    trimmed s = s := by
  have hdrop : ∀ {s : List Char}, Stops isBlank s → s.dropWhile isBlank = s := fun hs =>
    congrArg Prod.snd (run_eq_iff.2 ⟨(List.nil_append _).symm, by simp, hs⟩)
  have hreverse : Stops isBlank s.reverse := by
    intro c hc
    rw [List.head?_reverse] at hc
    exact h₂ c hc
  rw [trimmed, hdrop h₁, hdrop hreverse, List.reverse_reverse]

/-- Blanks with the mark of a pointer behind them are no gap in front of a name. -/
theorem readNamed?_eq_none (h : run isBlank s = (u, c :: v)) (hc : isPointerMark c = true) :
    readNamed? s = none := by
  have hword : isWord c = false := by
    cases hw : isWord c with
    | false => rfl
    | true => rw [isPointerMark_of_isWord hw] at hc; cases hc
  have hname : run? isWord (c :: v) = none := by
    rw [run?_of_run (run_eq_iff.2 ⟨(List.nil_append _).symm, by simp, stops_cons.2 hword⟩), if_pos rfl]
  have hread : readName? s = none := by
    simp only [readName?, run?_of_run h, Option.bind_eq_bind]
    split
    · rfl
    · simp only [Option.bind_some, hname, Option.bind_none]
  rw [readNamed?, hread, Option.bind_none]

/-- A type starts and ends with no blank. -/
theorem trimmed_type {type : List Char} (h : IsType (String.ofList type)) : trimmed type = type := by
  have htrimmed := trimmed_eq_self (fun _ => h.head) (fun _ => h.last)
  rwa [String.toList_ofList] at htrimmed

theorem typedAtOffset_agrees {p q : Place text} (type : List Char) (h : q.before = p.before ++ type)
    (htype : IsType (String.ofList type)) (marked : Bool) :
    Agrees text (typedAtOffset text marked p.offset q.offset)
      ((readNamed? q.after).map fun (w, r) => (⟨String.ofList w.2.1, String.ofList type, marked⟩, r)) := by
  have hname := nameAtOffset_agrees q
  cases hread : readNamed? q.after with
  | none =>
    rw [hread] at hname
    exact Yields.agrees hname (Yields.pure _)
  | some x =>
    rw [hread] at hname
    obtain ⟨q', hq', hy⟩ := hname
    refine hy.agrees ((Place.slice_yields h).agrees ?_)
    rw [trimmed_type htype]
    exact ⟨q', hq', Yields.pure _⟩

theorem readPointer_of_mark (h : run isBlank s = (u, c :: v)) (hc : isPointerMark c = true) :
    Written.readPointer s = (some (u, c), v) := by
  simp only [Written.readPointer, h, if_pos hc]

theorem readPointer_of_stops (h : run isBlank s = (u, v)) (hv : Stops isPointerMark v) :
    Written.readPointer s = (none, s) := by
  unfold Written.readPointer
  rw [h]
  cases v with
  | nil => rfl
  | cons c v =>
    have hc : ¬ isPointerMark c = true := by simpa using hv
    simp only [if_neg hc]

/-- The type ends behind the mark of a pointer if there is one: without it no field is found. -/
theorem unmarkedInOrder_agrees (ends : Reordering Nat) (p : Place text) (marked : Bool) :
    Agrees text (unmarkedInOrder ends text marked p.point)
      ((readUnmarked? marked p.after).map fun (w, r) => (ofWritten w, r)) := by
  unfold readUnmarked?
  obtain ⟨lead, s₁, h₁⟩ : ∃ u v, run isBlank p.after = (u, v) := ⟨_, _, rfl⟩
  obtain ⟨p₁, rfl, -, hy⟩ := Place.exists_skipBlanks h₁
  refine hy.agrees ?_
  obtain ⟨base, s₂, h₂⟩ : ∃ u v, run isTypeRun p₁.after = (u, v) := ⟨_, _, rfl⟩
  obtain ⟨p₂, rfl, hbase, hy⟩ := Place.exists_takeRun h₂
  refine hy.agrees ?_
  simp only [h₁, run?_of_run h₂]
  by_cases hne : base = []
  · rw [if_pos hne, if_pos hne]
    exact Yields.pure _
  rw [if_neg hne, if_neg hne, Option.bind_some]
  obtain ⟨b, s₃, h₃⟩ : ∃ u v, run isBlank p₂.after = (u, v) := ⟨_, _, rfl⟩
  obtain ⟨m, rfl, hb, hy⟩ := Place.exists_skipBlanks h₃
  refine hy.agrees (m.peek_yields.agrees ?_)
  obtain ⟨-, hrun, -⟩ := run_eq_iff.1 h₂
  obtain ⟨-, hblank, -⟩ := run_eq_iff.1 h₃
  have hplain := typedAtOffset_agrees (p := p₁) (q := p₂) (base ++ Written.pointerText none)
    (by simpa [Written.pointerText] using hbase) ⟨base, none, by simp, hne, hrun, by simp⟩ marked
  by_cases hm : Stops isPointerMark m.after
  · have hnext : m.next?.filter isPointerMark = none := by
      rw [Option.filter_eq_none_iff]
      simpa [Place.next?, Stops] using hm
    rw [hnext, readPointer_of_stops h₃ hm, Option.map_map]
    refine ends.firstOf_agrees (fun n hn => ?_) ⟨_, List.mem_singleton_self _, hplain⟩
    obtain rfl := List.mem_singleton.1 hn
    exact .inl hplain
  · obtain ⟨c, r, hr, hc⟩ : ∃ c r, m.after = c :: r ∧ isPointerMark c = true := by
      cases hr : m.after with
      | nil => exact absurd (hr ▸ stops_nil) hm
      | cons c r => exact ⟨c, r, rfl, by simpa [hr] using hm⟩
    have happend : [c] ++ r = m.after := hr.symm
    have hsuffix := typedAtOffset_agrees (p := p₁) (q := m.advance happend)
      (base ++ Written.pointerText (some (b, c)))
      (by simp [Place.advance, hb, hbase, Written.pointerText])
      ⟨base, some (b, c), by simp, hne, hrun, by simpa using ⟨hblank, hc⟩⟩ marked
    rw [hr] at h₃
    have hnext : m.next?.filter isPointerMark = some c := by
      rw [Place.next?, hr, List.head?_cons, Option.filter_some, if_pos hc]
    rw [readNamed?_eq_none h₃ hc] at hplain
    rw [hnext, readPointer_of_mark h₃ hc, Option.map_map]
    rw [Place.offset_advance] at hsuffix
    refine ends.firstOf_agrees (fun n hn => ?_) ⟨_, List.mem_cons_self, hsuffix⟩
    rcases List.mem_cons.1 hn with rfl | hn
    · exact .inl hsuffix
    · obtain rfl := List.mem_singleton.1 hn
      exact .inr hplain

theorem readUnmarked?_eq_none (h : s.head? = some '[') : readUnmarked? marked s = none := by
  obtain ⟨r, rfl⟩ := List.head?_eq_some_iff.1 h
  have hblank : run isBlank ('[' :: r) = ([], '[' :: r) :=
    run_eq_iff.2 ⟨rfl, by simp, stops_cons.2 (by decide)⟩
  have htype : run isTypeRun ('[' :: r) = ([], '[' :: r) :=
    run_eq_iff.2 ⟨rfl, by simp, stops_cons.2 (by decide +kernel)⟩
  rw [readUnmarked?, hblank, run?_of_run htype, if_pos rfl, Option.bind_none]

theorem markedInOrder_agrees (ends : Bool → Reordering Nat) (p : Place text) :
    Agrees text (markedInOrder ends text p.offset false)
      ((readUnmarked? false p.after).map fun (w, r) => (ofWritten w, r)) :=
  p.goTo_yields.agrees (unmarkedInOrder_agrees (ends false) p false)

/-- No type starts as the marker does, so nothing is found without it where it stands. -/
theorem markedInOrder_yields_none (ends : Bool → Reordering Nat) {p : Place text}
    (h : after? marker p.after = some r) : Yields (markedInOrder ends text p.offset false) none := by
  have hbracket : p.after.head? = some '[' := by
    rw [after?_eq_some_iff.1 h, marker_eq_cons]
    rfl
  have hplain := markedInOrder_agrees ends p
  rwa [readUnmarked?_eq_none hbracket] at hplain

/-- The marker is taken if it is there, whatever is tried first. -/
theorem inOrder_agrees (marks : Reordering Bool) (ends : Bool → Reordering Nat) (p : Place text) :
    Agrees text (inOrder marks ends text p.offset)
      ((Written.read? p.after).map fun (w, r) => (ofWritten w, r)) := by
  rw [read?_eq]
  refine p.rest_yields.agrees ?_
  rw [isPrefixOf_eq]
  cases h : after? marker p.after with
  | none =>
    have hplain := markedInOrder_agrees ends p
    rw [Written.readMarker, h]
    refine marks.firstOf_agrees (fun marked hm => ?_) ⟨_, List.mem_singleton_self _, hplain⟩
    obtain rfl := List.mem_singleton.1 hm
    exact .inl hplain
  | some s₁ =>
    have hplain := markedInOrder_yields_none ends h
    rw [Written.readMarker, h]
    obtain ⟨q, rfl, -, hy⟩ := Place.exists_takeText h
    have hmarked : Agrees text (markedInOrder ends text p.offset true)
        ((readUnmarked? true q.after).map fun (w, r) => (ofWritten w, r)) :=
      p.goTo_yields.agrees (hy.agrees (unmarkedInOrder_agrees (ends true) q true))
    refine marks.firstOf_agrees (fun marked _ => ?_) ⟨_, List.mem_cons_self, hmarked⟩
    cases marked with
    | true => exact .inl hmarked
    | false => exact .inr hplain

theorem atOffset_agrees (p : Place text) :
    Agrees text (atOffset text p.offset) ((Written.read? p.after).map fun (w, r) => (ofWritten w, r)) :=
  inOrder_agrees .same (fun _ => .same) p

end Field

end HeaderMeta
