import HeaderMeta.Proofs.Sound

/-!
# Layout does not count

`squash` writes every run of blanks as one space. Each step of a reader does the same on a squashed text
as on the text itself, as long as its class of characters treats all blanks alike (`run_squash`,
`after?_squash`); so what is read off the squashed text is the squashed item, and the scans agree
(`Reader.scan_squash`). A scan passes over a run of blanks one by one, and over the space that stands
for them at once.

Names have no blanks, and of a type only those before its pointer mark can change. So two texts that
differ in their runs of blanks alone give descriptions that differ there alone
(`Description.Resembles`).
-/

namespace HeaderMeta.Text

/-- Writes a run of blanks as one space, which takes the place of the last of them. -/
def squash : List Char → List Char
  | [] => []
  | c :: s =>
    if isBlank c then
      if s.head?.any isBlank then squash s else ' ' :: squash s
    else c :: squash s

/-- A text with every run of blanks written as one space. -/
def squashed (s : String) : String :=
  String.ofList (squash s.toList)

/-- Whether a class of characters has all blanks or none. -/
def TreatsBlanksAlike (p : Char → Bool) : Prop :=
  ∀ c, isBlank c = true → p c = p ' '

section
variable {c d : Char} {s t u v lit : List Char} {p : Char → Bool}

theorem squash_cons_of_not_isBlank (hc : isBlank c = false) : squash (c :: s) = c :: squash s := by
  rw [squash, hc]
  rfl

theorem squash_cons_cons (hc : isBlank c = true) (hd : isBlank d = true) :
    squash (c :: d :: s) = squash (d :: s) := by
  rw [squash, hc, if_pos rfl, List.head?_cons, Option.any_some, if_pos hd]

theorem squash_cons_of_stops (hc : isBlank c = true) (hs : Stops isBlank s) :
    squash (c :: s) = ' ' :: squash s := by
  have : s.head?.any isBlank = false := by
    cases s with
    | nil => rfl
    | cons d s => exact stops_cons.1 hs
  rw [squash, hc, if_pos rfl, this]
  rfl

example : squash "\t a\r\n\n b ".toList = " a b ".toList := by decide

theorem squash_cons_cases (c : Char) (s : List Char) :
    squash (c :: s) = squash s ∨ ∃ d, squash (c :: s) = d :: squash s := by
  rw [squash]
  split
  · split
    · exact .inl rfl
    · exact .inr ⟨_, rfl⟩
  · exact .inr ⟨_, rfl⟩

/-- Induction along a text: a blank either ends its run or has another one behind it. -/
theorem squash_induction {P : List Char → Prop} (nil : P [])
    (keep : ∀ c s, isBlank c = false → P s → P (c :: s))
    (space : ∀ c s, isBlank c = true → Stops isBlank s → P s → P (c :: s))
    (drop : ∀ c d s, isBlank c = true → isBlank d = true → P (d :: s) → P (c :: d :: s))
    (s : List Char) : P s := by
  induction s with
  | nil => exact nil
  | cons c s ih =>
    cases hc : isBlank c with
    | false => exact keep c s hc ih
    | true =>
      cases s with
      | nil => exact space c [] hc stops_nil ih
      | cons d s =>
        cases hd : isBlank d with
        | false => exact space c (d :: s) hc (stops_cons.2 hd) ih
        | true => exact drop c d s hc hd ih

theorem head?_squash : (squash s).head? = s.head?.map fun c => if isBlank c then ' ' else c := by
  induction s using squash_induction with
  | nil => rfl
  | keep c s hc ih =>
    rw [squash_cons_of_not_isBlank hc, List.head?_cons, List.head?_cons, Option.map_some, hc]
    rfl
  | space c s hc hs ih =>
    rw [squash_cons_of_stops hc hs, List.head?_cons, List.head?_cons, Option.map_some, hc]
    rfl
  | drop c d s hc hd ih =>
    rw [squash_cons_cons hc hd, ih, List.head?_cons, List.head?_cons, Option.map_some,
      Option.map_some, hc, hd]
    rfl

theorem squash_eq_nil_iff : squash s = [] ↔ s = [] := by
  rw [← List.head?_eq_none_iff, head?_squash, Option.map_eq_none_iff, List.head?_eq_none_iff]

theorem squash_append_of_not_isBlank (hu : ∀ c ∈ u, isBlank c = false) :
    squash (u ++ v) = u ++ squash v := by
  induction u with
  | nil => rfl
  | cons c u ih =>
    obtain ⟨hc, hu⟩ := List.forall_mem_cons.1 hu
    rw [List.cons_append, squash_cons_of_not_isBlank hc, ih hu, List.cons_append]

theorem squash_of_not_isBlank (hs : ∀ c ∈ s, isBlank c = false) : squash s = s := by
  have := squash_append_of_not_isBlank (v := []) hs
  rwa [List.append_nil, squash, List.append_nil] at this

theorem squash_append_cons (hc : isBlank c = false) :
    squash (u ++ c :: v) = squash u ++ c :: squash v := by
  induction u using squash_induction with
  | nil => exact squash_cons_of_not_isBlank hc
  | keep d u hd ih =>
    rw [List.cons_append, squash_cons_of_not_isBlank hd, squash_cons_of_not_isBlank hd, ih,
      List.cons_append]
  | space d u hd hu ih =>
    have hs : Stops isBlank (u ++ c :: v) := by
      cases u with
      | nil => exact stops_cons.2 hc
      | cons e u => exact stops_cons.2 (stops_cons.1 hu)
    rw [List.cons_append, squash_cons_of_stops hd hs, squash_cons_of_stops hd hu, ih, List.cons_append]
  | drop d e u hd he ih =>
    rw [List.cons_append, List.cons_append, squash_cons_cons hd he, squash_cons_cons hd he,
      ← List.cons_append, ih]

theorem squash_cons_congr (h : squash s = squash t) (c : Char) : squash (c :: s) = squash (c :: t) := by
  have hblank : ∀ u : List Char, u.head?.any isBlank = (squash u).head?.any isBlank := by
    intro u
    rw [head?_squash]
    cases u.head? with
    | none => rfl
    | some d =>
      show isBlank d = isBlank (if isBlank d then ' ' else d)
      cases hd : isBlank d with
      | true => exact (by decide : isBlank ' ' = true).symm
      | false => exact hd.symm
  rw [squash, squash, hblank s, hblank t, h]

/-! ### The steps of a reader -/

theorem treatsBlanksAlike_isBlank : TreatsBlanksAlike isBlank :=
  fun c hc => hc.trans (by decide)

theorem treatsBlanksAlike_isWord : TreatsBlanksAlike isWord :=
  fun c hc => (isWord_of_isBlank hc).trans (by decide +kernel)

theorem treatsBlanksAlike_isTypeRun : TreatsBlanksAlike isTypeRun :=
  fun c hc => (isTypeRun_of_isBlank hc).trans (by decide +kernel)

theorem treatsBlanksAlike_bne {k : Char} (hk : isBlank k = false) : TreatsBlanksAlike (· != k) := by
  have hne : ∀ c, isBlank c = true → (c != k) = true := by
    intro c hc
    rw [bne_iff_ne]
    rintro rfl
    rw [hc] at hk
    cases hk
  exact fun c hc => (hne c hc).trans (hne ' ' (by decide)).symm

theorem run_squash (hp : TreatsBlanksAlike p) (s : List Char) :
    run p (squash s) = (squash (run p s).1, squash (run p s).2) := by
  induction s using squash_induction with
  | nil => rfl
  | keep c s hc ih =>
    rw [squash_cons_of_not_isBlank hc, run_cons, run_cons, ih]
    split
    · rw [squash_cons_of_not_isBlank hc]
    · rw [squash_cons_of_not_isBlank hc]
      rfl
  | space c s hc hs ih =>
    rw [squash_cons_of_stops hc hs, run_cons, run_cons, ih, ← hp c hc]
    split
    · have hu : Stops isBlank (run p s).1 := by
        intro d hd
        have he : (run p s).1 ++ (run p s).2 = s := (run_eq_iff.1 rfl).1.symm
        refine hs d ?_
        rw [← he, List.head?_append, hd]
        rfl
      rw [squash_cons_of_stops hc hu]
    · rw [squash_cons_of_stops hc hs]
      rfl
  | drop c d s hc hd ih =>
    -- both blanks are in the run or neither is
    have hcd : p c = p d := (hp c hc).trans (hp d hd).symm
    rw [squash_cons_cons hc hd, ih, run_cons, run_cons, run_cons, hcd]
    cases hpd : p d with
    | true => simp only [if_pos, squash_cons_cons hc hd]
    | false => simp only [Bool.false_eq_true, if_false, squash_cons_cons hc hd]

theorem run?_squash (hp : TreatsBlanksAlike p) (s : List Char) :
    run? p (squash s) = (run? p s).map (Prod.map squash squash) := by
  rw [run?, run?, run_squash hp]
  by_cases h : (run p s).1 = []
  · rw [if_pos h, if_pos (squash_eq_nil_iff.2 h)]
    rfl
  · rw [if_neg h, if_neg (mt squash_eq_nil_iff.1 h)]
    rfl

theorem after?_squash (hlit : lit.any isBlank = false) (s : List Char) :
    after? lit (squash s) = (after? lit s).map squash := by
  induction lit generalizing s with
  | nil => rfl
  | cons c lit ih =>
    rw [List.any_cons, Bool.or_eq_false_iff] at hlit
    obtain ⟨hc, hlit⟩ := hlit
    cases s with
    | nil => rfl
    | cons d s =>
      cases hd : isBlank d with
      | false =>
        rw [squash_cons_of_not_isBlank hd, after?, after?]
        split
        · exact ih hlit s
        · rfl
      | true =>
        have hne : ∀ e, isBlank e = true → c ≠ e := by
          rintro e he rfl
          rw [he] at hc
          cases hc
        obtain ⟨r, hr⟩ : ∃ r, squash (d :: s) = ' ' :: r := by
          have := head?_squash (s := d :: s)
          rw [List.head?_cons, Option.map_some, hd, if_pos rfl] at this
          exact List.head?_eq_some_iff.1 this
        rw [hr, after?, after?, if_neg (hne ' ' (by decide)), if_neg (hne d hd)]
        rfl

end

theorem Reader.scan_squash {α : Type} {R : Reader α} {f : α → α}
    (hf : ∀ s, R.read? (squash s) = (R.read? s).map (Prod.map f squash)) (s : List Char) :
    R.scan (squash s) = (R.scan s).map f := by
  induction s using R.scan_induction with
  | nil => rw [squash, scan]; rfl
  | read s a r h ih =>
    have hs := hf s
    rw [h] at hs
    rw [scan_of_read? h, scan_of_read? hs, ih, List.map_cons]
  | skip c s h ih =>
    have hs := hf (c :: s)
    rw [h] at hs
    rw [scan_cons_of_none h, ← ih]
    rcases squash_cons_cases c s with he | ⟨d, he⟩
    · rw [he]
    · rw [he] at hs ⊢
      exact scan_cons_of_none hs

end HeaderMeta.Text

namespace HeaderMeta

open Text

/-! ### Fields -/

namespace Field.Written
variable {w : Written}

def squash (w : Written) : Written where
  marked := w.marked
  lead := Text.squash w.lead
  base := Text.squash w.base
  pointer := w.pointer.map (Prod.map Text.squash id)
  gap := Text.squash w.gap
  name := Text.squash w.name
  tail := Text.squash w.tail
  value := w.value.map Text.squash

theorem readMarker_squash (s : List Char) :
    readMarker (Text.squash s) = ((readMarker s).1, Text.squash (readMarker s).2) := by
  rw [readMarker, readMarker, after?_squash (by decide)]
  cases after? marker s <;> rfl

theorem readPointer_squash (s : List Char) : readPointer (Text.squash s) =
    ((readPointer s).1.map (Prod.map Text.squash id), Text.squash (readPointer s).2) := by
  rw [readPointer, readPointer, run_squash treatsBlanksAlike_isBlank]
  rcases hr : run isBlank s with ⟨b, _ | ⟨m, r⟩⟩
  · rfl
  · have hm : isBlank m = false := stops_cons.1 (run_eq_iff.1 hr).2.2
    simp only [squash_cons_of_not_isBlank hm]
    split <;> rfl

theorem readEnding?_of_head?_ne {s : List Char} (h : ∀ c ∈ s.head?, c ≠ ';' ∧ c ≠ '=') :
    readEnding? s = none := by
  unfold readEnding?
  split
  · exact absurd rfl (h ';' rfl).1
  · exact absurd rfl (h '=' rfl).2
  · rfl

theorem readEnding?_squash (s : List Char) : readEnding? (Text.squash s) =
    (readEnding? s).map (Prod.map (Option.map Text.squash) Text.squash) := by
  by_cases h : ∀ c ∈ s.head?, c ≠ ';' ∧ c ≠ '='
  · rw [readEnding?_of_head?_ne h, readEnding?_of_head?_ne]
    · rfl
    · intro c hc
      rw [head?_squash] at hc
      obtain ⟨d, hd, rfl⟩ := Option.map_eq_some_iff.1 hc
      split
      · decide
      · exact h d hd
  · cases s with
    | nil => exact absurd (by simp) h
    | cons c s =>
      by_cases hc : c = ';'
      · rw [hc, squash_cons_of_not_isBlank (by decide)]
        rfl
      · obtain rfl : c = '=' := by
          by_contra he
          exact h (by simp [hc, he])
        rw [squash_cons_of_not_isBlank (by decide), readEnding?, readEnding?,
          run?_squash (treatsBlanksAlike_bne (by decide))]
        cases run? (· != ';') s with
        | none => rfl
        | some x =>
          show (after? [';'] (Text.squash x.2) >>= _) = ((after? [';'] x.2 >>= _).map _)
          rw [after?_squash (by decide)]
          cases after? [';'] x.2 <;> rfl

theorem read?_squash (s : List Char) :
    read? (Text.squash s) = (read? s).map (Prod.map squash Text.squash) := by
  rw [read?, read?, readMarker_squash]
  rcases readMarker s with ⟨m, s₁⟩
  dsimp only
  rw [run_squash treatsBlanksAlike_isBlank]
  rcases run isBlank s₁ with ⟨lead, s₂⟩
  dsimp only
  rw [run?_squash treatsBlanksAlike_isTypeRun]
  rcases run? isTypeRun s₂ with _ | ⟨base, s₃⟩
  · rfl
  simp only [Option.map_some, Prod.map, Option.bind_eq_bind, Option.bind_some]
  rw [readPointer_squash]
  rcases readPointer s₃ with ⟨pointer, s₄⟩
  dsimp only
  rw [run?_squash treatsBlanksAlike_isBlank]
  rcases run? isBlank s₄ with _ | ⟨gap, s₅⟩
  · rfl
  simp only [Option.map_some, Prod.map, Option.bind_some]
  rw [run?_squash treatsBlanksAlike_isWord]
  rcases run? isWord s₅ with _ | ⟨name, s₆⟩
  · rfl
  simp only [Option.map_some, Prod.map, Option.bind_some]
  rw [run_squash treatsBlanksAlike_isBlank]
  rcases run isBlank s₆ with ⟨tail, s₇⟩
  dsimp only
  rw [readEnding?_squash]
  rcases readEnding? s₇ with _ | ⟨value, r⟩
  · rfl
  · rfl

theorem squash_pointerText {pointer : Option (List Char × Char)}
    (hp : ∀ p ∈ pointer, isPointerMark p.2 = true) : Text.squash (pointerText pointer) =
      pointerText (pointer.map (Prod.map Text.squash id)) := by
  cases pointer with
  | none => rfl
  | some p => exact squash_append_cons (isBlank_of_isPointerMark (hp p rfl))

theorem Valid.type_squash (h : w.Valid) : w.squash.type = Text.squash w.type := by
  have hb : ∀ c ∈ w.base, isBlank c = false := fun c hc => isBlank_of_isTypeRun (h.base c hc)
  rw [type, type, squash_append_of_not_isBlank hb, squash_pointerText fun p hp => (h.pointer p hp).2]
  show Text.squash w.base ++ _ = _
  rw [squash_of_not_isBlank hb]
  rfl

theorem Valid.name_squash (h : w.Valid) : w.squash.name = w.name :=
  squash_of_not_isBlank fun c hc => isBlank_of_isWord (h.name c hc)

end Field.Written

namespace Field

def mapType (g : String → String) (f : Field) : Field :=
  { f with type := g f.type }

theorem ofBody_squashed (b : String) : ofBody (squashed b) = (ofBody b).map (mapType squashed) := by
  rw [ofBody, squashed, String.toList_ofList, Reader.scan_squash Written.read?_squash, List.map_map,
    ofBody, List.map_map]
  refine List.map_congr_left fun w hw => ?_
  have hv : w.Valid := Reader.valid_of_mem_scan Written.reader_reads hw
  show ofWritten w.squash = mapType squashed (ofWritten w)
  simp only [ofWritten, mapType, squashed, String.toList_ofList, hv.type_squash, hv.name_squash]
  rfl

end Field

/-! ### Structs -/

namespace Declaration.Written

def squash (w : Written) : Written :=
  ⟨Text.squash w.gap, Text.squash w.name, Text.squash w.tail, Text.squash w.body⟩

theorem read?_squash (s : List Char) :
    read? (Text.squash s) = (read? s).map (Prod.map squash Text.squash) := by
  rw [read?, read?, after?_squash (by decide)]
  rcases after? keyword s with _ | s₁
  · rfl
  simp only [Option.map_some, Option.bind_eq_bind, Option.bind_some]
  rw [run?_squash treatsBlanksAlike_isBlank]
  rcases run? isBlank s₁ with _ | ⟨gap, s₂⟩
  · rfl
  simp only [Option.map_some, Prod.map, Option.bind_some]
  rw [run?_squash treatsBlanksAlike_isWord]
  rcases run? isWord s₂ with _ | ⟨name, s₃⟩
  · rfl
  simp only [Option.map_some, Prod.map, Option.bind_some]
  rw [run_squash treatsBlanksAlike_isBlank]
  rcases run isBlank s₃ with ⟨tail, s₄⟩
  dsimp only
  rw [after?_squash (by decide)]
  rcases after? ['{'] s₄ with _ | s₅
  · rfl
  simp only [Option.map_some, Option.bind_some]
  rw [run?_squash (treatsBlanksAlike_bne (by decide))]
  rcases run? (· != '}') s₅ with _ | ⟨body, s₆⟩
  · rfl
  simp only [Option.map_some, Prod.map, Option.bind_some]
  rw [after?_squash (by decide)]
  rcases after? closing s₆ with _ | r
  · rfl
  · rfl

theorem Valid.name_squash {w : Written} (h : w.Valid) : w.squash.name = w.name :=
  squash_of_not_isBlank fun c hc => isBlank_of_isWord (h.name c hc)

end Declaration.Written

def Declaration.mapBody (g : String → String) (d : Declaration) : Declaration :=
  { d with body := g d.body }

theorem Declaration.ofText_squashed (t : String) :
    ofText (squashed t) = (ofText t).map (mapBody squashed) := by
  rw [ofText, squashed, String.toList_ofList, Reader.scan_squash Written.read?_squash, List.map_map,
    ofText, List.map_map]
  refine List.map_congr_left fun w hw => ?_
  have hv : w.Valid := Reader.valid_of_mem_scan Written.reader_reads hw
  show ofWritten w.squash = mapBody squashed (ofWritten w)
  simp only [ofWritten, mapBody, squashed, String.toList_ofList, hv.name_squash]
  rfl

/-! ### Descriptions -/

def TypeTable.mapTypes (g : String → String) (t : TypeTable) : TypeTable where
  entries := t.entries.map (Prod.map id g)
  nodup_keys := by
    rw [List.map_map]
    exact t.nodup_keys

namespace Description
variable {d e : Description} {g : String → String}

/-- A description with other texts for its types. -/
def mapTypes (g : String → String) (d : Description) : Description :=
  { d with types := d.types.mapTypes g }

theorem addField_mapTypes (d : Description) (f : Field) :
    (d.mapTypes g).addField (f.mapType g) = (d.addField f).mapTypes g := by
  refine Description.ext rfl rfl ?_
  exact TypeTable.ext (Keyed.put_map g)

theorem ofFields_map_mapType (n : String) (fields : List Field) :
    ofFields n (fields.map (Field.mapType g)) = (ofFields n fields).mapTypes g := by
  suffices h : ∀ d : Description, (fields.map (Field.mapType g)).foldl addField (d.mapTypes g) =
      (fields.foldl addField d).mapTypes g from h (named n)
  induction fields with
  | nil => exact fun d => rfl
  | cons f fields ih =>
    intro d
    rw [List.map_cons, List.foldl_cons, addField_mapTypes, ih, List.foldl_cons]

theorem ofDeclaration_mapBody (d : Declaration) :
    ofDeclaration (d.mapBody squashed) = (ofDeclaration d).mapTypes squashed := by
  show ofFields d.name (Field.ofBody (squashed d.body)) = _
  rw [Field.ofBody_squashed, ofFields_map_mapType]
  rfl

theorem ofText_squashed (t : String) : ofText (squashed t) = (ofText t).map (mapTypes squashed) := by
  have h : (Declaration.ofText (squashed t)).map ofDeclaration =
      ((Declaration.ofText t).map ofDeclaration).map (mapTypes squashed) := by
    rw [Declaration.ofText_squashed, List.map_map, List.map_map]
    exact List.map_congr_left fun d _ => ofDeclaration_mapBody d
  rw [ofText, h, List.filter_map]
  rfl

end Description

/-! ### Texts with the same squashed form -/

/-- Two texts of types that differ at most in the blanks before the pointer mark. -/
def Field.SameType (s t : String) : Prop :=
  s = t ∨ ∃ base b b' m, allBlank b = true ∧ allBlank b' = true ∧ isPointerMark m = true ∧
    s.toList = base ++ (b ++ [m]) ∧ t.toList = base ++ (b' ++ [m])

/-- Two descriptions that differ at most in the blanks before pointer marks. -/
structure Description.Resembles (d e : Description) : Prop where
  name : d.name = e.name
  marked : d.marked = e.marked
  types : List.Forall₂ (fun x y => x.1 = y.1 ∧ Field.SameType x.2 y.2) d.types.entries e.types.entries

theorem forall₂_of_map_eq {α β : Type} {f : α → β} {q : α → α → Prop} {l m : List α}
    (hq : ∀ a ∈ l, ∀ b ∈ m, f a = f b → q a b) (h : l.map f = m.map f) : List.Forall₂ q l m := by
  induction l generalizing m with
  | nil =>
    rw [List.map_eq_nil_iff.1 h.symm]
    exact .nil
  | cons a l ih =>
    cases m with
    | nil => cases h
    | cons b m =>
      rw [List.map_cons, List.map_cons, List.cons.injEq] at h
      refine .cons (hq a (List.mem_cons_self ..) b (List.mem_cons_self ..) h.1) (ih ?_ h.2)
      exact fun a' ha b' hb => hq a' (List.mem_cons_of_mem a ha) b' (List.mem_cons_of_mem b hb)

theorem Field.IsType.sameType {s t : String} (hs : IsType s) (ht : IsType t)
    (h : squashed s = squashed t) : SameType s t := by
  obtain ⟨base, p, hs, -, hb, hp⟩ := hs
  obtain ⟨base', p', ht, -, hb', hp'⟩ := ht
  have hsq : squash s.toList = squash t.toList := String.ofList_inj.1 h
  have hrun : run isTypeRun s.toList = (base, Written.pointerText p) :=
    run_eq_iff.2 ⟨hs, hb, by simpa using Written.stops_pointerText hp stops_nil⟩
  have hrun' : run isTypeRun t.toList = (base', Written.pointerText p') :=
    run_eq_iff.2 ⟨ht, hb', by simpa using Written.stops_pointerText hp' stops_nil⟩
  have he := run_squash treatsBlanksAlike_isTypeRun s.toList
  rw [hsq, run_squash treatsBlanksAlike_isTypeRun, hrun, hrun', Prod.mk.injEq,
    Written.squash_pointerText fun q hq => (hp q hq).2,
    Written.squash_pointerText fun q hq => (hp' q hq).2,
    squash_of_not_isBlank fun c hc => isBlank_of_isTypeRun (hb c hc),
    squash_of_not_isBlank fun c hc => isBlank_of_isTypeRun (hb' c hc)] at he
  obtain ⟨rfl, he⟩ := he
  match p, p' with
  | none, none => exact .inl (String.toList_inj.1 (hs.trans ht.symm))
  | none, some q => simp [Written.pointerText] at he
  | some q, none => simp [Written.pointerText] at he
  | some (b, m), some (b', m') =>
    obtain ⟨-, hm⟩ := List.append_inj' (show squash b' ++ [m'] = squash b ++ [m] from he) rfl
    obtain rfl : m' = m := by simpa using hm
    have hq := hp (b, m') rfl
    have hq' := hp' (b', m') rfl
    exact .inr ⟨_, b, b', m', List.all_eq_true.2 hq.1, List.all_eq_true.2 hq'.1, hq.2, hs, ht⟩

namespace Description
variable {d e : Description}

theorem Tidy.resembles (hd : d.Tidy) (he : e.Tidy) (h : d.mapTypes squashed = e.mapTypes squashed) :
    d.Resembles e where
  name := by
    show (d.mapTypes squashed).name = (e.mapTypes squashed).name
    rw [h]
  marked := by
    show (d.mapTypes squashed).marked = (e.mapTypes squashed).marked
    rw [h]
  types := by
    have ht : d.types.entries.map (Prod.map id squashed) = e.types.entries.map (Prod.map id squashed) :=
      congrArg (fun d => d.types.entries) h
    refine forall₂_of_map_eq (fun x hx y hy hxy => ?_) ht
    have hxy' : x.1 = y.1 ∧ squashed x.2 = squashed y.2 := Prod.mk.injEq .. ▸ hxy
    exact ⟨hxy'.1, (hd.type x hx).sameType (he.type y hy) hxy'.2⟩

theorem resembles_of_squashed_eq {t u : String} (h : squashed t = squashed u) :
    List.Forall₂ Resembles (ofText t) (ofText u) := by
  refine forall₂_of_map_eq (f := mapTypes squashed) (fun d hd e he => ?_) ?_
  · exact (sound_of_mem_ofText hd).toTidy.resembles (sound_of_mem_ofText he).toTidy
  · rw [← ofText_squashed, ← ofText_squashed, h]

end Description

theorem Declaration.ofText_blank_append {c : Char} (hc : isBlank c = true) (t : String) :
    ofText (String.singleton c ++ t) = ofText t := by
  have hnone : Written.reader.read? (c :: t.toList) = none := by
    show Written.read? _ = none
    have : c ≠ 's' := by
      rintro rfl
      exact absurd hc (by decide)
    rw [Written.read?, Written.keyword_eq_cons, after?, if_neg this.symm]
    rfl
  rw [ofText, String.toList_append, String.toList_singleton, List.singleton_append,
    Reader.scan_cons_of_none hnone]
  rfl

/-- A text whose line ends are a return and a line feed. -/
def Text.crlf (s : String) : String :=
  String.ofList (s.toList.flatMap fun c => if c = '\n' then ['\r', '\n'] else [c])

theorem Text.squashed_crlf (t : String) : squashed (crlf t) = squashed t := by
  rw [squashed, squashed, crlf, String.toList_ofList]
  congr 1
  induction t.toList with
  | nil => rfl
  | cons c s ih =>
    rw [List.flatMap_cons]
    split
    · rename_i hc
      rw [hc, List.cons_append, List.cons_append, List.nil_append,
        squash_cons_cons (by decide) (by decide)]
      exact squash_cons_congr ih '\n'
    · exact squash_cons_congr ih c

/-- Squashing a header changes no more than the blanks within types. Headers that differ only in how long
their runs of blanks are and what they are made of, blanks in front of the first struct included, differ
at most in the blanks before pointer marks; so does a header with other line ends. -/
theorem layout_immaterial :
    (∀ t : String, Description.ofText (squashed t) =
      (Description.ofText t).map (Description.mapTypes squashed)) ∧
    (∀ t u : String, squashed (" " ++ t) = squashed (" " ++ u) →
      List.Forall₂ Description.Resembles (Description.ofText t) (Description.ofText u)) ∧
    ∀ t : String,
      List.Forall₂ Description.Resembles (Description.ofText (crlf t)) (Description.ofText t) := by
  refine ⟨Description.ofText_squashed, fun t u h => ?_, fun t => ?_⟩
  · have hblank : ∀ t : String, Description.ofText (" " ++ t) = Description.ofText t := by
      intro t
      have := Declaration.ofText_blank_append (c := ' ') (by decide) t
      exact congrArg (fun ds => (ds.map Description.ofDeclaration).filter Description.hasMarked) this
    rw [← hblank t, ← hblank u]
    exact Description.resembles_of_squashed_eq h
  · exact Description.resembles_of_squashed_eq (squashed_crlf t)

theorem layout_immaterial_indented :
    squashed (" " ++ "struct A\n\x7b [[Serialize]] N\t* p; \x7d;") =
      squashed (" " ++ "\t\tstruct A\r\n\t\t\x7b\r\n[[Serialize]] N * p;\n\x7d;") ∧
    List.Forall₂ Description.Resembles
      (Description.ofText "struct A\n\x7b [[Serialize]] N\t* p; \x7d;")
      (Description.ofText "\t\tstruct A\r\n\t\t\x7b\r\n[[Serialize]] N * p;\n\x7d;") := by
  have h : squashed (" " ++ "struct A\n\x7b [[Serialize]] N\t* p; \x7d;") =
      squashed (" " ++ "\t\tstruct A\r\n\t\t\x7b\r\n[[Serialize]] N * p;\n\x7d;") := by
    decide +kernel
  exact ⟨h, layout_immaterial.2.1 _ _ h⟩

end HeaderMeta
