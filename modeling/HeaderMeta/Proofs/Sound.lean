import HeaderMeta.Catalog
import HeaderMeta.Proofs.DeclarationSpans
import HeaderMeta.Proofs.FieldSpans

/-!
# Sound descriptions

What a scan can let into a description. A name is a run of word characters (`IsName`), and the text of
a type is a run of type characters with perhaps a pointer mark (`Field.IsType`). A description is
`Sound` if it is made of such texts, has a marked field, and knows the type of every marked field.
Recording a field keeps all of that but the marked field (`Description.Tidy.addField`), and what is
read off a text has one (`Description.sound_of_mem_ofText`).

The printers put these texts between punctuation of their own without looking at them: no name and no
type holds a character outside its classes (`IsName.notMem`, `Field.IsType.notMem`).
-/

namespace HeaderMeta

open Text

/-! ### Names and types -/

/-- A run of word characters, at least one. -/
def IsName (s : String) : Prop :=
  s.toList ≠ [] ∧ ∀ c ∈ s.toList, isWord c = true

/-- A run of type characters, at least one, and perhaps a pointer mark with blanks before it. -/
def Field.IsType (s : String) : Prop :=
  ∃ base pointer, s.toList = base ++ Written.pointerText pointer ∧ base ≠ [] ∧
    (∀ c ∈ base, isTypeRun c = true) ∧
    ∀ p ∈ pointer, (∀ c ∈ p.1, isBlank c = true) ∧ isPointerMark p.2 = true

theorem isName_ofList {s : List Char} (hne : s ≠ []) (hs : ∀ c ∈ s, isWord c = true) :
    IsName (String.ofList s) := by
  rw [IsName, String.toList_ofList]
  exact ⟨hne, hs⟩

theorem IsName.notMem {s : String} (h : IsName s) {c : Char} (hc : isWord c = false) :
    c ∉ s.toList := by
  intro hm
  rw [h.2 c hm] at hc
  cases hc

theorem Field.IsType.notMem {s : String} (h : IsType s) {c : Char} (hb : isBlank c = false)
    (ht : isTypeRun c = false) (hp : isPointerMark c = false) : c ∉ s.toList := by
  obtain ⟨base, pointer, hs, -, hbase, hpointer⟩ := h
  intro hm
  rw [hs] at hm
  rcases List.mem_append.1 hm with hm | hm
  · rw [hbase c hm] at ht; cases ht
  · cases pointer with
    | none => cases hm
    | some p =>
      obtain ⟨h₁, h₂⟩ := hpointer p rfl
      rcases List.mem_append.1 hm with hm | hm
      · rw [h₁ c hm] at hb; cases hb
      · rw [List.mem_singleton.1 hm, h₂] at hp; cases hp

theorem IsName.dot_notMem {s : String} (h : IsName s) : '.' ∉ s.toList :=
  h.notMem (by decide +kernel)

theorem IsName.semicolon_notMem {s : String} (h : IsName s) : ';' ∉ s.toList :=
  h.notMem (by decide +kernel)

theorem Field.IsType.dot_notMem {s : String} (h : IsType s) : '.' ∉ s.toList :=
  h.notMem (by decide) (by decide +kernel) (by decide)

theorem Field.IsType.semicolon_notMem {s : String} (h : IsType s) : ';' ∉ s.toList :=
  h.notMem (by decide) (by decide +kernel) (by decide)

/-! ### Structs and fields as they are read -/

theorem Declaration.isName_of_mem_ofText {t : String} {d : Declaration} (h : d ∈ ofText t) :
    IsName d.name := by
  obtain ⟨w, hw, rfl⟩ := List.mem_map.1 h
  have hv : w.Valid := Reader.valid_of_mem_scan Written.reader_reads hw
  exact isName_ofList hv.name_ne_nil hv.name

theorem Field.isName_of_mem_ofBody {b : String} {f : Field} (h : f ∈ ofBody b) : IsName f.name := by
  obtain ⟨w, hw, rfl⟩ := List.mem_map.1 h
  have hv : w.Valid := Reader.valid_of_mem_scan Written.reader_reads hw
  exact isName_ofList hv.name_ne_nil hv.name

theorem Field.Written.Valid.isType {w : Field.Written} (h : w.Valid) :
    Field.IsType (String.ofList w.type) :=
  ⟨w.base, w.pointer, String.toList_ofList, h.base_ne_nil, h.base, h.pointer⟩

theorem Field.isType_of_mem_ofBody {b : String} {f : Field} (h : f ∈ ofBody b) : IsType f.type := by
  obtain ⟨w, hw, rfl⟩ := List.mem_map.1 h
  have hv : w.Valid := Reader.valid_of_mem_scan Written.reader_reads hw
  exact hv.isType

/-! ### Descriptions -/

namespace Description
variable {d : Description} {f : Field} {t : String}

/-- The names of fields are names, their types are types, and every marked field has a type. -/
structure Tidy (d : Description) : Prop where
  marked : ∀ n ∈ d.marked, n ∈ d.types.keys
  key : ∀ n ∈ d.types.keys, IsName n
  type : ∀ e ∈ d.types.entries, Field.IsType e.2

/-- A tidy description with a name and a marked field. -/
structure Sound (d : Description) : Prop extends Tidy d where
  name : IsName d.name
  marked_ne_nil : d.marked ≠ []

theorem Sound.isName_of_mem_marked (h : d.Sound) {n : String} (hn : n ∈ d.marked) : IsName n :=
  h.key n (h.marked n hn)

theorem Tidy.isType_of_get? (h : d.Tidy) {n : String} (ht : d.types.get? n = some t) :
    Field.IsType t := by
  obtain ⟨l, m, he, -⟩ := List.lookup_eq_some_iff.1 ht
  exact h.type (n, t) (by rw [he]; simp)

theorem Tidy.exists_isType (h : d.Tidy) {n : String} (hn : n ∈ d.marked) :
    ∃ t, d.types.get? n = some t ∧ Field.IsType t := by
  obtain ⟨e, he, rfl⟩ := List.mem_map.1 (h.marked n hn)
  cases ht : d.types.get? e.1 with
  | none => exact absurd (List.lookup_eq_none_iff.1 ht e he) (by simp)
  | some t => exact ⟨t, rfl, h.isType_of_get? ht⟩

theorem tidy_named (n : String) : (named n).Tidy where
  marked _ h := by cases h
  key _ h := by cases h
  type _ h := by cases h

theorem mem_keys_addField {n : String} :
    n ∈ (d.addField f).types.keys ↔ n ∈ d.types.keys ∨ n = f.name := by
  show n ∈ (d.types.insert f.name f.type).keys ↔ _
  rw [TypeTable.keys_insert]
  split
  · constructor
    · exact .inl
    · rintro (h | rfl)
      · exact h
      · assumption
  · rw [List.mem_append, List.mem_singleton]

theorem Tidy.addField (h : d.Tidy) (hn : IsName f.name) (ht : Field.IsType f.type) :
    (d.addField f).Tidy where
  marked n hm := by
    rw [mem_keys_addField]
    change n ∈ (if f.marked then d.marked ++ [f.name] else d.marked) at hm
    split at hm
    · rcases List.mem_append.1 hm with hm | hm
      · exact .inl (h.marked n hm)
      · exact .inr (List.mem_singleton.1 hm)
    · exact .inl (h.marked n hm)
  key n hk := by
    rcases mem_keys_addField.1 hk with hk | rfl
    · exact h.key n hk
    · exact hn
  type e he := by
    rcases Keyed.eq_or_mem_of_mem_put he with rfl | he
    · exact ht
    · exact h.type e he

theorem tidy_foldl_addField {fields : List Field}
    (hf : ∀ f ∈ fields, IsName f.name ∧ Field.IsType f.type) (h : d.Tidy) : (fields.foldl addField d).Tidy := by
  induction fields generalizing d with
  | nil => exact h
  | cons f fields ih =>
    obtain ⟨hn, ht⟩ := hf f (List.mem_cons_self ..)
    exact ih (fun g hg => hf g (List.mem_cons_of_mem f hg)) (h.addField hn ht)

@[simp] theorem name_foldl_addField (fields : List Field) :
    (fields.foldl addField d).name = d.name := by
  induction fields generalizing d with
  | nil => rfl
  | cons f fields ih => exact ih

theorem sound_of_mem_ofText (h : d ∈ ofText t) : d.Sound := by
  obtain ⟨hd, hm⟩ := List.mem_filter.1 h
  obtain ⟨e, he, rfl⟩ := List.mem_map.1 hd
  have ht : (ofDeclaration e).Tidy := tidy_foldl_addField
    (fun f hf => ⟨Field.isName_of_mem_ofBody hf, Field.isType_of_mem_ofBody hf⟩) (tidy_named e.name)
  refine { ht with name := ?_, marked_ne_nil := ?_ }
  · rw [ofDeclaration, ofFields, name_foldl_addField]
    exact Declaration.isName_of_mem_ofText he
  · simpa [hasMarked] using hm

end Description

theorem Catalog.sound_of_mem_ofTexts {texts : List String} {d : Description}
    (h : d ∈ (ofTexts texts).descriptions) : d.Sound := by
  rw [descriptions_ofTexts] at h
  obtain ⟨t, -, ht⟩ := List.mem_flatMap.1 h
  exact Description.sound_of_mem_ofText ht

/-! ### Marked fields of a text -/

theorem flatMap_filter_isEmpty {α β : Type} (f : α → List β) (l : List α) :
    (l.filter fun a => !(f a).isEmpty).flatMap f = l.flatMap f := by
  induction l with
  | nil => rfl
  | cons a l ih =>
    cases h : f a with
    | nil => rw [List.filter_cons_of_neg (by simp [h]), ih, List.flatMap_cons, h, List.nil_append]
    | cons b bs => rw [List.filter_cons_of_pos (by simp [h]), List.flatMap_cons, List.flatMap_cons, ih]

/-- The structs that are dropped have no marked field. -/
theorem Description.flatMap_marked_ofText (t : String) :
    (ofText t).flatMap marked = (Declaration.ofText t).flatMap fun e => (ofDeclaration e).marked := by
  have hdrop := flatMap_filter_isEmpty marked ((Declaration.ofText t).map ofDeclaration)
  rw [List.flatMap_map] at hdrop
  exact hdrop

end HeaderMeta
