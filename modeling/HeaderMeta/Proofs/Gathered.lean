import HeaderMeta.Proofs.Sound

/-!
# Catalogs that are gathered from texts

`Catalog.Gathered c` says that all descriptions of `c` came from texts: they were read off a text, or
moved from a catalog of which the same holds. No operation changes a description that is held, so what
reading a text lets in is all that has to be known of them, and every description of such a catalog is
`WellFormed` (`Catalog.wellFormed_of_gathered`). The printers rely on that: they neither escape a name or
a type nor look whether the type of a field is known.
-/

namespace HeaderMeta

open Text

/-! ### The ends of a type -/

namespace Field.IsType
variable {s : String}

theorem head (h : IsType s) {c : Char} (hc : c ∈ s.toList.head?) : isBlank c = false := by
  obtain ⟨base, pointer, hs, hne, hbase, -⟩ := h
  rw [hs, List.head?_append_of_ne_nil _ hne] at hc
  exact isBlank_of_isTypeRun (hbase c (List.mem_of_mem_head? hc))

theorem last (h : IsType s) {c : Char} (hc : c ∈ s.toList.getLast?) : isBlank c = false := by
  obtain ⟨base, pointer, hs, hne, hbase, hpointer⟩ := h
  rw [hs] at hc
  cases pointer with
  | none =>
    rw [Written.pointerText, List.append_nil] at hc
    exact isBlank_of_isTypeRun (hbase c (List.mem_of_getLast? hc))
  | some p =>
    rw [Written.pointerText, ← List.append_assoc, List.getLast?_concat] at hc
    cases hc
    exact isBlank_of_isPointerMark (hpointer p rfl).2

end Field.IsType

/-! ### What is well formed -/

/-- What separates or encloses in a header, and is in no type. -/
def punctuation : List Char :=
  [';', '{', '}', '=', ',', '.', '(', ')', '"', '\x27']

theorem Field.IsType.punctuation_notMem {s : String} (h : Field.IsType s) :
    ∀ c ∈ punctuation, c ∉ s.toList := by
  have key : punctuation.all fun c => !isBlank c && !isTypeRun c && !isPointerMark c := by
    decide
  intro c hc
  have hnone := List.all_eq_true.1 key c hc
  simp only [Bool.and_eq_true, Bool.not_eq_true'] at hnone
  exact h.notMem hnone.1.1 hnone.1.2 hnone.2

namespace Description

/-- A sound description as the printers need it: no field comes twice in the table, every marked field
comes to them with a type, and no type has a blank at an end or a character that means something
around it. -/
structure WellFormed (d : Description) : Prop extends Sound d where
  nodup : d.types.keys.Nodup
  typed : ∀ p ∈ d.markedTypes, ∃ t, p.2 = some t ∧ Field.IsType t
  trimmed : ∀ e ∈ d.types.entries,
    (∀ c ∈ e.2.toList.head?, isBlank c = false) ∧ ∀ c ∈ e.2.toList.getLast?, isBlank c = false
  plain : ∀ e ∈ d.types.entries, ∀ c ∈ punctuation, c ∉ e.2.toList

theorem Sound.wellFormed {d : Description} (h : d.Sound) : d.WellFormed where
  toSound := h
  nodup := d.types.nodup_keys
  typed p hp := by
    obtain ⟨n, hn, rfl⟩ := List.mem_map.1 hp
    exact h.exists_isType hn
  trimmed e he := ⟨fun _ => (h.type e he).head, fun _ => (h.type e he).last⟩
  plain e he := (h.type e he).punctuation_notMem

end Description

/-! ### Operations on catalogs -/

namespace Catalog
variable {c : Catalog}

/-- A catalog whose descriptions all came from texts, whatever operations it was made by: new ones are
read off texts, and others are moved from a catalog that was made so. -/
inductive Gathered : Catalog → Prop
  | empty : Gathered empty
  | ofTexts (texts : List String) : Gathered (ofTexts texts)
  | addText {c : Catalog} (gathered : Gathered c) (text : String) : Gathered (c.addText text)
  | append {c e : Catalog} (gathered : Gathered c) (source : Gathered e) {ds : List Description}
      (moved : ∀ d ∈ ds, d ∈ e.descriptions) : Gathered (c.append ds)

theorem Gathered.sound (h : c.Gathered) : ∀ d ∈ c.descriptions, d.Sound := by
  induction h with
  | empty => exact fun d hd => (List.not_mem_nil hd).elim
  | ofTexts texts => exact fun d => sound_of_mem_ofTexts
  | addText _ text ih =>
    intro d hd
    rcases List.mem_append.1 hd with hd | hd
    · exact ih d hd
    · exact Description.sound_of_mem_ofText hd
  | append _ _ moved ih ihSource =>
    intro d hd
    rcases List.mem_append.1 hd with hd | hd
    · exact ih d hd
    · exact ihSource d (moved d hd)

/-- What is held is well formed, as long as descriptions come from texts alone. -/
theorem wellFormed_of_gathered (h : c.Gathered) : ∀ d ∈ c.descriptions, d.WellFormed :=
  fun d hd => (h.sound d hd).wellFormed

/-- A catalog that takes over what was read elsewhere and then reads a text itself. -/
def mixed : Catalog :=
  (empty.append (ofTexts ["struct A \x7b [[Serialize]] T p; a::B<int>  * p = (1); \x7d;"]).descriptions).addText
    "struct Größe \x7b [[Serialize]] std::x\t& é; \x7d;"

theorem wellFormed_of_gathered_mixed :
    mixed.Gathered ∧ mixed.names = ["A", "Größe"] ∧ ∀ d ∈ mixed.descriptions, d.WellFormed := by
  have h : mixed.Gathered := (Gathered.empty.append (.ofTexts _) fun _ => id).addText _
  exact ⟨h, by decide +kernel, wellFormed_of_gathered h⟩

end Catalog

end HeaderMeta
