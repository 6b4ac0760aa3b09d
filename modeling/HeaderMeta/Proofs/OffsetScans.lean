import HeaderMeta.Proofs.OffsetReads

/-!
# Scans by byte offsets

`Declaration.byOffsets` and `Field.byOffsets` go through a text from origin to origin, each turn with the
offset where the one before it ended, and `Description.byOffsets` goes through a text and then through the
body of each struct. A turn that starts at a place ends at a later one (`Advances`), so a scan comes to its
end (`scanWithin_yields`), finds what `Reader.scan` finds, and never cuts a text anywhere but between two
characters (`byOffsets_proper`).
-/

namespace HeaderMeta

open Text

namespace Text
variable {α β : Type} {text s u v : List Char}

/-- What comes of one turn of a scan: the offset to go on from, and perhaps an item. -/
inductive Turn (β : Type) where
  | ended
  | passed (origin : Nat)
  | found (b : β) (origin : Nat)

/-- Takes turns until one ends the scan, and gives the items and the origins. More turns than `limit` are a
failure. -/
def scanWithin (turn : Nat → Cutting (Turn β)) : (limit origin : Nat) → Cutting (List β × List Nat)
  | 0, _ => failure
  | limit + 1, origin => do
    match ← turn origin with
    | .ended => return ([], [origin])
    | .passed next =>
      let (bs, origins) ← scanWithin turn limit next
      return (bs, origin :: origins)
    | .found b next =>
      let (bs, origins) ← scanWithin turn limit next
      return (b :: bs, origin :: origins)

/-- Keeps what is found at a point, or passes over one character. -/
def turnAt (p : Point) (find : Cutting (Option (β × Nat))) : Cutting (Turn β) := do
  match ← find with
  | some (b, stop) => return .found b stop
  | none => return .passed (← p.following)

/-- From `p` the turn ends the scan or goes on from a later place, and the items are as `items` has them. -/
inductive Advances (items : List Char → List β) (p : Place text) (m : Cutting (Turn β)) : Prop
  | ended : items p.after = [] → Yields m .ended → Advances items p m
  | passed {q : Place text} : p.offset < q.offset → items p.after = items q.after →
      Yields m (.passed q.offset) → Advances items p m
  | found {b : β} {q : Place text} : p.offset < q.offset → items p.after = b :: items q.after →
      Yields m (.found b q.offset) → Advances items p m

theorem Advances.bind {items : List Char → List β} {p : Place text} {m : Cutting α} {a : α}
    {f : α → Cutting (Turn β)} (hm : Yields m a) (h : Advances items p (f a)) : Advances items p (m >>= f) := by
  cases h with
  | ended hitems hy => exact .ended hitems (Yields.bind hm hy)
  | passed hlt hitems hy => exact .passed hlt hitems (Yields.bind hm hy)
  | found hlt hitems hy => exact .found hlt hitems (Yields.bind hm hy)

/-- A turn may go on from a later place if there is nothing before it. -/
theorem Advances.of_later {items : List Char → List β} {p q : Place text} {m : Cutting (Turn β)}
    (h : Advances items q m) (hle : p.offset ≤ q.offset) (hsame : items p.after = items q.after) :
    Advances items p m := by
  cases h with
  | ended hitems hy => exact .ended (hsame.trans hitems) hy
  | passed hlt hitems hy => exact .passed (hle.trans_lt hlt) (hsame.trans hitems) hy
  | found hlt hitems hy => exact .found (hle.trans_lt hlt) (hsame.trans hitems) hy

/-- Places of the text, each behind the one before it. -/
structure Origins (text : List Char) (ns : List Nat) : Prop where
  increasing : ns.Pairwise (· < ·)
  proper : ∀ n ∈ ns, (Point.mk text n).Proper

theorem Origins.cons {p q : Place text} {ns : List Nat} (h : Origins text (q.offset :: ns))
    (hlt : p.offset < q.offset) : Origins text (p.offset :: q.offset :: ns) where
  increasing := by
    refine List.pairwise_cons.2 ⟨fun n hn => ?_, h.increasing⟩
    rcases List.mem_cons.1 hn with rfl | hn
    · exact hlt
    · exact hlt.trans ((List.pairwise_cons.1 h.increasing).1 n hn)
  proper := List.forall_mem_cons.2 ⟨p.proper_point, h.proper⟩

/-- If every turn advances, a scan ends, with a turn for each byte that is left at the most. -/
theorem scanWithin_yields {items : List Char → List β} {turn : Nat → Cutting (Turn β)}
    (h : ∀ p : Place text, Advances items p (turn p.offset)) {limit : Nat} {p : Place text}
    (hlimit : size text < p.offset + limit) :
    ∃ ns, Yields (scanWithin turn limit p.offset) (items p.after, p.offset :: ns) ∧
      Origins text (p.offset :: ns) := by
  induction limit generalizing p with
  | zero =>
    have hle : p.offset ≤ size text := p.proper_point.le
    omega
  | succ limit ih =>
    rw [scanWithin]
    cases h p with
    | ended hitems hy =>
      rw [hitems]
      refine ⟨[], hy.bind (.pure _), List.pairwise_singleton _ _, fun n hn => ?_⟩
      rw [List.mem_singleton.1 hn]
      exact p.proper_point
    | @passed q hlt hitems hy =>
      obtain ⟨ns, hscan, hns⟩ := ih (p := q) (by omega)
      rw [hitems]
      exact ⟨q.offset :: ns, hy.bind (hscan.bind (.pure _)), hns.cons hlt⟩
    | @found b q hlt hitems hy =>
      obtain ⟨ns, hscan, hns⟩ := ih (p := q) (by omega)
      rw [hitems]
      exact ⟨q.offset :: ns, hy.bind (hscan.bind (.pure _)), hns.cons hlt⟩

theorem scanWithin_size_yields {items : List Char → List β} {turn : Nat → Cutting (Turn β)}
    (h : ∀ p : Place text, Advances items p (turn p.offset)) :
    ∃ origins, Yields (scanWithin turn (size text + 1) 0) (items text, origins) ∧ Origins text origins := by
  have hlimit : size text < (Place.mk [] text rfl).offset + (size text + 1) := by omega
  obtain ⟨ns, hy, hns⟩ := scanWithin_yields h hlimit
  exact ⟨_, hy, hns⟩

theorem Place.offset_lt_of_length_lt {p q : Place text} (h : q.after.length < p.after.length) :
    p.offset < q.offset := by
  by_contra hle
  have happend : q.before ++ q.after = p.before ++ p.after :=
    q.before_append_after.trans p.before_append_after.symm
  obtain ⟨x, -, hx⟩ := exists_of_size_le happend (Nat.not_lt.1 hle)
  rw [hx, List.length_append] at h
  omega

/-- Where something stands, a turn keeps what is read there or passes over one character. -/
theorem turnAt_advances {R : Reader α} {f : α → β} {p : Place text} {find : Cutting (Option (β × Nat))}
    (hfind : Agrees text find ((R.read? p.after).map fun (a, r) => (f a, r))) (hp : p.after ≠ []) :
    Advances (fun s => (R.scan s).map f) p (turnAt p.point find) := by
  cases h : R.read? p.after with
  | some x =>
    obtain ⟨a, r⟩ := x
    rw [h] at hfind
    obtain ⟨q, rfl, hy⟩ := hfind
    refine .found (Place.offset_lt_of_length_lt (R.shortens h)) ?_ (hy.bind (.pure _))
    rw [Reader.scan_of_read? h, List.map_cons]
  | none =>
    rw [h] at hfind
    obtain ⟨c, s, hs⟩ := List.exists_cons_of_ne_nil hp
    have happend : [c] ++ s = p.after := hs.symm
    have hfollowing : p.following = (p.advance happend).offset := by
      rw [Place.following, Place.next?, hs, Place.offset_advance]
      rfl
    refine .passed (q := p.advance happend) ?_ ?_ (Yields.bind hfind (p.following_yields.bind ?_))
    · exact Place.offset_lt_of_length_lt (by rw [hs]; exact Nat.lt_succ_self _)
    · rw [hs] at h ⊢
      rw [Reader.scan_cons_of_none h]
      rfl
    · rw [hfollowing]
      exact .pure _

/-- Where nothing can be read, a scan may go on from the next place that passes a test. -/
theorem offsetOf?_cases {R : Reader α} {test : List Char → Bool} (h : ∀ s, test s = false → R.read? s = none)
    (s : List Char) :
    (offsetOf? test s = none ∧ R.scan s = []) ∨
      ∃ u v, s = u ++ v ∧ offsetOf? test s = some (size u) ∧ test v = true ∧ R.scan s = R.scan v := by
  induction s with
  | nil =>
    rw [offsetOf?]
    cases ht : test [] with
    | true => exact .inr ⟨[], [], rfl, rfl, ht, rfl⟩
    | false => exact .inl ⟨rfl, by rw [Reader.scan]⟩
  | cons c s ih =>
    rw [offsetOf?]
    cases ht : test (c :: s) with
    | true => exact .inr ⟨[], c :: s, rfl, rfl, ht, rfl⟩
    | false =>
      rw [Reader.scan_cons_of_none (h _ ht)]
      rcases ih with ⟨ho, hscan⟩ | ⟨u, v, rfl, ho, hv, hscan⟩
      · exact .inl ⟨by rw [ho]; rfl, hscan⟩
      · exact .inr ⟨c :: u, v, rfl, by rw [ho]; rfl, hv, hscan⟩

end Text

/-! ### The scans -/

/-- A turn of a scan for structs: the next keyword is looked for, and a struct there. -/
def Declaration.turn (text : List Char) (origin : Nat) : Cutting (Turn Declaration) := do
  let s ← (Point.mk text origin).rest
  match offsetOf? keyword.isPrefixOf s with
  | none => return .ended
  | some n => turnAt ⟨text, origin + n⟩ (atOffset text (origin + n))

/-- The structs of a text, and the origins of the turns. -/
def Declaration.byOffsets (text : String) : Cutting (List Declaration × List Nat) :=
  scanWithin (turn text.toList) (size text.toList + 1) 0

/-- A turn of a scan for fields: a field is looked for everywhere but at the end. -/
def Field.turn (text : List Char) (origin : Nat) : Cutting (Turn Field) :=
  if origin < size text then turnAt ⟨text, origin⟩ (atOffset text origin) else return .ended

/-- The fields of a body, and the origins of the turns. -/
def Field.byOffsets (body : String) : Cutting (List Field × List Nat) :=
  scanWithin (turn body.toList) (size body.toList + 1) 0

/-- The structs of a header that have a field to register. -/
def Description.byOffsets (text : String) : Cutting (List Description) := do
  let (declarations, _) ← Declaration.byOffsets text
  let descriptions ← declarations.mapM fun d => do
    let (fields, _) ← Field.byOffsets d.body
    return ofFields d.name fields
  return descriptions.filter hasMarked

variable {text : List Char}

theorem Declaration.turn_advances (p : Place text) :
    Advances (fun s => (Written.reader.scan s).map ofWritten) p (turn text p.offset) := by
  have hnone : ∀ s, keyword.isPrefixOf s = false → Written.reader.read? s = none := by
    intro s hs
    rw [isPrefixOf_eq, Option.isSome_eq_false_iff, Option.isNone_iff_eq_none] at hs
    show Written.read? s = none
    rw [read?_eq, hs, Option.bind_none]
  rcases offsetOf?_cases hnone p.after with ⟨ho, hscan⟩ | ⟨u, v, hs, ho, hv, hscan⟩
  · refine .ended (by rw [hscan]; rfl) (p.rest_yields.bind ?_)
    rw [ho]
    exact .pure _
  · have happend : u ++ v = p.after := hs.symm
    have hoffset := p.offset_advance happend
    have hv : v ≠ [] := by
      rintro rfl
      exact absurd hv (by decide)
    have hturn := turnAt_advances (R := Written.reader) (atOffset_agrees (p.advance happend)) hv
    rw [hoffset, Place.point_advance] at hturn
    refine Advances.bind p.rest_yields ?_
    rw [ho]
    exact hturn.of_later (by omega) (congrArg _ hscan)

theorem Field.turn_advances (p : Place text) :
    Advances (fun s => (Written.reader.scan s).map ofWritten) p (turn text p.offset) := by
  have hsize := p.offset_add_size_after
  unfold turn
  split
  · have hp : p.after ≠ [] := by
      intro h
      rw [h, size_nil] at hsize
      omega
    exact turnAt_advances (atOffset_agrees p) hp
  · have hp : p.after = [] := by
      rw [← size_eq_zero_iff]
      omega
    exact .ended (by rw [hp, Reader.scan]; rfl) (.pure _)

theorem Declaration.byOffsets_yields (text : String) :
    ∃ origins, Yields (byOffsets text) (ofText text, origins) ∧ Origins text.toList origins :=
  scanWithin_size_yields turn_advances

theorem Field.byOffsets_yields (body : String) :
    ∃ origins, Yields (byOffsets body) (ofBody body, origins) ∧ Origins body.toList origins :=
  scanWithin_size_yields turn_advances

theorem Description.byOffsets_yields (text : String) : Yields (byOffsets text) (ofText text) := by
  obtain ⟨origins, hdeclarations, -⟩ := Declaration.byOffsets_yields text
  refine hdeclarations.bind (Yields.bind (.mapM (g := ofDeclaration) (fun d => ?_) _) (.pure _))
  obtain ⟨origins, hfields, -⟩ := Field.byOffsets_yields d.body
  exact hfields.bind (.pure _)

/-- A scan by byte offsets comes to its end in every text, with what a scan from character to character
finds. Each turn starts behind the one before it, and all offsets that it comes to are within the text
and where a character ends. -/
theorem byOffsets_proper (text : String) :
    (∃ origins cuts, (Declaration.byOffsets text).run [] = some ((Declaration.ofText text, origins), cuts) ∧
      Origins text.toList origins ∧ ∀ p ∈ cuts, p.Proper) ∧
    (∃ origins cuts, (Field.byOffsets text).run [] = some ((Field.ofBody text, origins), cuts) ∧
      Origins text.toList origins ∧ ∀ p ∈ cuts, p.Proper) ∧
    ∃ cuts, (Description.byOffsets text).run [] = some (Description.ofText text, cuts) ∧
      ∀ p ∈ cuts, p.Proper := by
  refine ⟨?_, ?_, Description.byOffsets_yields text [] (by simp)⟩
  · obtain ⟨origins, hy, horigins⟩ := Declaration.byOffsets_yields text
    obtain ⟨cuts, hrun, hcuts⟩ := hy [] (by simp)
    exact ⟨origins, cuts, hrun, horigins, hcuts⟩
  · obtain ⟨origins, hy, horigins⟩ := Field.byOffsets_yields text
    obtain ⟨cuts, hrun, hcuts⟩ := hy [] (by simp)
    exact ⟨origins, cuts, hrun, horigins, hcuts⟩

/-- Characters of two, three and four bytes are passed over as a whole. -/
example : ((Field.byOffsets "é€😀").run []).map (·.1.2) = some [0, 2, 5, 9] := by
  decide +kernel

end HeaderMeta
