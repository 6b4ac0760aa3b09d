import HeaderMeta.Text.Place

/-!
# Going through a text by byte offsets

A `Point` is an offset into a text, whether it is a place of the text or not. Its steps find the next
offset by adding byte counts, as a scanner does that knows no places: `Cutting` keeps every point that it
comes to and fails where a text is cut at a point that is none of its places. `Yields m a` says that `m`
does not fail, gives `a`, and comes to places only (`Point.Proper`).

From a place each step yields what `Place` has for it, and the point that it ends at is a place again
(`takeText_yields`, `takeRun_yields`, `find_yields`, `following_yields`, `slice_yields`).
-/

namespace HeaderMeta.Text

variable {c : Char} {s u v r lit : List Char} {n : Nat} {cls : Char → Bool}

/-! ### Offsets in a text -/

/-- An offset into a text. -/
structure Point where
  text : List Char
  offset : Nat

/-- The point lies within its text, and where a character ends. -/
structure Point.Proper (p : Point) : Prop where
  le : p.offset ≤ size p.text
  place : ∃ q : Place p.text, q.offset = p.offset

/-- Keeps the points that it comes to, and fails where it cuts a text at no place. -/
abbrev Cutting :=
  StateT (List Point) Option

/-- The offset of the first end part of a text that passes a test; it may be the empty one. -/
def offsetOf? (test : List Char → Bool) : List Char → Option Nat
  | [] => if test [] then some 0 else none
  | c :: s => if test (c :: s) then some 0 else (offsetOf? test s).map (c.utf8Size + ·)

/-- Whether the first character is of a class. -/
def startsIn (cls : Char → Bool) (s : List Char) : Bool :=
  s.head?.any cls

/-- The text between two offsets. -/
def slice (text : List Char) (start stop : Nat) : Cutting (List Char) := do
  modify (⟨text, start⟩ :: ⟨text, stop⟩ :: ·)
  Place.between? text start stop

namespace Point

/-- Comes to a point. -/
def goTo (text : List Char) (n : Nat) : Cutting Point := do
  modify (⟨text, n⟩ :: ·)
  return ⟨text, n⟩

/-- The text behind a point. -/
def rest (p : Point) : Cutting (List Char) := do
  let p ← goTo p.text p.offset
  (cut? p.text p.offset).map Prod.snd

/-- The point that lies a number of bytes behind another. -/
def forward (p : Point) (n : Nat) : Point :=
  ⟨p.text, p.offset + n⟩

/-- The character at a point. -/
def peek (p : Point) : Cutting (Option Char) := do
  return (← p.rest).head?

/-- Goes past a literal if the text continues with it. -/
def takeText (lit : List Char) (p : Point) : Cutting (Bool × Point) := do
  if lit.isPrefixOf (← p.rest) then return (true, p.forward (size lit)) else return (false, p)

/-- Goes past a character if it is next. -/
def takeChar (c : Char) (p : Point) : Cutting (Bool × Point) := do
  if (← p.peek) = some c then return (true, p.forward c.utf8Size) else return (false, p)

/-- Goes past the longest run of a class of characters and gives the run. -/
def takeRun (cls : Char → Bool) (p : Point) : Cutting (List Char × Point) := do
  let s ← p.rest
  let q := p.forward ((offsetOf? (startsIn fun c => !cls c) s).getD (size s))
  return (← slice p.text p.offset q.offset, q)

/-- Goes past blanks and gives the number of their bytes. -/
def skipBlanks (p : Point) : Cutting (Nat × Point) := do
  let (s, q) ← p.takeRun isBlank
  return (size s, q)

/-- The offset of the next `c` at or behind a point. -/
def find (c : Char) (p : Point) : Cutting (Option Nat) := do
  return (offsetOf? (startsIn (· == c)) (← p.rest)).map (p.offset + ·)

/-- The offset behind the character at a point; at the end of the text, one more than its size. -/
def following (p : Point) : Cutting Nat := do
  return p.offset + ((← p.rest).head?.map Char.utf8Size).getD 1

end Point

theorem offsetOf?_startsIn (cls : Char → Bool) (s : List Char) :
    offsetOf? (startsIn cls) s = if s.any cls then some (size (run (fun c => !cls c) s).1) else none := by
  induction s with
  | nil => rfl
  | cons c s ih =>
    rw [offsetOf?, ih, run_cons]
    cases hc : cls c with
    | true => simp [startsIn, hc]
    | false =>
      simp only [startsIn, List.head?_cons, Option.any_some, hc, Bool.false_eq_true, if_false,
        List.any_cons, Bool.false_or, Bool.not_false, if_true, size_cons]
      split <;> rfl

/-- A run ends at the first character outside its class, or with the text. -/
theorem offsetOf?_startsIn_not (cls : Char → Bool) (s : List Char) :
    (offsetOf? (startsIn fun c => !cls c) s).getD (size s) = size (run cls s).1 := by
  rw [offsetOf?_startsIn]
  simp only [Bool.not_not]
  split
  · rfl
  · rename_i h
    have hall : ∀ c ∈ s, cls c = true := by simpa using h
    rw [Option.getD_none, run_eq_iff.2 ⟨(List.append_nil s).symm, hall, stops_nil⟩]

theorem after?_eq_none_iff : after? lit s = none ↔ ¬ lit <+: s := by
  constructor
  · rintro h ⟨r, hr⟩
    rw [after?_eq_some_iff.2 hr.symm] at h
    cases h
  · intro h
    cases hafter : after? lit s with
    | none => rfl
    | some r => exact absurd ⟨r, (after?_eq_some_iff.1 hafter).symm⟩ h

theorem isPrefixOf_eq (lit s : List Char) : lit.isPrefixOf s = (after? lit s).isSome := by
  rw [Bool.eq_iff_iff, List.isPrefixOf_iff_prefix, Option.isSome_iff_exists]
  exact exists_congr fun r => eq_comm.trans after?_eq_some_iff.symm

/-! ### Steps that do not fail -/

/-- `m` gives `a`, and every point it comes to is proper. -/
def Yields {α : Type} (m : Cutting α) (a : α) : Prop :=
  ∀ ps : List Point, (∀ p ∈ ps, p.Proper) → ∃ qs : List Point, m.run ps = some (a, qs) ∧ ∀ p ∈ qs, p.Proper

namespace Yields
variable {α β : Type} {a : α} {b : β} {m : Cutting α} {f : α → Cutting β}

theorem pure (a : α) : Yields (Pure.pure a) a :=
  fun ps h => ⟨ps, rfl, h⟩

theorem bind (hm : Yields m a) (hf : Yields (f a) b) : Yields (m >>= f) b := by
  intro ps hps
  obtain ⟨qs, hm, hqs⟩ := hm ps hps
  obtain ⟨rs, hf, hrs⟩ := hf qs hqs
  exact ⟨rs, by rw [StateT.run_bind, hm]; exact hf, hrs⟩

theorem lift {o : Option α} (h : o = some a) : Yields (liftM o : Cutting α) a := by
  subst h
  exact fun ps hps => ⟨ps, rfl, hps⟩

theorem come (news : List Point) (h : ∀ p ∈ news, p.Proper) : Yields (modify (news ++ ·)) () :=
  fun ps hps => ⟨news ++ ps, rfl, fun p hp => (List.mem_append.1 hp).elim (h p) (hps p)⟩

theorem mapM {g : α → β} (h : ∀ a, Yields (f a) (g a)) (as : List α) : Yields (as.mapM f) (as.map g) := by
  induction as with
  | nil =>
    rw [List.mapM_nil]
    exact .pure _
  | cons a as ih =>
    rw [List.mapM_cons]
    exact (h a).bind (ih.bind (.pure _))

end Yields

namespace Place
variable {text : List Char} {p q : Place text}

/-- A place as a point. -/
def point (p : Place text) : Point :=
  ⟨text, p.offset⟩

theorem offset_add_size_after (p : Place text) : p.offset + size p.after = size text := by
  rw [offset, ← size_append, p.before_append_after]

theorem proper_point (p : Place text) : p.point.Proper :=
  ⟨p.offset_add_size_after ▸ Nat.le_add_right .., p, rfl⟩

theorem offset_advance (p : Place text) (h : u ++ v = p.after) : (p.advance h).offset = p.offset + size u := by
  rw [offset, advance, size_append, offset]

theorem point_advance (p : Place text) (h : u ++ v = p.after) :
    (p.advance h).point = p.point.forward (size u) := by
  rw [point, offset_advance]
  rfl

theorem goTo_yields (p : Place text) : Yields (Point.goTo text p.offset) p.point :=
  (Yields.come [p.point] (by simpa using p.proper_point)).bind (.pure _)

theorem rest_yields (p : Place text) : Yields p.point.rest p.after := by
  refine p.goTo_yields.bind (.lift ?_)
  have hcut : cut? text p.offset = some (p.before, p.after) :=
    cut?_eq_some_iff.2 ⟨p.before_append_after.symm, rfl⟩
  exact congrArg (Option.map Prod.snd) hcut

/-- Inside a character no text can be cut. -/
example : (Point.mk ['é'] 1).rest.run [] = none := rfl

theorem peek_yields (p : Place text) : Yields p.point.peek p.next? :=
  p.rest_yields.bind (.pure _)

theorem following_yields (p : Place text) : Yields p.point.following p.following :=
  p.rest_yields.bind (.pure _)

theorem slice_yields (h : q.before = p.before ++ u) : Yields (slice text p.offset q.offset) u := by
  refine (Yields.come [p.point, q.point] ?_).bind (.lift ?_)
  · simpa using ⟨p.proper_point, q.proper_point⟩
  · have hq : cut? text q.offset = some (q.before, q.after) :=
      cut?_eq_some_iff.2 ⟨q.before_append_after.symm, rfl⟩
    have hp : cut? q.before p.offset = some (p.before, u) := cut?_eq_some_iff.2 ⟨h, rfl⟩
    simp only [between?, hq, hp, bind, Option.bind_some, pure]

theorem next?_eq_some_iff : p.next? = some c ↔ [c] <+: p.after := by
  rw [next?, List.head?_eq_some_iff]
  exact exists_congr fun r => eq_comm

theorem takeText_of_append (h : lit ++ r = p.after) : p.takeText lit = (true, p.advance h) := by
  unfold takeText
  split <;> rename_i h' <;> rw [after?_eq_some_iff.2 h.symm] at h' <;> cases h'
  rfl

theorem takeText_of_none (h : after? lit p.after = none) : p.takeText lit = (false, p) := by
  unfold takeText
  split <;> rename_i h' <;> rw [h] at h'
  cases h'

theorem takeRun_of_eq (h : run cls p.after = (u, v)) :
    p.takeRun cls = (u, p.advance (run_eq_iff.1 h).1.symm) := by
  obtain rfl : (run cls p.after).1 = u := by rw [h]
  obtain rfl : (run cls p.after).2 = v := by rw [h]
  rfl

theorem takeText_yields (lit : List Char) (p : Place text) :
    Yields (p.point.takeText lit) ((p.takeText lit).1, (p.takeText lit).2.point) := by
  refine p.rest_yields.bind ?_
  rw [isPrefixOf_eq]
  cases h : after? lit p.after with
  | none =>
    rw [takeText_of_none h]
    exact .pure _
  | some r =>
    rw [takeText_of_append (after?_eq_some_iff.1 h).symm, point_advance]
    exact .pure _

theorem takeChar_yields (c : Char) (p : Place text) :
    Yields (p.point.takeChar c) ((p.takeText [c]).1, (p.takeText [c]).2.point) := by
  refine p.peek_yields.bind ?_
  cases h : after? [c] p.after with
  | none =>
    rw [if_neg (mt next?_eq_some_iff.1 (after?_eq_none_iff.1 h)), takeText_of_none h]
    exact .pure _
  | some r =>
    have happend := (after?_eq_some_iff.1 h).symm
    rw [if_pos (next?_eq_some_iff.2 ⟨r, happend⟩), takeText_of_append happend, point_advance]
    exact .pure _

theorem takeRun_yields (cls : Char → Bool) (p : Place text) :
    Yields (p.point.takeRun cls) ((p.takeRun cls).1, (p.takeRun cls).2.point) := by
  refine p.rest_yields.bind ?_
  obtain ⟨u, v, h⟩ : ∃ u v, run cls p.after = (u, v) := ⟨_, _, rfl⟩
  have happend := (run_eq_iff.1 h).1.symm
  rw [offsetOf?_startsIn_not, h, takeRun_of_eq h]
  simp only [← point_advance p happend]
  exact (slice_yields (q := p.advance happend) rfl).bind (.pure _)

theorem skipBlanks_yields (p : Place text) :
    Yields p.point.skipBlanks (size (p.takeRun isBlank).1, (p.takeRun isBlank).2.point) :=
  (p.takeRun_yields isBlank).bind (.pure _)

theorem find_yields (c : Char) (p : Place text) : Yields (p.point.find c) (p.find? c) := by
  refine p.rest_yields.bind ?_
  have hany : (p.after.any (· == c)) = decide (c ∈ p.after) := by
    rw [Bool.eq_iff_iff, List.any_eq_true, decide_eq_true_eq]
    exact ⟨fun ⟨d, hd, he⟩ => beq_iff_eq.1 he ▸ hd, fun h => ⟨c, h, beq_self_eq_true c⟩⟩
  rw [offsetOf?_startsIn, hany, find?]
  by_cases h : c ∈ p.after
  · simp only [h, decide_true, if_true]
    exact .pure _
  · simp only [h, decide_false, Bool.false_eq_true, if_false]
    exact .pure _

/-! The same steps, by what stands behind the place. -/

theorem exists_takeText (h : after? lit p.after = some r) :
    ∃ q : Place text, q.after = r ∧ q.before = p.before ++ lit ∧
      Yields (p.point.takeText lit) (true, q.point) := by
  have happend := (after?_eq_some_iff.1 h).symm
  have htake := p.takeText_yields lit
  rw [takeText_of_append happend] at htake
  exact ⟨p.advance happend, rfl, rfl, htake⟩

theorem takeText_yields_of_none (h : after? lit p.after = none) :
    Yields (p.point.takeText lit) (false, p.point) := by
  have htake := p.takeText_yields lit
  rwa [takeText_of_none h] at htake

theorem exists_takeChar (h : after? [c] p.after = some r) :
    ∃ q : Place text, q.after = r ∧ q.before = p.before ++ [c] ∧
      Yields (p.point.takeChar c) (true, q.point) := by
  have happend := (after?_eq_some_iff.1 h).symm
  have htake := p.takeChar_yields c
  rw [takeText_of_append happend] at htake
  exact ⟨p.advance happend, rfl, rfl, htake⟩

theorem takeChar_yields_of_none (h : after? [c] p.after = none) :
    Yields (p.point.takeChar c) (false, p.point) := by
  have htake := p.takeChar_yields c
  rwa [takeText_of_none h] at htake

theorem exists_takeRun (h : run cls p.after = (u, v)) :
    ∃ q : Place text, q.after = v ∧ q.before = p.before ++ u ∧
      Yields (p.point.takeRun cls) (u, q.point) := by
  have htake := p.takeRun_yields cls
  rw [takeRun_of_eq h] at htake
  exact ⟨p.advance (run_eq_iff.1 h).1.symm, rfl, rfl, htake⟩

theorem exists_skipBlanks (h : run isBlank p.after = (u, v)) :
    ∃ q : Place text, q.after = v ∧ q.before = p.before ++ u ∧
      Yields p.point.skipBlanks (size u, q.point) := by
  have hskip := p.skipBlanks_yields
  rw [takeRun_of_eq h] at hskip
  exact ⟨p.advance (run_eq_iff.1 h).1.symm, rfl, rfl, hskip⟩

/-- A character is found where the run of the others ends. -/
theorem find_cases (h : run (· != c) p.after = (u, v)) :
    (v = [] ∧ Yields (p.point.find c) none) ∨
      ∃ (q : Place text) (r : List Char), v = c :: r ∧ q.after = v ∧ q.before = p.before ++ u ∧
        Yields (p.point.find c) (some q.offset) := by
  have hfind := p.find_yields c
  obtain ⟨happend, hu, hv⟩ := run_eq_iff.1 h
  have hnot : c ∉ u := fun hc => by simpa using hu c hc
  cases v with
  | nil =>
    rw [List.append_nil] at happend
    rw [find?, if_neg (happend ▸ hnot)] at hfind
    exact .inl ⟨rfl, hfind⟩
  | cons d r =>
    obtain rfl : d = c := by simpa using hv
    have hmem : d ∈ p.after := by rw [happend]; simp
    rw [find?, if_pos hmem, h, ← offset_advance p happend.symm] at hfind
    exact .inr ⟨p.advance happend.symm, r, rfl, rfl, rfl, hfind⟩

theorem offset_eq_of_before (h : q.before = p.before ++ u) : q.offset = p.offset + size u := by
  rw [offset, h, size_append, offset]

theorem before_eq_of_after (h : p.after = u ++ q.after) : q.before = p.before ++ u := by
  have hsame := q.before_append_after.trans p.before_append_after.symm
  rw [h, ← List.append_assoc] at hsame
  exact List.append_cancel_right hsame

theorem offset_eq_of_after (h : p.after = u ++ q.after) : q.offset = p.offset + size u :=
  offset_eq_of_before (before_eq_of_after h)

end Place

end HeaderMeta.Text
