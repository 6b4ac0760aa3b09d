import Mathlib.Order.Bounds.Basic
import HeaderMeta.Proofs.Offsets
import HeaderMeta.Proofs.Trail

/-!
# What the moves of a reader do

`Place.Goes` says of each move what it may answer and where it ends: what is taken stands in front of what is
left then, and a run ends where its class does. `Place.perform` does exactly that (`perform_eq_some_iff`).
`Point.perform` makes the same moves from offset to offset, by adding numbers of bytes. Started at a place it
comes to places only and goes on until a text is to be cut where no character ends (`steps_accounted`).
-/

namespace HeaderMeta.Text

namespace Place
variable {text u lit : List Char} {p q : Place text} {m : Move} {a : Answer} {c : Char} {cls : Char → Bool}
  {n : Nat}

/-- The offsets of the places at or behind `p` where `c` stands. -/
def offsetsFrom (p : Place text) (c : Char) : Set Nat :=
  {n | ∃ q : Place text, p.offset ≤ q.offset ∧ q.next? = some c ∧ q.offset = n}

/-- A move that starts at `p`, its answer, and the place where it ends. -/
inductive Goes (p : Place text) : Move → Answer → Place text → Prop
  | look : Goes p .look (.char p.next?) p
  | rest : Goes p .rest (.text p.after) p
  | char {c : Char} {q : Place text} (h : p.after = c :: q.after) : Goes p (.takeChar c) (.flag true) q
  | noChar {c : Char} (h : p.next? ≠ some c) : Goes p (.takeChar c) (.flag false) p
  | literal {lit : List Char} {q : Place text} (h : p.after = lit ++ q.after) :
      Goes p (.takeText lit) (.flag true) q
  | noLiteral {lit : List Char} (h : ¬ lit <+: p.after) : Goes p (.takeText lit) (.flag false) p
  | blanks {u : List Char} {q : Place text} (h : p.after = u ++ q.after) (hu : ∀ c ∈ u, isBlank c = true)
      (hq : Stops isBlank q.after) : Goes p .skipBlanks (.bytes (size u)) q
  | run {cls : Char → Bool} {u : List Char} {q : Place text} (h : p.after = u ++ q.after)
      (hu : ∀ c ∈ u, cls c = true) (hq : Stops cls q.after) : Goes p (.takeRun cls) (.text u) q
  | found {c : Char} {n : Nat} (h : IsLeast (p.offsetsFrom c) n) : Goes p (.find c) (.offset (some n)) p
  | notFound {c : Char} (h : p.offsetsFrom c = ∅) : Goes p (.find c) (.offset none) p
  | jump {q : Place text} : Goes p (.goTo q.offset) .done q
  | between {i j : Place text} {u : List Char} (h : j.before = i.before ++ u) :
      Goes p (.between i.offset j.offset) (.text u) p

/-- Only a jump leads back. -/
theorem Goes.offset_le (h : p.Goes m a q) (hm : ∀ n, m ≠ .goTo n) : p.offset ≤ q.offset := by
  cases h with
  | look | rest | noChar | noLiteral | found | notFound | between => exact Nat.le_refl _
  | @char c q h =>
    rw [offset_eq_of_after (u := [c]) h]
    exact Nat.le_add_right ..
  | literal h | blanks h | run h =>
    rw [offset_eq_of_after h]
    exact Nat.le_add_right ..
  | jump => exact absurd rfl (hm _)

/-! ### What each move does -/

theorem advance_eq (h : u ++ q.after = p.after) : p.advance h = q :=
  ext (before_eq_of_after h.symm).symm

theorem exists_after_of_offset_le (h : p.offset ≤ q.offset) : ∃ x, p.after = x ++ q.after := by
  obtain ⟨x, -, hx⟩ := exists_of_size_le (p.before_append_after.trans q.before_append_after.symm) h
  exact ⟨x, hx⟩

theorem takeText_eq_true_iff : p.takeText lit = (true, q) ↔ p.after = lit ++ q.after := by
  constructor
  · intro h
    cases hafter : after? lit p.after with
    | none =>
      rw [takeText_of_none hafter] at h
      cases h
    | some r =>
      have happend := (after?_eq_some_iff.1 hafter).symm
      rw [takeText_of_append happend] at h
      cases h
      exact happend.symm
  · intro h
    rw [takeText_of_append h.symm, advance_eq h.symm]

theorem takeText_eq_false_iff : p.takeText lit = (false, q) ↔ ¬ lit <+: p.after ∧ q = p := by
  rw [← after?_eq_none_iff]
  cases h : after? lit p.after with
  | none =>
    rw [takeText_of_none h]
    simp [eq_comm]
  | some r =>
    rw [takeText_of_append (after?_eq_some_iff.1 h).symm]
    simp

theorem takeRun_eq_iff :
    p.takeRun cls = (u, q) ↔ p.after = u ++ q.after ∧ (∀ c ∈ u, cls c = true) ∧ Stops cls q.after := by
  constructor
  · intro h
    obtain ⟨x, y, hrun⟩ : ∃ x y, run cls p.after = (x, y) := ⟨_, _, rfl⟩
    rw [takeRun_of_eq hrun] at h
    cases h
    exact run_eq_iff.1 hrun
  · intro h
    rw [takeRun_of_eq (run_eq_iff.2 h), advance_eq h.1.symm]

/-- A character stands first where the run of the others ends. -/
theorem isLeast_offsetsFrom (h : c ∈ p.after) :
    IsLeast (p.offsetsFrom c) (p.offset + size (run (· != c) p.after).1) := by
  obtain ⟨x, y, hrun⟩ : ∃ x y, run (· != c) p.after = (x, y) := ⟨_, _, rfl⟩
  obtain ⟨happend, hx, hy⟩ := run_eq_iff.1 hrun
  have hnot : c ∉ x := fun hc => by simpa using hx c hc
  obtain ⟨r, rfl⟩ : ∃ r, y = c :: r := by
    cases y with
    | nil => rw [happend, List.append_nil] at h; exact absurd h hnot
    | cons d r => exact ⟨r, by rw [show d = c by simpa using hy]⟩
  rw [hrun, ← offset_advance p happend.symm]
  refine ⟨⟨p.advance happend.symm, ?_, rfl, rfl⟩, ?_⟩
  · rw [offset_advance]
    exact Nat.le_add_right ..
  · rintro _ ⟨q, hle, hq, rfl⟩
    obtain ⟨z, hz⟩ := exists_after_of_offset_le hle
    rw [offset_advance, offset_eq_of_after hz]
    by_contra hlt
    -- `q` would lie inside the run
    obtain ⟨w, hw, hrest⟩ := exists_of_size_le (hz.symm.trans happend) (by omega)
    cases w with
    | nil =>
      rw [List.append_nil] at hw
      rw [hw] at hlt
      exact hlt (Nat.le_refl _)
    | cons d w =>
      rw [next?, hrest, List.cons_append, List.head?_cons, Option.some.injEq] at hq
      exact hnot (by rw [hw, hq]; simp)

theorem offsetsFrom_eq_empty_iff : p.offsetsFrom c = ∅ ↔ c ∉ p.after := by
  constructor
  · intro h hc
    have hmem := (isLeast_offsetsFrom hc).1
    rw [h] at hmem
    exact hmem
  · intro h
    refine Set.eq_empty_of_forall_notMem ?_
    rintro _ ⟨q, hle, hq, rfl⟩
    obtain ⟨z, hz⟩ := exists_after_of_offset_le hle
    rw [hz] at h
    exact h (List.mem_append_right z (List.mem_of_mem_head? hq))

theorem find?_eq_some_iff : p.find? c = some n ↔ IsLeast (p.offsetsFrom c) n := by
  unfold find?
  by_cases h : c ∈ p.after
  · rw [if_pos h, Option.some.injEq]
    constructor
    · rintro rfl
      exact isLeast_offsetsFrom h
    · exact (isLeast_offsetsFrom h).unique
  · rw [if_neg h, offsetsFrom_eq_empty_iff.2 h]
    simp [IsLeast]

theorem find?_eq_none_iff : p.find? c = none ↔ p.offsetsFrom c = ∅ := by
  rw [offsetsFrom_eq_empty_iff, find?]
  split <;> simp [*]

theorem between?_eq_some_iff {k : Nat} :
    between? text n k = some u ↔
      ∃ i j : Place text, i.offset = n ∧ j.offset = k ∧ j.before = i.before ++ u := by
  simp only [between?, bind, pure, Option.bind_eq_some_iff, Prod.exists, cut?_eq_some_iff,
    Option.some.injEq]
  constructor
  · rintro ⟨x, y, ⟨rfl, rfl⟩, z, _, ⟨rfl, rfl⟩, rfl⟩
    exact ⟨⟨z, _, (List.append_assoc ..).symm⟩, ⟨_, _, rfl⟩, rfl, rfl, rfl⟩
  · rintro ⟨i, j, rfl, rfl, h⟩
    exact ⟨j.before, j.after, ⟨j.before_append_after.symm, rfl⟩, i.before, u, ⟨h, rfl⟩, rfl⟩

/-! ### The moves -/

theorem goes_takeText (p : Place text) (lit : List Char) :
    p.Goes (.takeText lit) (.flag (p.takeText lit).1) (p.takeText lit).2 := by
  rcases h : p.takeText lit with ⟨_ | _, q⟩
  · obtain ⟨hnot, rfl⟩ := takeText_eq_false_iff.1 h
    exact .noLiteral hnot
  · exact .literal (takeText_eq_true_iff.1 h)

theorem goes_takeChar (p : Place text) (c : Char) :
    p.Goes (.takeChar c) (.flag (p.takeText [c]).1) (p.takeText [c]).2 := by
  rcases h : p.takeText [c] with ⟨_ | _, q⟩
  · obtain ⟨hnot, rfl⟩ := takeText_eq_false_iff.1 h
    exact .noChar (mt next?_eq_some_iff.1 hnot)
  · exact .char (takeText_eq_true_iff.1 h)

theorem goes_takeRun (p : Place text) (cls : Char → Bool) :
    p.Goes (.takeRun cls) (.text (p.takeRun cls).1) (p.takeRun cls).2 := by
  obtain ⟨h, hu, hq⟩ := takeRun_eq_iff.1 (rfl : p.takeRun cls = (_, _))
  exact .run h hu hq

theorem goes_skipBlanks (p : Place text) :
    p.Goes .skipBlanks (.bytes (size (p.takeRun isBlank).1)) (p.takeRun isBlank).2 := by
  obtain ⟨h, hu, hq⟩ := takeRun_eq_iff.1 (rfl : p.takeRun isBlank = (_, _))
  exact .blanks h hu hq

theorem goes_find (p : Place text) (c : Char) : p.Goes (.find c) (.offset (p.find? c)) p := by
  cases h : p.find? c with
  | none => exact .notFound (find?_eq_none_iff.1 h)
  | some n => exact .found (find?_eq_some_iff.1 h)

theorem goes_of_perform (h : p.perform m = some (a, q)) : p.Goes m a q := by
  cases m with
  | look => cases h; exact .look
  | rest => cases h; exact .rest
  | takeChar c => cases h; exact p.goes_takeChar c
  | takeText lit => cases h; exact p.goes_takeText lit
  | skipBlanks => cases h; exact p.goes_skipBlanks
  | takeRun cls => cases h; exact p.goes_takeRun cls
  | find c => cases h; exact p.goes_find c
  | goTo n =>
    obtain ⟨q, hat, he⟩ := Option.map_eq_some_iff.1 h
    cases he
    obtain rfl := at?_eq_some_iff.1 hat
    exact .jump
  | between start stop =>
    obtain ⟨u, hu, he⟩ := Option.map_eq_some_iff.1 h
    cases he
    obtain ⟨i, j, rfl, rfl, hbefore⟩ := between?_eq_some_iff.1 hu
    exact .between hbefore

theorem perform_of_goes (h : p.Goes m a q) : p.perform m = some (a, q) := by
  cases h with
  | look | rest => rfl
  | @char c q h => rw [perform, takeText_eq_true_iff.2 (show p.after = [c] ++ q.after from h)]
  | noChar h => rw [perform, takeText_eq_false_iff.2 ⟨mt next?_eq_some_iff.2 h, rfl⟩]
  | literal h => rw [perform, takeText_eq_true_iff.2 h]
  | noLiteral h => rw [perform, takeText_eq_false_iff.2 ⟨h, rfl⟩]
  | blanks h hu hq | run h hu hq => rw [perform, takeRun_eq_iff.2 ⟨h, hu, hq⟩]
  | found h => rw [perform, find?_eq_some_iff.2 h]
  | notFound h => rw [perform, find?_eq_none_iff.2 h]
  | jump => rw [perform, at?_eq_some_iff.2 rfl, Option.map_some]
  | between h => rw [perform, between?_eq_some_iff.2 ⟨_, _, rfl, rfl, h⟩, Option.map_some]

theorem perform_eq_some_iff : p.perform m = some (a, q) ↔ p.Goes m a q :=
  ⟨goes_of_perform, perform_of_goes⟩

end Place

/-! ### Moves by byte offsets -/

/-- The answer to a move and the point after it, found by adding numbers of bytes. -/
def Point.perform (p : Point) : Place.Move → Cutting (Place.Answer × Point)
  | .look => do return (.char (← p.peek), p)
  | .rest => do return (.text (← p.rest), p)
  | .takeChar c => do let (b, q) ← p.takeChar c; return (.flag b, q)
  | .takeText lit => do let (b, q) ← p.takeText lit; return (.flag b, q)
  | .skipBlanks => do let (n, q) ← p.skipBlanks; return (.bytes n, q)
  | .takeRun cls => do let (s, q) ← p.takeRun cls; return (.text s, q)
  | .find c => do return (.offset (← p.find c), p)
  | .goTo n => do return (.done, ← goTo p.text n)
  | .between start stop => do return (.text (← slice p.text start stop), p)

/-- One move of several: where it starts, and the answer and the point after it; none if it cuts the text at
no place. -/
structure Step where
  start : Point
  move : Place.Move
  outcome : Option (Place.Answer × Point)

/-- What a step tells, with the offset after it. -/
def Step.told (s : Step) : Option (Place.Answer × Nat) :=
  s.outcome.map fun (a, q) => (a, q.offset)

/-- The moves one after another, to the end or to the first that fails. -/
def Point.steps (p : Point) : List Place.Move → List Step
  | [] => []
  | m :: ms =>
    match (p.perform m).run' [] with
    | some (a, q) => ⟨p, m, some (a, q)⟩ :: q.steps ms
    | none => [⟨p, m, none⟩]

/-- A step goes from a place to a place, and back only by a jump. What it takes and answers is as `Place.Goes`
has it. It fails only if it is to show the text between two offsets that are no places in this order. -/
structure Step.Accounted (text : List Char) (s : Step) : Prop where
  start_proper : s.start.Proper
  stop_proper : ∀ a q, s.outcome = some (a, q) → q.Proper
  offset_le : ∀ a q, s.outcome = some (a, q) → (∀ n, s.move ≠ .goTo n) → s.start.offset ≤ q.offset
  goes : ∀ a q, s.outcome = some (a, q) →
    ∃ p₁ p₂ : Place text, p₁.point = s.start ∧ p₂.point = q ∧ p₁.Goes s.move a p₂
  refused : s.outcome = none →
    ∃ i j, s.move = .between i j ∧ ((Point.mk text i).Proper → (Point.mk text j).Proper → j < i)

variable {text : List Char} {p q : Place text} {m : Place.Move} {ms : List Place.Move} {a : Place.Answer}

theorem Yields.run'_eq {α : Type} {m : Cutting α} {a : α} (h : Yields m a) : m.run' [] = some a := by
  obtain ⟨qs, hm, -⟩ := h [] (by simp)
  exact congrArg (Option.map Prod.fst) hm

theorem Place.perform_yields (h : p.perform m = some (a, q)) : Yields (p.point.perform m) (a, q.point) := by
  cases m with
  | look => cases h; exact p.peek_yields.bind (.pure _)
  | rest => cases h; exact p.rest_yields.bind (.pure _)
  | takeChar c => cases h; exact (p.takeChar_yields c).bind (.pure _)
  | takeText lit => cases h; exact (p.takeText_yields lit).bind (.pure _)
  | skipBlanks => cases h; exact p.skipBlanks_yields.bind (.pure _)
  | takeRun cls => cases h; exact (p.takeRun_yields cls).bind (.pure _)
  | find c => cases h; exact (p.find_yields c).bind (.pure _)
  | goTo n =>
    obtain ⟨q, hat, he⟩ := Option.map_eq_some_iff.1 h
    cases he
    obtain rfl := at?_eq_some_iff.1 hat
    exact q.goTo_yields.bind (.pure _)
  | between start stop =>
    obtain ⟨u, hu, he⟩ := Option.map_eq_some_iff.1 h
    cases he
    obtain ⟨i, j, rfl, rfl, hbefore⟩ := between?_eq_some_iff.1 hu
    exact (slice_yields hbefore).bind (.pure _)

/-- Only a jump to no place and a text between two offsets that are none fail. -/
theorem Place.exists_of_perform_eq_none (h : p.perform m = none) :
    (∃ n, m = .goTo n ∧ at? text n = none) ∨ ∃ i j, m = .between i j ∧ between? text i j = none := by
  cases m with
  | goTo n => exact .inl ⟨n, rfl, Option.map_eq_none_iff.1 h⟩
  | between i j => exact .inr ⟨i, j, rfl, Option.map_eq_none_iff.1 h⟩
  | look | rest | takeChar | takeText | skipBlanks | takeRun | find => cases h

theorem Point.steps_of_perform (h : p.perform m = some (a, q)) :
    p.point.steps (m :: ms) = ⟨p.point, m, some (a, q.point)⟩ :: q.point.steps ms := by
  rw [steps, (Place.perform_yields h).run'_eq]

theorem Point.steps_of_between {i j : Nat} (h : Place.between? text i j = none) :
    p.point.steps (.between i j :: ms) = [⟨p.point, .between i j, none⟩] := by
  have hperform : (p.point.perform (.between i j)).run' [] = none := by
    simp [perform, slice, Place.point, h]
  rw [steps, hperform]

theorem Place.Goes.accounted (h : p.Goes m a q) : Step.Accounted text ⟨p.point, m, some (a, q.point)⟩ where
  start_proper := p.proper_point
  stop_proper b r he := by cases he; exact q.proper_point
  offset_le b r he hm := by cases he; exact h.offset_le hm
  goes b r he := by cases he; exact ⟨p, q, rfl, rfl, h⟩
  refused he := by cases he

/-- The text between two places can be shown. -/
theorem Place.lt_of_between?_eq_none {i j : Nat} (h : between? text i j = none)
    (hi : (Point.mk text i).Proper) (hj : (Point.mk text j).Proper) : j < i := by
  obtain ⟨p, rfl⟩ : ∃ p : Place text, p.offset = i := hi.place
  obtain ⟨q, rfl⟩ : ∃ q : Place text, q.offset = j := hj.place
  by_contra hle
  obtain ⟨u, hu, -⟩ :=
    exists_of_size_le (p.before_append_after.trans q.before_append_after.symm) (Nat.not_lt.1 hle)
  rw [between?_eq_some_iff.2 ⟨p, q, rfl, rfl, hu⟩] at h
  cases h

theorem Step.accounted_of_between {i j : Nat} (h : Place.between? text i j = none) :
    Step.Accounted text ⟨p.point, .between i j, none⟩ where
  start_proper := p.proper_point
  stop_proper b r he := by cases he
  offset_le b r he := by cases he
  goes b r he := by cases he
  refused _ := ⟨i, j, rfl, Place.lt_of_between?_eq_none h⟩

theorem Point.Proper.at?_ne_none {n : Nat} (h : (Point.mk text n).Proper) : Place.at? text n ≠ none := by
  obtain ⟨q, hq⟩ := h.place
  rw [Place.at?_eq_some_iff.2 hq]
  exact Option.some_ne_none q

/-- Moves by byte offsets are accounted for step by step as long as all jumps lead to places, and give the
answers and the offsets that moves from place to place give. -/
theorem Point.steps_accounted (p : Place text) (ms : List Place.Move)
    (h : ∀ n, Place.Move.goTo n ∈ ms → (Point.mk text n).Proper) :
    (∀ s ∈ p.point.steps ms, s.Accounted text) ∧
      p.performAll ms = (p.point.steps ms).mapM Step.told := by
  induction ms generalizing p with
  | nil => exact ⟨by simp [steps], rfl⟩
  | cons m ms ih =>
    cases hperform : p.perform m with
    | some x =>
      obtain ⟨a, q⟩ := x
      obtain ⟨hsteps, hall⟩ := ih q fun n hn => h n (List.mem_cons_of_mem m hn)
      rw [steps_of_perform hperform]
      refine ⟨List.forall_mem_cons.2 ⟨(Place.perform_eq_some_iff.1 hperform).accounted, hsteps⟩, ?_⟩
      rw [Place.performAll, hperform, List.mapM_cons, ← hall]
      rfl
    | none =>
      rcases Place.exists_of_perform_eq_none hperform with ⟨n, rfl, hat⟩ | ⟨i, j, rfl, hbetween⟩
      · exact absurd hat (h n List.mem_cons_self).at?_ne_none
      rw [steps_of_between hbetween]
      refine ⟨List.forall_mem_singleton.2 (Step.accounted_of_between hbetween), ?_⟩
      rw [Place.performAll, hperform]
      rfl

/-- The place in front of a text that starts with a letter of two bytes. -/
def Place.accented : Place "é = 1;".toList :=
  ⟨[], _, rfl⟩

/-- Moves of every kind that goes on, a jump, and at last a cut inside the letter. -/
def accentedMoves : List Place.Move :=
  [.takeChar 'é', .skipBlanks, .find ';', .goTo 2, .takeRun isBlank, .takeText ['='], .between 0 1]

theorem Point.steps_accounted_accented :
    (∀ n, Place.Move.goTo n ∈ accentedMoves → (Point.mk "é = 1;".toList n).Proper) ∧
    (∀ s ∈ Place.accented.point.steps accentedMoves, s.Accounted "é = 1;".toList) ∧
    (Place.accented.point.steps accentedMoves).map (fun s => s.told.map Prod.snd) =
      [some 2, some 3, some 3, some 2, some 3, some 4, none] := by
  have hproper : ∀ n, Place.Move.goTo n ∈ accentedMoves → (Point.mk "é = 1;".toList n).Proper := by
    intro n hn
    obtain rfl : n = 2 := by simpa [accentedMoves] using hn
    exact ⟨by decide, ⟨['é'], " = 1;".toList, rfl⟩, by decide⟩
  exact ⟨hproper, (steps_accounted Place.accented accentedMoves hproper).1, by decide +kernel⟩

end HeaderMeta.Text
