import HeaderMeta.Proofs.Trail

/-!
# Patterns and backtracking

A `Pattern` is a regular expression with numbered groups. `Pattern.ways` lists the ways to match it
at the front of a text in the order in which a backtracking matcher comes to them: of two
alternatives the left one first, of a repetition more rounds before fewer. The matcher stops at the
first way (`Pattern.first?`), and `Pattern.findAll` goes through a text from left to right and takes
up behind each match.

`Pattern.Denotes` says what a pattern matches, in no order. The matcher comes to all of that and to
nothing else (`mem_ways_iff`). If a pattern matches in one way wherever an item can be read, and
nowhere else, the order does not count, and `findAll` stops where the scan does
(`findAll_eq_map_trail`).
-/

namespace HeaderMeta.Text

/-- A regular expression. -/
inductive Pattern where
  /-- Matches the empty text. -/
  | nothing
  /-- Matches one character of a class. -/
  | char (p : Char → Bool)
  /-- Matches `a` and behind it `b`. -/
  | seq (a b : Pattern)
  /-- Matches `a` or, if that leads to nothing, `b`. -/
  | alt (a b : Pattern)
  /-- Matches `a` as often as possible, or less often if that leads to nothing. -/
  | star (a : Pattern)
  /-- Matches `a` and keeps its text under the number `n`. -/
  | group (n : Nat) (a : Pattern)

namespace Pattern

/-- At least one round of a pattern. -/
def plus (a : Pattern) : Pattern :=
  .seq a (.star a)

/-- A pattern that may be left out. -/
def opt (a : Pattern) : Pattern :=
  .alt a .nothing

/-- Patterns one behind another. -/
def all (ps : List Pattern) : Pattern :=
  ps.foldr .seq .nothing

/-- A literal text. -/
def lit (s : List Char) : Pattern :=
  all (s.map fun c => .char (· == c))

/-- One way to match: the text, the groups with the last one first, and what follows. -/
structure Match where
  text : List Char
  groups : List (Nat × List Char)
  rest : List Char

/-- The text that a group has matched last, if it took part. -/
def Match.group? (m : Match) (n : Nat) : Option (List Char) :=
  m.groups.lookup n

/-- A match and one that follows it. -/
def Match.andThen (m k : Match) : Match :=
  ⟨m.text ++ k.text, k.groups ++ m.groups, k.rest⟩

/-- The ways to match one round after another, each round made by `step`, more rounds first. A round
that takes nothing is not made. -/
def rounds (step : List Char → List Match) (s : List Char) : List Match :=
  ((step s).flatMap fun m =>
    if _h : m.rest.length < s.length then (rounds step m.rest).map m.andThen else []) ++ [⟨[], [], s⟩]
termination_by s.length

/-- The ways to match a pattern at the front of a text, the preferred one first. -/
def ways : Pattern → List Char → List Match
  | nothing, s => [⟨[], [], s⟩]
  | char _, [] => []
  | char p, c :: s => if p c then [⟨[c], [], s⟩] else []
  | seq a b, s => (a.ways s).flatMap fun m => (b.ways m.rest).map m.andThen
  | alt a b, s => a.ways s ++ b.ways s
  | star a, s => rounds a.ways s
  | group n a, s => (a.ways s).map fun m => ⟨m.text, (n, m.text) :: m.groups, m.rest⟩

/-- The match that a backtracking matcher ends with. -/
def first? (P : Pattern) (s : List Char) : Option Match :=
  (P.ways s).head?

/-- The matches in a text from left to right, none of them overlapping another. Behind an empty
match the search goes on one character later. -/
def findAll (P : Pattern) : List Char → List Match
  | [] => (P.first? []).toList
  | c :: s =>
    match P.first? (c :: s) with
    | some m => m :: P.findAll (if m.rest.length ≤ s.length then m.rest else s)
    | none => P.findAll s
termination_by s => s.length
decreasing_by
  · split <;> simp; omega
  · simp

/-! ### What a pattern matches -/

/-- `P.Denotes t g`: the pattern matches all of `t` with the groups `g`. -/
inductive Denotes : Pattern → List Char → List (Nat × List Char) → Prop where
  | nothing : Denotes nothing [] []
  | char {p : Char → Bool} {c : Char} : p c = true → Denotes (char p) [c] []
  | seq {a b t u g h} : Denotes a t g → Denotes b u h → Denotes (seq a b) (t ++ u) (h ++ g)
  | left {a b t g} : Denotes a t g → Denotes (alt a b) t g
  | right {a b t g} : Denotes b t g → Denotes (alt a b) t g
  | done {a} : Denotes (star a) [] []
  | more {a t u g h} : Denotes a t g → t ≠ [] → Denotes (star a) u h →
      Denotes (star a) (t ++ u) (h ++ g)
  | group {n a t g} : Denotes a t g → Denotes (group n a) t ((n, t) :: g)

variable {P a b : Pattern} {s t : List Char} {g : List (Nat × List Char)} {m : Match}

theorem mem_rounds_iff (ha : ∀ s m, m ∈ a.ways s ↔ s = m.text ++ m.rest ∧ a.Denotes m.text m.groups) :
    m ∈ rounds a.ways s ↔ s = m.text ++ m.rest ∧ (star a).Denotes m.text m.groups := by
  induction hn : s.length using Nat.strongRecOn generalizing s m with
  | _ n ih =>
    subst hn
    rw [rounds, List.mem_append, List.mem_flatMap, List.mem_singleton]
    constructor
    · rintro (⟨k, hk, hm⟩ | rfl)
      · obtain ⟨hs, hd⟩ := (ha s k).1 hk
        split at hm
        · rename_i hlt
          obtain ⟨l, hl, rfl⟩ := List.mem_map.1 hm
          obtain ⟨hr, hd'⟩ := (ih _ hlt rfl).1 hl
          refine ⟨by simp [Match.andThen, hs, ← hr], .more hd ?_ hd'⟩
          intro he
          rw [hs, he] at hlt
          exact absurd hlt (by simp)
        · cases hm
      · exact ⟨rfl, .done⟩
    · rintro ⟨rfl, hd⟩
      obtain ⟨text, groups, rest⟩ := m
      dsimp only at hd ⊢
      cases hd with
      | done => exact .inr rfl
      | @more _ t u g h hd hne hd' =>
        refine .inl ⟨⟨t, g, u ++ rest⟩, (ha _ _).2 ⟨by simp, hd⟩, ?_⟩
        have hlt : (u ++ rest).length < (t ++ u ++ rest).length := by
          have := List.length_pos_iff.2 hne
          simp only [List.length_append]; omega
        rw [dif_pos hlt]
        refine List.mem_map.2 ⟨⟨u, h, rest⟩, (ih _ hlt rfl).2 ⟨rfl, hd'⟩, rfl⟩

/-- The matcher comes to everything that a pattern matches at the front of a text, and to nothing
else. -/
theorem mem_ways_iff : m ∈ P.ways s ↔ s = m.text ++ m.rest ∧ P.Denotes m.text m.groups := by
  induction P generalizing s m with
  | nothing =>
    obtain ⟨text, groups, rest⟩ := m
    simp only [ways, List.mem_singleton, Match.mk.injEq]
    constructor
    · rintro ⟨rfl, rfl, rfl⟩; exact ⟨rfl, .nothing⟩
    · rintro ⟨rfl, hd⟩; cases hd; exact ⟨rfl, rfl, rfl⟩
  | char p =>
    obtain ⟨text, groups, rest⟩ := m
    constructor
    · intro h
      cases s with
      | nil => cases h
      | cons c s =>
        rw [ways] at h
        split at h
        · obtain ⟨rfl, rfl, rfl⟩ := Match.mk.injEq .. ▸ List.mem_singleton.1 h
          exact ⟨rfl, .char ‹_›⟩
        · cases h
    · rintro ⟨rfl, hd⟩
      cases hd with
      | char hc => simp [ways, hc]
  | seq a b iha ihb =>
    rw [ways, List.mem_flatMap]
    constructor
    · rintro ⟨k, hk, hm⟩
      obtain ⟨l, hl, rfl⟩ := List.mem_map.1 hm
      obtain ⟨hs, hd⟩ := iha.1 hk
      obtain ⟨hr, hd'⟩ := ihb.1 hl
      exact ⟨by simp [Match.andThen, hs, ← hr], .seq hd hd'⟩
    · rintro ⟨rfl, hd⟩
      obtain ⟨text, groups, rest⟩ := m
      cases hd with
      | @seq _ _ t u g h hd hd' =>
        refine ⟨⟨t, g, u ++ rest⟩, iha.2 ⟨by simp, hd⟩, ?_⟩
        exact List.mem_map.2 ⟨⟨u, h, rest⟩, ihb.2 ⟨rfl, hd'⟩, rfl⟩
  | alt a b iha ihb =>
    rw [ways, List.mem_append, iha, ihb]
    constructor
    · rintro (⟨hs, hd⟩ | ⟨hs, hd⟩)
      · exact ⟨hs, .left hd⟩
      · exact ⟨hs, .right hd⟩
    · rintro ⟨hs, hd⟩
      cases hd with
      | left hd => exact .inl ⟨hs, hd⟩
      | right hd => exact .inr ⟨hs, hd⟩
  | star a iha => exact mem_rounds_iff fun s m => iha
  | group n a iha =>
    rw [ways, List.mem_map]
    constructor
    · rintro ⟨k, hk, rfl⟩
      obtain ⟨hs, hd⟩ := iha.1 hk
      exact ⟨hs, .group hd⟩
    · rintro ⟨rfl, hd⟩
      obtain ⟨text, groups, rest⟩ := m
      dsimp only at hd
      cases hd with
      | @group _ _ _ g hd => exact ⟨⟨text, g, rest⟩, iha.2 ⟨rfl, hd⟩, rfl⟩

example : ((star (.char (· == 'a'))).ways "aab".toList).map Match.text = [['a', 'a'], ['a'], []] := by
  cbv

/-! ### What the constructors match -/

theorem denotes_nothing_iff : nothing.Denotes t g ↔ t = [] ∧ g = [] := by
  constructor
  · rintro ⟨⟩; exact ⟨rfl, rfl⟩
  · rintro ⟨rfl, rfl⟩; exact .nothing

theorem denotes_char_iff {p : Char → Bool} :
    (char p).Denotes t g ↔ ∃ c, t = [c] ∧ g = [] ∧ p c = true := by
  constructor
  · rintro ⟨⟩; exact ⟨_, rfl, rfl, ‹_›⟩
  · rintro ⟨c, rfl, rfl, hc⟩; exact .char hc

theorem denotes_seq_iff : (seq a b).Denotes t g ↔
    ∃ u v h k, t = u ++ v ∧ g = k ++ h ∧ a.Denotes u h ∧ b.Denotes v k := by
  constructor
  · rintro ⟨⟩; exact ⟨_, _, _, _, rfl, rfl, ‹_›, ‹_›⟩
  · rintro ⟨u, v, h, k, rfl, rfl, ha, hb⟩; exact .seq ha hb

theorem denotes_group_iff {n : Nat} :
    (group n a).Denotes t g ↔ ∃ h, g = (n, t) :: h ∧ a.Denotes t h := by
  constructor
  · rintro ⟨⟩; exact ⟨_, rfl, ‹_›⟩
  · rintro ⟨h, rfl, ha⟩; exact .group ha

theorem denotes_opt_iff : (opt a).Denotes t g ↔ a.Denotes t g ∨ t = [] ∧ g = [] := by
  rw [← denotes_nothing_iff]
  constructor
  · rintro ⟨⟩
    · exact .inl ‹_›
    · exact .inr ‹_›
  · rintro (h | h)
    · exact .left h
    · exact .right h

theorem denotes_all_cons_iff {ps : List Pattern} : (all (a :: ps)).Denotes t g ↔
    ∃ u v h k, t = u ++ v ∧ g = k ++ h ∧ a.Denotes u h ∧ (all ps).Denotes v k :=
  denotes_seq_iff

theorem denotes_all_nil_iff : (all []).Denotes t g ↔ t = [] ∧ g = [] :=
  denotes_nothing_iff

theorem denotes_star_char_iff {p : Char → Bool} :
    (star (char p)).Denotes t g ↔ g = [] ∧ ∀ c ∈ t, p c = true := by
  constructor
  · intro h
    generalize hP : star (char p) = P at h
    induction h with
    | done => simp
    | more ha _ _ _ ih =>
      cases hP
      obtain ⟨c, rfl, rfl, hc⟩ := denotes_char_iff.1 ha
      obtain ⟨rfl, hu⟩ := ih rfl
      exact ⟨rfl, List.forall_mem_cons.2 ⟨hc, hu⟩⟩
    | _ => cases hP
  · rintro ⟨rfl, ht⟩
    induction t with
    | nil => exact .done
    | cons c t ih =>
      obtain ⟨hc, ht⟩ := List.forall_mem_cons.1 ht
      exact .more (.char hc) (List.cons_ne_nil c []) (ih ht)

theorem denotes_plus_char_iff {p : Char → Bool} :
    (plus (char p)).Denotes t g ↔ g = [] ∧ t ≠ [] ∧ ∀ c ∈ t, p c = true := by
  rw [plus, denotes_seq_iff]
  constructor
  · rintro ⟨u, v, h, k, rfl, rfl, hu, hv⟩
    obtain ⟨c, rfl, rfl, hc⟩ := denotes_char_iff.1 hu
    obtain ⟨rfl, hvp⟩ := denotes_star_char_iff.1 hv
    exact ⟨rfl, by simp, List.forall_mem_cons.2 ⟨hc, hvp⟩⟩
  · rintro ⟨rfl, hne, ht⟩
    obtain ⟨c, t, rfl⟩ := List.exists_cons_of_ne_nil hne
    obtain ⟨hc, ht⟩ := List.forall_mem_cons.1 ht
    exact ⟨[c], t, [], [], rfl, rfl, .char hc, denotes_star_char_iff.2 ⟨rfl, ht⟩⟩

theorem denotes_lit_iff : (lit s).Denotes t g ↔ t = s ∧ g = [] := by
  induction s generalizing t g with
  | nil => exact denotes_all_nil_iff
  | cons c s ih =>
    rw [lit, List.map_cons, denotes_all_cons_iff]
    constructor
    · rintro ⟨u, v, h, k, rfl, rfl, hu, hv⟩
      obtain ⟨d, rfl, rfl, hd⟩ := denotes_char_iff.1 hu
      obtain ⟨rfl, rfl⟩ := ih.1 hv
      exact ⟨by simpa using hd, rfl⟩
    · rintro ⟨rfl, rfl⟩
      exact ⟨[c], s, [], [], rfl, rfl, .char (by simp), ih.2 ⟨rfl, rfl⟩⟩

/-! ### Patterns piece by piece -/

section
variable {ps : List Pattern} {p : Char → Bool} {n : Nat}

theorem denotes_lit_cons_iff :
    (all (lit s :: ps)).Denotes t g ↔ ∃ v, t = s ++ v ∧ (all ps).Denotes v g := by
  rw [denotes_all_cons_iff]
  constructor
  · rintro ⟨u, v, h, k, rfl, rfl, hu, hv⟩
    obtain ⟨rfl, rfl⟩ := denotes_lit_iff.1 hu
    exact ⟨v, rfl, by rwa [List.append_nil]⟩
  · rintro ⟨v, rfl, hv⟩
    exact ⟨s, v, [], g, rfl, (List.append_nil g).symm, denotes_lit_iff.2 ⟨rfl, rfl⟩, hv⟩

theorem denotes_star_cons_iff : (all (star (char p) :: ps)).Denotes t g ↔
    ∃ u v, t = u ++ v ∧ (∀ c ∈ u, p c = true) ∧ (all ps).Denotes v g := by
  rw [denotes_all_cons_iff]
  constructor
  · rintro ⟨u, v, h, k, rfl, rfl, hu, hv⟩
    obtain ⟨rfl, hp⟩ := denotes_star_char_iff.1 hu
    exact ⟨u, v, rfl, hp, by rwa [List.append_nil]⟩
  · rintro ⟨u, v, rfl, hp, hv⟩
    exact ⟨u, v, [], g, rfl, (List.append_nil g).symm, denotes_star_char_iff.2 ⟨rfl, hp⟩, hv⟩

theorem denotes_plus_cons_iff : (all (plus (char p) :: ps)).Denotes t g ↔
    ∃ u v, t = u ++ v ∧ u ≠ [] ∧ (∀ c ∈ u, p c = true) ∧ (all ps).Denotes v g := by
  rw [denotes_all_cons_iff]
  constructor
  · rintro ⟨u, v, h, k, rfl, rfl, hu, hv⟩
    obtain ⟨rfl, hne, hp⟩ := denotes_plus_char_iff.1 hu
    exact ⟨u, v, rfl, hne, hp, by rwa [List.append_nil]⟩
  · rintro ⟨u, v, rfl, hne, hp, hv⟩
    exact ⟨u, v, [], g, rfl, (List.append_nil g).symm, denotes_plus_char_iff.2 ⟨rfl, hne, hp⟩, hv⟩

theorem denotes_group_plus_cons_iff : (all (group n (plus (char p)) :: ps)).Denotes t g ↔
    ∃ u v k, t = u ++ v ∧ g = k ++ [(n, u)] ∧ u ≠ [] ∧ (∀ c ∈ u, p c = true) ∧
      (all ps).Denotes v k := by
  rw [denotes_all_cons_iff]
  constructor
  · rintro ⟨u, v, h, k, rfl, rfl, hu, hv⟩
    obtain ⟨_, rfl, hplus⟩ := denotes_group_iff.1 hu
    obtain ⟨rfl, hne, hp⟩ := denotes_plus_char_iff.1 hplus
    exact ⟨u, v, k, rfl, rfl, hne, hp, hv⟩
  · rintro ⟨u, v, k, rfl, rfl, hne, hp, hv⟩
    exact ⟨u, v, _, k, rfl, rfl, .group (denotes_plus_char_iff.2 ⟨rfl, hne, hp⟩), hv⟩

end

/-! ### Patterns for what a reader reads -/

section
variable {α : Type} {R : Reader α} {S : Shape α} {groups : α → List (Nat × List Char)}
variable (hR : R.Reads S)
  (hP : ∀ t g, P.Denotes t g ↔ ∃ a, S.Valid a ∧ t = S.text a ∧ g = groups a)
include hR hP

/-- Every way that the matcher comes to is the one that is read, so it does not matter which is
first. -/
theorem first?_eq_map_read? :
    P.first? s = (R.read? s).map fun x => ⟨S.text x.1, groups x.1, x.2⟩ := by
  have key : ∀ m ∈ P.ways s, ∃ a, R.read? s = some (a, m.rest) ∧
      m = ⟨S.text a, groups a, m.rest⟩ := by
    rintro ⟨text, gs, rest⟩ hm
    obtain ⟨rfl, hd⟩ := mem_ways_iff.1 hm
    obtain ⟨a, ha, rfl, rfl⟩ := (hP _ _).1 hd
    exact ⟨a, hR.2 ⟨ha, rfl⟩, rfl⟩
  rw [first?]
  cases hw : P.ways s with
  | nil =>
    cases hr : R.read? s with
    | none => rfl
    | some x =>
      obtain ⟨ha, rfl⟩ := hR.1 hr
      have hm : ⟨S.text x.1, groups x.1, x.2⟩ ∈ P.ways (S.text x.1 ++ x.2) :=
        mem_ways_iff.2 ⟨rfl, (hP _ _).2 ⟨x.1, ha, rfl, rfl⟩⟩
      rw [hw] at hm
      cases hm
  | cons m ms =>
    obtain ⟨a, hr, hm⟩ := key m (by simp [hw])
    rw [hr, List.head?_cons, hm]
    rfl

theorem findAll_eq_map_trail :
    P.findAll s = (R.trail s).map fun f => ⟨S.text f.item, groups f.item, f.rest⟩ := by
  induction s using R.scan_induction with
  | nil => rw [findAll, first?_eq_map_read? hR hP, R.read?_nil, Reader.trail_nil]; rfl
  | read s a r h ih =>
    have hlt := R.shortens h
    cases s with
    | nil => exact absurd hlt (by simp)
    | cons c s =>
      have hle : r.length ≤ s.length := Nat.le_of_lt_succ hlt
      rw [findAll, first?_eq_map_read? hR hP, h, Reader.trail_of_read? h, List.map_cons, ← ih]
      simp only [Option.map_some, if_pos hle]
  | skip c s h ih =>
    rw [findAll, first?_eq_map_read? hR hP, h, Reader.trail_cons_of_none h, ← ih]
    rfl

end

end Pattern

end HeaderMeta.Text
