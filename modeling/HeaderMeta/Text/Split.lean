/-!
# Cutting a text in two

A text is a list of characters. `after?` takes a literal off its front (`after?_eq_some_iff`), and
`cut?` cuts it after a number of bytes of its UTF-8 form, which succeeds exactly where a character
ends (`cut?_eq_some_iff`). `run` takes the longest run of a class of characters, `run?` one that is
not empty: the run belongs to the class, and what follows it starts outside (`run_eq_iff`,
`run?_eq_some_iff`).
-/

namespace HeaderMeta.Text

/-- The number of bytes of a text in UTF-8. -/
def size (s : List Char) : Nat :=
  s.foldr (fun c n => c.utf8Size + n) 0

/-- What follows `lit` in a text that starts with it. -/
def after? : (lit s : List Char) → Option (List Char)
  | [], s => some s
  | _ :: _, [] => none
  | c :: lit, d :: s => if c = d then after? lit s else none

/-- The two parts of a text that is cut after `n` bytes. -/
def cut? : (s : List Char) → (n : Nat) → Option (List Char × List Char)
  | s, 0 => some ([], s)
  | [], _ + 1 => none
  | c :: s, n + 1 =>
    if c.utf8Size ≤ n + 1 then
      (cut? s (n + 1 - c.utf8Size)).map fun (u, v) => (c :: u, v)
    else none

/-- The longest run of a class at the front of a text, and what follows it. -/
def run (p : Char → Bool) (s : List Char) : List Char × List Char :=
  (s.takeWhile p, s.dropWhile p)

/-- The longest run of a class at the front of a text, if there is one, and what follows it. -/
def run? (p : Char → Bool) (s : List Char) : Option (List Char × List Char) :=
  if (run p s).1 = [] then none else some (run p s)

variable {c : Char} {lit s u v r : List Char} {n : Nat} {p : Char → Bool}

@[simp] theorem size_nil : size [] = 0 := rfl

@[simp] theorem size_cons : size (c :: s) = c.utf8Size + size s := rfl

@[simp] theorem size_append : size (u ++ v) = size u + size v := by
  induction u with
  | nil => simp
  | cons c u ih => rw [List.cons_append, size_cons, size_cons, ih, Nat.add_assoc]

theorem after?_eq_some_iff : after? lit s = some r ↔ s = lit ++ r := by
  induction lit generalizing s with
  | nil => simp [after?]
  | cons c lit ih =>
    cases s with
    | nil => simp [after?]
    | cons d s =>
      by_cases h : c = d
      · simp [after?, h, ih]
      · simp [after?, h, Ne.symm h]

@[simp] theorem after?_append : after? lit (lit ++ r) = some r :=
  after?_eq_some_iff.2 rfl

theorem cut?_eq_some_iff : cut? s n = some (u, v) ↔ s = u ++ v ∧ size u = n := by
  fun_induction cut? s n generalizing u v with
  | case1 s =>
    cases u with
    | nil => simp
    | cons d u => have := d.utf8Size_pos; simp; omega
  | case2 n => cases u <;> simp
  | case3 c s n hle ih =>
    cases u with
    | nil => simp
    | cons d u =>
      simp only [Option.map_eq_some_iff, Prod.exists, Prod.mk.injEq, List.cons.injEq,
        List.cons_append, size_cons]
      constructor
      · rintro ⟨u', v', h, ⟨rfl, rfl⟩, rfl⟩
        obtain ⟨rfl, hs⟩ := ih.1 h
        exact ⟨⟨rfl, rfl⟩, by omega⟩
      · rintro ⟨⟨rfl, rfl⟩, hs⟩
        exact ⟨u, v, ih.2 ⟨rfl, by omega⟩, ⟨rfl, rfl⟩, rfl⟩
  | case4 c s n hlt =>
    cases u with
    | nil => simp
    | cons d u =>
      simp only [reduceCtorEq, List.cons_append, List.cons.injEq, size_cons, false_iff, not_and]
      rintro ⟨rfl, -⟩
      omega

/-- The next character, if there is one, is not of the class. -/
def Stops (p : Char → Bool) (s : List Char) : Prop :=
  ∀ c ∈ s.head?, p c = false

@[simp] theorem stops_nil : Stops p [] := by simp [Stops]

@[simp] theorem stops_cons : Stops p (c :: s) ↔ p c = false := by simp [Stops]

theorem stops_append (h : u ≠ []) (hu : ∀ c ∈ u, p c = false) : Stops p (u ++ v) := by
  cases u with
  | nil => exact absurd rfl h
  | cons c u => simpa using hu c (by simp)

/-- Past a part outside the class, empty or not, it is the next part that counts. -/
theorem stops_append_of_stops (hu : ∀ c ∈ u, p c = false) (hv : Stops p v) : Stops p (u ++ v) := by
  cases u with
  | nil => exact hv
  | cons c u => simpa using hu c (by simp)

theorem run_eq_iff : run p s = (u, v) ↔ s = u ++ v ∧ (∀ c ∈ u, p c = true) ∧ Stops p v := by
  constructor
  · rintro h
    obtain ⟨rfl, rfl⟩ : s.takeWhile p = u ∧ s.dropWhile p = v := by simpa [run] using h
    refine ⟨List.takeWhile_append_dropWhile.symm, List.all_eq_true.1 List.all_takeWhile, ?_⟩
    intro c hc
    have := List.head?_dropWhile_not p s
    simp only [Option.mem_def] at hc
    simpa [hc] using this
  · rintro ⟨rfl, hu, hv⟩
    rw [run, List.takeWhile_append_of_pos hu, List.dropWhile_append_of_pos hu]
    cases v with
    | nil => simp
    | cons d v => simp [stops_cons.1 hv]

theorem run_cons : run p (c :: s) = if p c then (c :: (run p s).1, (run p s).2) else ([], c :: s) := by
  rw [run, List.takeWhile_cons, List.dropWhile_cons]
  split <;> rfl

theorem run?_eq_some_iff :
    run? p s = some (u, v) ↔ s = u ++ v ∧ u ≠ [] ∧ (∀ c ∈ u, p c = true) ∧ Stops p v := by
  unfold run?
  split
  · rename_i h
    simp only [reduceCtorEq, false_iff]
    rintro ⟨hs, hne, hu, hv⟩
    exact hne (by rw [← h, run_eq_iff.2 ⟨hs, hu, hv⟩])
  · rename_i h
    rw [Option.some.injEq, run_eq_iff]
    constructor
    · rintro ⟨hs, hu, hv⟩
      rw [run_eq_iff.2 ⟨hs, hu, hv⟩] at h
      exact ⟨hs, h, hu, hv⟩
    · rintro ⟨hs, -, hu, hv⟩
      exact ⟨hs, hu, hv⟩

end HeaderMeta.Text
