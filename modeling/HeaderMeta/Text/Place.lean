import HeaderMeta.Text.Class
import HeaderMeta.Text.Split

/-!
# Places in a text

A `Place` is a point between two characters of a text: what stands before it and what stands after
it. Its offset counts the bytes before it in UTF-8, so it always lies where a character ends, and
`Place.at?` finds the place of an offset exactly if there is one (`Place.at?_eq_some_iff`). A reader
goes through a text by `Move`s; `Place.perform` gives the answer to one move and the place after it.
-/

namespace HeaderMeta.Text

/-- A point between two characters of `text`. -/
structure Place (text : List Char) where
  before : List Char
  after : List Char
  before_append_after : before ++ after = text

namespace Place

variable {text : List Char}

/-- The number of bytes before a place. -/
def offset (p : Place text) : Nat :=
  size p.before

/-- The place at an offset, if a character ends there. -/
def at? (text : List Char) (n : Nat) : Option (Place text) :=
  match h : cut? text n with
  | some (u, v) => some ⟨u, v, (cut?_eq_some_iff.1 h).1.symm⟩
  | none => none

/-- The place behind the first part of what stands after `p`. -/
def advance (p : Place text) {u v : List Char} (h : u ++ v = p.after) : Place text :=
  ⟨p.before ++ u, v, by rw [List.append_assoc, h, p.before_append_after]⟩

/-- The character that stands at a place. -/
def next? (p : Place text) : Option Char :=
  p.after.head?

/-- The offset behind the character at a place; at the end of the text, one more than its size. -/
def following (p : Place text) : Nat :=
  p.offset + (p.next?.map Char.utf8Size).getD 1

/-- Goes past a literal if the text continues with it. -/
def takeText (lit : List Char) (p : Place text) : Bool × Place text :=
  match h : after? lit p.after with
  | some _ => (true, p.advance (after?_eq_some_iff.1 h).symm)
  | none => (false, p)

/-- Goes past the longest run of a class of characters and gives the run. -/
def takeRun (cls : Char → Bool) (p : Place text) : List Char × Place text :=
  match h : run cls p.after with
  | (u, _) => (u, p.advance (run_eq_iff.1 h).1.symm)

/-- The offset of the next `c` at or behind a place. -/
def find? (c : Char) (p : Place text) : Option Nat :=
  if c ∈ p.after then some (p.offset + size (run (· != c) p.after).1) else none

/-- The text between two offsets. -/
def between? (text : List Char) (start stop : Nat) : Option (List Char) := do
  let (u, _) ← cut? text stop
  let (_, v) ← cut? u start
  return v

/-- One step of a reader that goes through a text. -/
inductive Move where
  /-- Look at the next character. -/
  | look
  /-- Show what is left. -/
  | rest
  /-- Go past one character, if it is next. -/
  | takeChar (c : Char)
  /-- Go past a literal, if it is next. -/
  | takeText (lit : List Char)
  /-- Go past blanks. -/
  | skipBlanks
  /-- Go past a run of a class. -/
  | takeRun (cls : Char → Bool)
  /-- Find the next `c`. -/
  | find (c : Char)
  /-- Go to an offset. -/
  | goTo (n : Nat)
  /-- Show the text between two offsets. -/
  | between (start stop : Nat)

/-- What a move tells. -/
inductive Answer where
  | char (c : Option Char)
  | text (s : List Char)
  | flag (b : Bool)
  | bytes (n : Nat)
  | offset (n : Option Nat)
  | done

/-- The answer to a move and the place after it; none if an offset of the move is no place. -/
def perform (p : Place text) : Move → Option (Answer × Place text)
  | .look => some (.char p.next?, p)
  | .rest => some (.text p.after, p)
  | .takeChar c => let (b, q) := p.takeText [c]; some (.flag b, q)
  | .takeText lit => let (b, q) := p.takeText lit; some (.flag b, q)
  | .skipBlanks => let (s, q) := p.takeRun isBlank; some (.bytes (size s), q)
  | .takeRun cls => let (s, q) := p.takeRun cls; some (.text s, q)
  | .find c => some (.offset (p.find? c), p)
  | .goTo n => (at? text n).map fun q => (.done, q)
  | .between start stop => (between? text start stop).map fun s => (.text s, p)

/-- The answers to a list of moves, each with the offset after it. -/
def performAll (p : Place text) : List Move → Option (List (Answer × Nat))
  | [] => some []
  | m :: ms => do
    let (a, q) ← p.perform m
    return (a, q.offset) :: (← q.performAll ms)

@[ext] theorem ext {p q : Place text} (h : p.before = q.before) : p = q := by
  obtain ⟨u, v, hp⟩ := p
  obtain ⟨u', v', hq⟩ := q
  obtain rfl : u = u' := h
  simpa using List.append_cancel_left (hp.trans hq.symm)

theorem at?_eq_some_iff {n : Nat} {p : Place text} : at? text n = some p ↔ p.offset = n := by
  have hp := p.before_append_after
  unfold at?
  split
  · rename_i u v h
    obtain ⟨hs, hn⟩ := cut?_eq_some_iff.1 h
    constructor
    · rintro ⟨rfl⟩; exact hn
    · intro ho
      have : cut? text n = some (p.before, p.after) := cut?_eq_some_iff.2 ⟨hp.symm, ho⟩
      rw [h] at this
      simp only [Option.some.injEq, Prod.mk.injEq] at this
      exact congrArg some (ext this.1)
  · rename_i h
    simp only [reduceCtorEq, false_iff]
    intro ho
    rw [cut?_eq_some_iff.2 ⟨hp.symm, ho⟩] at h
    simp at h

end Place

end HeaderMeta.Text
