import HeaderMeta.Catalog
import HeaderMeta.Manifest.Value

/-!
# Reading manifests

A manifest is a list of descriptions. A description is an object with the members `name`,
`serializedFields` and `fieldTypes` in any order, or a list of the three values; members under other
keys are passed over. `Manifest.parse` gives the descriptions or the first problem met: a key that
comes twice is one as soon as it is read, a key that is missing one at the end of the object.
-/

namespace HeaderMeta.Manifest

open Reader

/-- A string. -/
def string : Reader String where
  read s := match skipSpace s with
    | [] => .error .cutShort
    | c :: r => if c = '"' then Quoted.value r else .error (Value.problem (c :: r))
  shortens {s r a} h := by
    split at h
    · simp at h
    · rename_i c t hs
      split at h
      · have h₁ := length_lt_of_skipSpace hs
        have h₂ := Quoted.length_lt_of_value h
        exact Nat.lt_trans h₂ h₁
      · simp at h

/-- A value with members: `item` reads one, from what is known before it to what is known after. -/
def members {σ : Type} (bracket : Value.Bracket) (item : σ → Reader σ) (a : σ) : Reader σ where
  read s := match skipSpace s with
    | [] => .error .cutShort
    | c :: r =>
      if c = bracket.opening then separated bracket.closing item a r
      else .error (Value.problem (c :: r))
  shortens {s r b} h := by
    split at h
    · simp at h
    · rename_i c t hs
      split at h
      · have h₁ := length_lt_of_skipSpace hs
        have h₂ := length_lt_of_separated h
        omega
      · simp at h

/-- A list of values of one kind. -/
def list {α : Type} (item : Reader α) : Reader (List α) :=
  (members .list (fun as => item.map (· :: as)) []).map List.reverse

/-- A member of an object: the key decides, before the colon, how the value is read. -/
def keyed {σ : Type} (value : String → Except Problem (Reader σ)) : Reader σ where
  read s := match skipSpace s with
    | [] => .error .cutShort
    | c :: r =>
      if c = '"' then do
        let (key, r) ← Quoted.value r
        let item ← value key
        let r ← Value.colon r
        item.read r
      else .error .malformed
  shortens {s r b} h := by
    split at h
    · simp at h
    · rename_i c t hs
      split at h
      · have h₁ := length_lt_of_skipSpace hs
        simp only [bind_eq_ok_iff, Prod.exists] at h
        obtain ⟨key, u, hk, item, -, v, hc, hr⟩ := h
        have h₂ := Quoted.length_lt_of_value hk
        have h₃ := Value.length_lt_of_colon hc
        have h₄ := item.shortens hr
        omega
      · simp at h

/-- An object whose members are the types of fields. A key that comes again changes its type. -/
def typeTable : Reader TypeTable :=
  members .object (fun t => keyed fun k => .ok (string.map (t.insert k))) .empty

/-- What is known of a description while its members are read. -/
structure Draft where
  name : Option String
  marked : Option (List String)
  types : Option TypeTable

namespace Draft

/-- Nothing is known. -/
def blank : Draft :=
  ⟨none, none, none⟩

/-- How the value under a key is read. -/
def member (d : Draft) (key : String) : Except Problem (Reader Draft) :=
  if key = "name" then
    if d.name.isSome then .error .wrongShape
    else .ok (string.map fun v => { d with name := some v })
  else if key = "serializedFields" then
    if d.marked.isSome then .error .wrongShape
    else .ok ((list string).map fun v => { d with marked := some v })
  else if key = "fieldTypes" then
    if d.types.isSome then .error .wrongShape
    else .ok (typeTable.map fun v => { d with types := some v })
  else .ok (Value.skipped.map fun _ => d)

/-- The description, if nothing is missing. -/
def finish : Draft → Except Problem Description
  | ⟨some name, some marked, some types⟩ => .ok ⟨name, marked, types⟩
  | _ => .error .wrongShape

end Draft

/-- Goes to a value of a list that must have it. -/
def nextOfThree (first : Bool) (s : List Char) : Except Problem (List Char) :=
  match skipSpace s with
  | [] => .error .cutShort
  | c :: r =>
    if c = ']' then .error .wrongShape
    else if first then .ok (c :: r)
    else if c = ',' then .ok r
    else .error .malformed

/-- Reads the end of a list that has all its values. -/
def endOfThree (s : List Char) : Except Problem (List Char) :=
  match skipSpace s with
  | [] => .error .cutShort
  | c :: r => if c = ']' then .ok r else .error .malformed

/-- Reads the three values of a description from behind the opening bracket. -/
def readThree (s : List Char) : Except Problem (Description × List Char) := do
  let s ← nextOfThree true s
  let (name, s) ← string.read s
  let s ← nextOfThree false s
  let (marked, s) ← (list string).read s
  let s ← nextOfThree false s
  let (types, s) ← typeTable.read s
  let s ← endOfThree s
  return (⟨name, marked, types⟩, s)

/-- Reads the members of a description from behind the opening bracket. -/
def readMembers (s : List Char) : Except Problem (Description × List Char) := do
  let (draft, s) ← separated '\x7d' (fun d => keyed d.member) Draft.blank s
  let description ← draft.finish
  return (description, s)

theorem length_le_of_nextOfThree {first : Bool} {s r : List Char}
    (h : nextOfThree first s = .ok r) : r.length ≤ s.length := by
  have hs := length_skipSpace_le s
  unfold nextOfThree at h
  split at h
  · simp at h
  · rename_i c t ht
    rw [ht, List.length_cons] at hs
    split at h
    · simp at h
    split at h
    · simp only [Except.ok.injEq] at h
      subst h
      simpa using hs
    split at h
    · simp only [Except.ok.injEq] at h
      subst h
      omega
    · simp at h

theorem length_lt_of_endOfThree {s r : List Char} (h : endOfThree s = .ok r) :
    r.length < s.length := by
  unfold endOfThree at h
  split at h
  · simp at h
  · rename_i c t ht
    split at h
    · simp only [Except.ok.injEq] at h
      obtain rfl := h
      exact length_lt_of_skipSpace ht
    · simp at h

theorem length_lt_of_readThree {s r : List Char} {d : Description}
    (h : readThree s = .ok (d, r)) : r.length < s.length := by
  simp only [readThree, bind_eq_ok_iff, Prod.exists, pure, Except.pure, Except.ok.injEq,
    Prod.mk.injEq] at h
  obtain ⟨s₁, h₁, n, s₂, h₂, s₃, h₃, m, s₄, h₄, s₅, h₅, t, s₆, h₆, s₇, h₇, -, rfl⟩ := h
  have h₁ := length_le_of_nextOfThree h₁
  have h₂ := string.shortens h₂
  have h₃ := length_le_of_nextOfThree h₃
  have h₄ := (list string).shortens h₄
  have h₅ := length_le_of_nextOfThree h₅
  have h₆ := typeTable.shortens h₆
  have h₇ := length_lt_of_endOfThree h₇
  omega

theorem length_lt_of_readMembers {s r : List Char} {d : Description}
    (h : readMembers s = .ok (d, r)) : r.length < s.length := by
  simp only [readMembers, bind_eq_ok_iff, Prod.exists, pure, Except.pure, Except.ok.injEq,
    Prod.mk.injEq] at h
  obtain ⟨draft, s₁, h₁, d', -, -, rfl⟩ := h
  exact length_lt_of_separated h₁

/-- A description, in either form. -/
def description : Reader Description where
  read s := match skipSpace s with
    | [] => .error .cutShort
    | c :: r =>
      if c = '\x7b' then readMembers r
      else if c = '[' then readThree r
      else .error (Value.problem (c :: r))
  shortens {s r d} h := by
    split at h
    · simp at h
    · rename_i c t hs
      have h₁ := length_lt_of_skipSpace hs
      split at h
      · have h₂ := length_lt_of_readMembers h
        omega
      · split at h
        · have h₂ := length_lt_of_readThree h
          omega
        · simp at h

/-- The descriptions of a manifest. Nothing but space may follow them. -/
def parse (text : String) : Except Problem (List Description) := do
  let (descriptions, r) ← (list description).read text.toList
  if skipSpace r = [] then return descriptions else throw .malformed

end HeaderMeta.Manifest
