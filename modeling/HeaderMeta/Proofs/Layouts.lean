import HeaderMeta.Proofs.Skipped
import HeaderMeta.Proofs.Summary

/-!
# Manifests in any layout

A manifest need not look as it is printed. `DescriptionText d t` says that `t` is one of the ways to write
the description `d`: as an object whose members come in any order, with others between them that tell
nothing (`MemberText`), or as the list of its three values, always with any space between the parts and any
escapes in the strings. Whatever the layout, what is read is what was written (`parse_of_manifestText`).

While the members of an object are read, all that matters is which of the three have been seen
(`Draft.seen`); that no one of them comes twice carries the induction (`chain_members`).
-/

namespace HeaderMeta.Manifest

open Reader

variable {s t u v r : List Char}

/-! ### Texts of descriptions -/

/-- A list of values, each written in a way of its own. -/
def ListText {α : Type} (P : α → List Char → Prop) (as : List α) (t : List Char) : Prop :=
  ∃ ts s, List.Forall₂ (fun t a => Padded (P a) t) ts as ∧ (∀ c ∈ s, isSpace c = true) ∧
    t = '[' :: (joined ts ++ (s ++ [']']))

/-- A field and its type. -/
def EntryText (e : String × String) (t : List Char) : Prop :=
  ∃ k v, Padded (StringText e.1) k ∧ Padded (StringText e.2) v ∧ t = k ++ ':' :: v

/-- An object that tells the types of fields. A field may come again, with another type. -/
def TableText (types : TypeTable) (t : List Char) : Prop :=
  ∃ es ts s, types.Records es ∧ List.Forall₂ (fun t e => EntryText e t) ts es ∧
    (∀ c ∈ s, isSpace c = true) ∧ t = '\x7b' :: (joined ts ++ (s ++ ['\x7d']))

/-- What a member of a description tells. -/
inductive Role where
  | name
  | marked
  | types
  /-- Nothing. -/
  | other
deriving DecidableEq

/-- A member of a description. -/
inductive MemberText (d : Description) : Role → List Char → Prop
  | name {k v : List Char} : Padded (StringText "name") k → Padded (StringText d.name) v →
      MemberText d .name (k ++ ':' :: v)
  | marked {k v : List Char} : Padded (StringText "serializedFields") k →
      Padded (ListText StringText d.marked) v → MemberText d .marked (k ++ ':' :: v)
  | types {k v : List Char} : Padded (StringText "fieldTypes") k → Padded (TableText d.types) v →
      MemberText d .types (k ++ ':' :: v)
  | other {key : String} {k v : List Char} : key ∉ ["name", "serializedFields", "fieldTypes"] →
      Padded (StringText key) k → ValueText v → MemberText d .other (k ++ ':' :: v)

/-- A description in one of its two forms. -/
inductive DescriptionText (d : Description) : List Char → Prop
  | object {roles : List Role} {ts : List (List Char)} {s : List Char} :
      List.Forall₂ (MemberText d) roles ts → (∀ role, role ≠ .other → roles.count role = 1) →
      (∀ c ∈ s, isSpace c = true) → DescriptionText d ('\x7b' :: (joined ts ++ (s ++ ['\x7d'])))
  | list {n m f : List Char} : Padded (StringText d.name) n → Padded (ListText StringText d.marked) m →
      Padded (TableText d.types) f → DescriptionText d ('[' :: (n ++ ',' :: (m ++ ',' :: (f ++ [']']))))

/-! ### Lists and tables -/

theorem listText_takes {α : Type} {R : Reader α} {P : α → List Char → Prop} {as : List α} (hR : R.Spaced)
    (h : ∀ a t, P a t → R.Takes t a) (ht : ListText P as t) : (list R).Takes t as := by
  obtain ⟨ts, s, hts, hs, rfl⟩ := ht
  exact takes_list hR (hts.imp fun t a ht => ht.takes hR (h a)) hs

theorem strings_takes {as : List String} (ht : ListText StringText as t) : (list string).Takes t as :=
  listText_takes string_spaced (fun _ _ => string_takes) ht

theorem padded_string_takes {q : String} (ht : Padded (StringText q) t) : string.Takes t q :=
  ht.takes string_spaced fun _ => string_takes

theorem padded_strings_takes {as : List String} (ht : Padded (ListText StringText as) t) :
    (list string).Takes t as :=
  ht.takes (list_spaced _) fun _ => strings_takes

theorem tableText_takes {types : TypeTable} (ht : TableText types t) : typeTable.Takes t types := by
  obtain ⟨es, ts, s, hes, hts, hs, rfl⟩ := ht
  rw [hes.eq_ofList]
  refine takes_typeTable (hts.imp ?_) hs
  rintro t e ⟨k, v, hk, hv, rfl⟩
  exact ⟨k, v, rfl, padded_string_takes hk, padded_string_takes hv⟩

theorem padded_table_takes {types : TypeTable} (ht : Padded (TableText types) t) : typeTable.Takes t types :=
  ht.takes typeTable_spaced fun _ => tableText_takes

/-! ### Objects -/

/-- What is known of a description when these of its members have been read. -/
def Draft.seen (d : Description) (roles : List Role) : Draft where
  name := if .name ∈ roles then some d.name else none
  marked := if .marked ∈ roles then some d.marked else none
  types := if .types ∈ roles then some d.types else none

variable {d : Description} {role : Role} {roles before : List Role} {ts : List (List Char)}

theorem takesBefore_member (ht : MemberText d role t) (hnew : role ≠ .other → role ∉ before) :
    (keyed (Draft.seen d before).member).TakesBefore t (Draft.seen d (role :: before)) := by
  cases ht with
  | name hk hv =>
    have hnew : Role.name ∉ before := hnew (by decide)
    have hmember : (Draft.seen d before).member "name" =
        .ok (string.map fun v => { Draft.seen d before with name := some v }) := by
      simp [Draft.member, Draft.seen, hnew]
    have htakes := ((padded_string_takes hv).map fun v => { Draft.seen d before with name := some v }).before
    exact takesBefore_keyed (padded_string_takes hk) hmember (by simpa [Draft.seen] using htakes)
  | marked hk hv =>
    have hnew : Role.marked ∉ before := hnew (by decide)
    have hmember : (Draft.seen d before).member "serializedFields" =
        .ok ((list string).map fun v => { Draft.seen d before with marked := some v }) := by
      simp [Draft.member, Draft.seen, hnew]
    have htakes := ((padded_strings_takes hv).map fun v => { Draft.seen d before with marked := some v }).before
    exact takesBefore_keyed (padded_string_takes hk) hmember (by simpa [Draft.seen] using htakes)
  | types hk hv =>
    have hnew : Role.types ∉ before := hnew (by decide)
    have hmember : (Draft.seen d before).member "fieldTypes" =
        .ok (typeTable.map fun v => { Draft.seen d before with types := some v }) := by
      simp [Draft.member, Draft.seen, hnew]
    have htakes := ((padded_table_takes hv).map fun v => { Draft.seen d before with types := some v }).before
    exact takesBefore_keyed (padded_string_takes hk) hmember (by simpa [Draft.seen] using htakes)
  | @other key k v hkey hk hv =>
    simp only [List.mem_cons, List.not_mem_nil, or_false, not_or] at hkey
    obtain ⟨h₁, h₂, h₃⟩ := hkey
    have hmember : (Draft.seen d before).member key =
        .ok (Value.skipped.map fun _ => Draft.seen d before) := by
      rw [Draft.member, if_neg h₁, if_neg h₂, if_neg h₃]
    have hsame : Draft.seen d (.other :: before) = Draft.seen d before := by
      simp [Draft.seen]
    rw [hsame]
    refine takesBefore_keyed (padded_string_takes hk) hmember fun r hr => ?_
    obtain ⟨r', hskip, hs⟩ := Value.skipped_takesBefore hv r hr
    exact ⟨r', by simp only [Reader.map, hskip], hs⟩

/-- The members are taken one after another as long as none of the three comes twice. -/
theorem chain_members (h : List.Forall₂ (MemberText d) roles ts)
    (hcount : ∀ role, role ≠ .other → before.count role + roles.count role ≤ 1) :
    ChainBefore (fun d => keyed d.member) (Draft.seen d before) ts (Draft.seen d (roles.reverse ++ before)) := by
  induction h generalizing before with
  | nil => exact .nil
  | @cons role t roles ts ht _ ih =>
    have hnew (hother : role ≠ .other) : role ∉ before := by
      intro hmem
      have h₁ := hcount role hother
      have h₂ := List.count_pos_iff.2 hmem
      rw [List.count_cons_self] at h₁
      omega
    rw [List.reverse_cons, List.append_assoc]
    refine .cons (takesBefore_member ht hnew) (ih fun role' hother => ?_)
    have := hcount role' hother
    simp only [List.count_cons] at this ⊢
    omega

theorem Draft.finish_seen (h : ∀ role, role ≠ .other → role ∈ roles) : (seen d roles).finish = .ok d := by
  simp only [seen, h .name (by decide), h .marked (by decide), h .types (by decide), if_true, finish]

/-! ### Lists of three values -/

theorem nextOfThree_true_eq {α : Type} {R : Reader α} {a : α} (hR : R.Spaced) (h : R.read s = .ok (a, r)) :
    nextOfThree true s = .ok (skipSpace s) := by
  have hread := (hR.read_skipSpace s).trans h
  have hne := hR.head?_ne h .list
  unfold nextOfThree
  cases hs : skipSpace s with
  | nil =>
    rw [hs] at hread
    exact absurd (R.shortens hread) (Nat.not_lt_zero _)
  | cons c s' =>
    rw [hs] at hne
    simp only [if_neg fun e : c = ']' => hne (by simp [e, Value.Bracket.closing]), if_true]

theorem nextOfThree_comma (h : skipSpace r = skipSpace (',' :: s)) : nextOfThree false r = .ok s := by
  rw [nextOfThree, h, skipSpace_cons (by decide)]
  rfl

theorem endOfThree_eq (h : skipSpace r = skipSpace (']' :: s)) : endOfThree r = .ok s := by
  rw [endOfThree, h, skipSpace_cons (by decide)]
  rfl

theorem takes_three {n m f : List Char} (hn : string.Takes n d.name) (hm : (list string).Takes m d.marked)
    (hf : typeTable.Takes f d.types) :
    description.Takes ('[' :: (n ++ ',' :: (m ++ ',' :: (f ++ [']'])))) d := by
  intro r
  refine ⟨r, ?_, rfl⟩
  obtain ⟨r₁, hr₁, hs₁⟩ := hn (',' :: (m ++ ',' :: (f ++ ']' :: r)))
  obtain ⟨r₂, hr₂, hs₂⟩ := hm (',' :: (f ++ ']' :: r))
  obtain ⟨r₃, hr₃, hs₃⟩ := hf (']' :: r)
  have hfirst := nextOfThree_true_eq string_spaced hr₁
  have hname := (string_spaced.read_skipSpace _).trans hr₁
  simp only [description, List.cons_append, skipSpace_cons (show isSpace '[' = false by decide),
    List.append_assoc, List.nil_append, readThree, hfirst, hname, nextOfThree_comma hs₁, hr₂,
    nextOfThree_comma hs₂, hr₃, endOfThree_eq hs₃, bind, Except.bind]
  rfl

/-! ### Manifests -/

theorem descriptionText_takes (ht : DescriptionText d t) : description.Takes t d := by
  cases ht with
  | @object roles ts s hts hcount hs =>
    have hchain : ChainBefore _ (Draft.seen d []) ts (Draft.seen d (roles.reverse ++ [])) :=
      chain_members hts fun role hother => by simp [hcount role hother]
    rw [List.append_nil] at hchain
    refine takes_description hchain (Draft.finish_seen fun role hother => ?_) hs
    rw [List.mem_reverse, ← List.count_pos_iff, hcount role hother]
    exact Nat.one_pos
  | list hn hm hf => exact takes_three (padded_string_takes hn) (padded_strings_takes hm) (padded_table_takes hf)

/-- What is read of a manifest does not depend on its layout. -/
theorem parse_of_manifestText {ds : List Description} {text : String}
    (h : Padded (ListText DescriptionText ds) text.toList) : parse text = .ok ds := by
  have htakes : (list description).Takes text.toList ds :=
    h.takes (list_spaced _) fun _ => listText_takes description_spaced fun _ _ => descriptionText_takes
  obtain ⟨r, hr, hs⟩ := htakes []
  rw [List.append_nil] at hr
  have hend : skipSpace r = [] := hs
  simp only [parse, hr, bind, Except.bind, hend, if_true]
  rfl

/-- The members come in another order and with one more between them, a field comes again, two characters
are escaped, and the other description is a list. -/
theorem parse_of_manifestText_reordered :
    parse ("[\x7b\"x\":[-2.5e3,\x7b\"k\":null\x7d],\"fieldTypes\":\x7b\"b\":\"u8\"," ++
        "\"\\u0061\":\"\\ud83d\\uDE00\",\"b\":\"u16\"\x7d," ++
        "\"name\":\"P\",\"serializedFields\":[]\x7d, [\"Q\",[\"q\"],\x7b\x7d]]\n") =
      .ok [⟨"P", [], .ofList [("b", "u8"), ("a", "😀"), ("b", "u16")]⟩, ⟨"Q", ["q"], .empty⟩] := by
  have hdigits (c : Char) (hc : c.isDigit = true) : Digits [c] := ⟨by simp, by simpa using hc⟩
  have hnumber : NumberText "-2.5e3".toList :=
    ⟨['-'], ['2'], ['.', '5'], ['e', '3'], by decide, hdigits '2' rfl, by decide,
      .inr ⟨['5'], hdigits '5' rfl, rfl⟩, .inr ⟨'e', [], ['3'], by decide, by decide, hdigits '3' rfl, rfl⟩, rfl⟩
  have hkey : Padded StringToken "\"k\"".toList :=
    .self ⟨[['k']], by simpa using UnitText.plain (by decide), rfl⟩
  have hinner : ValueText "\x7b\"k\":null\x7d".toList :=
    @ValueText.object [("\"k\"".toList, "null".toList)] [] (by simpa using hkey)
      (by simpa using ValueText.word (by decide)) (by simp)
  have hvalue : ValueText "[-2.5e3,\x7b\"k\":null\x7d]".toList :=
    @ValueText.list ["-2.5e3".toList, "\x7b\"k\":null\x7d".toList] []
      (by simpa using ⟨ValueText.number hnumber, hinner⟩) (by simp)
  have hother (d : Description) : MemberText d .other "\"x\":[-2.5e3,\x7b\"k\":null\x7d]".toList :=
    .other (show "x" ∉ _ by decide) (padded_plain (by decide)) hvalue
  have hsmall : StringText "a" "\"\\u0061\"".toList :=
    ⟨["\\u0061".toList], .cons (.digits (.digits (x := 0) (y := 0) (z := 6) (w := 1)
      (by decide) (by decide) (by decide) (by decide))) .nil, rfl⟩
  have hpair : StringText "😀" "\"\\ud83d\\uDE00\"".toList :=
    ⟨["\\ud83d\\uDE00".toList], .cons (.pair
      (.digits (x := 13) (y := 8) (z := 3) (w := 13) (by decide) (by decide) (by decide) (by decide))
      (.digits (x := 13) (y := 14) (z := 0) (w := 0) (by decide) (by decide) (by decide) (by decide))
      (by decide) (by decide) (by decide) (by decide) (by decide)) .nil, rfl⟩
  have htable : TableText (.ofList [("b", "u8"), ("a", "😀"), ("b", "u16")])
      "\x7b\"b\":\"u8\",\"\\u0061\":\"\\ud83d\\uDE00\",\"b\":\"u16\"\x7d".toList :=
    ⟨_, ["\"b\":\"u8\"".toList, "\"\\u0061\":\"\\ud83d\\uDE00\"".toList, "\"b\":\"u16\"".toList], [],
      TypeTable.ofList_records _,
      .cons ⟨_, _, padded_plain (by decide), padded_plain (by decide), rfl⟩ <|
        .cons ⟨_, _, .self hsmall, .self hpair, rfl⟩ <|
        .cons ⟨_, _, padded_plain (by decide), padded_plain (by decide), rfl⟩ .nil,
      by simp, rfl⟩
  have hobject := DescriptionText.object (s := [])
    (d := ⟨"P", [], .ofList [("b", "u8"), ("a", "😀"), ("b", "u16")]⟩)
    (.cons (hother _) <| .cons (.types (padded_plain (by decide)) (.self htable)) <|
      .cons (.name (padded_plain (by decide)) (padded_plain (by decide))) <|
      .cons (.marked (padded_plain (by decide)) (.self ⟨[], [], .nil, by simp, rfl⟩)) .nil)
    (by rintro (_ | _ | _ | _) <;> simp) (by simp)
  have hmarked : ListText StringText ["q"] "[\"q\"]".toList :=
    ⟨["\"q\"".toList], [], .cons (padded_plain (by decide)) .nil, by simp, rfl⟩
  have hlist := DescriptionText.list (d := ⟨"Q", ["q"], .empty⟩) (padded_plain (by decide)) (.self hmarked)
    (.self ⟨[], [], [], TypeTable.ofList_records [], .nil, by simp, rfl⟩)
  refine parse_of_manifestText ⟨[], _, ['\n'], by simp, ⟨[_, _], [], .cons (.self hobject) <|
    .cons ⟨[' '], _, [], by simp [isSpace], hlist, by simp, rfl⟩ .nil, by simp, rfl⟩, by simp [isSpace], ?_⟩
  decide +kernel

end HeaderMeta.Manifest
