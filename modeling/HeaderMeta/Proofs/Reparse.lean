import HeaderMeta.Manifest.Parser
import HeaderMeta.Manifest.Printer
import Mathlib.Data.List.Forall2

/-!
# Manifests are read back

`R.Takes t a` says that `R` reads `t` as `a` whatever follows. Space on either side of `t` does not
count (`Takes.append_space`, `Takes.space_append`), as every reader starts by passing over it
(`Reader.Spaced`). A list or an object is taken if its members are, one after another: `Chain` follows
what is known from member to member, and `takes_members` is the only place where brackets and commas
are looked at. What a manifest is printed as is then taken piece by piece (`takes_description`).
-/

namespace HeaderMeta.Manifest

open Text

variable {s t u v r : List Char} {c : Char}

/-! ### Space -/

theorem skipSpace_append (h : ∀ c ∈ s, isSpace c = true) : skipSpace (s ++ t) = skipSpace t :=
  List.dropWhile_append_of_pos h

theorem skipSpace_cons (h : isSpace c = false) : skipSpace (c :: s) = c :: s :=
  List.dropWhile_cons_of_neg (by simp [h])

theorem skipSpace_skipSpace (s : List Char) : skipSpace (skipSpace s) = skipSpace s := by
  induction s with
  | nil => rfl
  | cons c s ih =>
    cases hc : isSpace c with
    | true => rwa [show skipSpace (c :: s) = skipSpace s from skipSpace_append (s := [c]) (by simpa)]
    | false => rw [skipSpace_cons hc, skipSpace_cons hc]

theorem skipSpace_eq_nil (h : ∀ c ∈ s, isSpace c = true) : skipSpace s = [] := by
  have := skipSpace_append (t := []) h
  rwa [List.append_nil] at this

theorem skipSpace_append_of_cons (h : skipSpace u = c :: s) : skipSpace (u ++ v) = c :: (s ++ v) := by
  rw [skipSpace] at h ⊢
  rw [List.dropWhile_append, h]
  rfl

theorem isSpace_of_mem_newline {depth : Nat} (h : c ∈ newline depth) : isSpace c = true := by
  rcases List.mem_cons.1 h with rfl | h
  · decide
  · rw [List.eq_of_mem_replicate h]
    decide

namespace Reader
variable {α β σ : Type} {R : Reader α} {a b : α}

/-- Space in front makes no difference, and no value starts as a list or an object ends. -/
structure Spaced (R : Reader α) : Prop where
  read_skipSpace : ∀ s, R.read (skipSpace s) = R.read s
  head?_ne : ∀ ⦃s r a⦄, R.read s = .ok (a, r) → ∀ b : Value.Bracket, b.closing ∉ (skipSpace s).head?

/-- `R` reads `t` as `a`, whatever follows; of the space behind `t` some may be used up. -/
def Takes (R : Reader α) (t : List Char) (a : α) : Prop :=
  ∀ r, ∃ r', R.read (t ++ r) = .ok (a, r') ∧ skipSpace r' = skipSpace r

/-- What may stand behind a value: nothing, space, a comma or a closing bracket. -/
def Ends (r : List Char) : Prop :=
  ∀ c ∈ r.head?, isSpace c = true ∨ c = ',' ∨ ∃ b : Value.Bracket, c = b.closing

/-- `R` reads `t` as `a` if a value may end behind `t`. -/
def TakesBefore (R : Reader α) (t : List Char) (a : α) : Prop :=
  ∀ r, Ends r → ∃ r', R.read (t ++ r) = .ok (a, r') ∧ skipSpace r' = skipSpace r

theorem Takes.before (h : R.Takes t a) : R.TakesBefore t a :=
  fun r _ => h r

theorem ends_comma (r : List Char) : Ends (',' :: r) := by
  intro c hc
  cases hc
  exact .inr (.inl rfl)

theorem ends_space_append (hu : ∀ c ∈ u, isSpace c = true) (hr : Ends r) : Ends (u ++ r) := by
  cases u with
  | nil => exact hr
  | cons c u =>
    intro d hd
    cases hd
    exact .inl (hu c (List.mem_cons_self ..))

theorem ends_closing (b : Value.Bracket) (r : List Char) : Ends (b.closing :: r) := by
  intro c hc
  cases hc
  exact .inr (.inr ⟨b, rfl⟩)

theorem Takes.append_space (h : R.Takes t a) (hu : ∀ c ∈ u, isSpace c = true) : R.Takes (t ++ u) a := by
  intro r
  obtain ⟨r', hr, hs⟩ := h (u ++ r)
  rw [List.append_assoc]
  exact ⟨r', hr, hs.trans (skipSpace_append hu)⟩

theorem Takes.space_append (h : R.Takes t a) (hR : R.Spaced) (hu : ∀ c ∈ u, isSpace c = true) :
    R.Takes (u ++ t) a := by
  intro r
  obtain ⟨r', hr, hs⟩ := h r
  refine ⟨r', ?_, hs⟩
  rw [← hR.read_skipSpace, List.append_assoc, skipSpace_append hu, hR.read_skipSpace, hr]

theorem Takes.map (h : R.Takes t a) (f : α → β) : (R.map f).Takes t (f a) := by
  intro r
  obtain ⟨r', hr, hs⟩ := h r
  exact ⟨r', by simp only [Reader.map, hr], hs⟩

theorem Spaced.map (h : R.Spaced) (f : α → β) : (R.map f).Spaced where
  read_skipSpace s := by simp only [Reader.map, h.read_skipSpace]
  head?_ne s r b hb := by
    simp only [Reader.map] at hb
    split at hb
    · rename_i hr
      exact h.head?_ne hr
    · cases hb

/-! ### Members -/

/-- The texts are taken one after another, each with what is known from those before it. -/
inductive Chain (item : σ → Reader σ) : σ → List (List Char) → σ → Prop
  | nil {a : σ} : Chain item a [] a
  | cons {a b c : σ} {t : List Char} {ts : List (List Char)} :
    (item a).Takes t b → Chain item b ts c → Chain item a (t :: ts) c

/-- The same, but each text only in front of what may stand behind a value. -/
inductive ChainBefore (item : σ → Reader σ) : σ → List (List Char) → σ → Prop
  | nil {a : σ} : ChainBefore item a [] a
  | cons {a b c : σ} {t : List Char} {ts : List (List Char)} :
    (item a).TakesBefore t b → ChainBefore item b ts c → ChainBefore item a (t :: ts) c

theorem Chain.before {item : σ → Reader σ} {a b : σ} {ts : List (List Char)} (h : Chain item a ts b) :
    ChainBefore item a ts b := by
  induction h with
  | nil => exact .nil
  | cons ht _ ih => exact .cons ht.before ih

/-- Texts with commas between them. -/
def joined : List (List Char) → List Char
  | [] => []
  | t :: ts => t ++ ts.flatMap fun u => ',' :: u

variable {item : σ → Reader σ} {x y z : σ} {ts : List (List Char)} (bracket : Value.Bracket)

theorem items_of_read {closing : Char} (h : (item x).read s = .ok (y, r)) :
    items closing item x s = match skipSpace r with
      | [] => .error .cutShort
      | c :: t =>
        if c = closing then .ok (y, t)
        else if c = ',' then items closing item y t
        else .error .malformed := by
  rw [items]
  split <;> rename_i h' <;> rw [h] at h'
  · cases h'
  · cases h'
    split <;> rename_i hr <;> rw [hr]

theorem closing_ne_comma (b : Value.Bracket) : ',' ≠ b.closing := by
  cases b <;> decide

theorem isSpace_closing (b : Value.Bracket) : isSpace b.closing = false := by
  cases b <;> decide

theorem isSpace_opening (b : Value.Bracket) : isSpace b.opening = false := by
  cases b <;> decide

/-- Behind a member there is a comma or the closing bracket. -/
theorem ends_behind_member (ts : List (List Char)) (hu : ∀ c ∈ u, isSpace c = true) (r : List Char) :
    Ends (ts.flatMap (fun t => ',' :: t) ++ (u ++ bracket.closing :: r)) := by
  cases ts with
  | nil =>
    rw [List.flatMap_nil, List.nil_append]
    exact ends_space_append hu (ends_closing bracket r)
  | cons t ts => exact ends_comma _

theorem items_of_chain (h : ChainBefore item x (t :: ts) y) (hu : ∀ c ∈ u, isSpace c = true) (r : List Char) :
    items bracket.closing item x (joined (t :: ts) ++ (u ++ bracket.closing :: r)) = .ok (y, r) := by
  induction ts generalizing x t with
  | nil =>
    cases h with
    | cons ht hts =>
    cases hts
    obtain ⟨r', hr, hs⟩ := ht (u ++ bracket.closing :: r) (ends_space_append hu (ends_closing bracket r))
    rw [skipSpace_append hu, skipSpace_cons (isSpace_closing bracket)] at hs
    rw [joined, List.flatMap_nil, List.append_nil, items_of_read hr, hs]
    simp only [if_true]
  | cons t' ts ih =>
    cases h with
    | cons ht hts =>
    obtain ⟨r', hr, hs⟩ := ht (',' :: (joined (t' :: ts) ++ (u ++ bracket.closing :: r))) (ends_comma _)
    rw [skipSpace_cons (by decide)] at hs
    have he : joined (t :: t' :: ts) ++ (u ++ bracket.closing :: r) =
        t ++ ',' :: (joined (t' :: ts) ++ (u ++ bracket.closing :: r)) := by
      simp [joined]
    rw [he, items_of_read hr, hs]
    simp only [if_neg (closing_ne_comma bracket), if_true]
    exact ih hts

theorem separated_of_chain (hi : ∀ x, (item x).Spaced) (h : ChainBefore item x ts y)
    (hu : ∀ c ∈ u, isSpace c = true) (r : List Char) :
    separated bracket.closing item x (joined ts ++ (u ++ bracket.closing :: r)) = .ok (y, r) := by
  cases ts with
  | nil =>
    cases h
    rw [joined, List.nil_append, separated, skipSpace_append hu,
      skipSpace_cons (isSpace_closing bracket)]
    simp only [if_true]
  | cons t ts =>
    have hitems := items_of_chain bracket h hu r
    obtain ⟨z, r', hr⟩ : ∃ z r', (item x).read
        (joined (t :: ts) ++ (u ++ bracket.closing :: r)) = .ok (z, r') := by
      cases h with
      | cons ht _ =>
      obtain ⟨r', hr, -⟩ := ht _ (ends_behind_member bracket ts hu r)
      rw [← List.append_assoc] at hr
      exact ⟨_, r', hr⟩
    generalize joined (t :: ts) ++ (u ++ bracket.closing :: r) = s at hitems hr
    have hr' := ((hi x).read_skipSpace s).trans hr
    rw [items_of_read hr, ← items_of_read hr'] at hitems
    have hne := (hi x).head?_ne hr bracket
    rw [separated]
    cases hs : skipSpace s with
    | nil =>
      rw [hs] at hr'
      exact absurd ((item x).shortens hr') (Nat.not_lt_zero _)
    | cons c s' =>
      rw [hs] at hne hitems
      simp only [if_neg fun e : c = bracket.closing => hne (by simp [e])]
      exact hitems

theorem takes_members (hi : ∀ x, (item x).Spaced) (h : Chain item x ts y)
    (hu : ∀ c ∈ u, isSpace c = true) :
    (members bracket item x).Takes (bracket.opening :: (joined ts ++ (u ++ [bracket.closing]))) y := by
  intro r
  refine ⟨r, ?_, rfl⟩
  have := separated_of_chain bracket hi h.before hu r
  simp only [members, List.cons_append, skipSpace_cons (isSpace_opening bracket), if_true]
  simpa using this

end Reader

/-! ### Strings -/

namespace Quoted

theorem fourDigits_escape {n : Nat} (h : n < 256) (s : List Char) :
    fourDigits ('0' :: '0' :: (n / 16).digitChar :: (n % 16).digitChar :: s) = .ok (n, s) := by
  have h₁ := Hex.value?_digitChar (n := n / 16) (by omega)
  have h₂ := Hex.value?_digitChar (n := n % 16) (by omega)
  have h₀ : Hex.value? '0' = some 0 := rfl
  have hsize : ¬ size ('0' :: '0' :: (n / 16).digitChar :: (n % 16).digitChar :: s) < 4 := by
    have := (n / 16).digitChar.utf8Size_pos
    have := (n % 16).digitChar.utf8Size_pos
    have : '0'.utf8Size = 1 := rfl
    simp only [size_cons]
    omega
  rw [fourDigits, if_neg hsize]
  simp only [h₀, h₁, h₂]
  rw [show ((0 * 16 + 0) * 16 + n / 16) * 16 + n % 16 = n by omega]

theorem read_letter {d : Char} (h : simple? d = some c) (hu : d ≠ 'u') (s : List Char) :
    character.read (d :: s) = .ok (c, s) := by
  show readCharacter (d :: s) = _
  unfold readCharacter
  split
  · rename_i h'; cases h'
  · rename_i h'; cases h'; exact absurd rfl hu
  · rename_i h'; cases h'; rw [h]

theorem read_fourDigits {n : Nat} (h : n < 256) (s : List Char) :
    character.read ('u' :: '0' :: '0' :: (n / 16).digitChar :: (n % 16).digitChar :: s) =
      .ok (Char.ofNat n, s) := by
  have hlow : isLowSurrogate n = false := by simp [isLowSurrogate]; omega
  have hhigh : isHighSurrogate n = false := by simp [isHighSurrogate]; omega
  simp only [character, readCharacter, fourDigits_escape h, hlow, hhigh, Bool.false_eq_true, if_false]

/-- A character stands for itself, or behind a backslash for what is read there. -/
theorem escape_cases (c : Char) :
    (escape c = [c] ∧ c ≠ '"' ∧ c ≠ '\\' ∧ ¬ c.toNat < 0x20) ∨
      ∃ e, escape c = '\\' :: e ∧ ∀ s, character.read (e ++ s) = .ok (c, s) := by
  have hofNat : ∀ {n : Nat}, c.toNat = n → some (Char.ofNat n) = some c := by
    rintro n rfl
    rw [Char.ofNat_toNat]
  unfold escape
  split
  · rename_i h
    exact .inr ⟨_, rfl, read_letter (by rw [h]; rfl) (by decide)⟩
  split
  · rename_i h
    exact .inr ⟨_, rfl, read_letter (by rw [h]; rfl) (by decide)⟩
  split
  · rename_i h
    exact .inr ⟨_, rfl, read_letter (by rw [h]; rfl) (by decide)⟩
  split
  · rename_i h
    exact .inr ⟨_, rfl, read_letter (by rw [h]; rfl) (by decide)⟩
  split
  · rename_i h
    exact .inr ⟨_, rfl, read_letter (by rw [h]; rfl) (by decide)⟩
  split
  · rename_i h
    exact .inr ⟨_, rfl, read_letter (hofNat h) (by decide)⟩
  split
  · rename_i h
    exact .inr ⟨_, rfl, read_letter (hofNat h) (by decide)⟩
  split
  · refine .inr ⟨_, rfl, fun s => ?_⟩
    have := read_fourDigits (n := c.toNat) (by omega) s
    rwa [Char.ofNat_toNat] at this
  · exact .inl ⟨rfl, ‹_›, ‹_›, ‹_›⟩

theorem content_escape {cs : List Char} (h : content character id s = .ok (cs, r)) (c : Char) :
    content character id (escape c ++ s) = .ok (c :: cs, r) := by
  rcases escape_cases c with ⟨he, h₁, h₂, h₃⟩ | ⟨e, he, hr⟩
  · rw [he, List.cons_append, List.nil_append, content, if_neg h₁, if_neg h₂, if_neg h₃, h]
    rfl
  · rw [he, List.cons_append, content, if_neg (by decide), if_pos rfl]
    split <;> rename_i hc <;> rw [hr] at hc
    · cases hc
    · cases hc
      rw [h]

theorem value_quoted (s : String) (r : List Char) :
    value (s.toList.flatMap escape ++ '"' :: r) = .ok (s, r) := by
  have hcontent : ∀ cs : List Char, content character id (cs.flatMap escape ++ '"' :: r) = .ok (cs, r) := by
    intro cs
    induction cs with
    | nil => rw [List.flatMap_nil, List.nil_append, content, if_pos rfl]
    | cons c cs ih =>
      rw [List.flatMap_cons, List.append_assoc]
      exact content_escape ih c
  rw [value, hcontent]
  simp only [String.ofList_toList]

end Quoted

theorem string_takes_quote (s : String) : string.Takes (quote s) s := by
  intro r
  refine ⟨r, ?_, rfl⟩
  rw [quote, List.append_assoc, List.cons_append]
  simp only [string, skipSpace_cons (show isSpace '"' = false by decide), if_true, List.cons_append,
    List.nil_append]
  exact Quoted.value_quoted s r

/-- A reader that starts at the first character that is no space, and only if it is a certain one. -/
theorem Reader.Spaced.of_eq {α : Type} {R : Reader α} {f : Char → List Char → Except Problem (α × List Char)}
    (hR : ∀ s, R.read s = match skipSpace s with | [] => .error .cutShort | c :: r => f c r)
    (hf : ∀ (b : Value.Bracket) r a, f b.closing r ≠ .ok a) : R.Spaced where
  read_skipSpace s := by rw [hR, hR, skipSpace_skipSpace]
  head?_ne s r a h b hb := by
    rw [hR] at h
    cases hs : skipSpace s with
    | nil => rw [hs] at h; cases h
    | cons c t =>
      rw [hs] at h hb
      cases hb
      exact hf b t _ h

theorem string_spaced : string.Spaced := by
  refine .of_eq (f := fun c r => if c = '"' then Quoted.value r else .error (Value.problem (c :: r)))
    (fun s => rfl) ?_
  intro b r a
  cases b <;> simp [Value.Bracket.closing]

theorem members_spaced {σ : Type} (bracket : Value.Bracket) (item : σ → Reader σ) (x : σ) :
    (members bracket item x).Spaced := by
  refine .of_eq (f := fun c r => if c = bracket.opening then Reader.separated bracket.closing item x r
    else .error (Value.problem (c :: r))) (fun s => rfl) ?_
  intro b r a
  have hne : b.closing ≠ bracket.opening := by cases b <;> cases bracket <;> decide
  simp [hne]

theorem keyed_spaced {σ : Type} (value : String → Except Problem (Reader σ)) : (keyed value).Spaced := by
  refine .of_eq (f := fun c r => if c = '"' then
      Quoted.value r >>= fun k => value k.1 >>= fun item => Value.colon k.2 >>= item.read
    else .error .malformed) (fun s => rfl) ?_
  intro b r a
  cases b <;> simp [Value.Bracket.closing]

theorem description_spaced : description.Spaced := by
  refine .of_eq (f := fun c r => if c = '\x7b' then readMembers r
    else if c = '[' then readThree r else .error (Value.problem (c :: r))) (fun s => rfl) ?_
  intro b r a
  cases b <;> simp [Value.Bracket.closing]

/-! ### Lists and objects -/

theorem exists_of_string_read {key : String} (h : string.read s = .ok (key, r)) :
    ∃ t, skipSpace s = '"' :: t ∧ Quoted.value t = .ok (key, r) := by
  simp only [string] at h
  split at h
  · cases h
  · rename_i c t hs
    split at h
    · rename_i hc
      exact ⟨t, hc ▸ hs, h⟩
    · cases h

namespace Reader
variable {α σ : Type} {item : Reader α}

theorem chain_list {ts : List (List Char)} {as : List α} (h : List.Forall₂ item.Takes ts as)
    (before : List α) :
    Chain (fun as => item.map (· :: as)) before ts (as.reverse ++ before) := by
  induction h generalizing before with
  | nil => exact .nil
  | cons ht _ ih =>
    rw [List.reverse_cons, List.append_assoc]
    exact .cons (ht.map _) (ih _)

theorem takes_list (hi : item.Spaced) {ts : List (List Char)} {as : List α}
    (h : List.Forall₂ item.Takes ts as) {u : List Char} (hu : ∀ c ∈ u, isSpace c = true) :
    (list item).Takes ('[' :: (joined ts ++ (u ++ [']']))) as := by
  have := (takes_members .list (fun _ => hi.map _) (chain_list h []) hu).map List.reverse
  rwa [List.append_nil, List.reverse_reverse] at this

theorem read_keyed {value : String → Except Problem (Reader σ)} {key : String} {k : List Char}
    {R : Reader σ} {x : σ} {r' : List Char} (hk : string.Takes k key) (hv : value key = .ok R)
    (h : R.read s = .ok (x, r')) : (keyed value).read (k ++ ':' :: s) = .ok (x, r') := by
  obtain ⟨r₁, hr₁, hs₁⟩ := hk (':' :: s)
  obtain ⟨t, ht, hkey⟩ := exists_of_string_read hr₁
  have hcolon : Value.colon r₁ = .ok s := by
    rw [Value.colon, hs₁, skipSpace_cons (by decide)]
    rfl
  simp only [keyed, ht, if_true, hkey, hv, hcolon, bind, Except.bind]
  exact h

theorem takes_keyed {value : String → Except Problem (Reader σ)} {key : String} {k v : List Char}
    {R : Reader σ} {x : σ} (hk : string.Takes k key) (hv : value key = .ok R) (h : R.Takes v x) :
    (keyed value).Takes (k ++ ':' :: v) x := by
  intro r
  obtain ⟨r', hr, hs⟩ := h r
  rw [List.append_assoc, List.cons_append]
  exact ⟨r', read_keyed hk hv hr, hs⟩

theorem takesBefore_keyed {value : String → Except Problem (Reader σ)} {key : String} {k v : List Char}
    {R : Reader σ} {x : σ} (hk : string.Takes k key) (hv : value key = .ok R) (h : R.TakesBefore v x) :
    (keyed value).TakesBefore (k ++ ':' :: v) x := by
  intro r hends
  obtain ⟨r', hr, hs⟩ := h r hends
  rw [List.append_assoc, List.cons_append]
  exact ⟨r', read_keyed hk hv hr, hs⟩

/-- The members of a table are written into it one after another. -/
theorem chain_typeTable {ts : List (List Char)} {es : List (String × String)}
    (h : List.Forall₂ (fun t e => ∃ k v, t = k ++ ':' :: v ∧ string.Takes k e.1 ∧ string.Takes v e.2) ts es)
    (before : TypeTable) :
    Chain (fun t => keyed fun k => .ok (string.map (t.insert k))) before ts
      (es.foldl (fun t e => t.insert e.1 e.2) before) := by
  induction h generalizing before with
  | nil => exact .nil
  | cons ht _ ih =>
    obtain ⟨k, v, rfl, hk, hv⟩ := ht
    exact .cons (takes_keyed hk rfl (hv.map _)) (ih _)

theorem takes_typeTable {ts : List (List Char)} {es : List (String × String)}
    (h : List.Forall₂ (fun t e => ∃ k v, t = k ++ ':' :: v ∧ string.Takes k e.1 ∧ string.Takes v e.2) ts es)
    (hu : ∀ c ∈ u, isSpace c = true) :
    typeTable.Takes ('\x7b' :: (joined ts ++ (u ++ ['\x7d']))) (.ofList es) :=
  takes_members .object (fun _ => keyed_spaced _) (chain_typeTable h .empty) hu

theorem takes_description {ts : List (List Char)} {d : Draft} {e : Description}
    (h : ChainBefore (fun d => keyed d.member) Draft.blank ts d) (he : d.finish = .ok e)
    (hu : ∀ c ∈ u, isSpace c = true) :
    description.Takes ('\x7b' :: (joined ts ++ (u ++ ['\x7d']))) e := by
  intro r
  refine ⟨r, ?_, rfl⟩
  have := separated_of_chain .object (fun _ => keyed_spaced _) h hu r
  rw [Value.Bracket.closing] at this
  simp only [description, List.cons_append, skipSpace_cons (show isSpace '\x7b' = false by decide),
    if_true, readMembers, List.append_assoc, List.nil_append, this, bind, Except.bind, he]
  rfl

end Reader

/-! ### What is printed -/

open Reader

theorem block_eq (opening closing : Char) (depth : Nat) (is : List (List Char)) :
    block opening closing depth is = opening :: (joined (is.map (newline (depth + 1) ++ ·)) ++
      ((if is = [] then [] else newline depth) ++ [closing])) := by
  cases is with
  | nil => rfl
  | cons i is => simp [block, joined, List.flatMap_map]

theorem isSpace_of_mem_ite {depth : Nat} {is : List (List Char)}
    (h : c ∈ if is = [] then [] else newline depth) : isSpace c = true := by
  split at h
  · cases h
  · exact isSpace_of_mem_newline h

/-- Items may start on a line of their own. -/
theorem forall₂_takes_newline {α β : Type} {R : Reader α} (hR : R.Spaced) {f : β → List Char} {g : β → α}
    {xs : List β} (h : ∀ x ∈ xs, R.Takes (f x) (g x)) (depth : Nat) :
    List.Forall₂ R.Takes ((xs.map f).map (newline depth ++ ·)) (xs.map g) := by
  rw [List.map_map, List.forall₂_map_left_iff, List.forall₂_map_right_iff, List.forall₂_same]
  exact fun x hx => (h x hx).space_append hR fun c => isSpace_of_mem_newline

theorem takes_block_list {α β : Type} {R : Reader α} (hR : R.Spaced) {f : β → List Char} {g : β → α}
    {xs : List β} (h : ∀ x ∈ xs, R.Takes (f x) (g x)) (depth : Nat) :
    (list R).Takes (block '[' ']' depth (xs.map f)) (xs.map g) := by
  rw [block_eq]
  exact takes_list hR (forall₂_takes_newline hR h _) fun c => isSpace_of_mem_ite

theorem takes_printed_table (es : List (String × String)) (depth : Nat) :
    typeTable.Takes (block '\x7b' '\x7d' depth (es.map fun e => member e.1 (quote e.2))) (.ofList es) := by
  rw [block_eq, List.map_map]
  refine takes_typeTable ?_ fun c => isSpace_of_mem_ite
  rw [List.forall₂_map_left_iff, List.forall₂_same]
  intro e _
  refine ⟨newline (depth + 1) ++ quote e.1, ' ' :: quote e.2, ?_, ?_, ?_⟩
  · simp [member]
  · exact (string_takes_quote e.1).space_append string_spaced fun c => isSpace_of_mem_newline
  · exact (string_takes_quote e.2).space_append (u := [' ']) string_spaced (by simp [isSpace])

theorem takes_printed_member {σ : Type} {value : String → Except Problem (Reader σ)} {x : σ} {key : String}
    {v : List Char} {R : Reader σ} {depth : Nat} (hkey : value key = .ok R) (hR : R.Spaced)
    (hv : R.Takes v x) : (keyed value).Takes (newline depth ++ member key v) x := by
  refine Takes.space_append ?_ (keyed_spaced _) fun c => isSpace_of_mem_newline
  exact takes_keyed (string_takes_quote key) hkey (hv.space_append (u := [' ']) hR (by simp [isSpace]))

theorem list_spaced {α : Type} (R : Reader α) : (list R).Spaced :=
  (members_spaced ..).map _

theorem typeTable_spaced : typeTable.Spaced :=
  members_spaced ..

theorem takes_printDescription (d : Description) : description.Takes (printDescription d) d := by
  rw [printDescription, block_eq]
  have hname : string.Takes (quote d.name) d.name := string_takes_quote d.name
  have hmarked : (list string).Takes (block '[' ']' 2 (d.marked.map quote)) d.marked := by
    have := takes_block_list string_spaced (fun n (_ : n ∈ d.marked) => string_takes_quote n) 2
    rwa [List.map_id'] at this
  have htypes := takes_printed_table d.types.entries 2
  rw [TypeTable.ofList_entries] at htypes
  refine takes_description (d := ⟨some d.name, some d.marked, some d.types⟩) ?_ rfl
    fun c => isSpace_of_mem_ite
  exact Chain.before <| .cons (takes_printed_member rfl (string_spaced.map _) (hname.map _)) <|
    .cons (takes_printed_member rfl ((list_spaced _).map _) (hmarked.map _)) <|
    .cons (takes_printed_member rfl (typeTable_spaced.map _) (htypes.map _)) .nil

/-- Reading a printed manifest gives back what was printed. -/
theorem parse_render (c : Catalog) : parse (render c) = .ok c.descriptions := by
  have h := takes_block_list description_spaced (fun d (_ : d ∈ c.descriptions) => takes_printDescription d) 0
  rw [List.map_id'] at h
  obtain ⟨r, hr, hs⟩ := h ['\n']
  have hend : skipSpace r = [] := hs
  simp only [parse, render, String.toList_ofList, hr, bind, Except.bind, hend, if_true]
  rfl

end HeaderMeta.Manifest
