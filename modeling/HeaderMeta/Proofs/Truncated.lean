import HeaderMeta.Proofs.Reparse
import HeaderMeta.Proofs.Trail

/-!
# Manifests that end too early

`R.Needs t` says that `R` finds the end of the text wherever `t` is cut off. A list or an object needs
its text if its members are taken one after another and each one needs its own: `Needed` follows what is
known from member to member as `Chain` does, and the cut lies inside a member, where that member is found
too short, or between two, where a comma or the closing bracket is missing (`items_start`). So a manifest
as it is printed needs all but its last line end (`parse_eq_cutShort_of_append`).
-/

namespace HeaderMeta.Manifest

open Text

variable {s t u v r : List Char} {c : Char}

/-! ### Parts of a text -/

/-- A part of a text ends in its first half or reaches into the second. -/
theorem cut_cases (h : u ++ v = s ++ t) (hv : v ≠ []) :
    (∃ x, s = u ++ x ∧ x ≠ []) ∨ ∃ x, u = s ++ x ∧ x ++ v = t := by
  rcases List.append_eq_append_iff.1 h with ⟨x, rfl, rfl⟩ | ⟨x, rfl, rfl⟩
  · rcases eq_or_ne x [] with rfl | hx
    · exact .inr ⟨[], by simp, rfl⟩
    · exact .inl ⟨x, rfl, hx⟩
  · exact .inr ⟨x, rfl, rfl⟩

/-- Without the last character, which is no space, nothing but space is left. -/
theorem skipSpace_eq_nil_of_append (hs : ∀ c ∈ s, isSpace c = true) (h : u ++ v = s ++ [c]) (hv : v ≠ []) :
    skipSpace u = [] := by
  rcases cut_cases h hv with ⟨x, rfl, -⟩ | ⟨x, rfl, hx⟩
  · exact skipSpace_eq_nil fun c hc => hs c (List.mem_append_left x hc)
  · obtain rfl : x = [] := by
      cases x with
      | nil => rfl
      | cons d x => simp [hv] at hx
    rw [List.append_nil, skipSpace_eq_nil hs]

namespace Reader
variable {α β σ : Type} {R : Reader α} {a : α}

/-- Of `t` nothing can be spared: where it is cut off, `R` finds the end of the text. -/
structure Needs (R : Reader α) (t : List Char) : Prop where
  ne_nil : t ≠ []
  read_start : ∀ ⦃u v⦄, u ++ v = t → v ≠ [] → R.read u = .error .cutShort

theorem Needs.read_nil (h : R.Needs t) : R.read [] = .error .cutShort :=
  h.read_start (List.nil_append t) h.ne_nil

theorem Needs.map (h : R.Needs t) (f : α → β) : (R.map f).Needs t where
  ne_nil := h.ne_nil
  read_start u v huv hv := by simp only [Reader.map, h.read_start huv hv]

theorem Needs.space_append (h : R.Needs t) (hR : R.Spaced) (hs : ∀ c ∈ s, isSpace c = true) :
    R.Needs (s ++ t) where
  ne_nil := by simp [h.ne_nil]
  read_start u v huv hv := by
    rcases cut_cases huv hv with ⟨x, rfl, -⟩ | ⟨x, rfl, hx⟩
    · rw [← hR.read_skipSpace, skipSpace_eq_nil fun c hc => hs c (List.mem_append_left x hc), h.read_nil]
    · rw [← hR.read_skipSpace, skipSpace_append hs, hR.read_skipSpace, h.read_start hx hv]

/-! ### Members -/

/-- The texts are taken one after another, and each one is needed. -/
inductive Needed (item : σ → Reader σ) : σ → List (List Char) → Prop
  | nil {a : σ} : Needed item a []
  | cons {a b : σ} {t : List Char} {ts : List (List Char)} :
    (item a).Takes t b → (item a).Needs t → Needed item b ts → Needed item a (t :: ts)

variable {item : σ → Reader σ} {x y : σ} {ts : List (List Char)} (bracket : Value.Bracket)

theorem items_of_error {closing : Char} {e : Problem} (h : (item x).read s = .error e) :
    items closing item x s = .error e := by
  rw [items]
  split <;> rename_i h' <;> cases h.symm.trans h'
  rfl

theorem items_skipSpace {closing : Char} (hi : (item x).Spaced) (s : List Char) :
    items closing item x (skipSpace s) = items closing item x s := by
  have hread := hi.read_skipSpace s
  cases h : (item x).read s with
  | error e => rw [items_of_error h, items_of_error (hread.trans h)]
  | ok a => rw [items_of_read h, items_of_read (hread.trans h)]

/-- The cut lies inside a member, behind a member, or behind the comma before one. -/
theorem items_start (h : Needed item x (t :: ts)) (hs : ∀ c ∈ s, isSpace c = true)
    (huv : u ++ v = joined (t :: ts) ++ (s ++ [bracket.closing])) (hv : v ≠ []) :
    items bracket.closing item x u = .error .cutShort := by
  induction ts generalizing x t u with
  | nil =>
    cases h with
    | cons ht hneeds _ =>
    rw [joined, List.flatMap_nil, List.append_nil] at huv
    rcases cut_cases huv hv with ⟨z, hz, hne⟩ | ⟨z, rfl, hz⟩
    · exact items_of_error (hneeds.read_start hz.symm hne)
    · obtain ⟨r', hr, hskip⟩ := ht z
      rw [items_of_read hr, hskip, skipSpace_eq_nil_of_append hs hz hv]
  | cons t' ts ih =>
    cases h with
    | cons ht hneeds hrest =>
    have hjoined : joined (t :: t' :: ts) ++ (s ++ [bracket.closing]) =
        t ++ ',' :: (joined (t' :: ts) ++ (s ++ [bracket.closing])) := by
      simp [joined]
    rw [hjoined] at huv
    rcases cut_cases huv hv with ⟨z, hz, hne⟩ | ⟨z, rfl, hz⟩
    · exact items_of_error (hneeds.read_start hz.symm hne)
    · obtain ⟨r', hr, hskip⟩ := ht z
      rw [items_of_read hr, hskip]
      cases z with
      | nil => rfl
      | cons d z =>
        obtain ⟨rfl, hz'⟩ := List.cons.inj hz
        rw [skipSpace_cons (by decide)]
        simp only [if_neg (closing_ne_comma bracket), if_true]
        exact ih hrest hz'

/-- Nothing but space, or a start of the first member: that is not the closing bracket. -/
theorem separated_start (hi : ∀ x, (item x).Spaced) (h : Needed item x ts)
    (hs : ∀ c ∈ s, isSpace c = true) (huv : u ++ v = joined ts ++ (s ++ [bracket.closing])) (hv : v ≠ []) :
    separated bracket.closing item x u = .error .cutShort := by
  cases ts with
  | nil => rw [separated, skipSpace_eq_nil_of_append hs huv hv]
  | cons t ts =>
    have hitems := items_start bracket h hs huv hv
    rw [← items_skipSpace (hi x)] at hitems
    rw [separated]
    cases hskip : skipSpace u with
    | nil => rfl
    | cons c u' =>
      have hne : c ≠ bracket.closing := by
        rintro rfl
        cases h with
        | cons ht _ _ =>
        have hfull : t ++ (ts.flatMap (fun w => ',' :: w) ++ (s ++ [bracket.closing])) = u ++ v := by
          rw [huv, joined, List.append_assoc]
        obtain ⟨r', hr, -⟩ := ht (ts.flatMap (fun w => ',' :: w) ++ (s ++ [bracket.closing]))
        rw [hfull] at hr
        exact (hi x).head?_ne hr bracket (by rw [skipSpace_append_of_cons hskip]; rfl)
      simp only [if_neg hne]
      rwa [hskip] at hitems

theorem needs_members (hi : ∀ x, (item x).Spaced) (h : Needed item x ts) (hs : ∀ c ∈ s, isSpace c = true) :
    (members bracket item x).Needs (bracket.opening :: (joined ts ++ (s ++ [bracket.closing]))) where
  ne_nil := List.cons_ne_nil _ _
  read_start u v huv hv := by
    cases u with
    | nil => rfl
    | cons c u =>
      obtain ⟨rfl, huv'⟩ := List.cons.inj huv
      simp only [members, skipSpace_cons (isSpace_opening bracket), if_true]
      exact separated_start bracket hi h hs huv' hv

end Reader

/-! ### Strings -/

namespace Quoted

/-- A character stands for itself, behind a backslash, or as four digits. -/
theorem escape_shape (c : Char) : escape c = [c] ∨ (∃ d, escape c = ['\\', d]) ∨
    ∃ n < 256, escape c = ['\\', 'u', '0', '0', (n / 16).digitChar, (n % 16).digitChar] := by
  unfold escape
  split
  · exact .inr (.inl ⟨_, rfl⟩)
  split
  · exact .inr (.inl ⟨_, rfl⟩)
  split
  · exact .inr (.inl ⟨_, rfl⟩)
  split
  · exact .inr (.inl ⟨_, rfl⟩)
  split
  · exact .inr (.inl ⟨_, rfl⟩)
  split
  · exact .inr (.inl ⟨_, rfl⟩)
  split
  · exact .inr (.inl ⟨_, rfl⟩)
  split
  · exact .inr (.inr ⟨c.toNat, by omega, rfl⟩)
  · exact .inl rfl

theorem utf8Size_digitChar {n : Nat} (h : n < 16) : n.digitChar.utf8Size = 1 := by
  have key : ∀ n ∈ List.range 16, n.digitChar.utf8Size = 1 := by decide
  exact key n (List.mem_range.2 h)

theorem read_of_size_lt (h : size s < 4) : character.read ('u' :: s) = .error .cutShort := by
  simp only [character, readCharacter, fourDigits, h, if_true]

theorem content_of_error {e : Problem} (h : character.read s = .error e) :
    content character id ('\\' :: s) = .error e := by
  rw [content, if_neg (by decide), if_pos rfl]
  split <;> rename_i h' <;> cases h.symm.trans h'
  rfl

theorem content_escape_start (h : u ++ v = escape c) (hv : v ≠ []) :
    content character id u = .error .cutShort := by
  cases u with
  | nil => rw [content]
  | cons d u =>
    rcases escape_shape c with he | ⟨e, he⟩ | ⟨n, hn, he⟩ <;>
      obtain ⟨rfl, hu⟩ := List.cons.inj (h.trans he)
    · exact absurd (List.append_eq_nil_iff.1 hu).2 hv
    · obtain rfl : u = [] := by
        cases u with
        | nil => rfl
        | cons d u => exact absurd (List.append_eq_nil_iff.1 (List.cons.inj hu).2).2 hv
      exact content_of_error rfl
    · refine content_of_error ?_
      cases u with
      | nil => rfl
      | cons d u =>
        obtain ⟨rfl, hu'⟩ := List.cons.inj hu
        have hsize : size (u ++ v) = size ['0', '0', (n / 16).digitChar, (n % 16).digitChar] :=
          congrArg size hu'
        have hpos := size_pos hv
        simp only [size_append, size_cons, size_nil, utf8Size_digitChar (show n / 16 < 16 by omega),
          utf8Size_digitChar (show n % 16 < 16 by omega), show '0'.utf8Size = 1 from rfl] at hsize
        exact read_of_size_lt (by omega)

theorem content_escape_error {e : Problem} (h : content character id s = .error e) (c : Char) :
    content character id (escape c ++ s) = .error e := by
  rcases escape_cases c with ⟨he, h₁, h₂, h₃⟩ | ⟨w, he, hr⟩
  · rw [he, List.cons_append, List.nil_append, content, if_neg h₁, if_neg h₂, if_neg h₃, h]
  · rw [he, List.cons_append, content, if_neg (by decide), if_pos rfl]
    split <;> rename_i hc <;> rw [hr] at hc
    · cases hc
    · cases hc
      rw [h]

/-- The cut lies inside a character as it is written, or before the closing quote. -/
theorem content_start {cs : List Char} (h : u ++ v = cs.flatMap escape ++ ['"']) (hv : v ≠ []) :
    content character id u = .error .cutShort := by
  induction cs generalizing u with
  | nil =>
    cases u with
    | nil => rw [content]
    | cons d u => exact absurd (List.append_eq_nil_iff.1 (List.cons.inj h).2).2 hv
  | cons c cs ih =>
    rw [List.flatMap_cons, List.append_assoc] at h
    rcases cut_cases h hv with ⟨x, hx, hne⟩ | ⟨x, rfl, hx⟩
    · exact content_escape_start hx.symm hne
    · exact content_escape_error (ih hx) c

end Quoted

open Reader

theorem string_needs_quote (s : String) : string.Needs (quote s) where
  ne_nil := List.cons_ne_nil _ _
  read_start u v huv hv := by
    cases u with
    | nil => rfl
    | cons c u =>
      obtain ⟨rfl, huv'⟩ := List.cons.inj huv
      simp only [string, skipSpace_cons (show isSpace '"' = false by decide), if_true, Quoted.value,
        Quoted.content_start huv' hv]

/-! ### Members of objects -/

namespace Reader
variable {σ : Type} {value : String → Except Problem (Reader σ)} {key : String} {k w : List Char}
  {R : Reader σ}

/-- The cut lies inside the key, before the colon, or inside the value. -/
theorem needs_keyed (hk : string.Takes k key) (hneeds : string.Needs k) (hv : value key = .ok R)
    (h : R.Needs w) : (keyed value).Needs (k ++ ':' :: w) where
  ne_nil := by simp
  read_start u v huv hne := by
    rcases cut_cases huv hne with ⟨x, rfl, hx⟩ | ⟨x, rfl, hx⟩
    · have hread := hneeds.read_start rfl hx
      obtain ⟨r', hr, -⟩ := hk []
      obtain ⟨t, ht, -⟩ := exists_of_string_read hr
      rw [List.append_nil] at ht
      simp only [string] at hread
      simp only [keyed]
      cases hu : skipSpace u with
      | nil => rfl
      | cons c u' =>
        obtain ⟨rfl, -⟩ := List.cons.inj ((skipSpace_append_of_cons hu).symm.trans ht)
        rw [hu] at hread
        simp only [if_true] at hread ⊢
        rw [hread]
        rfl
    · obtain ⟨r₁, hr₁, hs₁⟩ := hk x
      obtain ⟨t, ht, hkey⟩ := exists_of_string_read hr₁
      simp only [keyed, ht, if_true, hkey, hv, bind, Except.bind]
      cases x with
      | nil =>
        have hcolon : Value.colon r₁ = .error .cutShort := by
          rw [Value.colon, hs₁]
          rfl
        rw [hcolon]
      | cons d x =>
        obtain ⟨rfl, hx'⟩ := List.cons.inj hx
        have hcolon : Value.colon r₁ = .ok x := by
          rw [Value.colon, hs₁, skipSpace_cons (by decide)]
          rfl
        rw [hcolon]
        exact h.read_start hx' hne

end Reader

/-! ### What is printed -/

namespace Reader
variable {α β σ : Type} {R : Reader α} {item : σ → Reader σ} {f : β → List Char} {g : β → α}

/-- The members of a list are taken and needed, whatever stands before them. -/
theorem needed_list {ts : List (List Char)} (h : ∀ t ∈ ts, (∃ a, R.Takes t a) ∧ R.Needs t) (before : List α) :
    Needed (fun as => R.map (· :: as)) before ts := by
  induction ts generalizing before with
  | nil => exact .nil
  | cons t ts ih =>
    obtain ⟨⟨a, ha⟩, hneeds⟩ := h t (List.mem_cons_self ..)
    exact .cons (ha.map _) (hneeds.map _) (ih (fun u hu => h u (List.mem_cons_of_mem t hu)) _)

theorem needs_block_list (hR : R.Spaced) {xs : List β} (h : ∀ x ∈ xs, R.Takes (f x) (g x))
    (hneeds : ∀ x ∈ xs, R.Needs (f x)) (depth : Nat) :
    (list R).Needs (block '[' ']' depth (xs.map f)) := by
  rw [block_eq, List.map_map]
  refine (needs_members .list (fun _ => hR.map _) (needed_list (fun t ht => ?_) [])
    fun c => isSpace_of_mem_ite).map _
  obtain ⟨x, hx, rfl⟩ := List.mem_map.1 ht
  exact ⟨⟨g x, (h x hx).space_append hR fun c => isSpace_of_mem_newline⟩,
    (hneeds x hx).space_append hR fun c => isSpace_of_mem_newline⟩

end Reader

variable {es : List (String × String)}

theorem needs_printed_member {σ : Type} {value : String → Except Problem (Reader σ)} {key : String}
    {R : Reader σ} {w : List Char} {depth : Nat} (hkey : value key = .ok R) (hR : R.Spaced)
    (hw : R.Needs w) : (keyed value).Needs (newline depth ++ member key w) := by
  refine Needs.space_append ?_ (keyed_spaced _) fun c => isSpace_of_mem_newline
  exact needs_keyed (string_takes_quote key) (string_needs_quote key) hkey
    (hw.space_append (s := [' ']) hR (by simp [isSpace]))

theorem needed_printed_table (es : List (String × String)) (depth : Nat) (before : TypeTable) :
    Needed (fun t => keyed fun k => .ok (string.map (t.insert k))) before
      ((es.map fun e => member e.1 (quote e.2)).map (newline depth ++ ·)) := by
  induction es generalizing before with
  | nil => exact .nil
  | cons e es ih =>
    exact .cons
      (takes_printed_member rfl (string_spaced.map _) ((string_takes_quote e.2).map (before.insert e.1)))
      (needs_printed_member rfl (string_spaced.map _) ((string_needs_quote e.2).map _)) (ih _)

theorem needs_printed_table (es : List (String × String)) (depth : Nat) :
    typeTable.Needs (block '\x7b' '\x7d' depth (es.map fun e => member e.1 (quote e.2))) := by
  rw [block_eq]
  exact needs_members .object (fun _ => keyed_spaced _) (needed_printed_table es _ .empty)
    fun c => isSpace_of_mem_ite

theorem needs_description {ts : List (List Char)} (h : Needed (fun d => keyed d.member) Draft.blank ts)
    (hs : ∀ c ∈ s, isSpace c = true) : description.Needs ('\x7b' :: (joined ts ++ (s ++ ['\x7d']))) where
  ne_nil := List.cons_ne_nil _ _
  read_start u v huv hv := by
    cases u with
    | nil => rfl
    | cons c u =>
      obtain ⟨rfl, huv'⟩ := List.cons.inj huv
      have := separated_start .object (fun _ => keyed_spaced _) h hs huv' hv
      rw [Value.Bracket.closing] at this
      simp only [description, skipSpace_cons (show isSpace '\x7b' = false by decide), if_true, readMembers,
        this]
      rfl

theorem needs_printDescription (d : Description) : description.Needs (printDescription d) := by
  rw [printDescription, block_eq]
  have hmarked : (list string).Takes (block '[' ']' 2 (d.marked.map quote)) d.marked := by
    have := takes_block_list string_spaced (fun n (_ : n ∈ d.marked) => string_takes_quote n) 2
    rwa [List.map_id'] at this
  have hneeds := needs_block_list string_spaced (fun n (_ : n ∈ d.marked) => string_takes_quote n)
    (fun n _ => string_needs_quote n) 2
  refine needs_description ?_ fun c => isSpace_of_mem_ite
  refine .cons (takes_printed_member rfl (string_spaced.map _) ((string_takes_quote d.name).map _))
    (needs_printed_member rfl (string_spaced.map _) ((string_needs_quote d.name).map _)) ?_
  refine .cons (takes_printed_member rfl ((list_spaced _).map _) (hmarked.map _))
    (needs_printed_member rfl ((list_spaced _).map _) (hneeds.map _)) ?_
  exact .cons (takes_printed_member rfl (typeTable_spaced.map _) ((takes_printed_table _ 2).map _))
    (needs_printed_member rfl (typeTable_spaced.map _) ((needs_printed_table _ 2).map _)) .nil

/-- A printed manifest that is cut off anywhere before its last bracket is found to end too early. -/
theorem parse_eq_cutShort_of_append (c : Catalog) (s t : String) (h : s ++ t = render c) (ht : t ≠ "")
    (ht' : t ≠ "\n") : parse s = .error .cutShort := by
  have hne : t.toList ≠ [] := fun e => ht (String.toList_injective e)
  have hne' : t.toList ≠ ['\n'] := fun e => ht' (String.toList_injective e)
  have hneeds : (list description).Needs (block '[' ']' 0 (c.descriptions.map printDescription)) :=
    needs_block_list description_spaced (fun d (_ : d ∈ c.descriptions) => takes_printDescription d)
      (fun d _ => needs_printDescription d) 0
  have htext : s.toList ++ t.toList = block '[' ']' 0 (c.descriptions.map printDescription) ++ ['\n'] := by
    rw [← String.toList_append, h, render, String.toList_ofList]
  have hread : (list description).read s.toList = .error .cutShort := by
    rcases cut_cases htext hne with ⟨x, hx, hxne⟩ | ⟨x, -, hx⟩
    · exact hneeds.read_start hx.symm hxne
    · cases x with
      | nil => exact absurd hx hne'
      | cons d x => exact absurd (List.append_eq_nil_iff.1 (List.cons.inj hx).2).2 hne
  rw [parse, hread]
  rfl

/-- The cut may go through an escape. -/
theorem parse_eq_cutShort_of_append_escape :
    "[\n  \x7b\n    \"name\": \"\\u00" ++ "01\",\n    \"serializedFields\": [],\n    \"fieldTypes\": \x7b\x7d\n  \x7d\n]\n" =
      render ⟨[⟨"\x01", [], .empty⟩]⟩ ∧
    parse "[\n  \x7b\n    \"name\": \"\\u00" = .error .cutShort := by
  have htext : "[\n  \x7b\n    \"name\": \"\\u00" ++
      "01\",\n    \"serializedFields\": [],\n    \"fieldTypes\": \x7b\x7d\n  \x7d\n]\n" =
        render ⟨[⟨"\x01", [], .empty⟩]⟩ := by
    cbv
  exact ⟨htext, parse_eq_cutShort_of_append _ _ _ htext (by decide) (by decide)⟩

end HeaderMeta.Manifest
