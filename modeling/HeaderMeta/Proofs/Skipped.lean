import HeaderMeta.Proofs.JsonText

/-!
# Values that are passed over

Passing over a value ends right behind it (`skipped_takesBefore`), however it is written and however deep
it is nested. The brackets that are open around a value make no difference to it (`Passes`), so that one
induction on how it is written is enough (`passes_value`). Where a number ends is only seen by what comes
behind it, which is why a value must be followed by what may stand behind one (`Reader.Ends`).
-/

namespace HeaderMeta.Manifest

open Text

variable {s t u v r : List Char} {c : Char}

/-! ### Numbers -/

namespace Number

/-- What may stand behind a value is no part of a number. -/
theorem stops_of_ends {p : Char → Bool}
    (hp : [' ', '\n', '\r', '\t', ',', ']', '\x7d'].all (fun c => !p c) = true) (h : Reader.Ends r) :
    Stops p r := by
  intro c hc
  have hmem : c ∈ [' ', '\n', '\r', '\t', ',', ']', '\x7d'] := by
    rcases h c hc with h | rfl | ⟨b, rfl⟩
    · simp only [isSpace, Bool.or_eq_true, beq_iff_eq] at h
      simp only [List.mem_cons]
      tauto
    · decide
    · cases b <;> decide
  simpa using List.all_eq_true.1 hp c hmem

theorem someDigits_append (hs : Digits s) (hr : Stops Char.isDigit r) : someDigits (s ++ r) = .ok (s, r) := by
  obtain ⟨hne, hs⟩ := hs
  have hrun : run Char.isDigit (s ++ r) = (s, r) := run_eq_iff.2 ⟨rfl, hs, hr⟩
  unfold someDigits
  rw [hrun]
  cases s with
  | nil => exact absurd rfl hne
  | cons c s => rfl

theorem readSign_append (hs : Digits s) {sign : List Char} (hsign : sign ∈ [[], ['+'], ['-']]) :
    (readSign (sign ++ (s ++ r))).2 = s ++ r := by
  simp only [List.mem_cons, List.not_mem_nil, or_false] at hsign
  rcases hsign with rfl | rfl | rfl
  · obtain ⟨c, s, rfl⟩ := List.exists_cons_of_ne_nil hs.1
    have hc := hs.2 c (List.mem_cons_self ..)
    unfold readSign
    split
    · rename_i h
      cases h
      exact absurd hc (by decide)
    · rename_i h
      cases h
      exact absurd hc (by decide)
    · rfl
  · rfl
  · rfl

theorem exists_readExponent (ht : ExponentText t) (hr : Reader.Ends r) :
    (∃ e, readExponent (t ++ r) = .ok (e, r)) ∧ Stops (fun c => c.isDigit || c == '.') (t ++ r) := by
  rcases ht with rfl | ⟨mark, sign, ds, hmark, hsign, hds, rfl⟩
  · have hmark : Stops (fun c => c == 'e' || c == 'E') r := stops_of_ends (by decide) hr
    refine ⟨⟨(false, []), ?_⟩, stops_of_ends (by decide) hr⟩
    rw [List.nil_append]
    unfold readExponent
    split
    · rename_i c r
      exact if_neg (by simpa using hmark)
    · rfl
  · have hdigits := someDigits_append hds (stops_of_ends (p := Char.isDigit) (by decide) hr)
    simp only [List.mem_cons, List.not_mem_nil, or_false] at hmark
    constructor
    · rw [List.cons_append, List.append_assoc, readExponent, if_pos hmark, readSign_append hds hsign,
        hdigits]
      exact ⟨_, rfl⟩
    · rcases hmark with rfl | rfl <;> exact stops_cons.2 (by decide)

theorem exists_readFraction (ht : FractionText t) (hr : Stops (fun c => c.isDigit || c == '.') r) :
    (∃ ds, readFraction (t ++ r) = .ok (ds, r)) ∧ Stops Char.isDigit (t ++ r) := by
  have hdigit : Stops Char.isDigit r := fun c hc => (Bool.or_eq_false_iff.1 (hr c hc)).1
  rcases ht with rfl | ⟨ds, hds, rfl⟩
  · refine ⟨⟨[], ?_⟩, hdigit⟩
    rw [List.nil_append]
    unfold readFraction
    split
    · exact absurd (stops_cons.1 hr) (by decide)
    · rfl
  · exact ⟨⟨ds, someDigits_append hds hdigit⟩, stops_cons.2 (by decide)⟩

theorem pass_numberText (h : NumberText t) (hr : Reader.Ends r) : pass (t ++ r) = .ok r := by
  obtain ⟨sign, whole, fraction, exponent, hsign, hwhole, hzero, hfraction, hexponent, rfl⟩ := h
  obtain ⟨⟨e, he⟩, hstops⟩ := exists_readExponent hexponent hr
  obtain ⟨⟨ds, hds⟩, hstops'⟩ := exists_readFraction hfraction hstops
  have hw : readWhole (whole ++ (fraction ++ (exponent ++ r))) = .ok (whole, fraction ++ (exponent ++ r)) := by
    rw [readWhole, someDigits_append hwhole hstops']
    exact if_neg fun h => h.2 (hzero h.1)
  have hunsigned : readUnsigned (whole ++ (fraction ++ (exponent ++ r))) = .ok (⟨whole, ds, e.1, e.2⟩, r) := by
    simp only [readUnsigned, hw, hds, he, bind, Except.bind, pure, Except.pure]
  have hread : read ((sign ++ (whole ++ (fraction ++ exponent))) ++ r) = .ok (⟨whole, ds, e.1, e.2⟩, r) := by
    simp only [List.append_assoc]
    simp only [List.mem_cons, List.not_mem_nil, or_false] at hsign
    rcases hsign with rfl | rfl
    · obtain ⟨c, w, rfl⟩ := List.exists_cons_of_ne_nil hwhole.1
      have hc := hwhole.2 c (List.mem_cons_self ..)
      rw [List.nil_append]
      unfold read
      split
      · rename_i h
        cases h
        exact absurd hc (by decide)
      · exact hunsigned
    · exact hunsigned
  rw [pass, hread]

end Number

/-! ### Values that are passed over -/

namespace Value
open Reader (joined isSpace_closing isSpace_opening closing_ne_comma ends_behind_member)
variable {b : Bracket} {opened : List Bracket}

theorem pass_value_eq (opened : List Bracket) (s : List Char) :
    pass .value opened s = match skipSpace s with
      | [] => .error .cutShort
      | c :: t => match Bracket.ofOpening? c with
        | some b => match skipSpace t with
          | [] => .error .cutShort
          | d :: u =>
            if d = b.closing then pass .more opened u
            else passUpToValue b (d :: u) >>= pass .value (b :: opened)
        | none => passScalar (c :: t) >>= pass .more opened := by
  rw [pass]
  split
  · rename_i hs
    rw [hs]
  · rename_i c t hs
    rw [hs]
    dsimp only
    cases hb : Bracket.ofOpening? c with
    | none =>
      dsimp only
      split <;> rename_i hp <;> rw [hp] <;> rfl
    | some b =>
      dsimp only
      split
      · rename_i ht
        rw [ht]
      · rename_i d u ht
        rw [ht]
        dsimp only
        split
        · rfl
        · split <;> rename_i hp <;> rw [hp] <;> rfl

theorem pass_more_eq (b : Bracket) (opened : List Bracket) (s : List Char) :
    pass .more (b :: opened) s = match skipSpace s with
      | [] => .error .cutShort
      | c :: t =>
        if c = ',' then passUpToValue b t >>= pass .value (b :: opened)
        else if c = b.closing then pass .more opened t
        else .error .malformed := by
  rw [pass]
  split
  · rename_i hs
    rw [hs]
  · rename_i c t hs
    rw [hs]
    dsimp only
    by_cases hc : c = ','
    · rw [if_pos hc, if_pos hc]
      split <;> rename_i hp <;> rw [hp] <;> rfl
    · rw [if_neg hc, if_neg hc]

theorem pass_value_skipSpace (opened : List Bracket) (s : List Char) :
    pass .value opened (skipSpace s) = pass .value opened s := by
  rw [pass_value_eq, pass_value_eq, skipSpace_skipSpace]

theorem pass_more_congr (h : skipSpace s = skipSpace t) :
    pass .more (b :: opened) s = pass .more (b :: opened) t := by
  rw [pass_more_eq, pass_more_eq, h]

/-- A scalar is passed over as such. -/
theorem pass_value_of_scalar (hc : isSpace c = false) (hb : Bracket.ofOpening? c = none)
    (h : passScalar (c :: s) = .ok r) (opened : List Bracket) :
    pass .value opened (c :: s) = pass .more opened r := by
  rw [pass_value_eq, skipSpace_cons hc]
  simp only [hb, h]
  rfl

/-- Behind the leading space of a text there is something, and no closing bracket. -/
def Begins (t : List Char) : Prop :=
  ∃ c s, skipSpace t = c :: s ∧ ∀ b : Bracket, c ≠ b.closing

/-- `t` is passed over if a value may end behind it, whatever is open around it. -/
def Passes (t : List Char) : Prop :=
  ∀ opened r, Reader.Ends r →
    ∃ r', skipSpace r' = skipSpace r ∧ pass .value opened (t ++ r) = pass .more opened r'

/-- `m` is passed over as a member. -/
def PassesMember (b : Bracket) (m : List Char) : Prop :=
  ∀ opened r, Reader.Ends r →
    (passUpToValue b (m ++ r) >>= pass .value (b :: opened)) = pass .more (b :: opened) r

theorem ofOpening?_opening (b : Bracket) : Bracket.ofOpening? b.opening = some b := by
  cases b <;> decide

theorem passUpToValue_skipSpace (b : Bracket) (opened : List Bracket) (s : List Char) :
    (passUpToValue b (skipSpace s) >>= pass .value (b :: opened)) =
      (passUpToValue b s >>= pass .value (b :: opened)) := by
  cases b with
  | list => exact pass_value_skipSpace (.list :: opened) s
  | object => rw [passUpToValue, passUpToValue, passKey, passKey, skipSpace_skipSpace]

/-- The other members and the closing bracket are passed over one after another. -/
theorem pass_more_members {ms : List (List Char)} (h : ∀ m ∈ ms, PassesMember b m)
    (hs : ∀ c ∈ s, isSpace c = true) (r : List Char) :
    pass .more (b :: opened) (ms.flatMap (fun m => ',' :: m) ++ (s ++ b.closing :: r)) = pass .more opened r := by
  induction ms with
  | nil =>
    rw [List.flatMap_nil, List.nil_append, pass_more_eq, skipSpace_append hs,
      skipSpace_cons (isSpace_closing b)]
    simp only [if_neg (closing_ne_comma b).symm, if_true]
  | cons m ms ih =>
    rw [List.flatMap_cons, List.cons_append, List.cons_append, pass_more_eq, skipSpace_cons (by decide)]
    simp only [if_true]
    rw [List.append_assoc, h m (List.mem_cons_self ..) opened _ (ends_behind_member b ms hs r)]
    exact ih fun m' hm' => h m' (List.mem_cons_of_mem m hm')

theorem passes_members {ms : List (List Char)} (h : ∀ m ∈ ms, PassesMember b m)
    (hbegins : ∀ m ∈ ms, Begins m) (hs : ∀ c ∈ s, isSpace c = true) :
    Passes (b.opening :: (joined ms ++ (s ++ [b.closing]))) := by
  intro opened r _
  refine ⟨r, rfl, ?_⟩
  rw [List.cons_append, pass_value_eq, skipSpace_cons (isSpace_opening b)]
  simp only [ofOpening?_opening, List.append_assoc, List.singleton_append]
  cases ms with
  | nil =>
    rw [joined, List.nil_append, skipSpace_append hs, skipSpace_cons (isSpace_closing b)]
    simp only [if_true]
  | cons m ms =>
    obtain ⟨c, m', hm, hne⟩ := hbegins m (List.mem_cons_self ..)
    have hskip := skipSpace_append_of_cons (v := ms.flatMap (fun m => ',' :: m) ++ (s ++ b.closing :: r)) hm
    rw [joined, List.append_assoc, hskip]
    simp only [if_neg (hne b)]
    rw [← hskip, passUpToValue_skipSpace,
      h m (List.mem_cons_self ..) opened _ (ends_behind_member b ms hs r)]
    exact pass_more_members (fun m' hm' => h m' (List.mem_cons_of_mem m hm')) hs r

theorem begins_cons (hc : isSpace c = false) (hb : ∀ b : Bracket, c ≠ b.closing) (s : List Char) :
    Begins (c :: s) :=
  ⟨c, s, skipSpace_cons hc, hb⟩

theorem spelled_append (word r : List Char) : spelled word (word ++ r) = .ok r := by
  induction word with
  | nil => rfl
  | cons c word ih => rwa [List.cons_append, spelled, if_pos rfl]

/-- The first character of a number. -/
theorem exists_cons_of_numberText (h : NumberText t) :
    ∃ c s, t = c :: s ∧ (c = '-' ∨ c.isDigit = true) := by
  obtain ⟨sign, whole, fraction, exponent, hsign, hwhole, -, -, -, rfl⟩ := h
  simp only [List.mem_cons, List.not_mem_nil, or_false] at hsign
  rcases hsign with rfl | rfl
  · obtain ⟨c, w, rfl⟩ := List.exists_cons_of_ne_nil hwhole.1
    exact ⟨c, _, rfl, .inr (hwhole.2 c (List.mem_cons_self ..))⟩
  · exact ⟨'-', _, rfl, .inl rfl⟩

/-- A character that numbers start with is no space, no bracket and not the start of a word. -/
theorem ne_of_number {d : Char} (hc : c = '-' ∨ c.isDigit = true)
    (hd : ¬ (d = '-' ∨ d.isDigit = true) := by decide) : c ≠ d := by
  rintro rfl
  exact hd hc

theorem isSpace_of_number (hc : c = '-' ∨ c.isDigit = true) : isSpace c = false := by
  simp only [isSpace, Bool.or_eq_false_iff, beq_eq_false_iff_ne, ne_eq]
  exact ⟨⟨⟨ne_of_number hc, ne_of_number hc⟩, ne_of_number hc⟩, ne_of_number hc⟩

theorem begins_value (h : ValueText t) : Begins t := by
  induction h with
  | word ht =>
    simp only [words, List.mem_cons, List.not_mem_nil, or_false] at ht
    rcases ht with rfl | rfl | rfl <;> exact begins_cons (by decide) (by rintro (_ | _) <;> decide) _
  | number ht =>
    obtain ⟨c, s, rfl, hc⟩ := exists_cons_of_numberText ht
    exact begins_cons (isSpace_of_number hc) (by rintro (_ | _) <;> exact ne_of_number hc) s
  | string ht =>
    obtain ⟨ts, -, rfl⟩ := ht
    exact begins_cons (by decide) (by rintro (_ | _) <;> decide) _
  | list => exact begins_cons (by decide) (by rintro (_ | _) <;> decide) _
  | object => exact begins_cons (by decide) (by rintro (_ | _) <;> decide) _
  | padded hu _ _ ih =>
    obtain ⟨c, s, hs, hc⟩ := ih
    exact ⟨c, _, (skipSpace_append hu).trans (skipSpace_append_of_cons hs), hc⟩

/-- A scalar is passed over behind which a value may end. -/
theorem passes_of_scalar (hc : isSpace c = false) (hb : Bracket.ofOpening? c = none)
    (h : ∀ r, Reader.Ends r → passScalar (c :: (t ++ r)) = .ok r) : Passes (c :: t) :=
  fun opened r hr => ⟨r, rfl, pass_value_of_scalar hc hb (h r hr) opened⟩

theorem passes_word (h : t ∈ words) : Passes t := by
  simp only [words, List.mem_cons, List.not_mem_nil, or_false] at h
  rcases h with rfl | rfl | rfl
  · exact passes_of_scalar (by decide) (by decide) fun r _ => spelled_append "ull".toList r
  · exact passes_of_scalar (by decide) (by decide) fun r _ => spelled_append "rue".toList r
  · exact passes_of_scalar (by decide) (by decide) fun r _ => spelled_append "alse".toList r

theorem passes_number (h : NumberText t) : Passes t := by
  obtain ⟨c, s, rfl, hc⟩ := exists_cons_of_numberText h
  have hopening : Bracket.ofOpening? c = none := by
    rw [Bracket.ofOpening?, if_neg (ne_of_number hc), if_neg (ne_of_number hc)]
  refine passes_of_scalar (isSpace_of_number hc) hopening fun r hr => ?_
  rw [passScalar, if_neg (ne_of_number hc), if_neg (ne_of_number hc), if_neg (ne_of_number hc), if_pos hc]
  exact Number.pass_numberText h hr

theorem passes_string (h : StringToken t) : Passes t := by
  obtain ⟨ts, hts, rfl⟩ := h
  refine passes_of_scalar (by decide) (by decide) fun r _ => ?_
  rw [List.append_assoc]
  exact Quoted.pass_of_forall hts r

theorem Passes.padded (h : Passes t) (hu : ∀ c ∈ u, isSpace c = true) (hv : ∀ c ∈ v, isSpace c = true) :
    Passes (u ++ (t ++ v)) := by
  intro opened r hr
  obtain ⟨r', hs, hp⟩ := h opened (v ++ r) (Reader.ends_space_append hv hr)
  refine ⟨r', hs.trans (skipSpace_append hv), ?_⟩
  rw [← pass_value_skipSpace, List.append_assoc, List.append_assoc, skipSpace_append hu,
    pass_value_skipSpace, hp]

theorem Passes.member_list (h : Passes t) : PassesMember .list t := by
  intro opened r hr
  obtain ⟨r', hs, hp⟩ := h (.list :: opened) r hr
  exact hp.trans (pass_more_congr hs)

theorem passKey_append {k : List Char} (hk : Padded StringToken k) (s : List Char) :
    passKey (k ++ ':' :: s) = .ok s := by
  obtain ⟨u, k, v, hu, ⟨ts, hts, rfl⟩, hv, rfl⟩ := hk
  rw [passKey]
  simp only [List.append_assoc, List.cons_append, List.nil_append, skipSpace_append hu,
    skipSpace_cons (show isSpace '"' = false by decide), if_true, Quoted.pass_of_forall hts, bind,
    Except.bind, colon, skipSpace_append hv, skipSpace_cons (show isSpace ':' = false by decide)]

theorem Passes.member_object {k : List Char} (h : Passes t) (hk : Padded StringToken k) :
    PassesMember .object (k ++ ':' :: t) := by
  intro opened r hr
  obtain ⟨r', hs, hp⟩ := h (.object :: opened) r hr
  rw [List.append_assoc, List.cons_append, passUpToValue, passKey_append hk]
  exact hp.trans (pass_more_congr hs)

theorem begins_member {k : List Char} (hk : Padded StringToken k) (s : List Char) : Begins (k ++ ':' :: s) := by
  obtain ⟨u, k, v, hu, ⟨ts, -, rfl⟩, -, rfl⟩ := hk
  rw [List.append_assoc]
  exact ⟨'"', _, (skipSpace_append hu).trans (skipSpace_cons (by decide)), by rintro (_ | _) <;> decide⟩

/-- Passing over a value ends right behind it, by induction on how it is written. -/
theorem passes_value (h : ValueText t) : Passes t := by
  induction h with
  | word ht => exact passes_word ht
  | number ht => exact passes_number ht
  | string ht => exact passes_string ht
  | list hts hs ih =>
    exact passes_members (b := .list) (fun t ht => (ih t ht).member_list) (fun t ht => begins_value (hts t ht)) hs
  | object hk hv hs ih =>
    refine passes_members (b := .object) ?_ ?_ hs <;>
      simp only [List.mem_map, forall_exists_index, and_imp, forall_apply_eq_imp_iff₂]
    · exact fun m hm => (ih m hm).member_object (hk m hm)
    · exact fun m hm => begins_member (hk m hm) m.2
  | padded hu _ hv ih => exact ih.padded hu hv

/-- A value of any kind is passed over as one. -/
theorem skipped_takesBefore (h : ValueText t) : skipped.TakesBefore t () := by
  intro r hr
  obtain ⟨r', hs, hp⟩ := passes_value h [] r hr
  refine ⟨r', ?_, hs⟩
  have hmore : pass .more [] r' = .ok r' := by rw [pass]
  rw [hmore] at hp
  simp only [skipped, hp]

end Value

end HeaderMeta.Manifest
