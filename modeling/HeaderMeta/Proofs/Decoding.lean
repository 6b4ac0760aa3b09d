import Mathlib
import HeaderMeta.Proofs.Append
import HeaderMeta.Proofs.Collected

/-!
# Bytes that are no text

What stands for bytes that are no character depends on the bytes behind them, but never on more than
the next byte of ASCII: no character goes on in one (`decode_append_cons`). A header is cut behind a
`};`, which is ASCII, so its bytes can be cut there before they are decoded, and what is wrong with the
bytes on one side does not change what is read on the other (`Header.collected_bytes_apart`). Bytes
that are a text are decoded to that text (`decode_encode`).
-/

namespace HeaderMeta.Text.Utf8

variable {a b : UInt8} {u v : List UInt8} {rs : List (UInt8 × UInt8)}

/-! ### Behind a byte of ASCII -/

theorem le_of_mem_tails (h : tails a = some rs) : ∀ r ∈ rs, 0x80 ≤ r.1 := by
  have hall : rs.all fun r => decide (0x80 ≤ r.1) := by
    unfold tails at h
    split_ifs at h <;> cases h <;> rfl
  simpa using hall

/-- A byte of ASCII ends a character that is not finished, and what follows it is left. -/
theorem follow_append (hrs : ∀ r ∈ rs, 0x80 ≤ r.1) (hb : b < 0x80) (value : Nat) (u v : List UInt8) :
    follow value rs (u ++ b :: v) = ((follow value rs u).1, (follow value rs u).2 ++ b :: v) := by
  fun_induction follow value rs u with
  | case1 value u => rw [follow]
  | case2 value r rs =>
    have hlo : ¬r.1 ≤ b := UInt8.not_le.2 (UInt8.lt_of_lt_of_le hb (hrs r (List.mem_cons_self ..)))
    rw [List.nil_append, follow, if_neg fun h => hlo h.1]
  | case3 value lo hi rs c u hc ih =>
    rw [List.cons_append, follow, if_pos hc, ih fun r hr => hrs r (List.mem_cons_of_mem _ hr)]
  | case4 value lo hi rs c u hc =>
    rw [List.cons_append, follow, if_neg hc]

theorem step_append (hb : b < 0x80) (a : UInt8) (u v : List UInt8) :
    step a (u ++ b :: v) = ((step a u).1, (step a u).2 ++ b :: v) := by
  rw [step, step]
  cases ht : tails a with
  | none => rfl
  | some rs =>
    simp only [follow_append (le_of_mem_tails ht) hb]
    rcases follow (leadBits a rs.length) rs u with ⟨_ | n, r⟩ <;> rfl

theorem step_of_lt (hb : b < 0x80) (v : List UInt8) : step b v = (Char.ofNat b.toNat, v) := by
  have hle : b ≤ 0x7f := by
    rw [UInt8.le_iff_toNat_le]
    rw [UInt8.lt_iff_toNat_lt] at hb
    exact Nat.le_of_lt_succ hb
  rw [step, tails, if_pos hle]
  rfl

/-- The bytes on both sides of a byte of ASCII are decoded each for themselves. -/
theorem decode_append_cons (hb : b < 0x80) (u v : List UInt8) :
    decode (u ++ b :: v) = decode u ++ Char.ofNat b.toNat :: decode v := by
  induction u using decode.induct with
  | case1 => simp [decode, step_of_lt hb]
  | case2 a u ih => rw [List.cons_append, decode, step_append hb, ih, decode, List.cons_append]

/-! ### Decoding what was encoded -/

theorem toNat_ofNat {m : Nat} (hm : m < 256) : (UInt8.ofNat m).toNat = m := by
  rw [UInt8.toNat_ofNat', Nat.mod_eq_of_lt hm]

theorem follow_cons_ofNat {m : Nat} {lo hi : UInt8} (hm : m < 64) (hlo : lo.toNat ≤ m + 128)
    (hhi : m + 128 ≤ hi.toNat) (value : Nat) (v : List UInt8) :
    follow value ((lo, hi) :: rs) (UInt8.ofNat (m + 128) :: v) = follow (value * 64 + m) rs v := by
  have hnat : (UInt8.ofNat (m + 128)).toNat = m + 128 := toNat_ofNat (by omega)
  have hin : lo ≤ UInt8.ofNat (m + 128) ∧ UInt8.ofNat (m + 128) ≤ hi := by
    rw [UInt8.le_iff_toNat_le, UInt8.le_iff_toNat_le, hnat]
    exact ⟨hlo, hhi⟩
  rw [follow, if_pos hin, hnat]
  congr 2
  omega

theorem leadBits_ofNat {m k top : Nat} (hm : m < 2 ^ (5 - k)) (htop : 2 ^ (5 - k) ∣ top)
    (h : m + top < 256) : leadBits (UInt8.ofNat (m + top)) (k + 1) = m := by
  obtain ⟨j, rfl⟩ := htop
  rw [leadBits, toNat_ofNat h]
  show (m + 2 ^ (5 - k) * j) % 2 ^ (5 - k) = m
  rw [Nat.add_mul_mod_self_left, Nat.mod_eq_of_lt hm]

theorem decode_cons_of_follow {n : Nat} (ht : tails b = some rs)
    (hf : follow (leadBits b rs.length) rs u = (some n, v)) :
    decode (b :: u) = Char.ofNat n :: decode v := by
  rw [decode, step, ht]
  simp only [hf]

theorem tails_ofNat {m : Nat} (hm : m < 256) : tails (UInt8.ofNat m) =
    if m ≤ 0x7f then some []
    else if m < 0xc2 then none
    else if m ≤ 0xdf then some [(0x80, 0xbf)]
    else if m = 0xe0 then some [(0xa0, 0xbf), (0x80, 0xbf)]
    else if m = 0xed then some [(0x80, 0x9f), (0x80, 0xbf)]
    else if m ≤ 0xef then some [(0x80, 0xbf), (0x80, 0xbf)]
    else if m = 0xf0 then some [(0x90, 0xbf), (0x80, 0xbf), (0x80, 0xbf)]
    else if m ≤ 0xf3 then some [(0x80, 0xbf), (0x80, 0xbf), (0x80, 0xbf)]
    else if m = 0xf4 then some [(0x80, 0x8f), (0x80, 0xbf), (0x80, 0xbf)]
    else none := by
  have hnat : (UInt8.ofNat m).toNat = m := toNat_ofNat hm
  simp only [tails, UInt8.le_iff_toNat_le, UInt8.lt_iff_toNat_lt, ← UInt8.toNat_inj, hnat]
  rfl

/-- The second of three bytes, by the digits of the character's number to base 64. -/
theorem exists_tails_three {p q : Nat} (hp : p < 16) (hq : q < 64) (hlow : p = 0 → 32 ≤ q)
    (hsurrogate : p = 13 → q < 32) : ∃ lo hi : UInt8, lo.toNat ≤ q + 128 ∧ q + 128 ≤ hi.toNat ∧
      tails (UInt8.ofNat (p + 0xe0)) = some [(lo, hi), (0x80, 0xbf)] := by
  rw [tails_ofNat (by omega), if_neg (by omega), if_neg (by omega), if_neg (by omega)]
  by_cases h₁ : p = 0
  · refine ⟨0xa0, 0xbf, Nat.add_le_add_right (hlow h₁) 128, ?_, if_pos (by omega)⟩
    exact Nat.add_le_add_right (Nat.le_of_lt_succ hq) 128
  rw [if_neg (by omega)]
  by_cases h₂ : p = 13
  · refine ⟨0x80, 0x9f, Nat.le_add_left 128 q, ?_, if_pos (by omega)⟩
    exact Nat.add_le_add_right (Nat.le_of_lt_succ (hsurrogate h₂)) 128
  refine ⟨0x80, 0xbf, Nat.le_add_left 128 q, ?_, by rw [if_neg (by omega), if_pos (by omega)]⟩
  exact Nat.add_le_add_right (Nat.le_of_lt_succ hq) 128

/-- The second of four bytes. -/
theorem exists_tails_four {p q : Nat} (hp : p ≤ 4) (hq : q < 64) (hlow : p = 0 → 16 ≤ q)
    (hhigh : p = 4 → q < 16) : ∃ lo hi : UInt8, lo.toNat ≤ q + 128 ∧ q + 128 ≤ hi.toNat ∧
      tails (UInt8.ofNat (p + 0xf0)) = some [(lo, hi), (0x80, 0xbf), (0x80, 0xbf)] := by
  rw [tails_ofNat (by omega), if_neg (by omega), if_neg (by omega), if_neg (by omega),
    if_neg (by omega), if_neg (by omega), if_neg (by omega)]
  by_cases h₁ : p = 0
  · refine ⟨0x90, 0xbf, Nat.add_le_add_right (hlow h₁) 128, ?_, if_pos (by omega)⟩
    exact Nat.add_le_add_right (Nat.le_of_lt_succ hq) 128
  rw [if_neg (by omega)]
  by_cases h₂ : p = 4
  · refine ⟨0x80, 0x8f, Nat.le_add_left 128 q, ?_, by rw [if_neg (by omega), if_pos (by omega)]⟩
    exact Nat.add_le_add_right (Nat.le_of_lt_succ (hhigh h₂)) 128
  refine ⟨0x80, 0xbf, Nat.le_add_left 128 q, ?_, if_pos (by omega)⟩
  exact Nat.add_le_add_right (Nat.le_of_lt_succ hq) 128

theorem decode_encodeChar_append (c : Char) (v : List UInt8) :
    decode (String.utf8EncodeChar c ++ v) = c :: decode v := by
  have hc : Char.ofNat c.val.toNat = c := Char.ofNat_toNat c
  have hvalid : c.val.toNat < 0xd800 ∨ 0xdfff < c.val.toNat ∧ c.val.toNat < 0x110000 := c.valid
  unfold String.utf8EncodeChar
  generalize c.val.toNat = n at hc hvalid
  subst hc
  have hdigit : ∀ k, k % 64 < 64 := fun k => Nat.mod_lt k (by omega)
  have hlo : ∀ k, (0x80 : UInt8).toNat ≤ k + 128 := fun k => Nat.le_add_left 128 k
  have hhi : ∀ k, k % 64 + 128 ≤ (0xbf : UInt8).toNat := fun k =>
    Nat.add_le_add_right (Nat.le_of_lt_succ (hdigit k)) 128
  -- One case for each number of bytes: the ranges of the bytes behind the first, then what they add.
  dsimp only
  split_ifs with h₁ h₂ h₃ <;> simp only [List.cons_append, List.nil_append]
  · have hb : UInt8.ofNat n < 0x80 := by
      rw [UInt8.lt_iff_toNat_lt, toNat_ofNat (by omega)]
      exact Nat.lt_succ_of_le h₁
    simpa [decode, toNat_ofNat (show n < 256 by omega)] using decode_append_cons hb [] v
  · have ht : tails (UInt8.ofNat (n / 64 % 32 + 0xc0)) = some [(0x80, 0xbf)] := by
      rw [tails_ofNat (by omega), if_neg (by omega), if_neg (by omega), if_pos (by omega)]
    refine decode_cons_of_follow ht ?_
    rw [List.length_singleton, leadBits_ofNat (by omega) (by decide) (by omega),
      follow_cons_ofNat (hdigit _) (hlo _) (hhi _), follow]
    congr 2
    omega
  · obtain ⟨lo, hi, hlo', hhi', ht⟩ := exists_tails_three (p := n / 4096 % 16) (q := n / 64 % 64)
      (by omega) (hdigit _) (by omega) (by omega)
    refine decode_cons_of_follow ht ?_
    rw [List.length_cons, List.length_singleton, leadBits_ofNat (by omega) (by decide) (by omega),
      follow_cons_ofNat (hdigit _) hlo' hhi', follow_cons_ofNat (hdigit _) (hlo _) (hhi _), follow]
    congr 2
    omega
  · obtain ⟨lo, hi, hlo', hhi', ht⟩ := exists_tails_four (p := n / 262144 % 8) (q := n / 4096 % 64)
      (by omega) (hdigit _) (by omega) (by omega)
    refine decode_cons_of_follow ht ?_
    rw [List.length_cons, List.length_cons, List.length_singleton,
      leadBits_ofNat (by omega) (by decide) (by omega), follow_cons_ofNat (hdigit _) hlo' hhi',
      follow_cons_ofNat (hdigit _) (hlo _) (hhi _), follow_cons_ofNat (hdigit _) (hlo _) (hhi _), follow]
    congr 2
    omega

/-- What was encoded is decoded without a change. -/
theorem decode_encode (s : List Char) : decode (encode s) = s := by
  induction s with
  | nil => rw [encode, List.flatMap_nil, decode]
  | cons c s ih =>
    rw [encode, List.flatMap_cons, decode_encodeChar_append]
    exact congrArg (c :: ·) ih

theorem decode_bytes (s : String) : String.ofList (decode (bytes s)) = s := by
  rw [bytes, decode_encode, String.ofList_toList]

/-- What is decoded before a `};` ends with it, and what comes behind is decoded for itself. -/
theorem decode_append_closing (u v : List UInt8) : decode (u ++ encode Declaration.closing ++ v) =
    decode (u ++ encode Declaration.closing) ++ decode v ∧
      Declaration.closing <:+ decode (u ++ encode Declaration.closing) := by
  have hclosing : encode Declaration.closing = [0x7d, 0x3b] := by decide
  have hcut : ∀ w, decode (u ++ 0x7d :: 0x3b :: w) = decode u ++ '}' :: ';' :: decode w := fun w => by
    rw [decode_append_cons (by decide), ← List.nil_append (0x3b :: w), decode_append_cons (by decide),
      decode, List.nil_append]
    rfl
  have hend := hcut []
  rw [decode] at hend
  rw [hclosing, List.append_assoc, List.cons_append, List.singleton_append, hcut, hend]
  refine ⟨by simp, ?_⟩
  exact List.suffix_append ..

end HeaderMeta.Text.Utf8

namespace HeaderMeta

open Files Text

namespace Header
variable {d : Disk} {root extension : String} {headers : List Header} {r : Header}

/-- A header that was collected when its file held these bytes. -/
def CollectedFrom (r : Header) (data : List UInt8) : Prop :=
  ∃ d root extension headers, collect d root extension = .ok headers ∧ r ∈ headers ∧
    d.file? r.path = some (.bytes data)

theorem exists_of_mem_mapM {α β ε : Type} {F : α → Except ε β} {l : List α} {bs : List β} {b : β}
    (h : l.mapM F = .ok bs) (hb : b ∈ bs) : ∃ a ∈ l, F a = .ok b := by
  induction l generalizing bs with
  | nil =>
    cases h
    cases hb
  | cons a l ih =>
    rw [List.mapM_cons] at h
    cases hF : F a with
    | error e =>
      rw [hF] at h
      cases h
    | ok c =>
      cases hl : l.mapM F with
      | error e =>
        rw [hF, hl] at h
        cases h
      | ok cs =>
        rw [hF, hl] at h
        cases h
        rcases List.mem_cons.1 hb with rfl | hb
        · exact ⟨a, List.mem_cons_self .., hF⟩
        · obtain ⟨x, hx, hFx⟩ := ih hl hb
          exact ⟨x, List.mem_cons_of_mem a hx, hFx⟩

theorem exists_visit_of_mem (h : collect d root extension = .ok headers) (hr : r ∈ headers) :
    ∃ v, ofVisit? d extension v = .ok (some r) := by
  rw [collect] at h
  split at h
  · cases h
  · rename_i es _
    cases hfound : (Tree.visits root 0 (.dir es)).mapM (ofVisit? d extension) with
    | error f =>
      rw [hfound] at h
      cases h
    | ok found =>
      rw [hfound] at h
      cases h
      obtain ⟨v, -, hv⟩ := exists_of_mem_mapM hfound (by simpa using hr)
      exact ⟨v, hv⟩

theorem CollectedFrom.text_eq {data : List UInt8} (h : r.CollectedFrom data) :
    r.text = String.ofList (Utf8.decode data) := by
  obtain ⟨d, root, extension, headers, hcollect, hr, hfile⟩ := h
  obtain ⟨v, hv⟩ := exists_visit_of_mem hcollect hr
  cases v with
  | directory path depth =>
    rw [ofVisit?] at hv
    split at hv <;> cases hv
  | other path =>
    obtain ⟨data', ⟨hfile', -⟩, rfl⟩ := ofVisit?_other_eq_some_iff.1 hv
    cases hfile.symm.trans hfile'
    rfl

/-- Of a header whose bytes go on behind a `};` the structs are those of the bytes up to there and
then those of the other bytes, whatever either bytes are; and bytes that are a text are read as that
text. -/
theorem collected_bytes_apart :
    (∀ (x y : List UInt8) (r s t : Header), Utf8.bytes "\x7d;" <:+ x →
      r.CollectedFrom (x ++ y) → s.CollectedFrom x → t.CollectedFrom y →
        Description.ofText r.text = Description.ofText s.text ++ Description.ofText t.text) ∧
    ∀ (u : String) (r : Header), r.CollectedFrom (Utf8.bytes u) → r.text = u := by
  refine ⟨fun x y r s t hx hr hs ht => ?_, fun u r hr => hr.text_eq.trans (Utf8.decode_bytes u)⟩
  obtain ⟨w, rfl⟩ := hx
  obtain ⟨happend, hclosing⟩ := Utf8.decode_append_closing w y
  rw [hr.text_eq, hs.text_eq, ht.text_eq]
  change Utf8.decode (w ++ Utf8.bytes "\x7d;" ++ y) = _ at happend
  rw [happend, String.ofList_append]
  exact Description.ofText_append_of_suffix (by rwa [String.toList_ofList]) _

/-- A directory with one header. -/
def lone (data : List UInt8) : Disk :=
  ⟨.dir [("a.h", .file (.bytes data))], []⟩

theorem collectedFrom_lone (data : List UInt8) :
    CollectedFrom ⟨"./a.h", String.ofList (Utf8.decode data)⟩ data := by
  have hcollect : collect (lone data) "." "h" = .ok [⟨"./a.h", String.ofList (Utf8.decode data)⟩] := by
    cbv
  exact ⟨lone data, ".", "h", _, hcollect, List.mem_singleton_self _, by cbv⟩

/-- A character that is cut short before the end of a struct, and one that only goes on behind it. -/
def blotted : List UInt8 × List UInt8 :=
  (Utf8.bytes "struct A \x7b [[Serialize]] int x;" ++ [0xe2, 0x82] ++ Utf8.bytes "\x7d;",
    [0xac, 0xc0, 0x80, 0xed, 0xa0] ++ Utf8.bytes "struct B \x7b [[Serialize]] int y; \x7d;" ++ [0xf0])

theorem collected_bytes_apart_blotted :
    Utf8.bytes "\x7d;" <:+ blotted.1 ∧
    Description.ofText (String.ofList (Utf8.decode (blotted.1 ++ blotted.2))) =
      Description.ofText (String.ofList (Utf8.decode blotted.1)) ++
        Description.ofText (String.ofList (Utf8.decode blotted.2)) ∧
    (Description.ofText (String.ofList (Utf8.decode blotted.1))).map Description.name = ["A"] ∧
    (Description.ofText (String.ofList (Utf8.decode blotted.2))).map Description.name = ["B"] ∧
    String.ofList (Utf8.decode (Utf8.bytes "struct Größe \x7b \x7d;")) = "struct Größe \x7b \x7d;" := by
  have hx : Utf8.bytes "\x7d;" <:+ blotted.1 := List.suffix_append ..
  have happend := collected_bytes_apart.1 blotted.1 blotted.2 _ _ _ hx (collectedFrom_lone _)
    (collectedFrom_lone _) (collectedFrom_lone _)
  have htext := collected_bytes_apart.2 "struct Größe \x7b \x7d;" _ (collectedFrom_lone _)
  exact ⟨hx, happend, by decide +kernel, by decide +kernel, htext⟩

end Header

end HeaderMeta
