/-!
# Lists of keyed values

A list of pairs is looked up with `List.lookup`. `Keyed.put` writes a value under a key, in the key's
place if the key is there and at the end if it is not; it changes what is found under that key alone
(`lookup_put`) and the keys at most by the new one (`map_fst_put`).
-/

namespace HeaderMeta.Keyed

variable {β : Type} {k k' : String} {v : β} {es : List (String × β)}

/-- Writes a value under a key. -/
def put (k : String) (v : β) : List (String × β) → List (String × β)
  | [] => [(k, v)]
  | (k', v') :: r => if k' = k then (k, v) :: r else (k', v') :: put k v r

theorem map_fst_put :
    (put k v es).map Prod.fst =
      if k ∈ es.map Prod.fst then es.map Prod.fst else es.map Prod.fst ++ [k] := by
  induction es with
  | nil => simp [put]
  | cons e es ih =>
    obtain ⟨a, b⟩ := e
    by_cases h : a = k
    · simp [put, h]
    · simp only [put, h, if_false, List.map_cons, ih, List.mem_cons, Ne.symm h, false_or]
      split <;> simp

theorem lookup_put : (put k v es).lookup k' = if k' = k then some v else es.lookup k' := by
  induction es with
  | nil => by_cases h : k' = k <;> simp [put, List.lookup_cons, h, beq_eq_false_iff_ne.2]
  | cons e es ih =>
    obtain ⟨a, b⟩ := e
    by_cases ha : a = k <;> by_cases hk : k' = k <;> by_cases hak : k' = a <;>
      simp_all [put, List.lookup_cons, beq_eq_false_iff_ne.2]

theorem put_of_notMem (h : k ∉ es.map Prod.fst) : put k v es = es ++ [(k, v)] := by
  induction es with
  | nil => rfl
  | cons e es ih =>
    rw [List.map_cons, List.mem_cons, not_or] at h
    rw [put, if_neg fun he => h.1 he.symm, ih h.2, List.cons_append]

theorem eq_or_mem_of_mem_put {e : String × β} (h : e ∈ put k v es) : e = (k, v) ∨ e ∈ es := by
  induction es with
  | nil => exact .inl (List.mem_singleton.1 h)
  | cons a es ih =>
    rw [put] at h
    split at h
    · rcases List.mem_cons.1 h with rfl | h
      · exact .inl rfl
      · exact .inr (List.mem_cons_of_mem a h)
    · rcases List.mem_cons.1 h with rfl | h
      · exact .inr (List.mem_cons_self ..)
      · exact (ih h).imp_right (List.mem_cons_of_mem a)

theorem put_map {γ : Type} (g : β → γ) :
    put k (g v) (es.map (Prod.map id g)) = (put k v es).map (Prod.map id g) := by
  induction es with
  | nil => rfl
  | cons e es ih =>
    rw [List.map_cons, put, put]
    show (if e.1 = k then _ else _) = _
    split
    · rfl
    · rw [ih]
      rfl

theorem nodup_put (h : (es.map Prod.fst).Nodup) : ((put k v es).map Prod.fst).Nodup := by
  rw [map_fst_put]
  split
  · exact h
  · rename_i hk
    exact List.nodup_append.2 ⟨h, by simp, by rintro a ha b hb rfl; simp_all⟩

theorem lookup_eq_some_iff_mem (h : (es.map Prod.fst).Nodup) : es.lookup k = some v ↔ (k, v) ∈ es := by
  induction es with
  | nil => simp
  | cons e es ih =>
    obtain ⟨a, b⟩ := e
    obtain ⟨ha, hes⟩ := List.nodup_cons.1 h
    have hfst : (a, v) ∉ es := fun hm => ha (List.mem_map.2 ⟨_, hm, rfl⟩)
    by_cases hk : k = a
    · subst hk
      simp [hfst, eq_comm]
    · simp [List.lookup_cons, beq_eq_false_iff_ne.2 hk, hk, ih hes]

end HeaderMeta.Keyed
