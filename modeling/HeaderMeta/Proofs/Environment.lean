import HeaderMeta.Proofs.Runs

/-!
# Options from the environment

An option may be set by its environment variable or by an argument, and a run that prints neither help
nor the version cannot tell which it was (`variable_stands_for_argument`, and with the three names written
out `named_variable_stands_for_argument`). The arguments are read in lockstep: `Invocation.assign` is what an argument in front of all others leaves behind, and it goes
along with every step until, at the end, the variable is looked up where nothing was assigned
(`parse_setting`). Where the value is refused, one side fails at once and the other at the end
(`request?_eq_none`). An argument hides the variable (`parse_assignment_congr`), and the environment is
asked for nothing else: before their end, the arguments are read without it (`Ends`).
-/

namespace HeaderMeta.CommandLine

open Files

/-- The argument that sets an option. -/
def Setting.assignment (o : Setting) (v : String) : String :=
  "--" ++ o.name ++ "=" ++ v

/-- An option is given by a long option of its name, with or without a value, in front of two dashes. -/
def Gives (o : Setting) (args : List String) : Prop :=
  ∃ a ∈ args.takeWhile (· ≠ "--"), a = "--" ++ o.name ∨ ∃ v, a = o.assignment v

/-- A long option of the option's name. -/
def Argument.names (o : Setting) : Argument → Bool
  | .long name _ => name = o.name
  | .dashes | .short _ | .plain => false

/-- The environment with a variable set. -/
def setVariable (name v : String) (env : List (String × String)) : List (String × String) :=
  (name, v) :: env

/-- The environment with a variable unset. -/
def unsetVariable (name : String) (env : List (String × String)) : List (String × String) :=
  env.filter fun e => e.1 ≠ name

/-- Help or the version is printed. -/
def AskForHelp (env : List (String × String)) (args : List String) : Prop :=
  (∃ full, Invocation.empty.parse (Values.ofEnvironment env) args = some (.help full)) ∨
    Invocation.empty.parse (Values.ofEnvironment env) args = some .version

/-- The exit code, what is printed and the files are the same. -/
structure Outcome.SameEffect (a b : Outcome) : Prop where
  exit : a.exit = b.exit
  stdout : a.stdout = b.stdout
  disk : a.disk = b.disk

variable {o o' : Setting} {v w : String} {a : String} {rest args : List String}

/-! ### One argument -/

theorem Setting.eq_of_ofName? (h : ofName? v = some o) : o.name = v := by
  simpa using List.find?_some h

theorem Setting.ofName?_name (o : Setting) : ofName? o.name = some o := by
  cases o <;> decide

theorem Argument.ofLong_of_notMem {s : List Char} (hs : '=' ∉ s) :
    ofLong s = .long (String.ofList s) none := by
  have hne : ∀ c ∈ s, (c != '=') = true := fun c hc => by
    simpa using fun e : c = '=' => hs (e ▸ hc)
  rw [ofLong, ← List.append_nil s, List.dropWhile_append_of_pos hne]
  rfl

theorem Argument.ofLong_append_eq {s value : List Char} (hs : '=' ∉ s) :
    ofLong (s ++ '=' :: value) = .long (String.ofList s) (some (String.ofList value)) := by
  have hne : ∀ c ∈ s, (c != '=') = true := fun c hc => by
    simpa using fun e : c = '=' => hs (e ▸ hc)
  rw [ofLong, List.dropWhile_append_of_pos hne, List.takeWhile_append_of_pos hne]
  simp

theorem Argument.ofString_eq_ofLong {s : List Char} (hs : s ≠ []) (ha : a.toList = '-' :: '-' :: s) :
    ofString a = ofLong s := by
  rw [ofString, ha]
  cases s with
  | nil => exact absurd rfl hs
  | cons c s => rfl

theorem Setting.eq_notMem_name (o : Setting) : '=' ∉ o.name.toList := by
  cases o <;> decide

theorem Argument.ofString_name (o : Setting) : ofString ("--" ++ o.name) = .long o.name none := by
  have hne : o.name.toList ≠ [] := by cases o <;> decide
  rw [ofString_eq_ofLong hne (by simp), ofLong_of_notMem o.eq_notMem_name, String.ofList_toList]

theorem Argument.ofString_assignment (o : Setting) (v : String) :
    ofString (o.assignment v) = .long o.name (some v) := by
  have htext : (o.assignment v).toList = '-' :: '-' :: (o.name.toList ++ '=' :: v.toList) := by
    simp [Setting.assignment]
  rw [ofString_eq_ofLong (by simp) htext, ofLong_append_eq o.eq_notMem_name, String.ofList_toList,
    String.ofList_toList]

/-- A long option is its name behind two dashes, perhaps with a value behind it. -/
theorem Argument.eq_of_ofString_long {name : String} {value : Option String}
    (h : ofString a = .long name value) : a = "--" ++ name ∨ ∃ v, a = "--" ++ name ++ "=" ++ v := by
  unfold ofString at h
  split at h
  · cases h
  · rename_i r _ ha
    unfold ofLong at h
    split at h
    · cases h
      exact .inl (String.toList_injective (by simp [ha]))
    · rename_i c v hv
      cases h
      have hc : c = '=' := by
        have := List.head?_dropWhile_not (· != '=') r
        simpa [hv] using this
      refine .inr ⟨String.ofList v, String.toList_injective ?_⟩
      have hr := List.takeWhile_append_dropWhile (p := (· != '=')) (l := r)
      rw [hv, hc] at hr
      simp [ha, hr]
  · cases h
  · cases h

/-- An option is written as the long option of its name. -/
theorem Argument.names_iff : (a = "--" ++ o.name ∨ ∃ v, a = o.assignment v) ↔ (ofString a).names o = true := by
  constructor
  · rintro (rfl | ⟨v, rfl⟩)
    · rw [ofString_name]
      exact decide_eq_true rfl
    · rw [ofString_assignment]
      exact decide_eq_true rfl
  · intro h
    cases ha : ofString a with
    | long name value =>
      rw [ha] at h
      obtain rfl := of_decide_eq_true h
      exact eq_of_ofString_long ha
    | _ => simp [ha, names] at h

instance : Decidable (Gives o args) :=
  decidable_of_iff (∃ a ∈ args.takeWhile (· ≠ "--"), (Argument.ofString a).names o = true)
    (exists_congr fun _ => and_congr_right fun _ => Argument.names_iff.symm)

theorem gives_cons_iff (ha : a ≠ "--") :
    Gives o (a :: rest) ↔ (a = "--" ++ o.name ∨ ∃ v, a = o.assignment v) ∨ Gives o rest := by
  rw [Gives, List.takeWhile_cons_of_pos (by simpa using ha)]
  simp [Gives]

theorem ne_dashes_of_ofString (h : Argument.ofString a ≠ .dashes) : a ≠ "--" := by
  rintro rfl
  exact h rfl

theorem not_gives_of_cons (h : ¬Gives o (a :: rest)) (ha : Argument.ofString a ≠ .dashes) :
    ¬Gives o rest :=
  fun hrest => h ((gives_cons_iff (ne_dashes_of_ofString ha)).2 (.inr hrest))

/-- A long option sets an option that is given. -/
theorem ne_of_not_gives {name : String} {value : Option String} (h : ¬Gives o (a :: rest))
    (ha : Argument.ofString a = .long name value) (ho : Setting.ofName? name = some o') : o' ≠ o := by
  rintro rfl
  obtain rfl := Setting.eq_of_ofName? ho
  exact h ((gives_cons_iff (ne_dashes_of_ofString (by simp [ha]))).2
    (.inl (Argument.eq_of_ofString_long ha)))

/-! ### All arguments -/

namespace Invocation
variable {i j : Invocation} {env env' : Values} {r : Request}

/-- The invocation with an option set. -/
def assign (o : Setting) (v : String) (i : Invocation) : Invocation :=
  { i with values := fun o' => if o' = o then some v else i.values o' }

theorem set?_eq (hi : i.values o = none) (hv : o.accepts v = true) : i.set? o v = some (i.assign o v) := by
  simp [set?, assign, hi, hv]

theorem values_of_set? (h : i.set? o' w = some j) (ho : o' ≠ o) : j.values o = i.values o := by
  rw [set?] at h
  split at h <;> cases h
  exact if_neg ho.symm

theorem values_of_addPath? (h : i.addPath? a = some j) : j.values = i.values := by
  rw [addPath?] at h
  split at h <;> cases h
  rfl

theorem values_of_addPaths? (h : i.addPaths? args = some j) : j.values = i.values := by
  induction args generalizing i with
  | nil =>
    cases h
    rfl
  | cons a args ih =>
    obtain ⟨k, hk, hj⟩ := Option.bind_eq_some_iff.1 h
    exact (ih hj).trans (values_of_addPath? hk)

theorem set?_assign (ho : o' ≠ o) : (i.assign o v).set? o' w = (i.set? o' w).map (assign o v) := by
  have hvalue : (i.assign o v).values o' = i.values o' := if_neg ho
  rw [set?, set?, hvalue]
  split
  · simp only [assign, Option.map_some, Option.some.injEq, mk.injEq, and_true]
    funext o''
    by_cases h : o'' = o' <;> simp [h, ho]
  · rfl

theorem addPath?_assign : (i.assign o v).addPath? a = (i.addPath? a).map (assign o v) := by
  show (if a ≠ "" ∧ i.paths.length < 2 then _ else none) = _
  rw [addPath?]
  split <;> rfl

theorem addPaths?_assign : (i.assign o v).addPaths? args = (i.addPaths? args).map (assign o v) := by
  induction args generalizing i with
  | nil => rfl
  | cons a args ih =>
    rw [addPaths?, addPaths?, List.foldlM_cons, List.foldlM_cons, addPath?_assign]
    cases i.addPath? a with
    | none => rfl
    | some k => exact ih

/-- What the arguments come to, with something assigned to an option that they do not give or without:
the environment is not looked at before the end. -/
inductive Ends (o : Setting) (i : Invocation) (args : List String) : Prop
  | refused (h : ∀ env, i.parse env args = none)
      (h' : ∀ v env, (i.assign o v).parse env args = none)
  | prints (r : Request) (hr : (∃ full, r = .help full) ∨ r = .version)
      (h : ∀ env, i.parse env args = some r) (h' : ∀ v env, (i.assign o v).parse env args = some r)
  | settles (j : Invocation) (hj : j.values o = none) (h : ∀ env, i.parse env args = j.request? env)
      (h' : ∀ v env, (i.assign o v).parse env args = (j.assign o v).request? env)

/-- Reading goes on with what a step gives, if it gives anything. -/
theorem Ends.of_bind (k? : Option Invocation) (rest : List String)
    (hrest : ∀ k, k? = some k → Ends o k rest)
    (h : ∀ env, i.parse env args = k?.bind fun k => k.parse env rest)
    (h' : ∀ v env, (i.assign o v).parse env args =
      (k?.map (assign o v)).bind fun k => k.parse env rest) : Ends o i args := by
  cases k? with
  | none => exact .refused h h'
  | some k =>
    rcases hrest k rfl with ⟨g, g'⟩ | ⟨r, hr, g, g'⟩ | ⟨j, hj, g, g'⟩
    · exact .refused (fun env => (h env).trans (g env)) fun v env => (h' v env).trans (g' v env)
    · exact .prints r hr (fun env => (h env).trans (g env)) fun v env => (h' v env).trans (g' v env)
    · exact .settles j hj (fun env => (h env).trans (g env)) fun v env => (h' v env).trans (g' v env)

/-! ### One argument, whatever the environment -/

theorem ne_of_ofName? (ho : Setting.ofName? v = some o) : v ≠ "help" ∧ v ≠ "version" := by
  rw [← Setting.eq_of_ofName? ho]
  cases o <;> decide

section
variable {name : String}

theorem parse_long_value (ha : Argument.ofString a = .long name (some w))
    (ho : Setting.ofName? name = some o') :
    i.parse env (a :: rest) = (i.set? o' w).bind fun j => j.parse env rest := by
  rw [parse, ha]
  simp [ho]

theorem parse_long_next (ha : Argument.ofString a = .long name none)
    (ho : Setting.ofName? name = some o') (hw : Argument.ofString w = .plain) :
    i.parse env (a :: w :: rest) = (i.set? o' w).bind fun j => j.parse env rest := by
  rw [parse, ha]
  simp [ne_of_ofName? ho, ho, hw]

theorem parse_long_last (ha : Argument.ofString a = .long name none)
    (ho : Setting.ofName? name = some o') (hw : ∀ w ∈ rest.head?, Argument.ofString w ≠ .plain) :
    i.parse env (a :: rest) = none := by
  rw [parse, ha]
  cases rest with
  | nil => simp [ne_of_ofName? ho, ho]
  | cons w rest => simp [ne_of_ofName? ho, ho, hw w rfl]

end

theorem ends (hi : i.values o = none) (hargs : ¬Gives o args) : Ends o i args := by
  -- The values are only there for the cases; no case depends on them.
  fun_induction parse i (fun _ => none) args with
  | case1 i => exact .settles i hi (fun _ => by rw [parse]) fun _ _ => by rw [parse]
  | case2 i a rest ha =>
    cases hj : i.addPaths? rest with
    | none =>
      exact .refused (fun _ => by simp [parse, ha, hj])
        fun _ _ => by simp [parse, ha, hj, addPaths?_assign]
    | some j =>
      exact .settles j ((congrFun (values_of_addPaths? hj) o).trans hi)
        (fun _ => by simp [parse, ha, hj]) fun _ _ => by simp [parse, ha, hj, addPaths?_assign]
  | case3 i a rest ha ih =>
    refine .of_bind (i.addPath? a) rest (fun k hk => ?_) (fun _ => ?_) fun _ _ => ?_
    · exact ih k ((congrFun (values_of_addPath? hk) o).trans hi)
        (not_gives_of_cons hargs (by simp [ha]))
    · simp [parse, ha]
    · simp [parse, ha, addPath?_assign]
  | case4 i a rest letters ha h =>
    exact .prints (.help false) (.inl ⟨_, rfl⟩) (fun _ => by simp [parse, ha, h])
      fun _ _ => by simp [parse, ha, h]
  | case5 i a rest letters ha h =>
    exact .prints .version (.inr rfl) (fun _ => by simp [parse, ha, h])
      fun _ _ => by simp [parse, ha, h]
  | case6 i a rest letters ha h₁ h₂ =>
    exact .refused (fun _ => by simp [parse, ha]) fun _ _ => by simp [parse, ha]
  | case7 i a rest name value ha h =>
    exact .prints (.help true) (.inl ⟨_, rfl⟩) (fun _ => by simp [parse, ha, h])
      fun _ _ => by simp [parse, ha, h]
  | case8 i a rest name value ha _ h =>
    exact .prints .version (.inr rfl) (fun _ => by simp [parse, ha, h])
      fun _ _ => by simp [parse, ha, h]
  | case9 i a rest name value ha h₁ h₂ ho =>
    exact .refused (fun _ => by simp [parse, ha, h₁, h₂, ho]) fun _ _ => by simp [parse, ha, h₁, h₂, ho]
  | case10 i a name o' w rest ho ha _ _ ih =>
    have hne := ne_of_not_gives hargs ha ho
    refine .of_bind (i.set? o' w) rest (fun k hk => ?_) (fun _ => parse_long_value ha ho) fun _ _ => ?_
    · exact ih k ((values_of_set? hk hne).trans hi) (not_gives_of_cons hargs (by simp [ha]))
    · rw [parse_long_value ha ho, set?_assign hne]
  | case11 i a name o' ho ha =>
    have hlast {i env} : parse i env [a] = none := parse_long_last ha ho (by simp)
    exact .refused (fun _ => hlast) fun _ _ => hlast
  | case12 i a name o' w rest ho hw ha _ _ ih =>
    have hne := ne_of_not_gives hargs ha ho
    refine .of_bind (i.set? o' w) rest (fun k hk => ?_) (fun _ => parse_long_next ha ho hw) fun _ _ => ?_
    · exact ih k ((values_of_set? hk hne).trans hi)
        (not_gives_of_cons (not_gives_of_cons hargs (by simp [ha])) (by simp [hw]))
    · rw [parse_long_next ha ho hw, set?_assign hne]
  | case13 i a name o' w rest ho hw ha =>
    have hlast {i env} : parse i env (a :: w :: rest) = none := parse_long_last ha ho (by simp [hw])
    exact .refused (fun _ => hlast) fun _ _ => hlast

/-! ### The environment -/

/-- Where the variable holds what was assigned, it makes no difference which of the two is looked up. -/
theorem request?_assign (hj : j.values o = none) (hv : env o = some v)
    (henv : ∀ o' ≠ o, env' o' = env o') : (j.assign o v).request? env' = j.request? env := by
  have hvalue : ∀ o', (j.assign o v).value env' o' = j.value env o' := by
    intro o'
    by_cases ho : o' = o
    · simp [value, assign, ho, hj, hv]
    · simp [value, assign, ho, henv o' ho]
  rw [request?, request?, hvalue, hvalue, hvalue]
  rfl

/-- Where something was assigned, the variable is not looked up. -/
theorem request?_assign_congr (henv : ∀ o' ≠ o, env' o' = env o') :
    (j.assign o w).request? env' = (j.assign o w).request? env := by
  have hvalue : ∀ o', (j.assign o w).value env' o' = (j.assign o w).value env o' := by
    intro o'
    by_cases ho : o' = o
    · simp [value, assign, ho]
    · simp [value, assign, ho, henv o' ho]
  rw [request?, request?, hvalue, hvalue, hvalue]

/-- A variable that holds what the option does not take is a refusal, but only at the end. -/
theorem request?_eq_none (hj : j.values o = none) (hv : env o = some v) (hrefused : o.accepts v = false) :
    j.request? env = none := by
  cases o with
  | format =>
    have hname : Format.ofName? v = none := by simpa [Setting.accepts] using hrefused
    rw [request?, value, hj, hv]
    simp [hname]
  | extension => cases hrefused
  | namespaceName => cases hrefused

/-- An argument in front of the others is refused at once or assigned. -/
theorem parse_assignment (hi : i.values o = none) :
    i.parse env (o.assignment v :: args) =
      if o.accepts v then (i.assign o v).parse env args else none := by
  rw [parse_long_value (Argument.ofString_assignment o v) (Setting.ofName?_name o)]
  split
  · rw [set?_eq hi ‹_›]
    rfl
  · simp [set?, ‹¬_›]

/-- Setting the variable is the same as assigning in front of the arguments. -/
theorem parse_setting (hi : i.values o = none) (hargs : ¬Gives o args) (hv : env o = some v)
    (henv : ∀ o' ≠ o, env' o' = env o')
    (hhelp : ∀ r, i.parse env args = some r → ¬((∃ full, r = .help full) ∨ r = .version)) :
    i.parse env' (o.assignment v :: args) = i.parse env args := by
  rw [parse_assignment hi]
  rcases ends hi hargs with ⟨h, h'⟩ | ⟨r, hr, h, -⟩ | ⟨j, hj, h, h'⟩
  · rw [h, h']
    exact ite_self none
  · exact absurd hr (hhelp r (h env))
  · rw [h, h']
    split
    · exact request?_assign hj hv henv
    · exact (request?_eq_none hj hv (Bool.not_eq_true _ ▸ ‹_›)).symm

/-- Behind an assignment the variable makes no difference. -/
theorem parse_assignment_congr (hi : i.values o = none) (hargs : ¬Gives o args)
    (henv : ∀ o' ≠ o, env' o' = env o') :
    i.parse env' (o.assignment w :: args) = i.parse env (o.assignment w :: args) := by
  rw [parse_assignment hi, parse_assignment hi]
  rcases ends hi hargs with ⟨-, h⟩ | ⟨r, -, -, h⟩ | ⟨j, -, -, h⟩
  · rw [h, h]
  · rw [h, h]
  · rw [h, h, request?_assign_congr henv]

end Invocation

namespace Values
variable {env : List (String × String)}

theorem variableName_ne (h : o' ≠ o) : o'.variableName ≠ o.variableName := by
  cases o <;> cases o' <;> simp_all [Setting.variableName]

theorem ofEnvironment_setVariable_self : ofEnvironment (setVariable o.variableName v env) o = some v :=
  List.lookup_cons_self

theorem ofEnvironment_setVariable_of_ne (h : o' ≠ o) :
    ofEnvironment (setVariable o.variableName v env) o' = ofEnvironment env o' := by
  rw [ofEnvironment, setVariable, List.lookup_cons, beq_eq_false_iff_ne.2 (variableName_ne h)]
  rfl

theorem ofEnvironment_unsetVariable_of_ne (h : o' ≠ o) :
    ofEnvironment (unsetVariable o.variableName env) o' = ofEnvironment env o' := by
  have hne := variableName_ne h
  rw [ofEnvironment, ofEnvironment, unsetVariable]
  induction env with
  | nil => rfl
  | cons e env ih =>
    obtain ⟨k, w⟩ := e
    by_cases hk : k = o.variableName
    · rw [List.filter_cons_of_neg (by simpa using hk), ih, List.lookup_cons, hk,
        beq_eq_false_iff_ne.2 hne]
    · rw [List.filter_cons_of_pos (by simpa using hk), List.lookup_cons, List.lookup_cons, ih]

end Values

/-! ### Runs -/

variable {env env' : List (String × String)} {args' : List String}

theorem askForHelp_iff : AskForHelp env args ↔
    ∃ r, Invocation.empty.parse (Values.ofEnvironment env) args = some r ∧
      ((∃ full, r = .help full) ∨ r = .version) := by
  simp [AskForHelp, and_or_left, exists_or]

/-- What is asked for decides what a run does, help apart. -/
theorem run_sameEffect (d : Disk) (hhelp : ¬AskForHelp env args)
    (h : Invocation.empty.parse (Values.ofEnvironment env') args' =
      Invocation.empty.parse (Values.ofEnvironment env) args) :
    (run d env args).SameEffect (run d env' args') := by
  rw [run, run, h]
  cases hr : Invocation.empty.parse (Values.ofEnvironment env) args with
  | none => exact ⟨rfl, rfl, rfl⟩
  | some r =>
    cases r with
    | help full => exact absurd (.inl ⟨full, hr⟩) hhelp
    | version => exact absurd (.inr hr) hhelp
    | usage => exact ⟨rfl, rfl, rfl⟩
    | generate => exact ⟨rfl, rfl, rfl⟩

theorem run_setVariable (d : Disk) (hargs : ¬Gives o args)
    (hhelp : ¬AskForHelp (setVariable o.variableName v env) args) :
    (run d (setVariable o.variableName v env) args).SameEffect
      (run d (unsetVariable o.variableName env) (o.assignment v :: args)) := by
  refine run_sameEffect d hhelp (Invocation.parse_setting rfl hargs
    Values.ofEnvironment_setVariable_self (fun o' ho => ?_) fun r hr hprints => ?_)
  · rw [Values.ofEnvironment_setVariable_of_ne ho, Values.ofEnvironment_unsetVariable_of_ne ho]
  · exact hhelp (askForHelp_iff.2 ⟨r, hr, hprints⟩)

theorem run_assignment_congr (d : Disk) (hargs : ¬Gives o args)
    (hhelp : ¬AskForHelp env (o.assignment w :: args)) :
    (run d env (o.assignment w :: args)).SameEffect
      (run d (setVariable o.variableName v env) (o.assignment w :: args)) :=
  run_sameEffect d hhelp (Invocation.parse_assignment_congr rfl hargs
    fun _ => Values.ofEnvironment_setVariable_of_ne)

/-- Setting an option by its variable is the same as by an argument in front of the others, and an
argument in front of the others makes the variable count for nothing. -/
theorem variable_stands_for_argument (d : Disk) (env : List (String × String)) (o : Setting)
    (args : List String) (hargs : ¬Gives o args) (v : String) :
    (¬AskForHelp (setVariable o.variableName v env) args →
      (run d (setVariable o.variableName v env) args).SameEffect
        (run d (unsetVariable o.variableName env) (o.assignment v :: args))) ∧
    ∀ w, ¬AskForHelp env (o.assignment w :: args) →
      (run d env (o.assignment w :: args)).SameEffect
        (run d (setVariable o.variableName v env) (o.assignment w :: args)) :=
  ⟨run_setVariable d hargs, fun _ => run_assignment_congr d hargs⟩

/-- Arguments that seem to choose a format, but behind two dashes there are only paths. -/
def behindDashes : List String :=
  ["--extension", "h", "src", "--", "--format=entt"]

theorem variable_stands_for_argument_manifest :
    ¬Gives .format behindDashes ∧
    (¬AskForHelp (setVariable "PREBUILD_FORMAT" "json" []) behindDashes ∧
      (run ⟨.dir [("src", .dir [])], []⟩ (setVariable "PREBUILD_FORMAT" "json" []) behindDashes).SameEffect
        (run ⟨.dir [("src", .dir [])], []⟩ [] ("--format=json" :: behindDashes))) ∧
    (¬AskForHelp [] ("--format=json" :: behindDashes) ∧
      (run ⟨.dir [("src", .dir [])], []⟩ [] ("--format=json" :: behindDashes)).SameEffect
        (run ⟨.dir [("src", .dir [])], []⟩ (setVariable "PREBUILD_FORMAT" "entt" [])
          ("--format=json" :: behindDashes))) := by
  have hgives : ¬Gives .format behindDashes := by decide
  have hvariable : Invocation.empty.parse
      (Values.ofEnvironment (setVariable "PREBUILD_FORMAT" "json" [])) behindDashes =
        some (.generate "src" "--format=entt" .json "h" none) := by
    cbv
  have hargument : Invocation.empty.parse (Values.ofEnvironment []) ("--format=json" :: behindDashes) =
      some (.generate "src" "--format=entt" .json "h" none) := by
    cbv
  have hhelp : ¬AskForHelp (setVariable "PREBUILD_FORMAT" "json" []) behindDashes := by
    simp [AskForHelp, hvariable]
  have hhelp' : ¬AskForHelp [] ("--format=json" :: behindDashes) := by
    simp [AskForHelp, hargument]
  have hset := variable_stands_for_argument ⟨.dir [("src", .dir [])], []⟩ [] .format behindDashes hgives
  exact ⟨hgives, ⟨hhelp, (hset "json").1 hhelp⟩, hhelp', (hset "entt").2 "json" hhelp'⟩

/-- The three variables and the options that they stand for, by their names. -/
theorem named_variable_stands_for_argument (d : Disk) (env : List (String × String)) {key option : String}
    (h : (key, option) ∈ [("PREBUILD_FORMAT", "--format"), ("PREBUILD_EXTENSION", "--extension"),
      ("PREBUILD_NAMESPACE", "--namespace")])
    (hargs : ∀ a ∈ args.takeWhile (· ≠ "--"), a ≠ option ∧ ∀ w, a ≠ option ++ "=" ++ w) (v : String) :
    (¬AskForHelp (setVariable key v env) args →
      (run d (setVariable key v env) args).SameEffect
        (run d (unsetVariable key env) ((option ++ "=" ++ v) :: args))) ∧
    ∀ w, ¬AskForHelp env ((option ++ "=" ++ w) :: args) →
      (run d env ((option ++ "=" ++ w) :: args)).SameEffect
        (run d (setVariable key v env) ((option ++ "=" ++ w) :: args)) := by
  obtain ⟨o, rfl, rfl⟩ : ∃ o : Setting, o.variableName = key ∧ "--" ++ o.name = option := by
    simp only [List.mem_cons, Prod.mk.injEq, List.not_mem_nil, or_false] at h
    rcases h with ⟨rfl, rfl⟩ | ⟨rfl, rfl⟩ | ⟨rfl, rfl⟩
    exacts [⟨.format, rfl, rfl⟩, ⟨.extension, rfl, rfl⟩, ⟨.namespaceName, rfl, rfl⟩]
  have hgives : ¬Gives o args := by
    rintro ⟨a, ha, hname | ⟨w, hw⟩⟩
    · exact (hargs a ha).1 hname
    · exact (hargs a ha).2 w hw
  exact ⟨run_setVariable d hgives, fun _ => run_assignment_congr d hgives⟩

end HeaderMeta.CommandLine
