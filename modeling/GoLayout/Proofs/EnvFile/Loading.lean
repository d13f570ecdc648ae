import GoLayout.EnvFile.Basic
import Mathlib.Data.List.Nodup

/-! # Loading the text of an environment file

    The assignments of a file are read in order, and the references in their values see the ones
    before (`assigned`).  Loading the text sets exactly the variables that the process lacks, each
    to the value of the last assignment (`loadText_completes`).  The route:

    * the values behind some statements hold each name once, with its last assignment
      (`lookup_foldl_obey`, `nodup_foldl_obey`), so that a name can be looked up in the pairs that
      the file gives (`lookup_values`);
    * defining these pairs one after the other adds those which the process lacks
      (`get?_defineAll`). -/

namespace GoLayout

/-- A pair for one name is passed over when another one is looked up. -/
theorem lookup_cons_of_ne {β : Type} {name other : Text} (h : name ≠ other) (value : β)
    (vs : List (Text × β)) : ((other, value) :: vs).lookup name = vs.lookup name := by
  rw [List.lookup_cons, beq_false_of_ne h]

/-! ## Defining variables -/

namespace Environment

variable {env loaded : Environment} {vs : List (Text × Text)}

theorem defineAll_cons {name value : Text}
    (h : env.defineAll ((name, value) :: vs) = .ok loaded) :
    (env.define name value).defineAll vs = .ok loaded := by
  rw [defineAll] at h
  by_cases hhas : (env.get? name).isSome
  · rw [if_pos hhas] at h
    rw [define, if_pos hhas]
    exact h
  · rw [if_neg hhas] at h
    cases hfault : fault? name value with
    | none =>
        rw [hfault] at h
        exact h
    | some f =>
        rw [hfault] at h
        exact nomatch h

/-- Behind some definitions the variables that were there have their values, and the others the
    first ones that are given. -/
theorem get?_defineAll (h : env.defineAll vs = .ok loaded) (name : Text) :
    loaded.get? name = (env.get? name).or (vs.lookup name) := by
  induction vs generalizing env with
  | nil =>
      obtain rfl := Except.ok.inj h
      exact Option.or_none.symm
  | cons p vs ih =>
      obtain ⟨other, value⟩ := p
      rw [ih (defineAll_cons h), get?_define, Option.or_assoc]
      congr 1
      by_cases hname : name = other
      · simp [hname]
      · rw [if_neg hname, lookup_cons_of_ne hname]
        rfl

end Environment

namespace EnvFile

/-! ## Assigning a value -/

variable {env : Environment} {name : Text}

/-- The name has the new value. -/
theorem lookup_assign_self (name : Text) (value : Option Text) (vs : Values) :
    (assign name value vs).lookup name = some value := by
  induction vs with
  | nil => exact List.lookup_cons_self
  | cons p vs ih =>
      obtain ⟨n, v⟩ := p
      rw [assign]
      by_cases h : n = name
      · rw [if_pos h, h]
        exact List.lookup_cons_self
      · rw [if_neg h, lookup_cons_of_ne (Ne.symm h)]
        exact ih

/-- Any other name keeps what it has. -/
theorem lookup_assign_of_ne {other : Text} (hne : other ≠ name) (value : Option Text)
    (vs : Values) : (assign name value vs).lookup other = vs.lookup other := by
  induction vs with
  | nil => exact lookup_cons_of_ne hne value []
  | cons p vs ih =>
      obtain ⟨n, v⟩ := p
      rw [assign]
      by_cases h : n = name
      · rw [if_pos h, h, lookup_cons_of_ne hne, lookup_cons_of_ne hne]
      · rw [if_neg h, List.lookup_cons, List.lookup_cons, ih]

/-- Assigning keeps the order of the names, and puts a new one behind the others. -/
theorem names_assign (name : Text) (value : Option Text) (vs : Values) :
    (assign name value vs).map (·.1) =
      if name ∈ vs.map (·.1) then vs.map (·.1) else vs.map (·.1) ++ [name] := by
  induction vs with
  | nil => rfl
  | cons p vs ih =>
      obtain ⟨n, v⟩ := p
      rw [assign, List.map_cons]
      by_cases h : n = name
      · rw [if_pos h, if_pos (h ▸ List.mem_cons_self)]
        rfl
      · rw [if_neg h, List.map_cons, ih]
        by_cases hmem : name ∈ vs.map (·.1)
        · rw [if_pos hmem, if_pos (List.mem_cons_of_mem _ hmem)]
        · rw [if_neg hmem, if_neg (List.not_mem_cons_of_ne_of_not_mem (Ne.symm h) hmem)]
          rfl

/-! ## Values behind statements -/

/-- What some statements assign, in order: each name with its value, if it has one, in which
    references see the process and the assignments before. -/
def assignmentsFrom (env : Environment) (values : Values) :
    List (Nat × Statement) → List (Text × Option Text)
  | [] => []
  | (_, .assignment name value) :: more =>
    let value := value.map (expand (resolve env values))
    (name, value) :: assignmentsFrom env (assign name value values) more
  | (_, .empty) :: more => assignmentsFrom env values more
  | (_, .unreadable) :: more => assignmentsFrom env values more

/-- Behind some statements a name has what the last assignment to it gives, and else what it had. -/
theorem lookup_foldl_obey (numbered : List (Nat × Statement)) : ∀ vs : Values,
    (numbered.foldl (fun vs s => obey env vs s.2) vs).lookup name =
      ((assignmentsFrom env vs numbered).reverse.lookup name).or (vs.lookup name) := by
  induction numbered with
  | nil => exact fun _ => rfl
  | cons s numbered ih =>
      intro vs
      obtain ⟨line, s⟩ := s
      rw [List.foldl_cons, ih]
      cases s with
      | empty => rfl
      | unreadable => rfl
      | assignment n value =>
          -- the assignment is the first of the list, and so the last one that is looked at
          rw [assignmentsFrom, List.reverse_cons, List.lookup_append, Option.or_assoc, obey]
          congr 1
          by_cases hname : name = n
          · rw [hname, lookup_assign_self, List.lookup_cons_self]
            rfl
          · rw [lookup_assign_of_ne hname, lookup_cons_of_ne hname]
            rfl

/-- Behind some statements each name is there once. -/
theorem nodup_foldl_obey (numbered : List (Nat × Statement)) : ∀ vs : Values,
    (vs.map (·.1)).Nodup →
      ((numbered.foldl (fun vs s => obey env vs s.2) vs).map (·.1)).Nodup := by
  induction numbered with
  | nil => exact fun _ h => h
  | cons s numbered ih =>
      intro vs h
      rw [List.foldl_cons]
      refine ih _ ?_
      cases s.2 with
      | empty => exact h
      | unreadable => exact h
      | assignment name value =>
          rw [obey, names_assign]
          split
          · exact h
          · next hnew =>
            exact h.append (List.nodup_singleton name) (List.disjoint_singleton.mpr hnew)

/-- Leaving out the names without a value does not change what the others have. -/
theorem lookup_filterMap {vs : Values} (h : (vs.map (·.1)).Nodup) :
    (vs.filterMap fun (n, v) => v.map ((n, ·))).lookup name = (vs.lookup name).join := by
  induction vs with
  | nil => rfl
  | cons p vs ih =>
      obtain ⟨n, v⟩ := p
      obtain ⟨hnew, hrest⟩ := List.nodup_cons.mp h
      have hvs := ih hrest
      by_cases hname : name = n
      · subst hname
        rw [List.lookup_cons_self]
        cases v with
        | some value => exact List.lookup_cons_self
        | none =>
            have hlacks : vs.lookup name = none := List.lookup_eq_none_iff.mpr fun p hp =>
              bne_iff_ne.mpr fun hkey => hnew (List.mem_map.mpr ⟨p, hp, hkey.symm⟩)
            rw [List.filterMap_cons_none rfl, hvs, hlacks]
            rfl
      · rw [lookup_cons_of_ne hname, ← hvs]
        cases v with
        | some value => exact lookup_cons_of_ne hname _ _
        | none => rw [List.filterMap_cons_none rfl]

/-- The values that a file gives are those of the last assignments. -/
theorem lookup_values (numbered : List (Nat × Statement)) :
    (values env numbered).lookup name =
      Environment.lastAssigned? (assignmentsFrom env [] numbered) name := by
  have hlookup : (numbered.foldl (fun vs s => obey env vs s.2) []).lookup name =
      (assignmentsFrom env [] numbered).reverse.lookup name := by
    rw [lookup_foldl_obey, List.lookup_nil, Option.or_none]
  rw [values, lookup_filterMap (nodup_foldl_obey numbered [] List.nodup_nil), hlookup]
  rfl

/-! ## Loading -/

/-- Loads the text of a file. -/
def loadText (env : Environment) (t : Text) : Except Fault Environment := (load env (.ok t)).2

/-- The assignments of a text in order; there are none where environment files are switched off. -/
def assigned (env : Environment) (t : Text) : List (Text × Option Text) :=
  if isOff env then [] else assignmentsFrom env [] (statementsOf t)

/-- Loading sets exactly the variables that the process lacks, the last assignment winning. -/
theorem loadText_completes : Environment.Completes loadText assigned := by
  intro env t loaded h name
  rw [loadText] at h
  cases hoff : isOff env with
  | true =>
      simp only [load, hoff] at h
      obtain rfl := Except.ok.inj h
      rw [assigned, if_pos hoff]
      exact Option.or_none.symm
  | false =>
      have hdefine : env.defineAll (values env (statementsOf t)) = .ok loaded := by
        simp only [load, hoff] at h
        cases hall : env.defineAll (values env (statementsOf t)) with
        | ok completed =>
            rw [hall] at h
            exact congrArg Except.ok (Except.ok.inj h)
        | error f =>
            rw [hall] at h
            exact nomatch h
      rw [Environment.get?_defineAll hdefine, lookup_values, assigned, hoff]
      rfl

end EnvFile

end GoLayout
