import GoLayout.Text.Basic

/-! # Environments

    The variables of a process. A further variable is defined only if there is none of its
    name, so that what the environment holds comes before what a file says
    (`get?_define`). How the text of an environment file is read is a parameter: a loader, of
    which `Completes` says what it has to do. -/

namespace GoLayout

/-- Variables with their values, each name once. -/
structure Environment where
  entries : List (Text × Text)
  deriving Repr, DecidableEq

/-- Why a variable cannot be defined. -/
inductive VariableFault where
  | nullCharacter
  | equalsSign
  deriving Repr, DecidableEq

/-- The wording of a variable that cannot be defined. -/
def VariableFault.message : VariableFault → Text
  | nullCharacter => "embedded null byte"
  | equalsSign => "illegal environment variable name"

namespace Environment

/-- No variables. -/
def empty : Environment := ⟨[]⟩

/-- The value of a variable. -/
def get? (env : Environment) (name : Text) : Option Text := env.entries.lookup name

/-- The environment with a variable that it lacks; one that it has stays. -/
def define (env : Environment) (name value : Text) : Environment :=
  if (env.get? name).isSome then env else ⟨env.entries ++ [(name, value)]⟩

/-- Why no variable of the given name and value can be defined. -/
def fault? (name value : Text) : Option VariableFault :=
  if name.contains '\x00' || value.contains '\x00' then some .nullCharacter
  else if name.contains '=' then some .equalsSign
  else none

/-- The environment with some variables that it lacks, unless one of those cannot be
    defined. -/
def defineAll (env : Environment) : List (Text × Text) → Except VariableFault Environment
  | [] => .ok env
  | (name, value) :: more =>
    if (env.get? name).isSome then env.defineAll more
    else
      match fault? name value with
      | some f => .error f
      | none => (env.define name value).defineAll more

/-! ## Environment files -/

section Loader

variable {Fault : Type} (load : Environment → Text → Except Fault Environment)

/-- The environment behind the environment file, if there is one, which a loader reads. -/
def behind (env : Environment) : Option Text → Except Fault Environment
  | none => .ok env
  | some file => load env file

/-- The value of the last assignment to a name, if that has one. -/
def lastAssigned? (assignments : List (Text × Option Text)) (name : Text) : Option Text :=
  (assignments.reverse.lookup name).join

/-- A loader completes environments: where it comes to an end, it has set exactly the variables
    that the environment lacks, each to the value of the last of the assignments that it reads. -/
def Completes (assigned : Environment → Text → List (Text × Option Text)) : Prop :=
  ∀ env file loaded, load env file = .ok loaded →
    ∀ name, loaded.get? name = (env.get? name).or (lastAssigned? (assigned env file) name)

end Loader

/-- A new variable has its value, and all others keep theirs. -/
theorem get?_define (env : Environment) (name value other : Text) :
    (env.define name value).get? other =
      (env.get? other).or (if other = name then some value else none) := by
  unfold define
  split
  · next h =>
    obtain ⟨v, hv⟩ := Option.isSome_iff_exists.1 h
    split
    · next he => subst he; simp [hv]
    · simp
  · simp only [get?, List.lookup_append]
    congr 1
    by_cases h : other = name
    · simp [h]
    · have hb : (other == name) = false := by simpa using h
      simp [h, hb]

end Environment

end GoLayout
