/-!
# Environments

The variables that a process was started with, or that a file sets.  A value that is assigned to a
variable ends before its first NUL, as there can be none in the environment of a process.
-/

namespace AccountRegistry

/-- Variables with their values; of several values of a variable the first counts. -/
structure Environment where
  entries : List (String × String)
  deriving Inhabited

namespace Environment

/-- The value of a variable, if it is set. -/
def get? (environment : Environment) (name : String) : Option String :=
  environment.entries.lookup name

/-- What a variable holds of a text that is assigned to it: what stands before the first NUL. -/
def upToNul (text : String) : String :=
  String.ofList (text.toList.takeWhile (· ≠ '\x00'))

/-- The environment with a variable set to a value. -/
def set (environment : Environment) (name value : String) : Environment :=
  ⟨(name, upToNul value) :: environment.entries⟩

theorem get?_set (environment : Environment) (name value other : String) :
    (environment.set name value).get? other =
      if other = name then some (upToNul value) else environment.get? other := by
  by_cases same : other = name
  · simp [get?, set, same]
  · have differs : (other == name) = false := by simpa using same
    simp [get?, set, List.lookup_cons, differs, same]

/-- The environment with the variables of another one assigned, where it does not have them. -/
def filledFrom (environment other : Environment) : Environment :=
  ⟨environment.entries ++ other.entries.map fun entry => (entry.1, upToNul entry.2)⟩

theorem get?_filledFrom (environment other : Environment) (name : String) :
    (environment.filledFrom other).get? name =
      (environment.get? name).or ((other.get? name).map upToNul) := by
  have hheld : (other.entries.map fun entry => (entry.1, upToNul entry.2)).lookup name =
      (other.entries.lookup name).map upToNul := by
    induction other.entries with
    | nil => rfl
    | cons entry rest ih =>
        rw [List.map_cons, List.lookup_cons, List.lookup_cons, ih]
        cases name == entry.1 <;> rfl
  rw [get?, filledFrom, List.lookup_append, hheld]
  rfl

/-- The value of a variable, unless it is empty. -/
def nonEmpty? (environment : Environment) (name : String) : Option String :=
  (environment.get? name).filter fun value => value ≠ ""

end Environment

end AccountRegistry
