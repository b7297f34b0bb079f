import AccountRegistry.Schema.Issue

/-!
# Checked values

A value that was checked against a schema, or all the issues that were found.  Parts are checked
independently of each other: `apply` joins the issues of both sides in their order.
-/

namespace AccountRegistry

/-- A checked value, or the issues that kept it from being one. -/
inductive Checked (α : Type) where
  | valid (value : α)
  | invalid (issues : List Issue)

namespace Checked

variable {α β : Type}

/-- One issue. -/
def issue (path : List String) (complaint : Complaint) : Checked α :=
  .invalid [⟨path, complaint⟩]

/-- The value with a function applied. -/
def map (f : α → β) : Checked α → Checked β
  | .valid value => .valid (f value)
  | .invalid issues => .invalid issues

/-- A checked function on a checked value; the issues of both are reported. -/
def apply : Checked (α → β) → Checked α → Checked β
  | .valid f, .valid value => .valid (f value)
  | .valid _, .invalid issues => .invalid issues
  | .invalid issues, .valid _ => .invalid issues
  | .invalid issues, .invalid more => .invalid (issues ++ more)

/-- A rule on a value that is valid without it. -/
def refine (checked : Checked α) (holds : α → Bool) (path : List String) (message : String) :
    Checked α :=
  match checked with
  | .valid value => if holds value then .valid value else issue path (.refused message)
  | .invalid issues => .invalid issues

/-- The value or the issues. -/
def toExcept : Checked α → Except (List Issue) α
  | .valid value => .ok value
  | .invalid issues => .error issues

end Checked

end AccountRegistry
