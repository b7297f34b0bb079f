import AccountRegistry.Value

/-!
# Log entries

What the registry has to say, before it is decided whether and in which form it is written.
-/

namespace AccountRegistry.Log

/-- How grave an entry is. -/
inductive Severity where
  | debug
  | info
  | warn
  | error
  deriving DecidableEq, Repr, Inhabited

/-- A message with its arguments.  The message is a text in what the registry says itself; other
programs may say any value, or leave it out.  The first argument of an error is its cause; it is
`absent` if there is none. -/
structure Entry where
  severity : Severity
  message : Value
  args : List Value
  deriving Inhabited

end AccountRegistry.Log
