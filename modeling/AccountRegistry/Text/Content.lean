import AccountRegistry.Text.Utf8

/-!
# File contents

What is found where a file is looked for.
-/

namespace AccountRegistry

/-- Nothing, a directory, or a file with its bytes. -/
inductive Content where
  | missing
  | directory
  | file (bytes : List UInt8)
  deriving Inhabited

/-- Whether there is anything. -/
def Content.isFound : Content → Bool
  | .missing => false
  | _ => true

/-- What is there, if there is anything. -/
def Content.found? (content : Content) : Option Content :=
  if content.isFound then some content else none

/-- The text of a file. -/
def Content.text? : Content → Option String
  | .file bytes => some (Utf8.decode bytes)
  | _ => none

end AccountRegistry
