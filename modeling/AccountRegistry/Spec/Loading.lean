import AccountRegistry.Spec.Reader
import AccountRegistry.Text.Content
import AccountRegistry.Value

/-!
# Loading registry specs

The spec at a path, from what is found there.
-/

namespace AccountRegistry.Spec

/-- The fault of a path where no file is found; a value that is no text is no path to a file. -/
def notFound (path : Value) : Fault :=
  .registry .invalidRegistrySpec ("Registry spec file not found: " ++ path.plainText)
    (.record [("filePath", path)])

/-- The spec in a file. -/
def load (path : String) (content : Content) : Except Fault Spec :=
  match content with
  | .missing => .error (notFound (.text path))
  | .directory => .error .directory
  | .file bytes => parse (Utf8.decode bytes)

end AccountRegistry.Spec
