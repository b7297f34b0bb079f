import AccountRegistry.Environment.File
import AccountRegistry.Environment.Vault
import AccountRegistry.Value

/-!
# Loading environments

The variables of a process with those that its files add.  A process with a key takes the variables
of a vault, if there is one, in place of the files; each variable that is set already stays as it
is.
-/

namespace AccountRegistry.EnvironmentFile

/-- What loading came to: the environment, whether there was a key without a vault, and the fault
that ended it. -/
structure Loading where
  environment : Environment
  lacksVault : Bool
  fault : Option Fault

/-- The key of an environment. -/
def vaultKey? (environment : Environment) : Option String :=
  environment.nonEmpty? "DOTENV_KEY"

/-- The environment with the variables of files, of which the earlier ones count more. -/
def filled (process : Environment) (files : List Content) : Environment :=
  files.foldl (fun found file => found.filledFrom (environment file)) process

/-- The variables of a process, of its files and of a vault.  The variables of the vault itself
are added before it is opened. -/
def load (process : Environment) (files : List Content) (vault : Option Content) : Loading :=
  match vaultKey? process, vault with
  | some keys, some content =>
      let sealed := environment content
      let before := process.filledFrom sealed
      match Vault.opened sealed keys with
      | .ok text => ⟨before.filledFrom (ofText text), false, none⟩
      | .error fault => ⟨before, false, some (.vault fault)⟩
  | key, _ => ⟨filled process files, key.isSome, none⟩

/-- What is said about a key without a vault. -/
def lackingVault : String :=
  "[dotenv@16.6.1][WARN] You set DOTENV_KEY but you are missing a .env.vault file at null. " ++
    "Did you forget to build it?"

/-! ## Places -/

/-- The paths of the files that a value names: a path, several paths, or `.env` for a value that
says nothing. -/
def places (home : String) : Value → List String
  | .text given => [path home given]
  | .list items => items.filterMap fun item =>
      match item with
      | .text given => if given = "" then none else some (path home given)
      | _ => none
  | other => if other.isTelling then [] else [path home ""]

/-- The path of the vault beside a file. -/
def vaultBeside (file : String) : String :=
  if file.endsWith ".vault" then file else file ++ ".vault"

/-- The path of the vault that belongs to a value: of several paths, the last where something is
found. -/
def vaultPlace? (directory : String → Content) : Value → Option String
  | .text given => some (vaultBeside (if given = "" then ".env" else given))
  | .list [] => some ".env.vault"
  | .list items =>
      (items.filterMap fun item =>
        match item with
        | .text given => if (directory given).isFound then some (vaultBeside given) else none
        | _ => none).getLast?
  | _ => some ".env.vault"

/-- The vault that belongs to a value. -/
def vaultOf? (home : String) (directory : String → Content) (given : Value) : Option Content :=
  match vaultPlace? directory given with
  | some place => (directory place).found?.map fun _ => directory (path home place)
  | none => none

/-- What loading comes to in a directory, with the files that a value names. -/
def loadFrom (home : String) (directory : String → Content) (process : Environment)
    (given : Value) : Loading :=
  load process ((places home given).map directory) (vaultOf? home directory given)

end AccountRegistry.EnvironmentFile
