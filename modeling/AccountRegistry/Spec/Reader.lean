import AccountRegistry.Address
import AccountRegistry.Json.Parser
import AccountRegistry.Json.Printer
import AccountRegistry.Schema.Checked
import AccountRegistry.Spec.Basic

/-!
# Reading registry specs

A spec is read from a JSON value.  Every field is checked on its own, and the issues are listed in
the order of the fields below, whatever the order of the data.  An integer is a numeral or a whole
number from zero to `2 ^ 53 - 1`.
-/

namespace AccountRegistry.Spec

/-- The issues of a number that stands for an integer, in the order in which they are checked. -/
def numberComplaints (x : Binary64) : List Complaint :=
  (if x.isWhole then [] else [.fraction]) ++
  (if x.below 0 then [.tooSmall 0] else []) ++
  (if x.below (-Binary64.maxSafe) then [.tooSmall (-Binary64.maxSafe)] else []) ++
  (if x.above Binary64.maxSafe then [.tooBig Binary64.maxSafe] else [])

/-- An integer that is written as a numeral or as a number. -/
def readInteger (path : List String) (data : Option (Json Binary64)) : Checked Int :=
  match data with
  | some (.text s) =>
      match Numeral.ofText? s with
      | some n => .valid n
      | none => .issue path (.malformed "Must be a 0x-hex or decimal integer")
  | some (.number x) =>
      match x.toInt?, numberComplaints x with
      | some n, [] => .valid n
      | _, complaints => .invalid (complaints.map fun complaint => ⟨path, complaint⟩)
  | other => .issue path (.neither (Shape.of other))

/-- A native address. -/
def readNative (path : List String) (data : Option (Json Binary64)) : Checked Int :=
  (readInteger path data).refine (fun n => decide (Address.IsNative n)) path
    "Must be below 2^251 - 256"

/-- A class reference. -/
def readReference (path : List String) (data : Option (Json Binary64)) : Checked Int :=
  (readInteger path data).refine (fun n => decide (Address.IsClassReference n)) path
    "Must be a non-zero field element"

/-- The bound that every chain id is below, `2 ^ 64`. -/
def chainIdBound : Int :=
  0x10000000000000000

/-- A chain id. -/
def readChainId (path : List String) (data : Option (Json Binary64)) : Checked Int :=
  (readInteger path data).refine (fun n => decide (n < chainIdBound)) path
    "Chain id must fit in 64 bits"

/-- A field that may be missing. -/
def readOptional {α : Type} (read : Option (Json Binary64) → Checked α)
    (data : Option (Json Binary64)) : Checked (Option α) :=
  match data with
  | none => .valid none
  | some json => (read (some json)).map some

/-- The id of a registry: any text but the empty one. -/
def readId (path : List String) (data : Option (Json Binary64)) : Checked String :=
  match data with
  | some (.text s) =>
      if s = "" then .issue path (.emptyText "Registry id is required") else .valid s
  | other => .issue path (.wrongShape .text (Shape.of other))

/-- The class references of the kinds that have one, under their keys. -/
def readReferences (path : List String) (fields : List (String × Json Binary64)) :
    List ClassKind → Checked (List (String × Int))
  | [] => .valid []
  | kind :: rest =>
      let here := readOptional (readReference (path ++ [kind.specKey]))
        (Json.lookup fields kind.specKey)
      (here.map fun value others =>
        (value.map fun n => (kind.specKey, n)).toList ++ others).apply
        (readReferences path fields rest)

/-- The keys of a record that belong to no kind. -/
def unknownKeys (fields : List (String × Json Binary64)) : List String :=
  (Json.keys fields).filter fun key => !(ClassKind.all.any fun kind => kind.specKey = key)

/-- The record of class references, which has no other keys than those of the kinds. -/
def readReferenceRecord (path : List String) (data : Option (Json Binary64)) :
    Checked (List (String × Int)) :=
  match data with
  | none => .valid []
  | some (.record fields) =>
      let strict : Checked Unit := match unknownKeys fields with
        | [] => .valid ()
        | keys => .issue path (.unknownKeys keys)
      ((readReferences path fields ClassKind.all).map fun references _ => references).apply strict
  | other => .issue path (.wrongShape .record (Shape.of other))

/-- The block context. -/
def readContext (path : List String) (data : Option (Json Binary64)) : Checked ContextSpec :=
  match data with
  | some (.record fields) =>
      ((readNative (path ++ ["coinbase"]) (Json.lookup fields "coinbase")).map
        ContextSpec.mk).apply
        (readInteger (path ++ ["base_fee"]) (Json.lookup fields "base_fee"))
  | other => .issue path (.wrongShape .record (Shape.of other))

/-- A spec from the fields of a record. -/
def readFields (fields : List (String × Json Binary64)) : Checked Spec :=
  let field := Json.lookup fields
  ((((((((readId ["id"] (field "id")).map Spec.mk).apply
    (readChainId ["chain_id"] (field "chain_id"))).apply
    (readNative ["deployer"] (field "deployer"))).apply
    (readNative ["owner"] (field "owner"))).apply
    (readOptional (readNative ["native_token"]) (field "native_token"))).apply
    (readReferenceRecord ["class_references"] (field "class_references"))).apply
    (readOptional (readContext ["chain_context"]) (field "chain_context")))

/-- A spec from a JSON value, or from a missing one. -/
def check (data : Option (Json Binary64)) : Checked Spec :=
  match data with
  | some (.record fields) => readFields fields
  | other => .issue [] (.wrongShape .record (Shape.of other))

/-- The fault of a spec with issues: it names their locations and words them as JSON. -/
def issuesFault (issues : List Issue) : Fault :=
  .registry .invalidRegistrySpec (JsonText.render (.list (issues.map Issue.toJson)))
    (.record [("issues", .list (issues.map fun issue => .text issue.location))])

/-- The spec that a JSON value holds. -/
def validate (data : Option (Json Binary64)) : Except Fault Spec :=
  (check data).toExcept.mapError issuesFault

/-- The spec that a text holds. -/
def parse (text : String) : Except Fault Spec :=
  match JsonText.read text with
  | .ok json => validate (some json)
  | .error e =>
      .error (.registry .invalidRegistrySpec ("Failed to parse JSON: " ++ e.message) .absent)

end AccountRegistry.Spec
