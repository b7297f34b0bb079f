import AccountRegistry.Log.Reserved
import AccountRegistry.Value

/-!
# Refusals by code

Refusals as collaborators make them: under any code, with a message of their own or without one.
-/

namespace AccountRegistry.Fault

/-- The message under the written form of a code.  A reserved name answers for itself, and nothing
is said under any other form that is not listed. -/
def messageUnder (label : String) : String :=
  match FaultCode.ofLabel? label with
  | some code => code.message
  | none => (Log.description? label).getD ""

/-- The refusal under a code, in words of its own or in those of the code. -/
def ofCode (code : Value) (message : Option String) (context : Value) : Fault :=
  let said := message.getD (messageUnder code.plainText)
  match code with
  | .text label =>
      match FaultCode.ofLabel? label with
      | some listed => .registry listed said context
      | none => .unlisted code said context
  | _ => .unlisted code said context

/-- Whether a fault is a refusal under the code of a written form. -/
def bears (fault : Fault) (label : String) : Bool :=
  fault.label? = some label

theorem ofCode_label (code : FaultCode) (context : Value) :
    ofCode (.text code.label) none context = .registry code code.message context := by
  simp [ofCode, messageUnder, Value.plainText]

end AccountRegistry.Fault
