/-
**Failures.**

* `Defect`: a condition that no rule of the program gives a meaning to;
* `Failure`: everything that can end a request early;
* `Failure.message?`: the wording, where there is one;
* `Failure.exitCode`: the code that the command line ends with;
* `written`: what is written of a value, or the failure to write it;
* `Entries.named`, `Entries.plain`: the entries of a mapping that is a record, or plain all through.
-/

import RamlInterfaces.Java.Fault
import RamlInterfaces.Raml.Fault
import RamlInterfaces.Settings.Fault
import RamlInterfaces.Value.Basic

namespace RamlInterfaces

/-- A condition that no rule gives a meaning to. -/
inductive Defect where
  | notMapping
  | notIterable
  | unknownField
  | nestedTooDeeply
  | impossibleMoment
  | unreadableScalar
  | tooManyDigits
  | unboundedLimit
  | namelessType
  | unknownObject
  | unwritableValue
deriving DecidableEq, Repr

/-- What can end a request early. -/
inductive Failure where
  | raml (fault : Raml.Fault)
  | settings (fault : Settings.Fault)
  | terminalInput
  | model (fault : Java.Fault)
  | unfit (details : List Detail)
  | system
  | encoding
  | defect (cause : Defect)
deriving DecidableEq, Repr

namespace Failure

/-- The wording of a failure that the program foresees. -/
def message? : Failure → Option String
  | raml fault => some fault.message
  | settings fault => some fault.message
  | terminalInput =>
    some "No RAML document on stdin. Pipe one in, or pass a file path or URL."
  | model fault => some fault.message
  | unfit _ | system | encoding | defect _ => none

/-- The code that the command line ends with. -/
def exitCode : Failure → Nat
  | raml _ => 7
  | settings _ => 1
  | terminalInput => 2
  | model _ => 8
  | unfit _ | system | encoding | defect _ => 1

/-- The fields that did not fit. -/
def details : Failure → List Detail
  | raml fault => fault.details
  | settings fault => fault.details
  | unfit details => details
  | _ => []

end Failure

/-- What is written of a value; an integer of too many digits in it cannot be. -/
def written {α : Type} : Option α → Except Failure α
  | some found => .ok found
  | none => .error (.defect .tooManyDigits)

theorem written_eq_ok_iff {α : Type} {found : Option α} {value : α} :
    written found = .ok value ↔ found = some value := by
  cases found <;> simp [written]

theorem written_eq_error_iff {α : Type} {found : Option α} {failure : Failure} :
    written found = .error failure ↔ found = none ∧ failure = .defect .tooManyDigits := by
  cases found <;> simp [written, eq_comm]

/-- The fields of a record, all of which have texts for their names. -/
def Entries.named (entries : Entries) : Except Failure Entries :=
  if entries.all fun entry => entry.1.string?.isSome then .ok entries
  else .error (.defect .unknownField)

/-- The entries of a mapping that is plain all through. -/
def Entries.plain (entries : Entries) : Except Failure Entries :=
  if (Value.map entries).isPlain then .ok entries else .error (.defect .unwritableValue)

end RamlInterfaces
