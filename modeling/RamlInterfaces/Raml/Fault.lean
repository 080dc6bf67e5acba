/-
**Faults of a RAML description.**

* `Complaint`, `Complaint.message`: what is wrong with a node of a document, and the wording;
* `Problem`, `Problem.text`: a complaint and the place of its node, and both in one line;
* `Fault`: why a description cannot be loaded, read or resolved;
* `Fault.message`: the wording;
* `Fault.details`: the fields that did not fit, where that is the reason.
-/

import RamlInterfaces.Detail
import RamlInterfaces.Raml.Template

namespace RamlInterfaces.Raml

/-- What is wrong with a node of a document. -/
inductive Complaint where
  | titleMissing
  | notScalar
  | notText
  | unknownKey
  | entryNotMapping
  | templatesNotSequence
  | bodyNotMapping
  | referenceKeys (kind : TemplateKind)
  | argumentsNotMapping (kind : TemplateKind) (name : String)
  | notReference (kind : TemplateKind)
  | undeclared (kind : TemplateKind) (name : String)
  | resourceNotMapping
  | optionalMethod
  | methodNotMapping
  | parametersNotMapping
  | parameterNotMapping
  | notBoolean
  | notLength
  | notNumber
  | enumEmpty
  | enumNotScalars
deriving DecidableEq, Repr

/-- The wording of a complaint. -/
def Complaint.message : Complaint → String
  | .titleMissing => "title is required"
  | .notScalar => "must be a scalar"
  | .notText => "must be a string"
  | .unknownKey => "unknown key"
  | .entryNotMapping => "each entry must be a mapping"
  | .templatesNotSequence => "must be a sequence of mappings"
  | .bodyNotMapping => "must be a mapping"
  | .referenceKeys kind => "a " ++ kind.words ++ " reference must have exactly one key"
  | .argumentsNotMapping kind name =>
    "parameters of " ++ kind.words ++ " '" ++ name ++ "' must be a mapping"
  | .notReference kind => "invalid " ++ kind.words ++ " reference"
  | .undeclared kind name => "unknown " ++ kind.words ++ " '" ++ name ++ "'"
  | .resourceNotMapping => "resource must be a mapping"
  | .optionalMethod => "optional methods are only allowed in resource types"
  | .methodNotMapping => "method must be a mapping"
  | .parametersNotMapping => "must be a mapping of named parameters"
  | .parameterNotMapping => "named parameter must be a mapping"
  | .notBoolean => "must be a boolean"
  | .notLength => "must be a non-negative integer"
  | .notNumber => "must be a number"
  | .enumEmpty => "must be a non-empty sequence"
  | .enumNotScalars => "values must be scalars"

/-- A complaint about the node at a path; the root has the empty path. -/
structure Problem where
  path : String
  complaint : Complaint
deriving DecidableEq, Repr

/-- The problem in one line. -/
def Problem.text (p : Problem) : String :=
  if p.path.isEmpty then p.complaint.message else p.path ++ ": " ++ p.complaint.message

/-- Why a description cannot be loaded, read or resolved. -/
inductive Fault where
  | emptySource (source : String)
  | fileNotFound (path : String)
  | unreadableFile (path : String)
  | httpStatus (status : Nat) (url : String)
  | unreachable (url reason : String)
  | unreadableInput (reason : String)
  | missingHeader
  | unsupportedVersion (version : String)
  | invalidYaml
  | rootNotMapping (found : String)
  | problems (found : List Problem)
  | resourceNotMapping (path : String)
  | unfit (details : List Detail)
  | circularTypes (chain : List String)
  | undeclared (kind : TemplateKind) (name : String)
  | missingArgument (name : String)
  | unknownTransform (name : String)
deriving DecidableEq, Repr

/-- The wording of a fault. -/
def Fault.message : Fault → String
  | .emptySource source => "RAML source is empty: " ++ source
  | .fileNotFound path => "RAML file not found: " ++ path
  | .unreadableFile path => "Failed to read RAML file " ++ path ++ ": <UnicodeError>"
  | .httpStatus status url => "HTTP " ++ toString status ++ " fetching RAML from " ++ url
  | .unreachable url reason => "Failed to fetch RAML from " ++ url ++ ": " ++ reason
  | .unreadableInput reason => "Failed to read from stdin: " ++ reason
  | .missingHeader => "Missing '#%RAML 0.8' header. Is this a RAML document?"
  | .unsupportedVersion version =>
    "Unsupported RAML version: " ++ (if version.isEmpty then "(none)" else version) ++
      ". Only RAML 0.8 is supported."
  | .invalidYaml => "Invalid YAML: <YAMLError>"
  | .rootNotMapping found => "RAML document must be a YAML mapping (got " ++ found ++ ")"
  | .problems found =>
    "Invalid RAML definition:\n" ++ "\n".intercalate (found.map Problem.text)
  | .resourceNotMapping path =>
    "Invalid RAML definition:\n" ++ path ++ ": resource must be a mapping"
  | .unfit _ => "Invalid RAML definition:\n<ValidationError>"
  | .circularTypes chain =>
    "Circular resource type inheritance: " ++ " -> ".intercalate chain
  | .undeclared kind name => "Unknown " ++ kind.words ++ " '" ++ name ++ "'"
  | .missingArgument name => "Value was not provided for parameter: " ++ name
  | .unknownTransform name => "Unknown parameter transform: !" ++ name

/-- The fields that did not fit. -/
def Fault.details : Fault → List Detail
  | .unfit details => details
  | _ => []

end RamlInterfaces.Raml
