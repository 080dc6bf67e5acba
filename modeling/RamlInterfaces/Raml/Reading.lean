/-
**From the text of a document to its description.**

The first line names the version of the format.  A byte order mark may stand before it.

* `headerLine`: the first line without blanks around it;
* `version`: the version, if it is the one supported;
* `readContent`: the entries of a document;
* `describe`: the description of a document that is already a value;
* `parse`: the description of a text, its header and its structure checked.
-/

import RamlInterfaces.Raml.Application
import RamlInterfaces.Raml.Cycle
import RamlInterfaces.Raml.Extraction
import RamlInterfaces.Raml.Fault
import RamlInterfaces.Raml.Validation
import RamlInterfaces.Text.Blank
import RamlInterfaces.Yaml.Content

namespace RamlInterfaces.Raml

/-- The first line of a text, after any byte order marks, without blanks around it. -/
def headerLine (text : String) : List Char :=
  let start := text.toList.dropWhile (· == '\uFEFF')
  Text.dropLastWhile Text.isBlank (Text.dropBlanks (start.takeWhile (· != '\n')))

/-- The mark that opens the header line. -/
def headerMark : List Char := ['#', '%', 'R', 'A', 'M', 'L']

/-- The version that is supported. -/
def supportedVersion : String := "0.8"

/-- The version in the header line of a document. -/
def version (text : String) : Except Fault String :=
  let line := headerLine text
  if headerMark.isPrefixOf line then
    let declared := String.ofList (Text.dropBlanks (line.drop headerMark.length))
    if declared = supportedVersion then .ok declared else .error (.unsupportedVersion declared)
  else .error .missingHeader

/-- What stands where a mapping belongs. -/
def kindWord : Value → String
  | .scalar .null => "empty document"
  | .scalar (.bool _) => "bool"
  | .scalar (.int _) => "int"
  | .scalar (.float _) => "float"
  | .scalar (.text _) => "str"
  | .scalar (.included _) => "Include"
  | .scalar (.bytes _) => "bytes"
  | .scalar (.date _) => "date"
  | .scalar (.timestamp _) => "datetime"
  | .list _ | .scalar (.enclosing false) => "list"
  | .map _ | .scalar (.enclosing true) => "dict"
  | .set _ => "set"
  | .pair _ _ => "tuple"

/-- The failure that a fault of the text amounts to. -/
def ofTextFault : Yaml.Fault → Failure
  | .malformed => .raml .invalidYaml
  | .impossibleMoment => .defect .impossibleMoment
  | .nestedTooDeeply => .defect .nestedTooDeeply
  | .noCharacter | .unreadableScalar => .defect .unreadableScalar

/-- The entries of the document that a text holds. -/
def readContent (text : String) : Except Failure Entries :=
  match Yaml.read text with
  | .error fault => .error (ofTextFault fault)
  | .ok (.map entries) => .ok entries
  | .ok other => .error (.raml (.rootNotMapping (kindWord other)))

/-- The description of a document, its templates applied. -/
def describe (root : Entries) : Except Failure Description := do
  let resolved ← applyTemplates root
  extractDescription resolved

/-- The document, if it has no problems. -/
def checkProblems (root : Entries) : Except Failure Entries :=
  match problems root with
  | .ok [] => .ok root
  | .ok found => .error (.raml (.problems found))
  | .error failure => .error failure

/-- The description of a text: its version must be supported, and it must hold a mapping through
which every walk ends and which has no problems. -/
def parse (text : String) : Except Failure Description := do
  if let .error fault := version text then throw (.raml fault)
  let root ← readContent text
  if isEndless root then throw (.defect .nestedTooDeeply)
  let sound ← checkProblems root
  describe sound

end RamlInterfaces.Raml
