/-
**Where the text of a description comes from.**

A source is a dash for the standard input, an address on the web, or the path of a file.  Line ends
are made line feeds in files only.

* `Input`, `Reply`, `Supply`: what the standard input and the web give;
* `Origin`: what a source denotes;
* `load`: the text at a source, which must not be blank; the codecs are those of the surroundings.
-/

import RamlInterfaces.Failure
import RamlInterfaces.File.Tree
import RamlInterfaces.Text.Blank
import RamlInterfaces.Text.Lines

namespace RamlInterfaces.Raml

/-- What the standard input gives. -/
inductive Input where
  | text (content : String)
  | terminal
  | failing (reason : String)
deriving DecidableEq, Repr

/-- What comes back from a request to an address. -/
inductive Reply where
  | response (status : Nat) (body : String)
  | unreachable (reason : String)
deriving DecidableEq, Repr

/-- What the standard input and the web give. -/
structure Supply where
  input : Input := .text ""
  reply : String → Reply := fun _ => .unreachable "no network"

/-- What a source denotes. -/
inductive Origin where
  | standardInput
  | address (url : String)
  | file (path : String)
deriving DecidableEq, Repr

/-- The origin that a source denotes. -/
def Origin.ofText (source : String) : Origin :=
  if source = "-" then .standardInput
  else if "http://".toList.isPrefixOf source.toList || "https://".toList.isPrefixOf source.toList
  then .address source
  else .file source

/-- The status of a response that holds what was asked for. -/
def isSuccess (status : Nat) : Bool := 200 ≤ status && status < 300

/-- The text of a response. -/
def readReply (url : String) : Reply → Except Failure String
  | .response status body =>
    if isSuccess status then .ok body else .error (.raml (.httpStatus status url))
  | .unreachable reason => .error (.raml (.unreachable url reason))

/-- The text of the standard input. -/
def readInput : Input → Except Failure String
  | .text content => .ok content
  | .terminal => .error .terminalInput
  | .failing reason => .error (.raml (.unreadableInput reason))

/-- The text of a file, every line end in it a line feed. -/
def readTextFile (codecs : File.Codecs) (world : File.World) (encodingName path : String) :
    Except Failure String :=
  match world.isFile (File.Path.ofText path) with
  | .error _ => .error .system
  | .ok false => .error (.raml (.fileNotFound path))
  | .ok true =>
    match codecs encodingName, world.contents (File.Path.ofText path) with
    | none, _ => .error .encoding
    | some _, .error _ => .error (.raml (.unreadableFile path))
    | some codec, .ok bytes =>
      match codec.decode? bytes with
      | some text => .ok (String.ofList (Text.normalizeLineEnds text.toList))
      | none => .error (.raml (.unreadableFile path))

/-- The text at an origin. -/
def Origin.read (codecs : File.Codecs) (world : File.World) (supply : Supply)
    (encodingName : String) : Origin → Except Failure String
  | .standardInput => readInput supply.input
  | .address url => readReply url (supply.reply url)
  | .file path => readTextFile codecs world encodingName path

/-- The text at a source, which must not be blank. -/
def load (codecs : File.Codecs) (world : File.World) (supply : Supply)
    (encodingName source : String) : Except Failure String := do
  let content ← (Origin.ofText source).read codecs world supply encodingName
  if Text.isAllBlank content then throw (.raml (.emptySource source)) else return content

end RamlInterfaces.Raml
