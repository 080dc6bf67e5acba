/-
**The state of a run.**

A session owns the model that is being built, the reports, the interface that is being filled, the
enums, and the annotation types made for verbs that have none.  A step that fails leaves behind what
it did before.

* `Record`: a report, with its level;
* `Session`, `Build`: the state, and a step of building;
* `createInterface`, `createMethod`, `createEnum`: the declarations of a run;
* `annotateVerb`, `annotateWord`: the annotation of a method for its verb, or for a word for one.
-/

import RamlInterfaces.Failure
import RamlInterfaces.Java.Identifier
import RamlInterfaces.Java.Model
import RamlInterfaces.Raml.Key
import RamlInterfaces.Settings.Configuration
import RamlInterfaces.Text.Lowercase

namespace RamlInterfaces.Generation

open Java
open Settings (Configuration)

/-- The level of a report. -/
inductive Level where
  | debug
  | warning
deriving DecidableEq, Repr

/-- The word of a level. -/
def Level.word : Level → String
  | .debug => "debug"
  | .warning => "warning"

/-- A report. -/
structure Record where
  level : Level
  message : String
deriving DecidableEq, Repr

/-- An enum that was made for an interface. -/
structure KnownEnum where
  owner : String
  name : String
  literals : List String
  path : TypePath
deriving DecidableEq, Repr

/-- The state of a run. -/
structure Session where
  configuration : Configuration
  model : Model := {}
  records : List Record := []
  current : Option TypePath := none
  verbTypes : List (Verb × TypePath) := []
  enums : List KnownEnum := []
deriving Repr

/-- A step of building. -/
abbrev Build (α : Type) := ExceptT Failure (StateM Session) α

/-- A session at its start; there must be a base package. -/
def Session.start (configuration : Configuration) : Except Failure Session :=
  if configuration.basePackage.isEmpty then .error (.settings .packageEmpty)
  else .ok { configuration }

/-- The package of the interfaces. -/
def Session.resourcePackage (session : Session) : String :=
  session.configuration.basePackage ++ ".resource"

/-- The package of the annotation types. -/
def Session.supportPackage (session : Session) : String :=
  session.configuration.basePackage ++ ".support"

namespace Build

/-- Reports a message. -/
def report (level : Level) (message : String) : Build Unit :=
  modify fun session => { session with records := session.records ++ [⟨level, message⟩] }

/-- Changes the model. -/
def change (update : Model → Model) : Build Unit :=
  modify fun session => { session with model := update session.model }

/-- Changes the model by a step that may be refused, and gives what the step gives. -/
def attempt {α : Type} (step : Model → Except Fault (α × Model)) : Build α := do
  let session ← get
  match step session.model with
  | .error fault => throw (.model fault)
  | .ok (result, model) =>
    set { session with model }
    return result

/-- Puts an annotation with its elements on a site. -/
def annotate (site : Site) (type : TypeRef) (elements : List (String × ElementValue)) :
    Build Unit :=
  change fun model => model.annotate site { type, elements }

/-- Declares a top-level type. -/
def define (package name : String) (kind : Kind) : Build TypePath :=
  attempt fun model =>
    (model.define package name kind).map fun model => (⟨package, name, []⟩, model)

/-- Declares a type nested in another. -/
def nest (owner : TypePath) (name : String) (kind : Kind) : Build TypePath :=
  attempt fun model => (model.nest owner name kind).map fun model => (owner.nested name, model)

end Build

open Build

/-- Declares the interface of a top-level resource. -/
def createInterface (name : String) : Build TypePath := do
  let session ← get
  define session.resourcePackage name .interface

/-- Declares a method; an interface has no two of one name. -/
def createMethod (owner : TypePath) (name : String) (returnType : TypeRef) : Build MethodPath := do
  let session ← get
  if (session.model.methodsNamed owner name).isEmpty then
    let (path, model) := session.model.addMethod owner name returnType
    set { session with model }
    return path
  else throw (.model (.methodDefined name owner.qualifiedName))

/-- The enum of a name in an interface, declared when it is first asked for; asked for again it must
have the same literals. -/
def createEnum (owner : TypePath) (name : String) (literals : List String) : Build TypePath := do
  let session ← get
  let isAsked (known : KnownEnum) : Bool :=
    known.owner == owner.qualifiedName && known.name == name
  match session.enums.find? isAsked with
  | some known =>
    if known.literals = literals then return known.path
    else throw (.model (.enumDefined known.path.qualifiedName known.literals literals))
  | none =>
    let path ← nest owner name .enum
    for literal in literals do
      attempt fun model =>
        (model.addConstant path (constantName literal) literal).map fun model => ((), model)
    modify fun session =>
      { session with enums := session.enums ++ [⟨owner.qualifiedName, name, literals, path⟩] }
    return path

/-- The annotation type that the platform has for a verb. -/
def platformVerbType? : Verb → Option TypeRef
  | .get => some (.named "javax.ws.rs.GET")
  | .post => some (.named "javax.ws.rs.POST")
  | .put => some (.named "javax.ws.rs.PUT")
  | .delete => some (.named "javax.ws.rs.DELETE")
  | .head => some (.named "javax.ws.rs.HEAD")
  | .options => some (.named "javax.ws.rs.OPTIONS")
  | .patch | .trace | .connect => none

/-- Declares the annotation type of a verb. -/
def createVerbType (verb : Verb) : Build TypePath := do
  let session ← get
  let path ← define session.supportPackage verb.name .annotationType
  change fun model => model.modifyTypeDoc path fun doc =>
    doc.add ("Indicates that the annotated method responds to HTTP " ++ verb.name ++ " requests.")
  annotate (.type path) (.named "java.lang.annotation.Target")
    [("value", .list [.constant "java.lang.annotation.ElementType" "METHOD"])]
  annotate (.type path) (.named "java.lang.annotation.Retention")
    [("value", .constant "java.lang.annotation.RetentionPolicy" "RUNTIME")]
  annotate (.type path) (.named "javax.ws.rs.HttpMethod") [("value", .text verb.name)]
  report .debug ("Synthesised annotation " ++ path.qualifiedName)
  return path

/-- The annotation type of a verb, declared when it is first needed. -/
def verbType (verb : Verb) : Build TypeRef := do
  match platformVerbType? verb with
  | some type => return type
  | none =>
    let session ← get
    match session.verbTypes.find? (·.1 == verb) with
    | some (_, path) => return .declared path
    | none =>
      let path ← createVerbType verb
      modify fun session => { session with verbTypes := session.verbTypes ++ [(verb, path)] }
      return .declared path

/-- Annotates a method for its verb. -/
def annotateVerb (verb : Verb) (method : MethodPath) : Build Unit := do
  let type ← verbType verb
  annotate (.method method) type []

/-- Annotates a method for the verb of a word, which may have capitals. -/
def annotateWord (word : String) (method : MethodPath) : Build Unit :=
  match Verb.ofWord? (Text.lower word) with
  | some verb => annotateVerb verb method
  | none => throw (.model (.unsupportedVerb word))

end RamlInterfaces.Generation
