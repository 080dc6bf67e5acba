/-
**Interfaces of a description.**

Every top-level resource becomes an interface, and every action in its tree a method of it, the
actions of a resource before those of the resources below it.  A method takes the parameters of the
path of its own resource, then the headers, then the parameters of the query.

* `Location`: where a parameter is bound from;
* `declareParameter`, `addParameter`: a parameter without and with its constraints and its comment;
* `openMethod`, `addMethod`, `addMethods`: the methods of an interface;
* `openInterface`, `buildInterface`, `buildInterfaces`: the interfaces;
* `buildModel`: the model of a description with the reports of building it.
-/

import RamlInterfaces.Generation.Constraint
import RamlInterfaces.Generation.Naming

namespace RamlInterfaces.Generation

open Java

/-- Where in a request a parameter is bound from. -/
inductive Location where
  | path
  | header
  | query
deriving DecidableEq, Repr

/-- The word of a location at the start of a sentence. -/
def Location.word : Location → String
  | .path => "Path"
  | .header => "Header"
  | .query => "Query"

/-- The annotation type that binds a parameter. -/
def Location.binding : Location → TypeRef
  | .path => .named "javax.ws.rs.PathParam"
  | .header => .named "javax.ws.rs.HeaderParam"
  | .query => .named "javax.ws.rs.QueryParam"

/-- The annotation type for paths. -/
def pathAnnotation : TypeRef := .named "javax.ws.rs.Path"

/-- The text for a parameter in the comment of its method: its description and its example. -/
def parameterDoc (p : Raml.Parameter) : String :=
  let description := p.description.getD ""
  if hasText p.sample then Text.trimStart (description ++ " e.g. " ++ p.sample.getD "")
  else description

/-- The name of the variable for a parameter; one by position where its key has none. -/
def argumentName (key : String) (position : Nat) : String :=
  let name := variableName key
  if name.isEmpty then "param" ++ toString position else name

/-- The number of parameters that a method has. -/
def parameterCount (method : MethodPath) : Build Nat := do
  let session ← get
  return ((session.model.method? method).map (·.parameters.length)).getD 0

/-- Reports that the variable for a parameter is named by position. -/
def reportFallback (methodName : String) (location : Location) (key name : String) : Build Unit :=
  if (variableName key).isEmpty then
    Build.report .warning (location.word ++ " parameter '" ++ key ++ "' of " ++ methodName ++
      " has no usable identifier, using '" ++ name ++ "'")
  else pure ()

/-- Annotates a parameter with its default. -/
def annotateDefault (p : Raml.Parameter) (site : Site) : Build Unit :=
  match p.default with
  | some default =>
    Build.annotate site (.named "javax.ws.rs.DefaultValue") [("value", .text default)]
  | none => pure ()

/-- Annotates a parameter with its constraints where these are wanted. -/
def constrain (p : Raml.Parameter) (site : Site) : Build Unit := do
  let session ← get
  if session.configuration.constraints then annotateConstraints p site else pure ()

/-- Declares a parameter of the method of the given name, and gives its variable and its place. -/
def declareParameter (owner : TypePath) (method : MethodPath) (methodName : String)
    (location : Location) (key : String) (p : Raml.Parameter) : Build (String × ParameterPath) := do
  let count ← parameterCount method
  let name := argumentName key (count + 1)
  reportFallback methodName location key name
  let type ← inferType p name (some owner)
  let parameter ← Build.attempt fun model => model.addParameter method type name
  Build.annotate (.parameter parameter) location.binding [("value", .text key)]
  annotateDefault p (.parameter parameter)
  return (name, parameter)

/-- Adds a parameter to the method of the given name. -/
def addParameter (owner : TypePath) (method : MethodPath) (methodName : String)
    (location : Location) (key : String) (p : Raml.Parameter) : Build Unit := do
  let (name, parameter) ← declareParameter owner method methodName location key p
  constrain p (.parameter parameter)
  Build.change fun model => model.modifyMethodDoc method (·.addTag name (parameterDoc p))

/-- The parameters of an action with their locations, in the order of the method. -/
def actionParameters (resource : Raml.Resource) (action : Raml.Action) :
    List (Location × String × Raml.Parameter) :=
  resource.pathParameters.map (Location.path, ·) ++ action.headers.map (Location.header, ·) ++
    action.queryParameters.map (Location.query, ·)

/-- Adds a description to a comment, unless it is blank. -/
def describe (description : Option String) (add : String → Model → Model) : Build Unit :=
  match description.filter (!Text.isAllBlank ·) with
  | some description => Build.change (add description)
  | none => pure ()

/-- The name of the method of an action. -/
def actionName (action : Raml.Action) : String := methodName action.verb.word action.resourcePath

/-- Declares the method of an action without its parameters. -/
def openMethod (owner : TypePath) (interfacePath : String) (action : Raml.Action) :
    Build MethodPath := do
  let method ← createMethod owner (actionName action) (.primitive .void)
  annotateVerb action.verb method
  Build.annotate (.method method) pathAnnotation
    [("value", .text (methodPath action.resourcePath interfacePath))]
  describe action.description fun description model =>
    model.modifyMethodDoc method (·.add description)
  return method

/-- Adds the method of an action. -/
def addMethod (owner : TypePath) (interfacePath : String) (resource : Raml.Resource)
    (action : Raml.Action) : Build Unit := do
  let method ← openMethod owner interfacePath action
  for (location, key, parameter) in actionParameters resource action do
    addParameter owner method (actionName action) location key parameter

/-- Adds the methods of a resource and of all resources below it. -/
def addMethods (owner : TypePath) (interfacePath : String) : Raml.Resource → Build Unit
  | ⟨relativePath, path, displayName, description, pathParameters, actions, resources⟩ => do
    for action in actions do
      addMethod owner interfacePath
        ⟨relativePath, path, displayName, description, pathParameters, actions, resources⟩ action
    addAll resources
where
  /-- Adds the methods of resources one after the other. -/
  addAll : List Raml.Resource → Build Unit
    | [] => pure ()
    | resource :: rest => do
      addMethods owner interfacePath resource
      addAll rest

/-- Declares the interface of a top-level resource without its methods. -/
def openInterface (resource : Raml.Resource) : Build TypePath := do
  let owner ← createInterface (interfaceName resource.displayName resource.relativePath)
  modify fun session => { session with current := some owner }
  Build.annotate (.type owner) pathAnnotation
    [("value", .text (interfacePath resource.relativePath))]
  describe resource.description fun description model =>
    model.modifyTypeDoc owner (·.add description)
  Build.report .debug ("Interface " ++ owner.qualifiedName ++ " for " ++ resource.path)
  return owner

/-- Builds the interface of a top-level resource. -/
def buildInterface (resource : Raml.Resource) : Build Unit := do
  let owner ← openInterface resource
  addMethods owner (interfacePath resource.relativePath) resource

/-- Builds the interfaces of a description. -/
def buildInterfaces (description : Raml.Description) : Build Unit := do
  for resource in description.resources do
    buildInterface resource

/-- The session in which the interfaces of a description are built. -/
def buildModel (configuration : Settings.Configuration) (description : Raml.Description) :
    Except Failure Session := do
  let session ← Session.start configuration
  match (buildInterfaces description).run session with
  | (.ok (), session) => .ok session
  | (.error failure, _) => .error failure

end RamlInterfaces.Generation
