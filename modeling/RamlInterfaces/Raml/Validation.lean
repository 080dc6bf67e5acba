/-
**Structural problems of a document.**

Every problem is found, in the order of the document, so that an author can mend them in one pass.
Bodies of templates need only be mappings; their content counts once it is applied.  A place whose
path holds an integer of too many digits cannot be written, and then nothing is found at all.

* `Findings`, `inEach`, `atKey`: the problems that checks find, one check after the other;
* `parameterProblems`: the problems of a named parameter;
* `actionProblems`: the problems of a method;
* `resourceProblems`: the problems of a resource and of all below it;
* `problems`: the problems of a document.
-/

import RamlInterfaces.Failure
import RamlInterfaces.Raml.Key
import RamlInterfaces.Text.Blank

namespace RamlInterfaces.Raml

/-- The problems that a check finds, or the failure to write the path of a place. -/
abbrev Findings := Except Failure (List Problem)

/-- The problems of one check and those of the next. -/
instance : Append Findings where
  append first second := do
    let found ← first
    let others ← second
    return found ++ others

/-- The complaint about a node as a list of one problem. -/
def complain (path : String) (complaint : Complaint) : Findings := .ok [⟨path, complaint⟩]

/-- The problems of the items of a list, one after the other. -/
def inEach {α : Type} (find : α → Findings) : List α → Findings
  | [] => .ok []
  | item :: rest => find item ++ inEach find rest

/-- The problems at a place that is told by the text of a key. -/
def atKey (key : Scalar) (find : String → Findings) : Findings := do
  let name ← written key.toText?
  find name

/-- A value that should be a scalar. -/
def scalarProblems (path : String) (value : Value) : Findings :=
  if value.isScalar then .ok [] else complain path .notScalar

/-- A facet of a named parameter. -/
def facetProblems (path : String) (key : Scalar) (facet : Value) : Findings :=
  match key.string? with
  | none => complain path .unknownKey
  | some name =>
    if !parameterKeys.contains name then complain path .unknownKey
    else if name == "required" || name == "repeat" then
      match facet with
      | .scalar (.bool _) => .ok []
      | _ => complain path .notBoolean
    else if name == "minLength" || name == "maxLength" then
      match facet with
      | .scalar (.int n) => if n < 0 then complain path .notLength else .ok []
      | _ => complain path .notLength
    else if name == "minimum" || name == "maximum" then
      match facet with
      | .scalar (.int _) | .scalar (.float _) => .ok []
      | _ => complain path .notNumber
    else if name == "enum" then
      match facet with
      | .list [] => complain path .enumEmpty
      | .list items =>
        if items.any fun item => !item.isScalar || item.isNull then complain path .enumNotScalars
        else .ok []
      | _ => complain path .enumEmpty
    else if name == "type" || name == "pattern" then
      if facet.string?.isSome then .ok [] else complain path .notText
    else scalarProblems path facet

/-- A named parameter: nothing, a mapping of facets, or a list of alternatives. -/
def parameterProblems (path : String) : Value → Findings
  | .scalar .null => .ok []
  | .list alternatives => alternativeProblems alternatives
  | .map facets =>
    inEach (fun (key, facet) => atKey key fun name => facetProblems (path ++ "." ++ name) key facet)
      facets
  | _ => complain path .parameterNotMapping
where
  /-- The alternatives of a parameter, each one a full declaration. -/
  alternativeProblems : List Value → Findings
    | [] => .ok []
    | alternative :: rest => parameterProblems path alternative ++ alternativeProblems rest

/-- A mapping of named parameters. -/
def parametersProblems (path : String) : Value → Findings
  | .scalar .null => .ok []
  | .map parameters =>
    inEach (fun (key, parameter) =>
      atKey key fun name => parameterProblems (path ++ "." ++ name) parameter) parameters
  | _ => complain path .parametersNotMapping

/-- The name of a reference that is not declared. -/
def undeclaredProblems (templates : Templates) (kind : TemplateKind) (path : String)
    (value : Value) : Findings := do
  let reference ← written (Reference.ofValue? value)
  if (templates.ofKind kind).has (.text reference.name) then .ok []
  else complain path (.undeclared kind reference.name)

/-- The arguments of a reference that are no mapping. -/
def argumentProblems (kind : TemplateKind) (path : String) (key : Scalar) (arguments : Value) :
    Findings :=
  if arguments.isNull || arguments.isMap then .ok []
  else atKey key fun name => complain path (.argumentsNotMapping kind name)

/-- A reference to a template: a name, or a mapping from one name to arguments. -/
def referenceProblems (templates : Templates) (kind : TemplateKind) (path : String)
    (value : Value) : Findings :=
  match value with
  | .map [(name, arguments)] =>
    argumentProblems kind path name arguments ++ undeclaredProblems templates kind path value
  | .map _ => complain path (.referenceKeys kind)
  | other =>
    if other.string?.isSome then undeclaredProblems templates kind path other
    else complain path (.notReference kind)

/-- One reference to a trait, or a list of them. -/
def traitProblems (templates : Templates) (path : String) : Value → Findings
  | .list references => inEach (referenceProblems templates .trait path) references
  | reference => referenceProblems templates .trait path reference

/-- A member of a method, with its place. -/
def actionMemberProblems (templates : Templates) (place : String) (key : Scalar) (child : Value) :
    Findings :=
  if isOneOf ["headers", "queryParameters", "baseUriParameters"] key then
    parametersProblems place child
  else if isOneOf ["is"] key then traitProblems templates place child
  else if isOneOf ["description"] key then scalarProblems place child
  else if isOneOf actionKeys key then .ok []
  else complain place .unknownKey

/-- A method: nothing, or a mapping. -/
def actionProblems (templates : Templates) (path : String) : Value → Findings
  | .scalar .null => .ok []
  | .map members =>
    inEach (fun (key, child) =>
      atKey key fun name => actionMemberProblems templates (path ++ " " ++ name) key child) members
  | _ => complain path .methodNotMapping

/-- The key is a verb with question marks after it. -/
def isOptionalVerb (key : Scalar) : Bool :=
  match key.string? with
  | some text =>
    (Verb.ofWord? (String.ofList (Text.dropLastWhile (· == '?') text.toList))).isSome
  | none => false

/-- A member of a resource that is not itself a resource, with its place. -/
def resourceMemberProblems (templates : Templates) (place : String) (key : Scalar)
    (child : Value) : Findings :=
  if (verbKey? key).isSome then actionProblems templates place child
  else if isOneOf ["uriParameters", "baseUriParameters"] key then parametersProblems place child
  else if isOneOf ["type"] key then referenceProblems templates .resourceType place child
  else if isOneOf ["is"] key then traitProblems templates place child
  else if isOneOf ["displayName", "description"] key then scalarProblems place child
  else if isOneOf resourceKeys key then .ok []
  else if isOptionalVerb key then complain place .optionalMethod
  else complain place .unknownKey

/-- A resource: nothing, or a mapping. -/
def resourceProblems (templates : Templates) (path : String) : Value → Findings
  | .scalar .null => .ok []
  | .map members => memberProblems path members
  | _ => complain path .resourceNotMapping
where
  /-- The members of a resource one after the other. -/
  memberProblems (path : String) : List (Scalar × Value) → Findings
    | [] => .ok []
    | (key, child) :: rest =>
      (match resourceKey? key with
        | some relative => resourceProblems templates (path ++ relative) child
        | none =>
          atKey key fun name => resourceMemberProblems templates (path ++ " " ++ name) key child) ++
        memberProblems path rest

/-- The body of a template, which should be a mapping. -/
def bodyProblems (key : String) (name : Scalar) (body : Value) : Findings :=
  if body.isMap then .ok []
  else atKey name fun name => complain (key ++ "." ++ name) .bodyNotMapping

/-- The declaration of the templates of a kind. -/
def templateProblems (key : String) (value : Value) : Findings :=
  let bodies := inEach (fun (name, body) => bodyProblems key name body) (namedTemplates value)
  match value with
  | .scalar .null => .ok []
  | .list items =>
    inEach (fun item => if item.isMap then .ok [] else complain key .entryNotMapping) items ++
      bodies
  | .map _ => bodies
  | _ => complain key .templatesNotSequence

/-- The title of a document: a scalar, and no blank text. -/
def titleProblems (title : Value) : Findings :=
  match title with
  | .scalar .null => complain "" .titleMissing
  | .scalar s =>
    match s.string? with
    | some text => if Text.isAllBlank text then complain "" .titleMissing else .ok []
    | none => scalarProblems "title" title
  | other => scalarProblems "title" other

/-- An entry of the root that is a resource, or has a key that is known. -/
def entryProblems (templates : Templates) (key : Scalar) (value : Value) : Findings :=
  match resourceKey? key with
  | some relative => resourceProblems templates relative value
  | none =>
    if isOneOf rootKeys key then .ok [] else atKey key fun name => complain name .unknownKey

/-- The problems of a document, in order. -/
def problems (root : Entries) : Findings :=
  let baseUri := root.get "baseUri"
  titleProblems (root.get "title") ++
    (if baseUri.isNull || baseUri.string?.isSome then .ok [] else complain "baseUri" .notText) ++
    templateProblems "traits" (root.get "traits") ++
    templateProblems "resourceTypes" (root.get "resourceTypes") ++
    parametersProblems "baseUriParameters" (root.get "baseUriParameters") ++
    parametersProblems "uriParameters" (root.get "uriParameters") ++
    inEach (fun (key, value) => entryProblems (Templates.ofRoot root) key value) root

end RamlInterfaces.Raml
