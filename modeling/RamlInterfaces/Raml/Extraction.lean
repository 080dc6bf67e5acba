/-
**From a resolved document to its description.**

* `documentText`: a scalar the way it reads in the document;
* `extractParameter`, `extractParameters`: named parameters;
* `placeholderNames`: the placeholders of a relative path;
* `extractResource`: a resource with all below it;
* `extractDescription`: the description of a document.
-/

import RamlInterfaces.Failure
import RamlInterfaces.Raml.Coercion
import RamlInterfaces.Raml.Key
import RamlInterfaces.Value.Listing

namespace RamlInterfaces.Raml

/-- A value the way it reads in the document, truth values in small letters; nothing has no
text. -/
def documentText : Value → Except Failure (Option String)
  | .scalar .null => .ok none
  | .scalar (.bool value) => .ok (some (if value then "true" else "false"))
  | other => (written other.toText?).map some

/-- A value the way it reads in the document, as a value again. -/
def documentTextValue (value : Value) : Except Failure Value := do
  match ← documentText value with
  | some text => return .text text
  | none => return .null

/-- The text of a value, as a value again. -/
def textOfValue (value : Value) : Except Failure Value := (written value.toText?).map Value.text

/-- The items of a value that is written where a list belongs: those of a list, the keys of a
mapping, the members of a set, both parts of a pair, the characters of a text, the numbers of
bytes. -/
def items? : Value → Option (List Value)
  | .list items => some items
  | .map entries => some (entries.map fun entry => .scalar entry.1)
  | .set members => some (members.map .scalar)
  | .pair key value => some [key, value]
  | .scalar (.bytes bytes) => some (bytes.map fun byte => .scalar (.int byte.toNat))
  | .scalar s => s.string?.map fun text => text.toList.map fun c => .text (String.singleton c)

/-- The fields of a parameter that hold their value as it is, with their names as facets. -/
def valueFields : List (String × String) :=
  [("minLength", "min_length"), ("maxLength", "max_length"), ("minimum", "minimum"),
    ("maximum", "maximum"), ("repeat", "repeat"), ("required", "required")]

/-- The fields of a parameter that hold the text of a value, with their names as facets. -/
def textFields : List (String × String) :=
  [("displayName", "display_name"), ("description", "description"), ("pattern", "pattern"),
    ("default", "default"), ("example", "example")]

/-- The fields with those that are declared and not nothing, each one read by `read`. -/
def putFields (facets : Entries) (read : Value → Except Failure Value)
    (names : List (String × String)) (fields : Entries) : Except Failure Entries :=
  names.foldlM (fun fields (facet, field) =>
    let value := facets.get facet
    if value.isNull then .ok fields else (read value).map (fields.put (.text field))) fields

/-- The fields with the enum values among the facets. -/
def putEnumValues (facets fields : Entries) : Except Failure Entries :=
  let values := facets.get "enum"
  if values.isNull then .ok fields
  else match items? values with
    | some items => do
      let texts ← items.mapM documentTextValue
      return fields.put (.text "enum_values") (.list texts)
    | none => .error (.defect .notIterable)

/-- The fields of a parameter with the given facets. -/
def parameterFields (requiredDefault : Bool) (facets : Entries) : Except Failure Entries := do
  let plain ← putFields facets .ok valueFields
    [(.text "required", .scalar (.bool requiredDefault))]
  let kind ← putFields facets textOfValue [("type", "type")] plain
  let texts ← putFields facets documentTextValue textFields kind
  putEnumValues facets texts

/-- A named parameter with the given facets. -/
def parameterOfFacets (requiredDefault : Bool) (facets : Entries) : Except Failure Parameter := do
  let fields ← parameterFields requiredDefault facets
  match parameterOfFields fields with
  | .ok parameter => pure parameter
  | .error details => throw (.unfit details)

/-- What counts of a declaration: the first mapping among several alternatives. -/
def firstAlternative : Value → Value
  | .list alternatives => (alternatives.find? Value.isMap).getD .null
  | other => other

/-- A named parameter: one without content has only its default. -/
def extractParameter (requiredDefault : Bool) (value : Value) : Except Failure Parameter :=
  let declaration := firstAlternative value
  if declaration.isEmptyLike then .ok { required := requiredDefault }
  else match declaration with
    | .map facets => parameterOfFacets requiredDefault facets
    | _ => .error (.defect .notMapping)

/-- The entries of a node that should be a mapping; one without content has none. -/
def mappingEntries (value : Value) : Except Failure Entries :=
  if value.isEmptyLike then .ok []
  else match value with
    | .map entries => .ok entries
    | _ => .error (.defect .notMapping)

/-- The parameters with one more under a name, in the place of that name if it is there. -/
def putParameter (parameters : Parameters) (name : String) (parameter : Parameter) : Parameters :=
  match parameters with
  | [] => [(name, parameter)]
  | (first, old) :: rest =>
    if first = name then (first, parameter) :: rest
    else (first, old) :: putParameter rest name parameter

/-- A mapping of named parameters, in the order of their declaration. -/
def extractParameters (requiredDefault : Bool) (value : Value) : Except Failure Parameters := do
  let declarations ← mappingEntries value
  declarations.foldlM (fun parameters (key, declaration) => do
    let name ← written key.toText?
    let parameter ← extractParameter requiredDefault declaration
    pure (putParameter parameters name parameter)) []

/-- The names between braces, given what was read since the last opening brace. -/
def namesInBraces (open? : Option (List Char)) : List Char → List String
  | [] => []
  | c :: rest =>
    if c = '\x7b' then namesInBraces (some []) rest
    else if c = '\x7d' then
      match open? with
      | some (last :: others) =>
        String.ofList (last :: others).reverse :: namesInBraces none rest
      | _ => namesInBraces none rest
    else namesInBraces (open?.map (c :: ·)) rest

/-- The placeholders of a relative path. -/
def placeholderNames (path : String) : List String := namesInBraces none path.toList

/-- The parameters with an implicit one, required and of no declared type, for every name that is
not among them. -/
def withImplicit (parameters : Parameters) (names : List String) : Parameters :=
  names.foldl (fun parameters name =>
    if parameters.any fun entry => entry.1 == name then parameters
    else parameters ++ [(name, { required := true })]) parameters

/-- A method of the resource with the given path. -/
def extractAction (verb : Verb) (resourcePath : String) (value : Value) :
    Except Failure Action := do
  let members ← mappingEntries value
  let description ← documentText (Entries.get members "description")
  let headers ← extractParameters false (Entries.get members "headers")
  let queryParameters ← extractParameters false (Entries.get members "queryParameters")
  pure { verb, resourcePath, description, headers, queryParameters }

/-- The methods among the members of a resource. -/
def extractActions (path : String) (members : Entries) : Except Failure (List Action) :=
  (members.filterMap fun (key, child) => (verbKey? key).map fun verb => (verb, child)).mapM
    fun (verb, child) => extractAction verb path child

/-- A resource declared under a relative path, with all resources below it. -/
def extractResource (parentPath relativePath : String) : Value → Except Failure Resource
  | .map members => do
    let path := parentPath ++ relativePath
    let declared ← extractParameters true (Entries.get members "uriParameters")
    let actions ← extractActions path members
    let displayName ← documentText (Entries.get members "displayName")
    let description ← documentText (Entries.get members "description")
    let resources ← extractResources path members
    pure { relativePath, path, displayName, description,
           pathParameters := withImplicit declared (placeholderNames relativePath), actions,
           resources }
  | other =>
    let path := parentPath ++ relativePath
    if other.isEmptyLike then
      .ok { relativePath, path, displayName := none, description := none,
            pathParameters := withImplicit [] (placeholderNames relativePath), actions := [],
            resources := [] }
    else .error (.raml (.resourceNotMapping path))
where
  /-- The resources among the members of a node. -/
  extractResources (parentPath : String) :
      List (Scalar × Value) → Except Failure (List Resource)
    | [] => .ok []
    | (key, child) :: rest =>
      match resourceKey? key with
      | some relativePath => do
        let resource ← extractResource parentPath relativePath child
        let others ← extractResources parentPath rest
        pure (resource :: others)
      | none => extractResources parentPath rest

/-- The resources among the members of a node. -/
abbrev extractResources (parentPath : String) (members : Entries) :
    Except Failure (List Resource) :=
  extractResource.extractResources parentPath members

/-- What is shown of an integer that cannot be written. -/
def unwritableInteger : String := "<unprintable int object>"

/-- The step to a key of the root that is not a text. -/
def keyPlace : Scalar → Place
  | .bool value => .number (if value then 1 else 0)
  | .int n =>
    if fitsInt64 n then .number n else .name ((Scalar.int n).listing?.getD unwritableInteger)
  | other => .name (other.listing?.getD "")

/-- The keys of the root that are not texts. -/
def keyDetails (root : Entries) : List Detail :=
  root.filterMap fun (key, _) =>
    if key.string?.isSome then none
    else some ⟨[.name "raw", keyPlace key, .name "[key]"], .notText⟩

/-- The failure to describe a document in which a value does not fit its field. -/
def asDescriptionFailure : Failure → Failure
  | .unfit details => .raml (.unfit details)
  | other => other

/-- The description of a document; that the keys of the root are texts is checked last. -/
def extractDescription (root : Entries) : Except Failure Description := do
  let title ← documentText (root.get "title")
  let version ← documentText (root.get "version")
  let baseUri ← documentText (root.get "baseUri")
  let mediaType ← documentText (root.get "mediaType")
  let resources ← (extractResources "" root).mapError asDescriptionFailure
  let details := keyDetails root
  if details.isEmpty then
    return { title := title.getD "", version, baseUri, mediaType, resources }
  else throw (.raml (.unfit details))

end RamlInterfaces.Raml
