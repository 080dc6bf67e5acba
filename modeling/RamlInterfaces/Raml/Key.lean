/-
**Keys of a RAML document.**

* `Verb`: the closed set of verbs of HTTP that a resource may declare;
* `Verb.ofWord?_eq_some_iff`: a word names a verb exactly when it is its word;
* `resourceKey?`: the relative path of a key that declares a resource;
* `verbKey?`: the verb of a key that declares a method;
* `rootKeys`, `resourceKeys`, `actionKeys`, `parameterKeys`: the other keys that each kind of node
  may have.
-/

import RamlInterfaces.Value.Basic

namespace RamlInterfaces

/-! ### Verbs -/

/-- A verb of HTTP. -/
inductive Verb where
  | get
  | post
  | put
  | delete
  | head
  | patch
  | options
  | trace
  | connect
deriving DecidableEq, Repr

namespace Verb

/-- Every verb. -/
def all : List Verb := [get, post, put, delete, head, patch, options, trace, connect]

/-- The word of a verb in a document. -/
def word : Verb → String
  | get => "get"
  | post => "post"
  | put => "put"
  | delete => "delete"
  | head => "head"
  | patch => "patch"
  | options => "options"
  | trace => "trace"
  | connect => "connect"

/-- The word of a verb in capitals. -/
def name : Verb → String
  | get => "GET"
  | post => "POST"
  | put => "PUT"
  | delete => "DELETE"
  | head => "HEAD"
  | patch => "PATCH"
  | options => "OPTIONS"
  | trace => "TRACE"
  | connect => "CONNECT"

/-- The verb of a word. -/
def ofWord? (word : String) : Option Verb := all.find? fun verb => verb.word == word

@[simp] theorem ofWord?_word (verb : Verb) : ofWord? verb.word = some verb := by
  cases verb <;> decide

theorem ofWord?_eq_some_iff {text : String} {verb : Verb} :
    ofWord? text = some verb ↔ text = verb.word := by
  constructor
  · intro found
    have same := List.find?_some found
    exact (beq_iff_eq.mp same).symm
  · rintro rfl
    exact ofWord?_word verb

end Verb

/-! ### Keys -/

namespace Raml

/-- The relative path that a key declares a resource under. -/
def resourceKey? (key : Scalar) : Option String :=
  key.string?.filter fun text => text.toList.head? == some '/'

/-- The key declares a resource. -/
def isResourceKey (key : Scalar) : Bool := (resourceKey? key).isSome

/-- The verb that a key declares a method for. -/
def verbKey? (key : Scalar) : Option Verb := key.string?.bind Verb.ofWord?

/-- The key is one of the given words. -/
def isOneOf (words : List String) (key : Scalar) : Bool :=
  match key.string? with
  | some text => words.contains text
  | none => false

/-- The keys of the root that do not declare a resource. -/
def rootKeys : List String :=
  ["title", "version", "baseUri", "baseUriParameters", "uriParameters", "protocols", "mediaType",
    "schemas", "securitySchemes", "securedBy", "documentation", "traits", "resourceTypes"]

/-- The keys of a resource that declare neither a resource nor a method. -/
def resourceKeys : List String :=
  ["displayName", "description", "uriParameters", "baseUriParameters", "type", "is", "securedBy"]

/-- The keys of a method. -/
def actionKeys : List String :=
  ["description", "headers", "queryParameters", "body", "responses", "protocols", "is",
    "securedBy", "baseUriParameters"]

/-- The facets of a named parameter. -/
def parameterKeys : List String :=
  ["displayName", "description", "type", "enum", "pattern", "minLength", "maxLength", "minimum",
    "maximum", "example", "repeat", "required", "default"]

end Raml

end RamlInterfaces
