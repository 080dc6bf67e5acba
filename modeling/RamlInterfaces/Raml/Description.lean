/-
**The description of an interface.**

* `Parameter`: a named parameter of a URI, a header or a query;
* `Action`: a method of a resource;
* `Resource`: a node of the resource tree;
* `Description`: the whole document.
-/

import RamlInterfaces.Number.Binary64
import RamlInterfaces.Raml.Key

namespace RamlInterfaces.Raml

/-- A named parameter; `kind` is the declared type as it is written. -/
structure Parameter where
  displayName : Option String := none
  description : Option String := none
  kind : Option String := none
  required : Bool := false
  repeated : Bool := false
  default : Option String := none
  sample : Option String := none
  enumValues : Option (List String) := none
  pattern : Option String := none
  minLength : Option Int := none
  maxLength : Option Int := none
  minimum : Option Binary64 := none
  maximum : Option Binary64 := none
deriving DecidableEq, Repr, Inhabited

/-- Named parameters in the order of their declaration. -/
abbrev Parameters := List (String × Parameter)

/-- A method of a resource; `resourcePath` is the absolute path of the resource. -/
structure Action where
  verb : Verb
  resourcePath : String
  description : Option String
  headers : Parameters
  queryParameters : Parameters
deriving DecidableEq, Repr

/-- A node of the resource tree, declared under a path relative to its parent. -/
structure Resource where
  relativePath : String
  path : String
  displayName : Option String
  description : Option String
  pathParameters : Parameters
  actions : List Action
  resources : List Resource
deriving Repr

/-- A described interface with its top-level resources. -/
structure Description where
  title : String
  version : Option String
  baseUri : Option String
  mediaType : Option String
  resources : List Resource
deriving Repr

/-- The number of resources in the trees of a list, and the number of their actions. -/
def countResources : List Resource → Nat × Nat
  | [] => (0, 0)
  | resource :: rest =>
    let below := countBelow resource
    let others := countResources rest
    (1 + below.1 + others.1, below.2 + others.2)
where
  /-- The number of resources below a resource, and the number of all its actions. -/
  countBelow : Resource → Nat × Nat
    | ⟨_, _, _, _, _, actions, resources⟩ =>
      let nested := countResources resources
      (nested.1, actions.length + nested.2)

end RamlInterfaces.Raml
