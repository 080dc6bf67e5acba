/-
**Documents that hold themselves.**

A collection of a document may be one of its own members.  That does no harm where nobody looks, but
a walk that follows the members of such a resource, or the alternatives of such a parameter, has no
end.

* `parameterIsEndless`, `resourceIsEndless`: the walk through a parameter or a resource has no end;
* `isEndless`: the walk through a document has no end.
-/

import RamlInterfaces.Raml.Key

namespace RamlInterfaces.Raml

/-- A list of alternatives is one of its own alternatives. -/
def parameterIsEndless : Value → Bool
  | .scalar (.enclosing isMapping) => !isMapping
  | .list alternatives => someEndless alternatives
  | _ => false
where
  /-- One of the alternatives has no end. -/
  someEndless : List Value → Bool
    | [] => false
    | alternative :: rest => parameterIsEndless alternative || someEndless rest

/-- One of the members under the given keys is a mapping with a parameter that has no end. -/
def membersAreEndless (keys : List String) (members : Entries) : Bool :=
  members.any fun (key, child) =>
    isOneOf keys key && (child.entries?.getD []).any fun entry => parameterIsEndless entry.2

/-- A resource is one of the resources below it, or has a parameter that has no end. -/
def resourceIsEndless : Value → Bool
  | .scalar (.enclosing isMapping) => isMapping
  | .map members =>
    membersAreEndless ["uriParameters", "baseUriParameters"] members || someEndless members
  | _ => false
where
  /-- One of the members that are resources or methods has no end. -/
  someEndless : List (Scalar × Value) → Bool
    | [] => false
    | (key, child) :: rest =>
      (if (resourceKey? key).isSome then resourceIsEndless child
        else (verbKey? key).isSome &&
          membersAreEndless ["headers", "queryParameters", "baseUriParameters"]
            (child.entries?.getD [])) ||
        someEndless rest

/-- The walk through a document has no end. -/
def isEndless (root : Entries) : Bool :=
  membersAreEndless ["uriParameters", "baseUriParameters"] root ||
    root.any fun (key, child) => (resourceKey? key).isSome && resourceIsEndless child

end RamlInterfaces.Raml
