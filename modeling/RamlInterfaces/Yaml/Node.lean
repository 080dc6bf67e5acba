/-
**Nodes of a YAML document.**

* `Node`: scalars, sequences and mappings with their tags, and aliases for what they are part of;
* `Node.merged`: a node in which the entries of merge keys are taken in.
-/

import RamlInterfaces.Yaml.Tag

namespace RamlInterfaces.Yaml

/-- A node of a document; `enclosing` is an alias for a mapping or sequence that it is part of. -/
inductive Node where
  | scalar (tag : Tag) (text : String)
  | sequence (tag : Tag) (items : List Node)
  | mapping (tag : Tag) (entries : List (Node × Node))
  | enclosing (isMapping : Bool)
deriving Repr

namespace Node

/-- The node that stands where nothing is written. -/
def empty : Node := .scalar .null ""

/-- What the node is said to be. -/
def tag : Node → Tag
  | .scalar tag _ => tag
  | .sequence tag _ => tag
  | .mapping tag _ => tag
  | .enclosing isMapping => if isMapping then .mapping else .sequence

/-- The node is a merge key. -/
def isMergeKey (node : Node) : Bool := node.tag == .merge

/-- The entries of a mapping; one that is an enclosing mapping adds none of its own. -/
def entries? : Node → Option (List (Node × Node))
  | .mapping _ entries => some entries
  | .enclosing true => some []
  | _ => none

/-- The entries that the value of a merge key stands for: those of a mapping, or those of a
sequence of mappings from the last to the first. -/
def mergedEntries? : Node → Option (List (Node × Node))
  | .mapping _ entries => some entries
  | .sequence _ items => (items.mapM entries?).map fun groups => groups.reverse.flatten
  | .enclosing true => some []
  | .enclosing false | .scalar _ _ => none

/-- The entries of a mapping with those of its merge keys put in front; a merge key whose value
stands for no entries is left. -/
def takeIn (entries : List (Node × Node)) : List (Node × Node) :=
  let taken := entries.flatMap fun (key, value) =>
    if key.isMergeKey then (value.mergedEntries?).getD [] else []
  taken ++ entries.filter fun (key, value) => !key.isMergeKey || value.mergedEntries?.isNone

/-- The node with the entries of all merge keys in it taken in, save those of pairs. -/
def merged : Node → Node
  | .scalar tag text => .scalar tag text
  | .sequence .pairs items => .sequence .pairs (mergedInside items)
  | .sequence tag items => .sequence tag (mergedItems items)
  | .mapping tag entries => .mapping tag (takeIn (mergedPairs entries))
  | .enclosing isMapping => .enclosing isMapping
where
  /-- The items of a sequence with merge keys taken in. -/
  mergedItems : List Node → List Node
    | [] => []
    | item :: rest => item.merged :: mergedItems rest
  /-- The pairs with merge keys inside them taken in. -/
  mergedInside : List Node → List Node
    | [] => []
    | .mapping tag entries :: rest => .mapping tag (mergedPairs entries) :: mergedInside rest
    | item :: rest => item :: mergedInside rest
  /-- The entries of a mapping with merge keys inside them taken in. -/
  mergedPairs : List (Node × Node) → List (Node × Node)
    | [] => []
    | (key, value) :: rest => (key.merged, value.merged) :: mergedPairs rest

end Node

end RamlInterfaces.Yaml
