/-
**Merging of explicit and inherited content.**

What a node declares itself wins over what it inherits.  Nothing declared takes all that is
inherited, mappings are merged entry by entry, and lists of trait references are joined.

* `merge`: a value with inherited content merged into it;
* `mergeEntries`: the entries of a mapping with inherited entries merged into them.
-/

import RamlInterfaces.Value.Basic

namespace RamlInterfaces.Raml

/-- The key holds references to traits. -/
def isTraitsKey (key : Scalar) : Bool := key.string? == some "is"

/-- The explicit references followed by the inherited ones that are not among them. -/
def joinReferences (explicit inherited : List Value) : List Value :=
  explicit ++ inherited.filter fun reference => !reference.isAmong explicit

/-- The explicit value with the inherited one merged into it; `traits` says that both stand under
the key of trait references. -/
def merge (traits : Bool) (explicit inherited : Value) : Value :=
  match inherited with
  | .map entries =>
    match explicit with
    | .scalar .null => .map entries
    | .map own => .map (mergeEntries own entries)
    | other => other
  | .list items =>
    match explicit with
    | .scalar .null => .list items
    | .list own => if traits then .list (joinReferences own items) else .list own
    | other => other
  | single =>
    match explicit with
    | .scalar .null => single
    | other => other
where
  /-- The entries with inherited entries merged in one after the other. -/
  mergeEntries (own : Entries) : List (Scalar × Value) → Entries
    | [] => own
    | (key, value) :: rest =>
      match own.find? key with
      | some explicit => mergeEntries (own.put key (merge (isTraitsKey key) explicit value)) rest
      | none => mergeEntries (own ++ [(key, value)]) rest

/-- The entries of a node with inherited entries merged into them. -/
abbrev mergeEntries (own inherited : Entries) : Entries := merge.mergeEntries own inherited

end RamlInterfaces.Raml
