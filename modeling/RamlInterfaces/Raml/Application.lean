/-
**Application of resource types and traits.**

A resource takes the content of its resource type and of the types that this one inherits, and each
of its methods the content of the traits that the method and the resource refer to.  A resource
type may bring in resources of its own, which are resolved in the same way, down to a limit of
nesting.

* `contentEntries?`: the entries of a node that should be a mapping;
* `templateBody`: the content that a template gives under its arguments;
* `mergeType`: a resource with the content of its chain of types;
* `applyTraits`: a method with the content of its traits;
* `applyType`: a resource with the content of its type, if it has one;
* `resolveResource`: a resource and all below it, resolved;
* `applyTemplates`: a document with all its resources resolved.
-/

import RamlInterfaces.Failure
import RamlInterfaces.Raml.Key
import RamlInterfaces.Raml.Merge
import RamlInterfaces.Raml.Placeholder

namespace RamlInterfaces.Raml

/-- The entry that an item of two elements denotes: two values, two keys, two characters or two
bytes. -/
def pairEntry? : Value → Option (Scalar × Value)
  | .list [.scalar key, value] | .pair (.scalar key) value => some (key, value)
  | .set [key, value] => some (key, .scalar value)
  | .scalar (.bytes [key, value]) => some (.int key.toNat, .scalar (.int value.toNat))
  | .map [(key, _), (value, _)] => some (key, .scalar value)
  | .scalar s =>
    match s.string?.map String.toList with
    | some [key, value] => some (.text (String.singleton key), .text (String.singleton value))
    | _ => none
  | _ => none

/-- The entries of a node that should be a mapping: nothing or another empty value has none, and a
list or set of pairs has them as its entries. -/
def contentEntries? (value : Value) : Option Entries :=
  if value.isEmptyLike then some []
  else match value with
    | .map entries => some entries
    | .list items => (items.mapM pairEntry?).map Entries.ofList
    | .set members => (members.mapM fun member => pairEntry? (.scalar member)).map Entries.ofList
    | .pair key value => ([key, value].mapM pairEntry?).map Entries.ofList
    | .scalar _ => none

/-- The entries of a node that should be a mapping. -/
def contentEntries (value : Value) : Except Failure Entries :=
  match contentEntries? value with
  | some entries => .ok entries
  | none => .error (.defect .notMapping)

/-- The references of a node: a list of them, or a single one. -/
def referenceList : Value → List Value
  | .scalar .null => []
  | .list items => items
  | other => [other]

/-- The arguments that every template of a resource can use. -/
def resourceArguments (path : String) : Entries :=
  [(.text "resourcePath", .text path), (.text "resourcePathName", .text (pathName path))]

/-- The content that a template gives under its arguments: its body without the entries that
describe the template itself.  A body without end cannot be filled. -/
def templateBody (template arguments : Entries) : Except Failure Entries :=
  let body := (template.erase (.text "usage")).erase (.text "displayName")
  if (Value.map body).isEndless then .error (.defect .nestedTooDeeply)
  else match substitute arguments (.map body) with
  | .ok (.map entries) => .ok entries
  | .ok _ => .ok []
  | .error failure => .error failure

/-- The key of a method that is merged only into one that is declared, without its mark. -/
def optionalKey? (key : Scalar) : Option String :=
  match key.string? with
  | some text =>
    if text.toList.getLast? = some '?' then some (String.ofList text.toList.dropLast) else none
  | none => none

/-- The entries of a node with one entry of a resource type merged in; `derived` says that the node
is itself a resource type, where an optional method stays optional. -/
def mergeTypeEntry (derived : Bool) (merged : Entries) (key : Scalar) (value : Value) : Entries :=
  match optionalKey? key with
  | some plain =>
    match merged.find? (.text plain), merged.find? key with
    | some explicit, _ => merged.put (.text plain) (merge false explicit value)
    | none, some explicit => merged.put key (merge false explicit value)
    | none, none => if derived then merged.put key value else merged
  | none =>
    match merged.find? key with
    | some explicit => merged.put key (merge (isTraitsKey key) explicit value)
    | none => merged.put key value

/-- The key refers to a resource type. -/
def isTypeKey (key : Scalar) : Bool := key.alike (.text "type")

/-- The entries of a node with the body of a resource type merged in, references to types left
out. -/
def mergeTypeBody (derived : Bool) (node body : Entries) : Entries :=
  (body.filter fun entry => !isTypeKey entry.1).foldl
    (fun merged entry => mergeTypeEntry derived merged entry.1 entry.2)
    (node.filter fun entry => !isTypeKey entry.1)

/-- The declaration has a name that is not among those seen. -/
def isUnseen (seen : List String) (entry : Scalar × Value) : Bool :=
  entry.1.string?.any fun name => !seen.contains name

/-- The number of declarations whose names are not among those seen. -/
def unseenCount (declared : Entries) (seen : List String) : Nat := declared.countP (isUnseen seen)

/-- A stronger predicate that fails for one more member holds for fewer. -/
theorem countP_lt_of_mem {α : Type} {weak strong : α → Bool} {items : List α} {item : α}
    (implies : ∀ item, strong item = true → weak item = true) (member : item ∈ items)
    (holds : weak item = true) (fails : strong item = false) :
    items.countP strong < items.countP weak := by
  induction items with
  | nil => cases member
  | cons first rest ih =>
    have kept : rest.countP strong ≤ rest.countP weak :=
      List.countP_mono_left fun item _ => implies item
    rcases List.mem_cons.mp member with rfl | member
    · simp only [List.countP_cons, holds, fails]
      simp
      omega
    · have fewer := ih member
      simp only [List.countP_cons]
      have here := implies first
      split <;> simp_all
      omega

/-- A declared name that becomes seen is one less that is not. -/
theorem unseenCount_lt {declared : Entries} {seen : List String} {name : String} {value : Value}
    (found : declared.find? (.text name) = some value) (fresh : seen.contains name = false) :
    unseenCount declared (seen ++ [name]) < unseenCount declared seen := by
  obtain ⟨entry, member, same, -⟩ := Entries.exists_of_find? found
  have named : entry.1.string? = some name := Scalar.string?_of_alike_text same
  refine countP_lt_of_mem (fun other unseen => ?_) member ?_ ?_
  · cases string : other.1.string? <;> simp_all [isUnseen]
  · simpa [isUnseen, named] using fresh
  · simp [isUnseen, named]

/-- A node with the content of its chain of resource types; `seen` are the names of the types
already applied on the way. -/
def mergeType (types arguments node : Entries) (seen : List String) : Except Failure Entries :=
  match Reference.ofValue? (node.get "type") with
  | none => .error (.defect .tooManyDigits)
  | some reference =>
    if _known : seen.contains reference.name = true then
      .error (.raml (.circularTypes (seen ++ [reference.name])))
    else
      match _found : types.find? (.text reference.name) with
      | some (.map template) =>
        match templateBody template (arguments.putAll reference.arguments) with
        | .error failure => .error failure
        | .ok body =>
          if (body.get "type").isNull then .ok (mergeTypeBody (!seen.isEmpty) node body)
          else
            match mergeType types arguments body (seen ++ [reference.name]) with
            | .error failure => .error failure
            | .ok resolved => .ok (mergeTypeBody (!seen.isEmpty) node resolved)
      | _ => .error (.raml (.undeclared .resourceType reference.name))
termination_by unseenCount types seen
decreasing_by exact unseenCount_lt (by assumption) (Bool.eq_false_iff.mpr (by assumption))

/-- The entries of a method with the content of the trait that a reference denotes. -/
def applyTrait (templates : Templates) (arguments node : Entries) (value : Value) :
    Except Failure Entries := do
  let reference ← written (Reference.ofValue? value)
  match templates.traits.find? (.text reference.name) with
  | some (.map template) => do
    let body ← templateBody template (arguments.putAll reference.arguments)
    pure (mergeEntries node body)
  | _ => .error (.raml (.undeclared .trait reference.name))

/-- A method with the content of its traits: its own references first, then those of its resource
that are not among them. -/
def applyTraits (templates : Templates) (arguments : Entries) (resourceTraits : List Value)
    (methodName : String) (value : Value) : Except Failure Value := do
  let method ← contentEntries value
  let own := referenceList (method.get "is")
  let references := own ++ resourceTraits.filter fun reference => !reference.isAmong own
  let arguments := arguments.put (.text "methodName") (.text methodName)
  let merged ← references.foldlM (applyTrait templates arguments) method
  pure (.map merged)

/-- The entries of a resource with the content of its resource type, if it has one. -/
def applyType (templates : Templates) (arguments declared : Entries) : Except Failure Entries :=
  if (declared.get "type").isNull then .ok declared
  else mergeType templates.resourceTypes arguments declared []

/-- A member of a resource with its templates applied; `resolve` is what becomes of a resource
below. -/
def resolveMember (templates : Templates) (arguments : Entries) (traits : List Value)
    (resolve : String → Value → Except Failure Value) :
    Scalar × Value → Except Failure (Scalar × Value)
  | (key, child) =>
    match verbKey? key with
    | some verb => do
      let method ← applyTraits templates arguments traits verb.word child
      pure (key, method)
    | none =>
      match resourceKey? key with
      | some relative => do
        let resolved ← resolve relative child
        pure (key, resolved)
      | none => pure (key, child)

/-- A resource with its templates applied, and all resources below it, down to the given depth. -/
def resolveResource (templates : Templates) (depth : Nat) (parentPath relativePath : String)
    (value : Value) : Except Failure Value :=
  match depth with
  | 0 => .error (.defect .nestedTooDeeply)
  | depth + 1 => do
    let path := parentPath ++ relativePath
    let arguments := resourceArguments path
    let declared ← contentEntries value
    let resource ← applyType templates arguments declared
    let traits := referenceList (resource.get "is")
    let resolved ← resource.mapM
      (resolveMember templates arguments traits (resolveResource templates depth path))
    pure (.map resolved)

/-- An entry of the root with the templates applied to it, if it is a resource. -/
def resolveEntry (templates : Templates) (depth : Nat) :
    Scalar × Value → Except Failure (Scalar × Value)
  | (key, value) =>
    match resourceKey? key with
    | some relative => do
      let resolved ← resolveResource templates depth "" relative value
      pure (key, resolved)
    | none => pure (key, value)

/-- A document with its templates applied to all its resources, down to the given depth. -/
def applyTemplatesWithin (depth : Nat) (root : Entries) : Except Failure Entries :=
  root.mapM (resolveEntry (Templates.ofRoot root) depth)

/-- The greatest depth to which resources are resolved. -/
def nestingLimit : Nat := 1000

/-- A document with its templates applied to all its resources. -/
def applyTemplates (root : Entries) : Except Failure Entries :=
  applyTemplatesWithin nestingLimit root

end RamlInterfaces.Raml
