/-
**What the extraction of a description gives, and where it fails.**

The extraction walks through a resolved document.  It fails at the first node that does not fit, and
what is wrong with a node can be told from that alone.

* `HasMembers`, `FollowsExtraction`: the content of a resource, and **properties that hold of what
  is extracted if they hold of what is extracted below**;
* `Node`, `Node.failure?`: the nodes of a document, and what is wrong with one of them alone;
* `documentNodes`: the nodes in the order of the walk;
* `failure?_extractResources`, `failure?_extractDescription`: **the extraction fails as the first
  node that does not fit**.
-/

import RamlInterfaces.Proofs.Except
import RamlInterfaces.Raml.Extraction

namespace RamlInterfaces.Raml

/-! ### What is extracted -/

section Results

variable {parentPath relativePath : String} {members : Entries} {resource : Resource}
  {verb : Verb} {path : String} {value : Value} {action : Action}

theorem verb_of_extractAction (extracted : extractAction verb path value = .ok action) :
    action.verb = verb ∧ action.resourcePath = path := by
  obtain ⟨_, _, extracted⟩ := bind_eq_ok_iff.mp extracted
  obtain ⟨_, _, extracted⟩ := bind_eq_ok_iff.mp extracted
  obtain ⟨_, _, extracted⟩ := bind_eq_ok_iff.mp extracted
  obtain ⟨_, _, same⟩ := bind_eq_ok_iff.mp extracted
  cases same
  exact ⟨rfl, rfl⟩

/-- A resource has the content of the members that it is extracted from. -/
structure HasMembers (parentPath relativePath : String) (members : Entries) (resource : Resource) :
    Prop where
  relative : resource.relativePath = relativePath
  path : resource.path = parentPath ++ relativePath
  pathParameters : ∃ declared,
    extractParameters true (members.get "uriParameters") = .ok declared ∧
      resource.pathParameters = withImplicit declared (placeholderNames relativePath)
  actions : extractActions resource.path members = .ok resource.actions
  displayName : documentText (members.get "displayName") = .ok resource.displayName
  description : documentText (members.get "description") = .ok resource.description
  resources : extractResources resource.path members = .ok resource.resources

theorem hasMembers_of_extractResource
    (extracted : extractResource parentPath relativePath (.map members) = .ok resource) :
    HasMembers parentPath relativePath members resource := by
  unfold extractResource at extracted
  obtain ⟨declared, isDeclared, extracted⟩ := bind_eq_ok_iff.mp extracted
  obtain ⟨actions, isActions, extracted⟩ := bind_eq_ok_iff.mp extracted
  obtain ⟨displayName, isName, extracted⟩ := bind_eq_ok_iff.mp extracted
  obtain ⟨description, isDescription, extracted⟩ := bind_eq_ok_iff.mp extracted
  obtain ⟨resources, isResources, same⟩ := bind_eq_ok_iff.mp extracted
  cases same
  exact ⟨rfl, rfl, ⟨declared, isDeclared, rfl⟩, isActions, isName, isDescription, isResources⟩

/-- A resource has no content but its path. -/
structure IsBare (parentPath relativePath : String) (resource : Resource) : Prop where
  relative : resource.relativePath = relativePath
  path : resource.path = parentPath ++ relativePath
  actions : resource.actions = []
  resources : resource.resources = []

theorem isBare_of_extractResource (noMap : value.isMap = false)
    (extracted : extractResource parentPath relativePath value = .ok resource) :
    IsBare parentPath relativePath resource := by
  cases value with
  | map => cases noMap
  | _ =>
    unfold extractResource at extracted
    dsimp only at extracted
    split at extracted
    · cases extracted
      exact ⟨rfl, rfl, rfl, rfl⟩
    · cases extracted

/-- Properties of a node with the resource that is extracted from it, and of members with those that
are extracted from them, which hold if they hold of what is below. -/
structure FollowsExtraction (each : String → String → Value → Resource → Prop)
    (all : String → List (Scalar × Value) → List Resource → Prop) : Prop where
  bare : ∀ {parentPath relativePath value resource}, value.isMap = false →
    IsBare parentPath relativePath resource → each parentPath relativePath value resource
  node : ∀ {parentPath relativePath members resource},
    HasMembers parentPath relativePath members resource →
      all resource.path members resource.resources →
        each parentPath relativePath (.map members) resource
  nil : ∀ {parentPath}, all parentPath [] []
  skip : ∀ {parentPath key child rest resources}, resourceKey? key = none →
    all parentPath rest resources → all parentPath ((key, child) :: rest) resources
  cons : ∀ {parentPath key relativePath child rest resource others},
    resourceKey? key = some relativePath → each parentPath relativePath child resource →
      all parentPath rest others → all parentPath ((key, child) :: rest) (resource :: others)

namespace FollowsExtraction

variable {each : String → String → Value → Resource → Prop}
  {all : String → List (Scalar × Value) → List Resource → Prop}

mutual

/-- **They hold of a resource** and the node that it is extracted from. -/
theorem of_resource {parentPath relativePath : String} {resource : Resource}
    (follows : FollowsExtraction each all) (value : Value)
    (extracted : extractResource parentPath relativePath value = .ok resource) :
    each parentPath relativePath value resource := by
  cases value with
  | map members =>
    have content := hasMembers_of_extractResource extracted
    exact follows.node content (follows.of_resources members content.resources)
  | _ => exact follows.bare rfl (isBare_of_extractResource rfl extracted)

/-- **They hold of resources** and the members that they are extracted from. -/
theorem of_resources {parentPath : String} {resources : List Resource}
    (follows : FollowsExtraction each all) (members : List (Scalar × Value))
    (extracted : extractResources parentPath members = .ok resources) :
    all parentPath members resources := by
  cases members with
  | nil =>
    cases extracted
    exact follows.nil
  | cons entry rest =>
    obtain ⟨key, child⟩ := entry
    unfold extractResources extractResource.extractResources at extracted
    cases named : resourceKey? key with
    | none =>
      rw [named] at extracted
      exact follows.skip named (follows.of_resources rest extracted)
    | some relativePath =>
      rw [named] at extracted
      obtain ⟨resource, here, extracted⟩ := bind_eq_ok_iff.mp extracted
      obtain ⟨others, later, same⟩ := bind_eq_ok_iff.mp extracted
      cases same
      exact follows.cons named (follows.of_resource child here) (follows.of_resources rest later)

end

end FollowsExtraction

/-- **A description has the resources of its document**, and no key of the root is left that is no
text. -/
theorem resources_of_extractDescription {root : Entries} {description : Description}
    (extracted : extractDescription root = .ok description) :
    extractResources "" root = .ok description.resources ∧ keyDetails root = [] := by
  obtain ⟨_, _, extracted⟩ := bind_eq_ok_iff.mp extracted
  obtain ⟨_, _, extracted⟩ := bind_eq_ok_iff.mp extracted
  obtain ⟨_, _, extracted⟩ := bind_eq_ok_iff.mp extracted
  obtain ⟨_, _, extracted⟩ := bind_eq_ok_iff.mp extracted
  obtain ⟨resources, walked, extracted⟩ := bind_eq_ok_iff.mp extracted
  dsimp only at extracted
  split at extracted
  · rename_i named
    cases extracted
    exact ⟨mapError_eq_ok_iff.mp walked, List.isEmpty_iff.mp named⟩
  · cases extracted

end Results

/-! ### Nodes -/

/-- A node of a resolved document: a resource, a method, a mapping of named parameters, a named
parameter, or a value that is written. -/
inductive Node where
  | resource (path : String) (value : Value)
  | method (value : Value)
  | parameters (value : Value)
  | parameter (requiredDefault : Bool) (value : Value)
  | text (value : Value)

/-- The value is a mapping, or has no content. -/
def isMappingLike (value : Value) : Bool := value.isMap || value.isEmptyLike

/-- What is wrong with a value that is written. -/
def textFailure? (value : Value) : Option Failure := failure? (written value.toText?)

/-- What is wrong with a node alone. -/
def Node.failure? : Node → Option Failure
  | .resource path value =>
    if isMappingLike value then none else some (.raml (.resourceNotMapping path))
  | .method value | .parameters value =>
    if isMappingLike value then none else some (.defect .notMapping)
  | .parameter requiredDefault value =>
    RamlInterfaces.failure? (extractParameter requiredDefault value)
  | .text value => textFailure? value

/-- The entries of a value, if it is a mapping. -/
def entriesOf (value : Value) : Entries := value.entries?.getD []

/-- The nodes of named parameters: the name of each is written first. -/
def parametersNodes (requiredDefault : Bool) (value : Value) : List Node :=
  .parameters value :: (entriesOf value).flatMap fun entry =>
    [.text (.scalar entry.1), .parameter requiredDefault entry.2]

/-- The nodes of a method. -/
def methodNodes (value : Value) : List Node :=
  .method value :: .text ((entriesOf value).get "description") ::
    (parametersNodes false ((entriesOf value).get "headers") ++
      parametersNodes false ((entriesOf value).get "queryParameters"))

/-- The nodes of the methods of a resource. -/
def methodsNodes (members : Entries) : List Node :=
  (members.filter fun entry => (verbKey? entry.1).isSome).flatMap fun entry => methodNodes entry.2

/-- The nodes of a resource with all below it. -/
def resourceNodes (path : String) : Value → List Node
  | .map members =>
    parametersNodes true (Entries.get members "uriParameters") ++ (methodsNodes members ++
      .text (Entries.get members "displayName") :: .text (Entries.get members "description") ::
        resourcesNodes path members)
  | other => [.resource path other]
where
  /-- The nodes of the resources among the members of a node. -/
  resourcesNodes (path : String) : List (Scalar × Value) → List Node
    | [] => []
    | (key, child) :: rest =>
      match resourceKey? key with
      | some relative => resourceNodes (path ++ relative) child ++ resourcesNodes path rest
      | none => resourcesNodes path rest

/-- The nodes of a document, in the order of the walk. -/
def documentNodes (root : Entries) : List Node :=
  .text (root.get "title") :: .text (root.get "version") :: .text (root.get "baseUri") ::
    .text (root.get "mediaType") :: resourceNodes.resourcesNodes "" root

/-! ### The walk -/

/-- The first thing that is wrong with the nodes of a list. -/
def firstFailure? (nodes : List Node) : Option Failure := nodes.findSome? Node.failure?

theorem firstFailure?_append (nodes others : List Node) :
    firstFailure? (nodes ++ others) = (firstFailure? nodes).or (firstFailure? others) :=
  List.findSome?_append

theorem firstFailure?_cons (node : Node) (rest : List Node) :
    firstFailure? (node :: rest) = node.failure?.or (firstFailure? rest) := by
  unfold firstFailure?
  rw [List.findSome?_cons]
  cases node.failure? <;> rfl

theorem firstFailure?_flatMap {α : Type} (nodes : α → List Node) (items : List α) :
    firstFailure? (items.flatMap nodes) =
      items.findSome? fun item => firstFailure? (nodes item) := by
  induction items with
  | nil => rfl
  | cons item rest ih =>
    rw [List.flatMap_cons, firstFailure?_append, ih, List.findSome?_cons]
    cases firstFailure? (nodes item) <;> rfl

theorem failure?_mappingEntries (value : Value) :
    failure? (mappingEntries value) =
      if isMappingLike value then none else some (.defect .notMapping) := by
  unfold mappingEntries isMappingLike
  by_cases empty : value.isEmptyLike = true
  · simp [empty]
  · cases value <;> simp_all [Value.isMap]

/-- The entries of a node without content are none, as those of what is no mapping. -/
theorem entriesOf_of_mappingEntries {value : Value} {entries : Entries}
    (done : mappingEntries value = .ok entries) : entriesOf value = entries := by
  unfold mappingEntries at done
  by_cases empty : value.isEmptyLike = true
  · rw [if_pos empty] at done
    cases done
    cases value with
    | map entries => exact List.isEmpty_iff.mp empty
    | scalar _ => rfl
    | list _ => rfl
    | set _ => rfl
    | pair _ _ => rfl
  · rw [if_neg empty] at done
    cases value <;> cases done
    rfl

theorem textFailure?_eq_some_iff {value : Value} {failure : Failure} :
    textFailure? value = some failure ↔
      value.toText? = none ∧ failure = .defect .tooManyDigits := by
  unfold textFailure?
  cases value.toText? with
  | none => simp [written, eq_comm]
  | some text => simp [written]

/-- A text of a document fails as the writing of its value does. -/
theorem failure?_documentText (value : Value) :
    failure? (documentText value) = textFailure? value := by
  unfold documentText textFailure?
  split
  · rfl
  · rename_i truth
    cases truth <;> rfl
  · cases value.toText? <;> rfl

theorem failure?_extractParameters (requiredDefault : Bool) (value : Value) :
    failure? (extractParameters requiredDefault value) =
      firstFailure? (parametersNodes requiredDefault value) := by
  have declaration (parameters : Parameters) (entry : Scalar × Value) : failure? (do
      let name ← written entry.1.toText?
      let parameter ← extractParameter requiredDefault entry.2
      pure (putParameter parameters name parameter)) =
        firstFailure? [.text (.scalar entry.1), .parameter requiredDefault entry.2] := by
    rw [failure?_bind _ fun _ _ => failure?_bind_pure _ _, firstFailure?_cons, firstFailure?_cons]
    exact congrArg (Option.or _) Option.or_none.symm
  unfold parametersNodes extractParameters
  rw [firstFailure?_cons]
  refine (failure?_bind (firstFailure? ((entriesOf value).flatMap
    fun entry => [.text (.scalar entry.1), .parameter requiredDefault entry.2]))
      fun declarations done => ?_).trans ?_
  · rw [entriesOf_of_mappingEntries done, firstFailure?_flatMap]
    exact failure?_foldlM declaration declarations []
  · rw [failure?_mappingEntries]
    rfl

theorem failure?_extractAction (verb : Verb) (path : String) (value : Value) :
    failure? (extractAction verb path value) = firstFailure? (methodNodes value) := by
  have blocks : ∀ members, mappingEntries value = .ok members → failure? (do
      let description ← documentText (Entries.get members "description")
      let headers ← extractParameters false (Entries.get members "headers")
      let queryParameters ← extractParameters false (Entries.get members "queryParameters")
      pure { verb, resourcePath := path, description, headers, queryParameters : Action }) =
      firstFailure? (.text ((entriesOf value).get "description") ::
        (parametersNodes false ((entriesOf value).get "headers") ++
          parametersNodes false ((entriesOf value).get "queryParameters"))) := by
    intro members done
    rw [entriesOf_of_mappingEntries done, firstFailure?_cons, firstFailure?_append,
      ← failure?_extractParameters, ← failure?_extractParameters]
    refine (failure?_bind _ fun _ _ => failure?_bind _ fun _ _ => failure?_bind_pure _ _).trans ?_
    rw [failure?_documentText]
    rfl
  unfold methodNodes extractAction
  rw [failure?_bind _ blocks, failure?_mappingEntries, firstFailure?_cons (.method value)]
  rfl

theorem failure?_extractActions (path : String) (members : Entries) :
    failure? (extractActions path members) = firstFailure? (methodsNodes members) := by
  unfold extractActions methodsNodes
  rw [failure?_mapM]
  induction members with
  | nil => rfl
  | cons entry rest ih =>
    obtain ⟨key, child⟩ := entry
    cases named : verbKey? key with
    | none => simpa [named] using ih
    | some verb =>
      rw [List.filterMap_cons_some (b := (verb, child)) (by simp [named]),
        List.filter_cons_of_pos (by simp [named]), List.flatMap_cons, firstFailure?_append, ← ih,
        ← failure?_extractAction verb path, List.findSome?_cons]
      cases failure? (extractAction verb path child) <;> rfl

mutual

/-- **The extraction of a resource fails as the first node that does not fit.** -/
theorem failure?_extractResource (parentPath relativePath : String) (value : Value) :
    failure? (extractResource parentPath relativePath value) =
      firstFailure? (resourceNodes (parentPath ++ relativePath) value) := by
  cases value with
  | map members =>
    unfold extractResource resourceNodes
    rw [firstFailure?_append, firstFailure?_append, firstFailure?_cons, firstFailure?_cons,
      ← failure?_extractParameters, ← failure?_extractActions (parentPath ++ relativePath),
      ← failure?_extractResources (parentPath ++ relativePath) members]
    refine (failure?_bind _ fun _ _ => failure?_bind _ fun _ _ => failure?_bind _ fun _ _ =>
      failure?_bind _ fun _ _ => failure?_bind_pure _ _).trans ?_
    rw [failure?_documentText, failure?_documentText]
    rfl
  | _ =>
    unfold extractResource resourceNodes
    rw [firstFailure?_cons]
    unfold Node.failure? isMappingLike
    split <;> simp_all [Value.isMap, firstFailure?]

/-- The extraction of resources fails as the first node that does not fit. -/
theorem failure?_extractResources (parentPath : String) (members : List (Scalar × Value)) :
    failure? (extractResources parentPath members) =
      firstFailure? (resourceNodes.resourcesNodes parentPath members) := by
  cases members with
  | nil => rfl
  | cons entry rest =>
    obtain ⟨key, child⟩ := entry
    unfold extractResources extractResource.extractResources resourceNodes.resourcesNodes
    cases named : resourceKey? key with
    | none => exact failure?_extractResources parentPath rest
    | some relative =>
      simp only
      rw [firstFailure?_append, ← failure?_extractResource parentPath relative child,
        ← failure?_extractResources parentPath rest]
      exact failure?_bind _ fun _ _ => failure?_bind_pure _ _

end

/-- What is wrong with the keys of the root, which is looked at last. -/
def keysFailure? (root : Entries) : Option Failure :=
  if (keyDetails root).isEmpty then none else some (.raml (.unfit (keyDetails root)))

/-- **The extraction of a description fails as the first node that does not fit**, or else as the
keys of the root do. -/
theorem failure?_extractDescription (root : Entries) : failure? (extractDescription root) =
    ((firstFailure? (documentNodes root)).map asDescriptionFailure).or (keysFailure? root) := by
  have text (value : Value) : (Node.text value).failure?.map asDescriptionFailure =
      failure? (documentText value) := by
    rw [failure?_documentText]
    show (textFailure? value).map asDescriptionFailure = textFailure? value
    unfold textFailure?
    cases value.toText? <;> rfl
  unfold extractDescription documentNodes
  rw [firstFailure?_cons, firstFailure?_cons, firstFailure?_cons, firstFailure?_cons,
    ← failure?_extractResources, Option.map_or, Option.map_or, Option.map_or, Option.map_or, text,
    text, text, text, ← failure?_mapError, Option.or_assoc, Option.or_assoc, Option.or_assoc,
    Option.or_assoc]
  refine failure?_bind _ fun _ _ => failure?_bind _ fun _ _ => failure?_bind _ fun _ _ =>
    failure?_bind _ fun _ _ => failure?_bind _ fun _ _ => ?_
  unfold keysFailure?
  dsimp only
  split <;> rfl

end RamlInterfaces.Raml
