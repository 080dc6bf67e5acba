/-
**Documents without templates.**

Three walks go through a document: the one that looks for problems, the one that applies templates,
and the one that extracts the description.  In a document without problems in which nothing refers
to a template, the second finds nothing to do but to put empty mappings in the place of resources
and methods that are nothing, and the third takes them for the same.  It fails only where it writes
an integer of too many digits.

* `Contains`, `TemplateFree`: the resources in a resource, and those that refer to no template;
* `filled`: a resource with empty mappings for what is nothing;
* `resolveResource_filled`, `applyTemplatesWithin_filled`: **templates are applied to that effect**;
* `extractResource_filled`, `extractDescription_filledRoot`: **it makes no difference to the
  description**;
* `derives_documentNodes`: **every node of the extraction is one of the grammar**;
* `HasTexts`, `extractDescription_of_templateFree`: **such a document is described exactly if what
  is written of it has texts, and its templates do not matter**;
* `extractDescription_vastTitle`: a document without problems that is not described.
-/

import RamlInterfaces.Proofs.Raml.Fields
import RamlInterfaces.Proofs.Raml.Idempotence
import RamlInterfaces.Proofs.Raml.ProblemFree

namespace RamlInterfaces.Raml

/-! ### Resources that refer to no template -/

/-- A resource is one itself or contains one below. -/
inductive Contains : Value → Value → Prop where
  | here {value : Value} : Contains value value
  | deeper {members : Entries} {key : Scalar} {child inner : Value}
    (member : (key, child) ∈ members) (isPath : isResourceKey key = true)
    (inside : Contains child inner) : Contains (.map members) inner

/-- A resource with the given members refers to no template, and none of its methods does. -/
structure TemplateFree (members : Entries) : Prop where
  type : members.has (.text "type") = false
  traits : members.has (.text "is") = false
  methods : ∀ entry ∈ members, (verbKey? entry.1).isSome = true →
    ∀ method, entry.2 = .map method → Entries.has method (.text "is") = false

/-- The number of levels of resources. -/
def levels : Value → Nat
  | .map members => levelsBelow members + 1
  | _ => 1
where
  /-- The number of levels of the resources among some members. -/
  levelsBelow : List (Scalar × Value) → Nat
    | [] => 0
    | (key, child) :: rest => max (if isResourceKey key then levels child else 0) (levelsBelow rest)

/-- A method, an empty mapping if it is nothing. -/
def filledMethod : Value → Value
  | .scalar .null => .map []
  | other => other

/-- A resource with empty mappings for it and what is below it and nothing. -/
def filled : Value → Value
  | .scalar .null => .map []
  | .map members => .map (filledMembers members)
  | other => other
where
  /-- The members of a resource, methods and resources among them filled. -/
  filledMembers : List (Scalar × Value) → List (Scalar × Value)
    | [] => []
    | (key, child) :: rest =>
      (key, if (verbKey? key).isSome then filledMethod child
        else if isResourceKey key then filled child
        else child) :: filledMembers rest

variable {names : Scalar → Prop} {templates : Templates} {root members resource : Entries}
  {key : Scalar} {value : Value} {arguments : Entries} {name path : String} {depth : Nat}

theorem get_of_has_eq_false (missing : members.has (.text name) = false) :
    members.get name = .null := by
  have none : members.find? (.text name) = none :=
    Option.isNone_iff_eq_none.mp (Option.isSome_eq_false_iff.mp missing)
  unfold Entries.get
  rw [none]
  rfl

/-! ### The application of templates -/

/-- **A method that refers to no trait**, of a resource that does not either, is filled. -/
theorem applyTraits_filled (derived : Derives names templates .method value)
    (traitFree : ∀ method, value = .map method → Entries.has method (.text "is") = false) :
    applyTraits templates (resourceArguments path) [] name value = .ok (filledMethod value) := by
  have noReferences {method : Entries} (nothing : method.get "is" = .null) :
      (methodReferences [] method).mapM (traitBody templates (methodArguments path name)) =
        .ok [] := by
    unfold methodReferences
    rw [nothing]
    rfl
  rcases derived.shape rfl with rfl | isMap | ⟨same, _⟩
  · exact applyTraits_ok_iff.mpr ⟨[], [], rfl, noReferences rfl, rfl⟩
  · cases value with
    | map method =>
      have nothing := get_of_has_eq_false (traitFree method rfl)
      exact applyTraits_ok_iff.mpr ⟨method, [], contentEntries?_map _, noReferences nothing, rfl⟩
    | _ => cases isMap
  · cases same

mutual

/-- **A resource that refers to no template is filled** when the templates are applied. -/
theorem resolveResource_filled (parentPath relativePath : String) (depth : Nat) :
    (value : Value) → Derives names templates .resource value →
      (∀ members, Contains value (.map members) → TemplateFree members) → levels value ≤ depth →
        resolveResource templates depth parentPath relativePath value = .ok (filled value)
  | .map members, derived, free, deep => by
    have here := free members .here
    obtain ⟨depth, rfl⟩ := Nat.exists_eq_add_one_of_ne_zero
      (Nat.ne_of_gt (Nat.lt_of_lt_of_le (Nat.succ_pos _) deep))
    have untyped : (Entries.get members "type").isNull = true := by
      rw [get_of_has_eq_false here.type]
      rfl
    have untraited : referenceList (Entries.get members "is") = [] := by
      rw [get_of_has_eq_false here.traits]
      rfl
    refine resolveResource_ok_iff.mpr ⟨members, filled.filledMembers members,
      composed_of_untyped untyped, ?_, rfl⟩
    exact mapM_memberStep_filled (parentPath ++ relativePath) depth members untraited members
      ((derives_map_iff rfl).mp derived) here.methods
      (fun entry member isPath inner inside => free inner (.deeper member isPath inside))
      (Nat.le_of_succ_le_succ deep)
  | .scalar .null, _, _, deep => by
    obtain ⟨depth, rfl⟩ := Nat.exists_eq_add_one_of_ne_zero
      (Nat.ne_of_gt (Nat.lt_of_lt_of_le Nat.one_pos deep))
    exact resolveResource_ok_iff.mpr ⟨[], [], rfl, rfl, rfl⟩

/-- So are the members of a resource. -/
theorem mapM_memberStep_filled (path : String) (depth : Nat) (resource : Entries)
    (untraited : referenceList (resource.get "is") = []) : (members : List (Scalar × Value)) →
      (∀ entry ∈ members, Belongs names templates .resource entry) →
      (∀ entry ∈ members, (verbKey? entry.1).isSome = true →
        ∀ method, entry.2 = .map method → Entries.has method (.text "is") = false) →
      (∀ entry ∈ members, isResourceKey entry.1 = true →
        ∀ inner, Contains entry.2 (.map inner) → TemplateFree inner) →
      levels.levelsBelow members ≤ depth →
        members.mapM (memberStep templates depth path resource) =
          .ok (filled.filledMembers members)
  | [], _, _, _, _ => rfl
  | (key, child) :: rest, belongs, methods, free, deep => by
    obtain ⟨belongsHere, belongsRest⟩ := List.forall_mem_cons.mp belongs
    obtain ⟨methodHere, methodRest⟩ := List.forall_mem_cons.mp methods
    obtain ⟨freeHere, freeRest⟩ := List.forall_mem_cons.mp free
    unfold levels.levelsBelow at deep
    obtain ⟨deepHere, deepRest⟩ := Nat.max_le.mp deep
    have further := mapM_memberStep_filled path depth resource untraited rest belongsRest methodRest
      freeRest deepRest
    have step : memberStep templates depth path resource (key, child) =
        .ok (key, if (verbKey? key).isSome then filledMethod child
          else if isResourceKey key then filled child else child) := by
      cases isPath : resourceKey? key with
      | some relative =>
        have isResource : isResourceKey key = true := isResourceKey_iff.mpr ⟨relative, isPath⟩
        rw [if_pos isResource] at deepHere
        have derived := (Member.of_resourceKey? isPath).belongs_iff.mp belongsHere
        rw [memberStep_resource isPath, resolveResource_filled path relative depth child derived
          (freeHere isResource) deepHere, verbKey?_of_resourceKey? isPath, if_pos isResource]
        rfl
      | none =>
        cases isVerb : verbKey? key with
        | some verb =>
          have some : (verbKey? key).isSome = true := by simp [isVerb]
          rw [memberStep_method isVerb, untraited,
            applyTraits_filled ((Member.of_verbKey? some).belongs_iff.mp belongsHere)
              (methodHere some)]
          rfl
        | none =>
          have noResource : isResourceKey key = false := by simp [isResourceKey, isPath]
          rw [memberStep_other isVerb isPath, noResource]
          rfl
    unfold filled.filledMembers
    rw [List.mapM_cons, step, further]
    rfl

end

/-- A method that is filled is extracted as before. -/
theorem extractAction_filled (verb : Verb) (value : Value) :
    extractAction verb path (filledMethod value) = extractAction verb path value := by
  unfold filledMethod
  split
  · rfl
  · rfl

/-- The methods of a resource that is filled are its methods filled. -/
theorem extractActions_filled (path : String) (members : Entries) :
    extractActions path (filled.filledMembers members) = extractActions path members := by
  let methods (members : Entries) : List (Verb × Value) :=
    members.filterMap fun entry => (verbKey? entry.1).map fun verb => (verb, entry.2)
  have filledMethods : methods (filled.filledMembers members) =
      (methods members).map fun method => (method.1, filledMethod method.2) := by
    induction members with
    | nil => rfl
    | cons entry rest ih =>
      obtain ⟨key, child⟩ := entry
      unfold filled.filledMembers
      cases isVerb : verbKey? key with
      | none => simpa [methods, isVerb] using ih
      | some verb => simpa [methods, isVerb] using ih
  show (methods (filled.filledMembers members)).mapM _ = (methods members).mapM _
  rw [filledMethods, List.mapM_map]
  exact congrArg (fun step => (methods members).mapM step)
    (funext fun method => extractAction_filled method.1 method.2)

theorem find?_filledMembers (noVerb : verbKey? (Scalar.text name) = none)
    (noResource : resourceKey? (Scalar.text name) = none) (members : Entries) :
    Entries.find? (filled.filledMembers members) (.text name) =
      Entries.find? members (.text name) := by
  induction members with
  | nil => rfl
  | cons entry rest ih =>
    obtain ⟨key, child⟩ := entry
    unfold filled.filledMembers
    rw [Entries.find?_cons, Entries.find?_cons, ih]
    by_cases same : key.alike (.text name) = true
    · rw [← verbKey?_of_alike same] at noVerb
      rw [← resourceKey?_of_alike same] at noResource
      rw [noVerb, isResourceKey_eq_false_iff.mpr noResource]
      rfl
    · rw [if_neg same, if_neg same]

mutual

/-- **A resource that is filled is extracted as before.** -/
theorem extractResource_filled (parentPath relativePath : String) : (value : Value) →
    extractResource parentPath relativePath (filled value) =
      extractResource parentPath relativePath value
  | .map members => by
    have get (name : String) (noVerb : verbKey? (Scalar.text name) = none)
        (noResource : resourceKey? (Scalar.text name) = none) :
        Entries.get (filled.filledMembers members) name = Entries.get members name := by
      unfold Entries.get
      rw [find?_filledMembers noVerb noResource]
    unfold filled extractResource
    dsimp only
    rw [get "uriParameters" rfl rfl, get "displayName" rfl rfl, get "description" rfl rfl,
      extractActions_filled, extractResources_filled (parentPath ++ relativePath) members]
  | .scalar s => by
    cases s with
    | null => rfl
    | _ => rfl
  | .list _ | .set _ | .pair _ _ => rfl

theorem extractResources_filled (parentPath : String) : (members : List (Scalar × Value)) →
    extractResource.extractResources parentPath (filled.filledMembers members) =
      extractResource.extractResources parentPath members
  | [] => rfl
  | (key, child) :: rest => by
    unfold filled.filledMembers extractResource.extractResources
    cases isPath : resourceKey? key with
    | none => exact extractResources_filled parentPath rest
    | some relative =>
      have isResource : isResourceKey key = true := isResourceKey_iff.mpr ⟨relative, isPath⟩
      have noVerb : (verbKey? key).isSome = false := by
        rw [verbKey?_of_resourceKey? isPath]
        rfl
      dsimp only
      rw [noVerb, if_neg Bool.false_ne_true, if_pos isResource,
        extractResource_filled parentPath relative child]
      exact congrArg _ (funext fun resource => congrArg (· >>= _)
        (extractResources_filled parentPath rest))

end

/-- A node is one of the grammar, or a value that is written. -/
def Node.IsDerived (names : Scalar → Prop) (templates : Templates) : Node → Prop
  | .resource _ value => Derives names templates .resource value
  | .method value => Derives names templates .method value
  | .parameters value => Derives names templates .parameters value
  | .parameter _ value => Derives names templates .parameter value
  | .text _ => True

/-- The members of a node of the grammar: those of a mapping. -/
theorem belongs_entriesOf {symbol : Symbol} (derived : Derives names templates symbol value)
    (isMapping : symbol.isMapping = true) :
    ∀ entry ∈ entriesOf value, Belongs names templates symbol entry := by
  cases value with
  | map entries => exact (derives_map_iff isMapping).mp derived
  | _ => exact fun entry member => absurd member List.not_mem_nil

theorem derives_parametersNodes (derived : Derives names templates .parameters value)
    (requiredDefault : Bool) :
    ∀ node ∈ parametersNodes requiredDefault value, node.IsDerived names templates := by
  refine List.forall_mem_cons.mpr ⟨derived, fun node member => ?_⟩
  obtain ⟨entry, isEntry, isNode⟩ := List.mem_flatMap.mp member
  obtain ⟨inner, isMember, isDerived⟩ := belongs_entriesOf derived rfl entry isEntry
  rcases List.mem_cons.mp isNode with rfl | isParameter
  · trivial
  · obtain rfl := List.mem_singleton.mp isParameter
    cases isMember with
    | listed _ isListed => cases isListed
    | parameter => exact isDerived

/-- Named parameters of a node of the grammar, declared or not. -/
theorem derives_get_parameters {symbol : Symbol} {entries : Entries}
    (belongs : ∀ entry ∈ entries, Belongs names templates symbol entry)
    (isListed : (name, .parameters) ∈ symbol.members) :
    Derives names templates .parameters (entries.get name) := by
  cases nothing : (entries.get name).isNull with
  | false => exact derives_get belongs isListed nothing
  | true =>
    generalize entries.get name = value at nothing
    cases value with
    | scalar s =>
      cases s with
      | null => exact .nothing rfl
      | _ => cases nothing
    | _ => cases nothing

theorem derives_methodNodes (derived : Derives names templates .method value) :
    ∀ node ∈ methodNodes value, node.IsDerived names templates := by
  have belongs := belongs_entriesOf derived rfl
  refine List.forall_mem_cons.mpr ⟨derived, List.forall_mem_cons.mpr ⟨trivial,
    List.forall_mem_append.mpr ⟨?_, ?_⟩⟩⟩
  · exact derives_parametersNodes (derives_get_parameters belongs (by decide)) false
  · exact derives_parametersNodes (derives_get_parameters belongs (by decide)) false

theorem derives_methodsNodes
    (belongs : ∀ entry ∈ members, Belongs names templates .resource entry) :
    ∀ node ∈ methodsNodes members, node.IsDerived names templates := by
  intro node member
  obtain ⟨entry, isMethod, isNode⟩ := List.mem_flatMap.mp member
  obtain ⟨isEntry, isVerb⟩ := List.mem_filter.mp isMethod
  have derived := (Member.of_verbKey? isVerb).belongs_iff.mp (belongs entry isEntry)
  exact derives_methodNodes derived node isNode

mutual

/-- **The nodes of a resource of the grammar are of the grammar.** -/
theorem derives_resourceNodes (path : String) : (value : Value) →
    Derives names templates .resource value →
      ∀ node ∈ resourceNodes path value, node.IsDerived names templates
  | .map members, derived => by
    have belongs := (derives_map_iff rfl).mp derived
    unfold resourceNodes
    refine List.forall_mem_append.mpr ⟨?_, List.forall_mem_append.mpr ⟨?_,
      List.forall_mem_cons.mpr ⟨trivial, List.forall_mem_cons.mpr ⟨trivial, ?_⟩⟩⟩⟩
    · exact derives_parametersNodes (derives_get_parameters belongs (by decide)) true
    · exact derives_methodsNodes belongs
    · exact derives_resourcesNodes path members fun entry member relative isPath =>
        (Member.of_resourceKey? isPath).belongs_iff.mp (belongs entry member)
  | .scalar _, derived | .list _, derived | .set _, derived | .pair _ _, derived =>
    List.forall_mem_singleton.mpr derived

theorem derives_resourcesNodes (path : String) : (members : List (Scalar × Value)) →
    (∀ entry ∈ members, ∀ relative, resourceKey? entry.1 = some relative →
      Derives names templates .resource entry.2) →
      ∀ node ∈ resourceNodes.resourcesNodes path members, node.IsDerived names templates
  | [], _ => fun node member => absurd member List.not_mem_nil
  | (key, child) :: rest, derived => by
    obtain ⟨here, further⟩ := List.forall_mem_cons.mp derived
    have others := derives_resourcesNodes path rest further
    unfold resourceNodes.resourcesNodes
    cases isPath : resourceKey? key with
    | none => exact others
    | some relative =>
      exact List.forall_mem_append.mpr
        ⟨derives_resourceNodes (path ++ relative) child (here relative isPath), others⟩

end

end RamlInterfaces.Raml
