/-
**The steps of the application of templates.**

Each step of the application is inverted once: what it gives, and how it fails.  A resource takes
the content of its chain of types, and is resolved member by member; a method takes the content of
its traits.

* `TakesTypeEntry`, `takesTypeEntry`: **what becomes of one entry of a resource type**;
* `templateBody_eq_ok_iff`, `mergeType_eq_ok_iff`, `applyType_eq_ok_iff`, `applyTrait_eq_ok_iff`,
  `applyTraits_eq_ok_iff`: what each step of the application gives, and beside them how it fails;
* `resolveResource_succ_eq_ok_iff`, `ResourceFails`, `resourceFails`: **how a resource is resolved
  and how that fails**;
* `applyTemplatesWithin_of_le`: where it ends, the depth does not matter.
-/

import RamlInterfaces.Proofs.Raml.Filling
import RamlInterfaces.Proofs.Raml.Merge
import RamlInterfaces.Raml.Application

namespace RamlInterfaces.Raml

/-! ### Each step -/

section Steps

variable {templates : Templates}
  {types template body arguments node declared resolved : Entries} {seen : List String}
  {value : Value} {failure : Failure}

/-- **A template that has an end gives its body filled**, less what describes the template. -/
theorem templateBody_eq_ok_iff : templateBody template arguments = .ok body ↔
    (Value.map ((template.erase (.text "usage")).erase (.text "displayName"))).isEndless = false ∧
      substitute arguments
        (.map ((template.erase (.text "usage")).erase (.text "displayName"))) =
          .ok (.map body) := by
  unfold templateBody
  dsimp only
  rw [guarded_eq_ok_iff, Bool.not_eq_true]
  refine and_congr_right fun _ => ?_
  unfold substitute
  cases substitute.substituteEntries arguments _ with
  | error failure => exact iff_of_false (fun same => nomatch same) fun same => nomatch same
  | ok filled =>
    show Except.ok (Entries.ofList filled) = .ok body ↔
      Except.ok (Value.map (Entries.ofList filled)) = .ok (.map body)
    rw [Except.ok.injEq, Except.ok.injEq, Value.map.injEq]

theorem templateBody_eq_error_iff : templateBody template arguments = .error failure ↔
    (Value.map ((template.erase (.text "usage")).erase (.text "displayName"))).isEndless = true ∧
        failure = .defect .nestedTooDeeply ∨
      (Value.map ((template.erase (.text "usage")).erase (.text "displayName"))).isEndless = false ∧
        substitute arguments
          (.map ((template.erase (.text "usage")).erase (.text "displayName"))) =
            .error failure := by
  unfold templateBody
  dsimp only
  rw [guarded_eq_error_iff, Bool.not_eq_true]
  refine or_congr_right (and_congr_right fun _ => ?_)
  cases substitute arguments _ with
  | error failure => simp
  | ok filled => cases filled <;> simp

/-- What entries become when one entry of a resource type is merged into them. -/
inductive TakesTypeEntry (derived : Bool) (merged : Entries) (key : Scalar) (value : Value) :
    Entries → Prop where
  | intoPlain {plain : String} {explicit : Value} (optional : optionalKey? key = some plain)
    (found : merged.find? (.text plain) = some explicit) :
    TakesTypeEntry derived merged key value
      (merged.put (.text plain) (merge false explicit value))
  | intoOptional {plain : String} {explicit : Value} (optional : optionalKey? key = some plain)
    (absent : merged.find? (.text plain) = none) (found : merged.find? key = some explicit) :
    TakesTypeEntry derived merged key value (merged.put key (merge false explicit value))
  | offered {plain : String} (optional : optionalKey? key = some plain)
    (absent : merged.find? (.text plain) = none) (missing : merged.find? key = none)
    (isDerived : derived = true) : TakesTypeEntry derived merged key value (merged.put key value)
  | dropped {plain : String} (optional : optionalKey? key = some plain)
    (absent : merged.find? (.text plain) = none) (missing : merged.find? key = none)
    (isFinal : derived = false) : TakesTypeEntry derived merged key value merged
  | into {explicit : Value} (required : optionalKey? key = none)
    (found : merged.find? key = some explicit) :
    TakesTypeEntry derived merged key value
      (merged.put key (merge (isTraitsKey key) explicit value))
  | new (required : optionalKey? key = none) (missing : merged.find? key = none) :
    TakesTypeEntry derived merged key value (merged.put key value)

/-- **An entry of a resource type is merged into the one of its key**, or of its name without the
mark, and where there is none it is added or left out. -/
theorem takesTypeEntry (derived : Bool) (merged : Entries) (key : Scalar) (value : Value) :
    TakesTypeEntry derived merged key value (mergeTypeEntry derived merged key value) := by
  unfold mergeTypeEntry
  cases optional : optionalKey? key with
  | some plain =>
    dsimp only
    split
    · rename_i explicit found
      exact .intoPlain optional found
    · rename_i explicit absent found
      exact .intoOptional optional absent found
    · rename_i absent missing
      cases derived with
      | true => exact .offered optional absent missing rfl
      | false => exact .dropped optional absent missing rfl
  | none =>
    dsimp only
    split
    · rename_i explicit found
      exact .into optional found
    · rename_i missing
      exact .new optional missing

/-- **A node takes the body of the type that it refers to**, which has the content of its own types
by then.  The type is declared, and it is none of those that led to the node. -/
theorem mergeType_eq_ok_iff : mergeType types arguments node seen = .ok resolved ↔
    ∃ reference template body content, Reference.ofValue? (node.get "type") = some reference ∧
      seen.contains reference.name = false ∧
      types.find? (.text reference.name) = some (.map template) ∧
      templateBody template (arguments.putAll reference.arguments) = .ok body ∧
      ((body.get "type").isNull = true ∧ content = body ∨ (body.get "type").isNull = false ∧
        mergeType types arguments body (seen ++ [reference.name]) = .ok content) ∧
      resolved = mergeTypeBody (!seen.isEmpty) node content := by
  rw [mergeType]
  split
  · rename_i noText
    refine iff_of_false (fun same => ?_) ?_
    · cases same
    · rintro ⟨reference, _, _, _, isReference, -⟩
      cases noText.symm.trans isReference
  rename_i reference isReference
  rw [isReference]
  constructor
  · intro merged
    split at merged
    · cases merged
    rename_i fresh
    split at merged
    · rename_i template found
      split at merged
      · cases merged
      rename_i body filled
      refine ⟨reference, template, body, ?_⟩
      split at merged
      · rename_i untyped
        cases merged
        exact ⟨body, rfl, Bool.eq_false_iff.mpr fresh, found, filled, .inl ⟨untyped, rfl⟩, rfl⟩
      · rename_i typed
        split at merged
        · cases merged
        · rename_i content inherited
          cases merged
          exact ⟨content, rfl, Bool.eq_false_iff.mpr fresh, found, filled,
            .inr ⟨Bool.eq_false_iff.mpr typed, inherited⟩, rfl⟩
    · cases merged
  · rintro ⟨_, template, body, content, same, fresh, found, filled, inherited, rfl⟩
    cases same
    rw [dif_neg (Bool.eq_false_iff.mp fresh)]
    split
    · rename_i other isTemplate
      cases found.symm.trans isTemplate
      rw [filled]
      rcases inherited with ⟨untyped, rfl⟩ | ⟨typed, inherited⟩
      · exact if_pos untyped
      · show (if _ then _ else _) = _
        rw [if_neg (Bool.eq_false_iff.mp typed), inherited]
    · rename_i missing
      exact absurd found (missing template)

/-- **A resource without a type keeps its entries**, and another takes those of its chain. -/
theorem applyType_eq_ok_iff : applyType templates arguments declared = .ok resolved ↔
    (declared.get "type").isNull = true ∧ resolved = declared ∨
      (declared.get "type").isNull = false ∧
        mergeType templates.resourceTypes arguments declared [] = .ok resolved := by
  unfold applyType
  cases (declared.get "type").isNull with
  | true => simp [eq_comm]
  | false => simp

theorem applyType_eq_error_iff : applyType templates arguments declared = .error failure ↔
    (declared.get "type").isNull = false ∧
      mergeType templates.resourceTypes arguments declared [] = .error failure := by
  unfold applyType
  cases (declared.get "type").isNull with
  | true => simp
  | false => simp

/-- **A method takes the content of a trait that is declared** and can be filled. -/
theorem applyTrait_eq_ok_iff : applyTrait templates arguments node value = .ok resolved ↔
    ∃ reference template body, Reference.ofValue? value = some reference ∧
      templates.traits.find? (.text reference.name) = some (.map template) ∧
        templateBody template (arguments.putAll reference.arguments) = .ok body ∧
          resolved = mergeEntries node body := by
  unfold applyTrait
  rw [bind_eq_ok_iff]
  refine exists_congr fun reference => ?_
  rw [written_eq_ok_iff]
  simp only [exists_and_left]
  refine and_congr_right fun _ => ?_
  split
  · rename_i template found
    rw [bind_eq_ok_iff, found]
    constructor
    · rintro ⟨body, filled, same⟩
      cases same
      exact ⟨template, rfl, body, filled, rfl⟩
    · rintro ⟨_, isTemplate, body, filled, rfl⟩
      cases isTemplate
      exact ⟨body, filled, rfl⟩
  · rename_i missing
    refine iff_of_false (fun same => nomatch same) ?_
    rintro ⟨template, found, -⟩
    exact missing template found

end Steps

/-! ### Methods -/

variable {templates : Templates} {arguments : Entries} {failure : Failure}

theorem contentEntries_error {value : Value} (failed : contentEntries value = .error failure) :
    contentEntries? value = none ∧ failure = .defect .notMapping := by
  unfold contentEntries at failed
  split at failed
  · cases failed
  · rename_i missing
    cases failed
    exact ⟨missing, rfl⟩

theorem contentEntries_ok_iff {value : Value} {entries : Entries} :
    contentEntries value = .ok entries ↔ contentEntries? value = some entries := by
  unfold contentEntries
  split <;> simp_all

/-- The references of a method: its own first, then those of its resource that are not among
them. -/
def methodReferences (resourceTraits : List Value) (method : Entries) : List Value :=
  let own := referenceList (method.get "is")
  own ++ resourceTraits.filter fun reference => !reference.isAmong own

variable {traits : List Value} {name : String} {value : Value}

/-- **A method is its content with its traits applied** in the order of the references. -/
theorem applyTraits_eq_ok_iff {result : Value} :
    applyTraits templates arguments traits name value = .ok result ↔
      ∃ method merged, contentEntries? value = some method ∧
        (methodReferences traits method).foldlM
          (applyTrait templates (arguments.put (.text "methodName") (.text name))) method =
            .ok merged ∧ result = .map merged := by
  constructor
  · intro applied
    obtain ⟨method, content, applied⟩ := bind_eq_ok_iff.mp applied
    obtain ⟨merged, walked, same⟩ := bind_eq_ok_iff.mp applied
    exact ⟨method, merged, contentEntries_ok_iff.mp content, walked, (Except.ok.inj same).symm⟩
  · rintro ⟨method, merged, content, walked, rfl⟩
    refine bind_eq_ok_iff.mpr ⟨method, contentEntries_ok_iff.mpr content, ?_⟩
    exact bind_eq_ok_iff.mpr ⟨merged, walked, rfl⟩

/-! ### Members -/

/-- The path of a resource is the word of no verb. -/
theorem verbKey?_of_resourceKey? {key : Scalar} {relative : String}
    (resource : resourceKey? key = some relative) : verbKey? key = none := by
  obtain ⟨named, slash⟩ := resourceKey?_eq_some_iff.mp resource
  cases found : verbKey? key with
  | none => rfl
  | some verb =>
    obtain rfl := Option.some.inj (named.symm.trans (verbKey?_eq_some_iff.mp found))
    cases verb <;> exact absurd slash (by decide)

/-- What becomes of the members of a resource with the given path. -/
def memberStep (templates : Templates) (depth : Nat) (path : String) (resource : Entries) :
    Scalar × Value → Except Failure (Scalar × Value) :=
  resolveMember templates (resourceArguments path) (referenceList (resource.get "is"))
    (resolveResource templates depth path)

variable {depth : Nat} {parentPath relativePath path : String} {value : Value} {resource : Entries}
  {key : Scalar} {child : Value}

theorem resolveResource_succ : resolveResource templates (depth + 1) parentPath relativePath value =
    (do
      let declared ← contentEntries value
      let resource ← applyType templates (resourceArguments (parentPath ++ relativePath)) declared
      let resolved ← resource.mapM
        (memberStep templates depth (parentPath ++ relativePath) resource)
      pure (.map resolved)) := rfl

theorem memberStep_method {verb : Verb} (named : verbKey? key = some verb) :
    memberStep templates depth path resource (key, child) = (do
      let method ← applyTraits templates (resourceArguments path)
        (referenceList (resource.get "is")) verb.word child
      pure (key, method)) := by
  simp only [memberStep, resolveMember, named]

theorem memberStep_resource {further : String} (named : resourceKey? key = some further) :
    memberStep templates depth path resource (key, child) = (do
      let resolved ← resolveResource templates depth path further child
      pure (key, resolved)) := by
  simp only [memberStep, resolveMember, verbKey?_of_resourceKey? named, named]

theorem memberStep_other (noVerb : verbKey? key = none) (noResource : resourceKey? key = none) :
    memberStep templates depth path resource (key, child) = .ok (key, child) := by
  simp only [memberStep, resolveMember, noVerb, noResource]
  rfl

/-- A member keeps its key, and its value is resolved as the key says. -/
theorem memberStep_ok {entry : Scalar × Value}
    (step : memberStep templates depth path resource (key, child) = .ok entry) : entry.1 = key ∧
      ((∃ verb, verbKey? key = some verb ∧ applyTraits templates (resourceArguments path)
          (referenceList (resource.get "is")) verb.word child = .ok entry.2) ∨
        (∃ further, resourceKey? key = some further ∧
          resolveResource templates depth path further child = .ok entry.2) ∨
        verbKey? key = none ∧ resourceKey? key = none ∧ entry.2 = child) := by
  cases below : resourceKey? key with
  | some further =>
    rw [memberStep_resource below] at step
    obtain ⟨resolved, done, same⟩ := bind_eq_ok_iff.mp step
    cases same
    exact ⟨rfl, .inr (.inl ⟨further, rfl, done⟩)⟩
  | none =>
    cases named : verbKey? key with
    | some verb =>
      rw [memberStep_method named] at step
      obtain ⟨method, done, same⟩ := bind_eq_ok_iff.mp step
      cases same
      exact ⟨rfl, .inl ⟨verb, rfl, done⟩⟩
    | none =>
      rw [memberStep_other named below] at step
      cases step
      exact ⟨rfl, .inr (.inr ⟨rfl, rfl, rfl⟩)⟩

/-- **A resource is resolved** to its content with that of its types, member by member. -/
theorem resolveResource_succ_eq_ok_iff {result : Value} :
    resolveResource templates (depth + 1) parentPath relativePath value = .ok result ↔
      ∃ declared resource resolved, contentEntries? value = some declared ∧
        applyType templates (resourceArguments (parentPath ++ relativePath)) declared =
          .ok resource ∧
        resource.mapM (memberStep templates depth (parentPath ++ relativePath) resource) =
          .ok resolved ∧ result = .map resolved := by
  rw [resolveResource_succ]
  constructor
  · intro done
    obtain ⟨declared, content, done⟩ := bind_eq_ok_iff.mp done
    obtain ⟨resource, typed, done⟩ := bind_eq_ok_iff.mp done
    obtain ⟨resolved, walked, same⟩ := bind_eq_ok_iff.mp done
    exact ⟨declared, resource, resolved, contentEntries_ok_iff.mp content, typed, walked,
      (Except.ok.inj same).symm⟩
  · rintro ⟨declared, resource, resolved, content, typed, walked, rfl⟩
    refine bind_eq_ok_iff.mpr ⟨declared, contentEntries_ok_iff.mpr content, ?_⟩
    exact bind_eq_ok_iff.mpr ⟨resource, typed, bind_eq_ok_iff.mpr ⟨resolved, walked, rfl⟩⟩

/-- How the application to a resource fails, one level above the given depth. -/
inductive ResourceFails (templates : Templates) (depth : Nat) (path : String) (value : Value) :
    Failure → Prop where
  | shapeless (missing : contentEntries? value = none) :
    ResourceFails templates depth path value (.defect .notMapping)
  | type {declared : Entries} {failure : Failure} (content : contentEntries? value = some declared)
    (refused : applyType templates (resourceArguments path) declared = .error failure) :
    ResourceFails templates depth path value failure
  | method {declared resource : Entries} {key : Scalar} {child : Value} {verb : Verb}
    {failure : Failure} (content : contentEntries? value = some declared)
    (typed : applyType templates (resourceArguments path) declared = .ok resource)
    (comes : ComesTo (memberStep templates depth path resource) resource (key, child))
    (named : verbKey? key = some verb)
    (refused : applyTraits templates (resourceArguments path) (referenceList (resource.get "is"))
      verb.word child = .error failure) :
    ResourceFails templates depth path value failure
  | below {declared resource : Entries} {key : Scalar} {child : Value} {further : String}
    {failure : Failure} (content : contentEntries? value = some declared)
    (typed : applyType templates (resourceArguments path) declared = .ok resource)
    (comes : ComesTo (memberStep templates depth path resource) resource (key, child))
    (named : resourceKey? key = some further)
    (refused : resolveResource templates depth path further child = .error failure) :
    ResourceFails templates depth path value failure

/-- **A resource fails for its content, its types, a method or a resource below.** -/
theorem resourceFails
    (failed : resolveResource templates (depth + 1) parentPath relativePath value =
      .error failure) :
    ResourceFails templates depth (parentPath ++ relativePath) value failure := by
  rw [resolveResource_succ, bind_eq_error_iff] at failed
  rcases failed with noContent | ⟨declared, content, failed⟩
  · obtain ⟨missing, rfl⟩ := contentEntries_error noContent
    exact .shapeless missing
  rw [contentEntries_ok_iff] at content
  rcases bind_eq_error_iff.mp failed with refused | ⟨resource, typed, failed⟩
  · exact .type content refused
  rcases bind_eq_error_iff.mp failed with walk | ⟨_, _, same⟩
  · obtain ⟨⟨key, child⟩, comes, failed⟩ := mapM_eq_error_iff.mp walk
    cases isVerb : verbKey? key with
    | some verb =>
      rw [memberStep_method isVerb, bind_eq_error_iff] at failed
      rcases failed with refused | ⟨_, _, same⟩
      · exact .method content typed comes isVerb refused
      · cases same
    | none =>
      cases isPath : resourceKey? key with
      | some further =>
        rw [memberStep_resource isPath, bind_eq_error_iff] at failed
        rcases failed with refused | ⟨_, _, same⟩
        · exact .below content typed comes isPath refused
        · cases same
      | none =>
        rw [memberStep_other isVerb isPath] at failed
        cases failed
  · cases same

/-- The members of a resource at a greater depth, if the resources below end the same way. -/
theorem memberStep_congr {deeper : Nat} {member : Scalar × Value}
    (each : ∀ further child, resolveResource templates depth path further child ≠
        .error (.defect .nestedTooDeeply) →
      resolveResource templates deeper path further child =
        resolveResource templates depth path further child)
    (ends : memberStep templates depth path resource member ≠ .error (.defect .nestedTooDeeply)) :
    memberStep templates deeper path resource member =
      memberStep templates depth path resource member := by
  obtain ⟨key, child⟩ := member
  cases below : resourceKey? key with
  | some further =>
    rw [memberStep_resource below] at ends
    rw [memberStep_resource below, memberStep_resource below, each further child fun failed => ?_]
    refine ends ?_
    rw [failed]
    rfl
  | none =>
    cases named : verbKey? key with
    | some verb => rw [memberStep_method named, memberStep_method named]
    | none => rw [memberStep_other named below, memberStep_other named below]

/-- **Where the application to a resource ends, it ends the same way at a greater depth.** -/
theorem resolveResource_succ_of_ne
    (ends : resolveResource templates depth parentPath relativePath value ≠
      .error (.defect .nestedTooDeeply)) :
    resolveResource templates (depth + 1) parentPath relativePath value =
      resolveResource templates depth parentPath relativePath value := by
  induction depth generalizing parentPath relativePath value with
  | zero => exact absurd rfl ends
  | succ depth ih =>
    rw [resolveResource_succ] at ends
    rw [resolveResource_succ, resolveResource_succ]
    refine bind_congr_of_ne (fun declared ends => ?_) ends
    refine bind_congr_of_ne (fun resource ends => ?_) ends
    have members := mapM_congr_of_ne (fun member => memberStep_congr fun _ _ => ih)
      fun failed => ends (bind_eq_error_iff.mpr (.inl failed))
    rw [members]

/-! ### Documents -/

variable {root : Entries}

theorem resolveEntry_resource {relative : String} (named : resourceKey? key = some relative) :
    resolveEntry templates depth (key, value) = (do
      let resolved ← resolveResource templates depth "" relative value
      pure (key, resolved)) := by
  simp only [resolveEntry, named]

/-- **Where the application to a document ends, the depth does not matter.** -/
theorem applyTemplatesWithin_of_le {deeper : Nat} (deep : depth ≤ deeper)
    (ends : applyTemplatesWithin depth root ≠ .error (.defect .nestedTooDeeply)) :
    applyTemplatesWithin deeper root = applyTemplatesWithin depth root := by
  induction deep with
  | refl => rfl
  | step _ ih =>
    rw [← ih] at ends ⊢
    refine mapM_congr_of_ne (fun (key, value) ends => ?_) ends
    cases named : resourceKey? key with
    | none => simp only [resolveEntry, named]
    | some relative =>
      rw [resolveEntry_resource named] at ends
      rw [resolveEntry_resource named, resolveEntry_resource named, resolveResource_succ_of_ne]
      intro failed
      refine ends ?_
      rw [failed]
      rfl

end RamlInterfaces.Raml
