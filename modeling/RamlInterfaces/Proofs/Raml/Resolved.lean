/-
**Documents with their templates applied.**

Where the resources of a document and the bodies of its templates have their shapes, the application
of templates comes to nothing shapeless, and neither does the walk through the resolved document.

* `ShapedTemplates`: templates whose bodies have the shapes whatever their arguments are;
* `Mergeable`, `Mergeable.mergeType`: **what a chain of types keeps**;
* `applyType_shaped`, `applyTraits_shaped`: types and traits keep the shapes;
* `Reaches.shaped`: **the application comes to nothing shapeless**;
* `Resolved`, `resolveResource_resolved`: the shape of a resolved resource;
* `Resolved.nodes`: **nothing in a resolved resource is shapeless**.
-/

import RamlInterfaces.Proofs.Raml.Reach
import RamlInterfaces.Proofs.Raml.ExtractionFailures
import RamlInterfaces.Proofs.Raml.Shape

namespace RamlInterfaces.Raml

/-- The bodies of the templates have the shapes of what they are merged into, whatever their
arguments are. -/
structure ShapedTemplates (templates : Templates) : Prop where
  traits : ∀ name template arguments body,
    templates.traits.find? (.text name) = some (.map template) →
      templateBody template arguments = .ok body → Everywhere FitsMethod body
  resourceTypes : ∀ name template arguments body,
    templates.resourceTypes.find? (.text name) = some (.map template) →
      templateBody template arguments = .ok body → Everywhere FitsResource body

variable {templates : Templates} {arguments node resolved : Entries} {key : Scalar} {value : Value}

/-! ### Resource types -/

/-- A question mark at the end of a name does not matter for its stem. -/
theorem stem_optional {name plain : String} (optional : name.toList = plain.toList ++ ['?']) :
    stem name = stem plain := by
  unfold stem Text.dropLastWhile
  rw [optional, List.reverse_append]
  rfl

/-- A question mark at the end of a name does not matter for its role. -/
theorem Role.ofName_optional {name plain : String}
    (optional : name.toList = plain.toList ++ ['?']) : Role.ofName name = Role.ofName plain := by
  have sameStart : (name.toList.head? == some '/') = (plain.toList.head? == some '/') := by
    rw [optional]
    cases plain.toList with
    | nil => rfl
    | cons first rest => rfl
  unfold Role.ofName
  rw [stem_optional optional, sameStart]

/-- An optional key is its name with a question mark. -/
theorem exists_of_optionalKey? {plain : String} (optional : optionalKey? key = some plain) :
    ∃ name, key.string? = some name ∧ name.toList = plain.toList ++ ['?'] := by
  unfold optionalKey? at optional
  cases named : key.string? with
  | none =>
    rw [named] at optional
    cases optional
  | some name =>
    rw [named] at optional
    simp only [Option.ite_none_right_eq_some, Option.some.injEq] at optional
    obtain ⟨marked, rfl⟩ := optional
    obtain ⟨front, same⟩ := List.getLast?_eq_some_iff.mp marked
    refine ⟨name, rfl, ?_⟩
    rw [String.toList_ofList, same, List.dropLast_concat]

theorem role_of_optionalKey? {plain : String} (optional : optionalKey? key = some plain) :
    Role.of key.string? = Role.of (some plain) := by
  obtain ⟨name, named, marked⟩ := exists_of_optionalKey? optional
  rw [named]
  exact Role.ofName_optional marked

/-- A property of the members of resources that merging keeps, and that does not depend on the mark
of an optional member. -/
structure Mergeable (fits : Option String → Value → Prop) : Prop where
  optional : ∀ key plain value, optionalKey? key = some plain → fits key.string? value →
    fits (some plain) value
  merge : ∀ name traits explicit inherited, (Role.of name ≠ .other → traits = false) →
    fits name explicit → fits name inherited → fits name (merge traits explicit inherited)

namespace Mergeable

variable {fits : Option String → Value → Prop}

/-- A member of a resource type leaves all entries of a resource with the property. -/
theorem mergeTypeEntry (mergeable : Mergeable fits) (derived : Bool) {merged : Entries}
    (isMerged : Everywhere fits merged) (here : fits key.string? value) :
    Everywhere fits (mergeTypeEntry derived merged key value) := by
  have taken := takesTypeEntry derived merged key value
  generalize Raml.mergeTypeEntry derived merged key value = result at taken ⊢
  cases taken with
  | intoPlain optional found =>
    have plain := mergeable.optional key _ value optional here
    exact isMerged.put (mergeable.merge _ _ _ _ (fun _ => rfl) (isMerged.find? found) plain)
  | intoOptional _ _ found =>
    exact isMerged.put (mergeable.merge _ _ _ _ (fun _ => rfl) (isMerged.find? found) here)
  | into _ found =>
    exact isMerged.put (mergeable.merge _ _ _ _ isTraitsKey_eq_false (isMerged.find? found) here)
  | offered => exact isMerged.put here
  | new => exact isMerged.put here
  | dropped => exact isMerged

theorem mergeTypeBody (mergeable : Mergeable fits) {derived : Bool} {body : Entries}
    (isNode : Everywhere fits node) (isBody : Everywhere fits body) :
    Everywhere fits (mergeTypeBody derived node body) := by
  have walk (further merged : Entries) (isFurther : Everywhere fits further)
      (isMerged : Everywhere fits merged) : Everywhere fits (further.foldl
        (fun merged entry => Raml.mergeTypeEntry derived merged entry.1 entry.2) merged) := by
    induction further generalizing merged with
    | nil => exact isMerged
    | cons entry rest ih =>
      rw [List.foldl_cons]
      have next := mergeable.mergeTypeEntry derived isMerged
        (isFurther entry List.mem_cons_self)
      exact ih _ (fun other member => isFurther other (List.mem_cons_of_mem _ member)) next
  exact walk _ _ (isBody.filter _) (isNode.filter _)

/-- **A resource keeps the property with the content of its chain of types**, if the bodies of the
types that the chain comes to have it. -/
theorem mergeType (mergeable : Mergeable fits) {types : Entries} {seen : List String}
    (comes : Value → Prop)
    (content : ∀ value reference template body, comes value →
      Reference.ofValue? value = some reference →
      types.find? (.text reference.name) = some (.map template) →
      templateBody template (arguments.putAll reference.arguments) = .ok body →
        Everywhere fits body ∧ ((body.get "type").isNull = false → comes (body.get "type")))
    (isNode : Everywhere fits node) (start : comes (node.get "type"))
    (merged : mergeType types arguments node seen = .ok resolved) : Everywhere fits resolved := by
  fun_induction Raml.mergeType types arguments node seen generalizing resolved with
  | case1 => cases merged
  | case2 => cases merged
  | case3 => cases merged
  | case4 _ _ _ isReference _ template found body filled =>
    cases merged
    exact mergeable.mergeTypeBody isNode (content _ _ _ _ start isReference found filled).1
  | case5 => cases merged
  | case6 _ _ _ isReference _ template found body filled typed inherited further =>
    rename_i ih
    cases merged
    obtain ⟨isBody, next⟩ := content _ _ _ _ start isReference found filled
    exact mergeable.mergeTypeBody isNode (ih isBody (next (Bool.eq_false_iff.mpr typed)) further)
  | case7 => cases merged

end Mergeable

/-- Shapes do not depend on the mark of an optional member. -/
theorem mergeable_fitsResource : Mergeable FitsResource where
  optional := fun key plain value optional fits => by
    have role := role_of_optionalKey? optional
    refine ⟨fun isRole => ?_, fun isRole => ?_, fun isRole => ?_⟩
    · exact fits.parameters (role.trans isRole)
    · exact fits.method (role.trans isRole)
    · exact fits.resource (role.trans isRole)
  merge := fun _ _ _ _ plain isExplicit isInherited => isExplicit.merge plain isInherited

/-- **A resource takes the content of its chain of types in shape.** -/
theorem mergeType_shaped (shaped : ShapedTemplates templates) {seen : List String}
    (isNode : Everywhere FitsResource node)
    (merged : mergeType templates.resourceTypes arguments node seen = .ok resolved) :
    Everywhere FitsResource resolved := by
  refine mergeable_fitsResource.mergeType (fun _ => True)
    (fun _ _ _ _ _ _ found filled => ?_) isNode trivial merged
  exact ⟨shaped.resourceTypes _ _ _ _ found filled, fun _ => trivial⟩

theorem applyType_shaped (shaped : ShapedTemplates templates)
    (isNode : Everywhere FitsResource node)
    (applied : applyType templates arguments node = .ok resolved) :
    Everywhere FitsResource resolved := by
  rcases applyType_eq_ok_iff.mp applied with ⟨-, rfl⟩ | ⟨-, merged⟩
  · exact isNode
  · exact mergeType_shaped shaped isNode merged

/-! ### Traits -/

theorem applyTrait_shaped (shaped : ShapedTemplates templates) (isNode : Everywhere FitsMethod node)
    (applied : applyTrait templates arguments node value = .ok resolved) :
    Everywhere FitsMethod resolved := by
  obtain ⟨_, template, body, -, found, filled, rfl⟩ := applyTrait_eq_ok_iff.mp applied
  exact everywhere_fitsMethod_mergeEntries isNode (shaped.traits _ _ _ _ found filled)

/-- **A method takes the content of its traits in shape.** -/
theorem applyTraits_shaped (shaped : ShapedTemplates templates) {traits : List Value}
    {name : String} {result : Value} (isMethod : ShapedMethod value)
    (applied : applyTraits templates arguments traits name value = .ok result) :
    ∃ members, result = .map members ∧ Everywhere FitsMethod members := by
  obtain ⟨entries, content, all⟩ := isMethod
  obtain ⟨method, merged, isContent, walked, rfl⟩ := applyTraits_eq_ok_iff.mp applied
  cases content.symm.trans isContent
  refine ⟨merged, rfl, foldlM_keeps (fun _ _ _ isNode step => ?_) all walked⟩
  exact applyTrait_shaped shaped isNode step

/-! ### Resources -/

theorem role_of_verbKey? {verb : Verb} (named : verbKey? key = some verb) :
    Role.of key.string? = .method := by
  rw [verbKey?_eq_some_iff.mp named]
  cases verb <;> decide

theorem role_of_resourceKey? {relative : String} (named : resourceKey? key = some relative) :
    Role.of key.string? = .resource := by
  obtain ⟨isName, slash⟩ := resourceKey?_eq_some_iff.mp named
  rw [isName]
  show Role.ofName relative = .resource
  unfold Role.ofName
  rw [if_pos (beq_iff_eq.mpr slash)]

variable {depth : Nat} {parentPath relativePath path : String}

/-- The members of a resource, those of its type among them, have their shapes. -/
theorem ComesToMember.fits (shaped : ShapedTemplates templates) {member : Scalar × Value}
    (isResource : ShapedResource value)
    (comes : ComesToMember templates depth path value member) :
    FitsResource member.1.string? member.2 := by
  obtain ⟨declared, resource, content, typed, before, after, split, _⟩ := comes
  obtain ⟨entries, isContent, all⟩ := shapedResource_iff.mp isResource
  rw [content, Option.some.injEq] at isContent
  subst isContent
  have members := applyType_shaped shaped all typed
  rw [split] at members
  exact members member (List.mem_append.mpr (.inr List.mem_cons_self))

/-- **The application comes to nothing shapeless** where everything has its shape. -/
theorem Reaches.shaped (shaped : ShapedTemplates templates) {node : Value}
    (isResource : ShapedResource value)
    (reaches : Reaches templates depth parentPath relativePath value node) :
    contentEntries? node ≠ none := by
  induction reaches with
  | here =>
    obtain ⟨content⟩ := isResource
    rw [content]
    exact Option.some_ne_none _
  | method member named =>
    obtain ⟨entries, content, _⟩ := (member.fits shaped isResource).method (role_of_verbKey? named)
    rw [content]
    exact Option.some_ne_none _
  | within member named _ ih =>
    exact ih ((member.fits shaped isResource).resource (role_of_resourceKey? named))

/-- A resource with its templates applied: mappings all through, with named parameters where they
belong. -/
inductive Resolved : Value → Prop where
  | intro {entries : Entries}
    (parameters : Everywhere (fun name child => Role.of name = .parameters →
      ShapedParameters child) entries)
    (methods : ∀ entry ∈ entries, (verbKey? entry.1).isSome = true →
      ∃ members, entry.2 = .map members ∧ Everywhere FitsMethod members)
    (resources : ∀ entry ∈ entries, (resourceKey? entry.1).isSome = true → Resolved entry.2) :
    Resolved (.map entries)

/-- **A resource is resolved by the application of templates** that have their shapes. -/
theorem resolveResource_resolved (shaped : ShapedTemplates templates) {result : Value}
    (isResource : ShapedResource value)
    (done : resolveResource templates depth parentPath relativePath value = .ok result) :
    Resolved result := by
  induction depth generalizing parentPath relativePath value result with
  | zero => cases done
  | succ depth ih =>
    obtain ⟨entries, isContent, all⟩ := shapedResource_iff.mp isResource
    obtain ⟨declared, resource, resolved, content, typed, walked, rfl⟩ :=
      resolveResource_succ_eq_ok_iff.mp done
    cases isContent.symm.trans content
    have members := applyType_shaped shaped all typed
    have origin (key : Scalar) (result : Value) (isEntry : (key, result) ∈ resolved) :
        ∃ child, FitsResource key.string? child ∧
          memberStep templates depth (parentPath ++ relativePath) resource (key, child) =
            .ok (key, result) := by
      obtain ⟨⟨key, child⟩, member, step⟩ := exists_of_mem_mapM walked isEntry
      cases (memberStep_ok step).1
      exact ⟨child, members _ member, step⟩
    refine ⟨?_, ?_, ?_⟩
    · rintro ⟨key, result⟩ isEntry role
      obtain ⟨child, fits, step⟩ := origin key result isEntry
      rcases (memberStep_ok step).2 with ⟨verb, isVerb, _⟩ | ⟨further, below, _⟩ | ⟨_, _, same⟩
      · cases role.symm.trans (role_of_verbKey? isVerb)
      · cases role.symm.trans (role_of_resourceKey? below)
      · rw [same]
        exact fits.parameters role
    · rintro ⟨key, result⟩ isEntry named
      obtain ⟨child, fits, step⟩ := origin key result isEntry
      rcases (memberStep_ok step).2 with ⟨verb, isVerb, applied⟩ | ⟨further, below, _⟩ | ⟨none, _⟩
      · exact applyTraits_shaped shaped (fits.method (role_of_verbKey? isVerb)) applied
      · rw [verbKey?_of_resourceKey? below] at named
        cases named
      · rw [none] at named
        cases named
    · rintro ⟨key, result⟩ isEntry named
      obtain ⟨further, below⟩ := Option.isSome_iff_exists.mp named
      obtain ⟨child, fits, step⟩ := origin key result isEntry
      rcases (memberStep_ok step).2 with ⟨verb, isVerb, _⟩ | ⟨further, below, done⟩ | ⟨_, none, _⟩
      · rw [verbKey?_of_resourceKey? below] at isVerb
        cases isVerb
      · exact ih (fits.resource (role_of_resourceKey? below)) done
      · rw [none] at below
        cases below

/-! ### The walk through a resolved resource -/

theorem listable_enum {facets : Entries} (fits : Everywhere FitsFacet facets) :
    Listable (facets.get "enum") :=
  fits.get (fun _ => .inl rfl) rfl

/-- What counts of a parameter is nothing, or facets that fit. -/
theorem ShapedParameter.first (shaped : ShapedParameter value) :
    (firstAlternative value).isEmptyLike = true ∨
      ∃ facets, firstAlternative value = .map facets ∧ Everywhere FitsFacet facets := by
  cases value with
  | map facets => exact .inr ⟨facets, rfl, shaped⟩
  | list alternatives =>
    have chosen : firstAlternative (.list alternatives) =
        (alternatives.find? Value.isMap).getD .null := rfl
    rw [chosen]
    cases found : alternatives.find? Value.isMap with
    | none => exact .inl rfl
    | some alternative =>
      have isMap := List.find?_some found
      cases alternative with
      | map facets => exact .inr ⟨facets, rfl, shaped facets (List.mem_of_find?_eq_some found)⟩
      | _ => cases isMap
  | _ => exact .inl shaped

theorem ShapedParameter.not_shapeless (shaped : ShapedParameter value) :
    ¬ IsShapelessParameter value := by
  rintro ⟨content, shapeless⟩
  rcases shaped.first with empty | ⟨facets, isFacets, fits⟩
  · rw [content] at empty
    cases empty
  · obtain ⟨declared, missing⟩ := shapeless facets isFacets
    rcases listable_enum fits with nothing | listed
    · rw [declared] at nothing
      cases nothing
    · rw [missing] at listed
      cases listed

theorem ShapedParameters.nodes {requiredDefault : Bool} (shaped : ShapedParameters value) :
    ∀ node ∈ parametersNodes requiredDefault value, ¬ node.IsShapeless := by
  intro node member
  rcases List.mem_cons.mp member with rfl | inside
  · have mappingLike : isMappingLike value = true := by
      unfold isMappingLike
      cases value with
      | map parameters => rfl
      | _ => exact Bool.or_eq_true_iff.mpr (.inr shaped)
    intro shapeless
    cases mappingLike.symm.trans shapeless
  · obtain ⟨entry, isEntry, here⟩ := List.mem_flatMap.mp inside
    rcases List.mem_pair.mp here with rfl | rfl
    · exact not_false
    · cases value with
      | map parameters => exact (shaped entry isEntry).not_shapeless
      | _ => cases isEntry

theorem methodNodes_shaped {members : Entries} (fits : Everywhere FitsMethod members) :
    ∀ node ∈ methodNodes (.map members), ¬ node.IsShapeless := by
  intro node member
  rcases List.mem_cons.mp member with rfl | member
  · intro shapeless
    cases shapeless
  rcases List.mem_cons.mp member with rfl | inside
  · exact not_false
  · have missing (name : String) : FitsMethod (some name) .null := fun _ => rfl
    rcases List.mem_append.mp inside with header | query
    · exact (fits.get (missing _) (.inl rfl)).nodes node header
    · exact (fits.get (missing _) (.inr rfl)).nodes node query

/-- The nodes of the resources among the members of a node are those of one of them. -/
theorem mem_resourcesNodes {members : List (Scalar × Value)} {node : Node} {path : String}
    (member : node ∈ resourceNodes.resourcesNodes path members) :
    ∃ entry ∈ members, ∃ relative, resourceKey? entry.1 = some relative ∧
      node ∈ resourceNodes (path ++ relative) entry.2 := by
  induction members with
  | nil => cases member
  | cons entry rest ih =>
    obtain ⟨key, child⟩ := entry
    unfold resourceNodes.resourcesNodes at member
    cases named : resourceKey? key with
    | none =>
      simp only [named] at member
      obtain ⟨entry, isEntry, found⟩ := ih member
      exact ⟨entry, List.mem_cons_of_mem _ isEntry, found⟩
    | some relative =>
      simp only [named, List.mem_append] at member
      rcases member with here | further
      · exact ⟨(key, child), List.mem_cons_self, relative, named, here⟩
      · obtain ⟨entry, isEntry, found⟩ := ih further
        exact ⟨entry, List.mem_cons_of_mem _ isEntry, found⟩

/-- **Nothing in a resolved resource is shapeless.** -/
theorem Resolved.nodes (resolved : Resolved value) :
    ∀ path, ∀ node ∈ resourceNodes path value, ¬ node.IsShapeless := by
  induction resolved with
  | @intro entries parameters methods resources ih =>
    intro path node member
    unfold resourceNodes at member
    rcases List.mem_append.mp member with inParameters | member
    · have missing : Role.of (some "uriParameters") = .parameters → ShapedParameters .null :=
        fun _ => rfl
      exact (parameters.get missing (by decide)).nodes node inParameters
    rcases List.mem_append.mp member with inMethods | member
    · obtain ⟨entry, isEntry, inMethod⟩ := List.mem_flatMap.mp inMethods
      obtain ⟨isEntry, named⟩ := List.mem_filter.mp isEntry
      obtain ⟨members, same, fits⟩ := methods entry isEntry named
      rw [same] at inMethod
      exact methodNodes_shaped fits node inMethod
    rcases List.mem_cons.mp member with rfl | member
    · exact not_false
    rcases List.mem_cons.mp member with rfl | inResources
    · exact not_false
    · obtain ⟨entry, isEntry, relative, named, inside⟩ := mem_resourcesNodes inResources
      exact ih entry isEntry (Option.isSome_of_eq_some named) _ node inside

end RamlInterfaces.Raml
