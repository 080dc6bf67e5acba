/-
**Documents of the right shape.**

A shape says of a node what the later stages rely on: a mapping where entries are taken, values
where an enum is listed.

* `ShapedParameter`, `ShapedParameters`: the shapes of named parameters;
* `Role`: what stands under a key of a resource;
* `ShapedMethod`, `ShapedResource`: the shapes of methods and resources;
* `ShapedResource.merge`, `FitsResource.merge`: **merging keeps the shapes**.
-/

import RamlInterfaces.Proofs.Raml.Merge
import RamlInterfaces.Raml.Application
import RamlInterfaces.Raml.Extraction

namespace RamlInterfaces.Raml

/-! ### Parameters -/

/-- The value is nothing or can be listed. -/
def Listable (value : Value) : Prop := value.isNull = true ∨ (items? value).isSome = true

/-- A facet that is no list of enum values, or can be listed. -/
def FitsFacet (name : Option String) (value : Value) : Prop := name = some "enum" → Listable value

/-- A named parameter: nothing, facets that fit, or alternatives of which the mappings do. -/
def ShapedParameter : Value → Prop
  | .map facets => Everywhere FitsFacet facets
  | .list alternatives =>
    ∀ facets, .map facets ∈ alternatives → Everywhere FitsFacet facets
  | other => other.isEmptyLike = true

/-- A mapping of named parameters, or nothing. -/
def ShapedParameters : Value → Prop
  | .map parameters => Everywhere (fun _ => ShapedParameter) parameters
  | other => other.isEmptyLike = true

theorem FitsFacet.merge {name : Option String} {traits : Bool} {explicit inherited : Value}
    (isExplicit : FitsFacet name explicit) (isInherited : FitsFacet name inherited) :
    FitsFacet name (merge traits explicit inherited) := by
  intro isEnum
  have maps (entries : Entries) : Listable (.map entries) := .inr rfl
  have lists (items : List Value) : Listable (.list items) := .inr rfl
  exact merge_keeps (isExplicit isEnum) (isInherited isEnum) (fun _ _ _ _ => maps _)
    fun _ _ _ _ _ => lists _

theorem ShapedParameter.merge {traits : Bool} {explicit inherited : Value}
    (isExplicit : ShapedParameter explicit) (isInherited : ShapedParameter inherited) :
    ShapedParameter (merge traits explicit inherited) := by
  refine merge_keeps isExplicit isInherited (fun own entries left right => ?_)
    fun _ own items left right => ?_
  · rw [left] at isExplicit
    rw [right] at isInherited
    exact isExplicit.mergeEntries isInherited
      fun entry member _ isExplicit => isExplicit.merge (isInherited entry member)
  · rw [left] at isExplicit
    rw [right] at isInherited
    intro facets member
    rcases List.mem_append.mp member with isOwn | isFurther
    · exact isExplicit facets isOwn
    · exact isInherited facets (List.mem_filter.mp isFurther).1

theorem ShapedParameters.merge {traits : Bool} {explicit inherited : Value}
    (isExplicit : ShapedParameters explicit) (isInherited : ShapedParameters inherited) :
    ShapedParameters (merge traits explicit inherited) := by
  refine merge_keeps isExplicit isInherited (fun own entries left right => ?_)
    fun _ own items left right => ?_
  · rw [left] at isExplicit
    rw [right] at isInherited
    have isOwn : Everywhere (fun _ => ShapedParameter) own := isExplicit
    have isFurther : Everywhere (fun _ => ShapedParameter) entries := isInherited
    exact isOwn.mergeEntries isFurther
      fun entry member _ shaped => shaped.merge (isFurther entry member)
  · rw [left] at isExplicit
    rw [right] at isInherited
    rw [List.isEmpty_iff.mp isExplicit, List.isEmpty_iff.mp isInherited]
    rfl

/-! ### Methods and resources -/

/-- The name without the question marks at its end. -/
def stem (name : String) : String :=
  String.ofList (Text.dropLastWhile (· == '?') name.toList)

/-- What stands under a key of a resource or of a resource type. -/
inductive Role where
  | parameters
  | method
  | resource
  | other
deriving DecidableEq

/-- What stands under a key that is a string; question marks at the end of a key do not matter. -/
def Role.ofName (name : String) : Role :=
  if name.toList.head? == some '/' then .resource
  else if (Verb.ofWord? (stem name)).isSome then .method
  else if stem name = "uriParameters" then .parameters
  else .other

/-- What stands under a key. -/
def Role.of (name : Option String) : Role := (name.map Role.ofName).getD .other

/-- A member of a method: named parameters where they belong. -/
def FitsMethod (name : Option String) (value : Value) : Prop :=
  name = some "headers" ∨ name = some "queryParameters" → ShapedParameters value

/-- A method: entries with named parameters where they belong. -/
def ShapedMethod (value : Value) : Prop :=
  ∃ entries, contentEntries? value = some entries ∧ Everywhere FitsMethod entries

/-- A resource: entries with named parameters, methods and resources where they belong. -/
inductive ShapedResource : Value → Prop where
  | intro {value : Value} {entries : Entries} (content : contentEntries? value = some entries)
    (parameters : Everywhere (fun name child => Role.of name = .parameters →
      ShapedParameters child) entries)
    (methods : Everywhere (fun name child => Role.of name = .method → ShapedMethod child) entries)
    (resources : ∀ entry ∈ entries, Role.of entry.1.string? = .resource →
      ShapedResource entry.2) : ShapedResource value

/-- A member of a resource that has the shape of its role. -/
structure FitsResource (name : Option String) (value : Value) : Prop where
  parameters : Role.of name = .parameters → ShapedParameters value
  method : Role.of name = .method → ShapedMethod value
  resource : Role.of name = .resource → ShapedResource value

theorem contentEntries?_map (entries : Entries) :
    contentEntries? (.map entries) = some entries := by
  unfold contentEntries? Value.isEmptyLike
  cases entries <;> rfl

theorem contentEntries?_null : contentEntries? .null = some [] := rfl

theorem shapedResource_iff {value : Value} : ShapedResource value ↔
    ∃ entries, contentEntries? value = some entries ∧ Everywhere FitsResource entries := by
  constructor
  · rintro ⟨content, parameters, methods, resources⟩
    exact ⟨_, content, fun entry member =>
      ⟨parameters entry member, methods entry member, resources entry member⟩⟩
  · rintro ⟨entries, content, all⟩
    exact ⟨content, fun entry member => (all entry member).parameters,
      fun entry member => (all entry member).method,
      fun entry member => (all entry member).resource⟩

theorem FitsMethod.merge {name : Option String} {traits : Bool} {explicit inherited : Value}
    (isExplicit : FitsMethod name explicit) (isInherited : FitsMethod name inherited) :
    FitsMethod name (merge traits explicit inherited) :=
  fun isNamed => (isExplicit isNamed).merge (isInherited isNamed)

/-- Merging keeps the entries of methods in shape. -/
theorem everywhere_fitsMethod_mergeEntries {own inherited : Entries}
    (isOwn : Everywhere FitsMethod own) (isInherited : Everywhere FitsMethod inherited) :
    Everywhere FitsMethod (mergeEntries own inherited) :=
  isOwn.mergeEntries isInherited fun entry member _ fits => fits.merge (isInherited entry member)

theorem ShapedMethod.merge {explicit inherited : Value} (isExplicit : ShapedMethod explicit)
    (isInherited : ShapedMethod inherited) : ShapedMethod (merge false explicit inherited) := by
  refine merge_keeps isExplicit isInherited (fun own entries left right => ?_)
    fun traits => nomatch traits
  obtain ⟨_, content, isOwn⟩ := isExplicit
  rw [left, contentEntries?_map, Option.some.injEq] at content
  obtain ⟨_, further, isFurther⟩ := isInherited
  rw [right, contentEntries?_map, Option.some.injEq] at further
  rw [← content] at isOwn
  rw [← further] at isFurther
  exact ⟨_, contentEntries?_map _, everywhere_fitsMethod_mergeEntries isOwn isFurther⟩

/-- Trait references have no role of their own. -/
theorem isTraitsKey_eq_false {key : Scalar} (role : Role.of key.string? ≠ .other) :
    isTraitsKey key = false := by
  refine Bool.eq_false_iff.mpr fun isTraits => role ?_
  rw [show key.string? = some "is" from beq_iff_eq.mp isTraits]
  decide

theorem ShapedResource.merge {explicit inherited : Value} (isExplicit : ShapedResource explicit)
    (isInherited : ShapedResource inherited) : ShapedResource (merge false explicit inherited) := by
  induction isInherited generalizing explicit with
  | @intro inherited further content parameters methods resources ih =>
    have isInherited : ShapedResource inherited := ⟨content, parameters, methods, resources⟩
    refine merge_keeps isExplicit isInherited (fun own entries left right => ?_)
      fun traits => nomatch traits
    obtain ⟨_, isOwn, shaped⟩ := shapedResource_iff.mp isExplicit
    rw [left, contentEntries?_map, Option.some.injEq] at isOwn
    rw [right, contentEntries?_map, Option.some.injEq] at content
    rw [← isOwn] at shaped
    refine shapedResource_iff.mpr ⟨_, contentEntries?_map _, shaped.mergeEntries ?_ ?_⟩
    · rw [content]
      exact fun entry member =>
        ⟨parameters entry member, methods entry member, resources entry member⟩
    · rw [content]
      intro entry member explicit fits
      refine ⟨fun role => ?_, fun role => ?_, fun role => ?_⟩
      · exact (fits.parameters role).merge (parameters entry member role)
      · rw [isTraitsKey_eq_false (by rw [role]; decide)]
        exact (fits.method role).merge (methods entry member role)
      · rw [isTraitsKey_eq_false (by rw [role]; decide)]
        exact ih entry member role (fits.resource role)

/-- **Merging keeps the members of resources in shape**; references to traits have no role, so their
lists may be joined. -/
theorem FitsResource.merge {name : Option String} {traits : Bool} {explicit inherited : Value}
    (plain : Role.of name ≠ .other → traits = false) (isExplicit : FitsResource name explicit)
    (isInherited : FitsResource name inherited) :
    FitsResource name (merge traits explicit inherited) := by
  refine ⟨fun role => ?_, fun role => ?_, fun role => ?_⟩
  · exact (isExplicit.parameters role).merge (isInherited.parameters role)
  · rw [plain (by rw [role]; decide)]
    exact (isExplicit.method role).merge (isInherited.method role)
  · rw [plain (by rw [role]; decide)]
    exact (isExplicit.resource role).merge (isInherited.resource role)

end RamlInterfaces.Raml
