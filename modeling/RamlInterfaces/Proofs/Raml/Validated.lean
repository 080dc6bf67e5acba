/-
**Documents without problems.**

The structure of a document is checked before its templates are applied, their bodies apart.  What
has no problems has the shapes that the later stages rely on.

* `shapedParameters_of_problems`, `shapedMethod_of_problems`: named parameters and methods;
* `shapedResource_of_problems`: **a resource without problems has its shape**;
* `not_reachesShapeless`, `not_meetsShapeless`: **in a document without problems nothing shapeless
  is met**, where the bodies of its templates have their shapes.
-/

import RamlInterfaces.Proofs.Raml.Resolved
import RamlInterfaces.Raml.Validation

namespace RamlInterfaces.Raml

variable {path : String} {key : Scalar} {value : Value}

/-! ### Findings -/

theorem complain_ne_nil (path : String) (complaint : Complaint) :
    complain path complaint ≠ .ok [] :=
  fun same => List.cons_ne_nil _ _ (Except.ok.inj same)

namespace Findings

/-- Two checks find nothing if each of them does. -/
theorem append_eq_nil_iff {first second : Findings} :
    first ++ second = .ok [] ↔ first = .ok [] ∧ second = .ok [] := by
  constructor
  · intro nothing
    obtain ⟨found, isFound, nothing⟩ := bind_eq_ok_iff.mp nothing
    obtain ⟨others, isOthers, nothing⟩ := bind_eq_ok_iff.mp nothing
    obtain ⟨rfl, rfl⟩ := List.append_eq_nil_iff.mp (Except.ok.inj nothing)
    exact ⟨isFound, isOthers⟩
  · rintro ⟨rfl, rfl⟩
    rfl

theorem inEach_eq_nil_iff {α : Type} {find : α → Findings} {items : List α} :
    inEach find items = .ok [] ↔ ∀ item ∈ items, find item = .ok [] := by
  induction items with
  | nil => exact iff_of_true rfl fun item member => absurd member List.not_mem_nil
  | cons item rest ih =>
    unfold inEach
    rw [append_eq_nil_iff, ih, List.forall_mem_cons]

/-- Nothing is found at a key that can be written, and at its place. -/
theorem atKey_eq_nil_iff {find : String → Findings} :
    atKey key find = .ok [] ↔ ∃ name, key.toText? = some name ∧ find name = .ok [] := by
  unfold atKey
  simp only [bind_eq_ok_iff, written_eq_ok_iff]

end Findings

/-! ### Named parameters -/

theorem fitsFacet_of_problems (valid : facetProblems path key value = .ok []) :
    FitsFacet key.string? value := by
  intro isEnum
  cases value with
  | list items => exact .inr rfl
  | _ => simp [facetProblems, isEnum, parameterKeys, complain] at valid

theorem fitsFacets_of_problems {facets : Entries}
    (valid : parameterProblems path (.map facets) = .ok []) : Everywhere FitsFacet facets := by
  unfold parameterProblems at valid
  intro entry member
  obtain ⟨_, _, here⟩ :=
    Findings.atKey_eq_nil_iff.mp (Findings.inEach_eq_nil_iff.mp valid entry member)
  exact fitsFacet_of_problems here

theorem alternative_of_problems {alternatives : List Value} {alternative : Value}
    (valid : parameterProblems.alternativeProblems path alternatives = .ok [])
    (member : alternative ∈ alternatives) : parameterProblems path alternative = .ok [] := by
  induction alternatives with
  | nil => cases member
  | cons first rest ih =>
    unfold parameterProblems.alternativeProblems at valid
    obtain ⟨here, further⟩ := Findings.append_eq_nil_iff.mp valid
    rcases List.mem_cons.mp member with rfl | inRest
    · exact here
    · exact ih further inRest

theorem shapedParameter_of_problems (valid : parameterProblems path value = .ok []) :
    ShapedParameter value := by
  cases value with
  | map facets => exact fitsFacets_of_problems valid
  | list alternatives =>
    intro facets member
    unfold parameterProblems at valid
    exact fitsFacets_of_problems (alternative_of_problems valid member)
  | scalar s =>
    cases s with
    | null => rfl
    | _ => exact absurd valid (complain_ne_nil _ _)
  | _ => exact absurd valid (complain_ne_nil _ _)

/-- **Named parameters without problems have their shape.** -/
theorem shapedParameters_of_problems (valid : parametersProblems path value = .ok []) :
    ShapedParameters value := by
  cases value with
  | map parameters =>
    intro entry member
    obtain ⟨_, _, here⟩ :=
      Findings.atKey_eq_nil_iff.mp (Findings.inEach_eq_nil_iff.mp valid entry member)
    exact shapedParameter_of_problems here
  | scalar s =>
    cases s with
    | null => rfl
    | _ => exact absurd valid (complain_ne_nil _ _)
  | _ => exact absurd valid (complain_ne_nil _ _)

/-! ### Methods and resources -/

variable {templates : Templates}

theorem fitsMethod_of_problems (valid : actionMemberProblems templates path key value = .ok []) :
    FitsMethod key.string? value := by
  intro named
  have parameters : isOneOf ["headers", "queryParameters", "baseUriParameters"] key = true := by
    unfold isOneOf
    rcases named with same | same <;> rw [same] <;> decide
  unfold actionMemberProblems at valid
  simp only [parameters, if_true] at valid
  exact shapedParameters_of_problems valid

theorem shapedMethod_of_problems (valid : actionProblems templates path value = .ok []) :
    ShapedMethod value := by
  cases value with
  | map members =>
    refine ⟨members, contentEntries?_map members, fun entry member => ?_⟩
    obtain ⟨_, _, here⟩ :=
      Findings.atKey_eq_nil_iff.mp (Findings.inEach_eq_nil_iff.mp valid entry member)
    exact fitsMethod_of_problems here
  | scalar s =>
    cases s with
    | null => exact ⟨[], contentEntries?_null, Everywhere.nil⟩
    | _ => exact absurd valid (complain_ne_nil _ _)
  | _ => exact absurd valid (complain_ne_nil _ _)

theorem role_of_mem_resourceKeys :
    ∀ name ∈ resourceKeys, name = "uriParameters" ∨ Role.ofName name = .other := by
  decide

/-- A key without problems that declares neither a resource nor a method is a known one. -/
theorem isOneOf_resourceKeys_of_problems (noVerb : verbKey? key = none)
    (valid : resourceMemberProblems templates path key value = .ok []) :
    isOneOf resourceKeys key = true := by
  unfold resourceMemberProblems at valid
  simp only [noVerb, Option.isSome_none, Bool.false_eq_true, if_false] at valid
  cases named : key.string? with
  | none => simp [isOneOf, named, isOptionalVerb, complain] at valid
  | some name =>
    unfold isOneOf at valid ⊢
    simp only [named] at valid ⊢
    by_cases known : resourceKeys.contains name = true
    · exact known
    · have unlisted (names : List String)
          (listed : ∀ name ∈ names, resourceKeys.contains name = true) :
          names.contains name = false :=
        Bool.eq_false_iff.mpr fun isIn => known (listed name (List.contains_iff_mem.mp isIn))
      simp only [unlisted ["uriParameters", "baseUriParameters"] (by decide),
        unlisted ["type"] (by decide), unlisted ["is"] (by decide),
        unlisted ["displayName", "description"] (by decide), known, Bool.false_eq_true,
        if_false] at valid
      split at valid <;> exact absurd valid (complain_ne_nil _ _)

/-- A member of a resource that is not itself a resource and has no problems has its shape. -/
theorem fitsResource_of_problems
    (valid : resourceMemberProblems templates path key value = .ok []) :
    FitsResource key.string? value := by
  cases named : verbKey? key with
  | some verb =>
    have role := role_of_verbKey? named
    unfold resourceMemberProblems at valid
    simp only [named, Option.isSome_some, if_true] at valid
    refine ⟨fun other => ?_, fun _ => shapedMethod_of_problems valid, fun other => ?_⟩
    · cases role.symm.trans other
    · cases role.symm.trans other
  | none =>
    have known := isOneOf_resourceKeys_of_problems named valid
    unfold isOneOf at known
    cases isName : key.string? with
    | none =>
      rw [isName] at known
      cases known
    | some name =>
      rw [isName] at known
      rcases role_of_mem_resourceKeys name (List.contains_iff_mem.mp known) with rfl | other
      · have parameters : isOneOf ["uriParameters", "baseUriParameters"] key = true := by
          unfold isOneOf
          rw [isName]
          decide
        unfold resourceMemberProblems at valid
        simp only [named, parameters, Option.isSome_none, Bool.false_eq_true, if_false,
          if_true] at valid
        refine ⟨fun _ => shapedParameters_of_problems valid, fun role => ?_, fun role => ?_⟩
        · exact absurd role (by decide)
        · exact absurd role (by decide)
      · have none (role : Role) (isRole : Role.of (some name) = role) : role = .other :=
          isRole.symm.trans other
        refine ⟨fun role => ?_, fun role => ?_, fun role => ?_⟩
        · cases none _ role
        · cases none _ role
        · cases none _ role

mutual

/-- **A resource without problems has its shape.** -/
theorem shapedResource_of_problems (path : String) :
    (value : Value) → resourceProblems templates path value = .ok [] → ShapedResource value
  | .map members, valid => by
    unfold resourceProblems at valid
    exact shapedResource_iff.mpr
      ⟨members, contentEntries?_map members, fitsMembers_of_problems path members valid⟩
  | .scalar .null, _ => shapedResource_iff.mpr ⟨[], contentEntries?_null, Everywhere.nil⟩

theorem fitsMembers_of_problems (path : String) : (members : List (Scalar × Value)) →
    resourceProblems.memberProblems templates path members = .ok [] →
      Everywhere FitsResource members
  | [], _ => Everywhere.nil
  | (key, child) :: rest, valid => by
    unfold resourceProblems.memberProblems at valid
    obtain ⟨here, further⟩ := Findings.append_eq_nil_iff.mp valid
    refine Everywhere.cons ?_ (fitsMembers_of_problems path rest further)
    cases named : resourceKey? key with
    | none =>
      rw [named] at here
      obtain ⟨_, _, here⟩ := Findings.atKey_eq_nil_iff.mp here
      exact fitsResource_of_problems here
    | some relative =>
      rw [named] at here
      have shaped := shapedResource_of_problems (path ++ relative) child here
      have role := role_of_resourceKey? named
      refine ⟨fun other => ?_, fun other => ?_, fun _ => shaped⟩
      · cases role.symm.trans other
      · cases role.symm.trans other

end

/-! ### Documents -/

variable {depth : Nat} {root : Entries}

theorem shapedResource_of_mem (valid : problems root = .ok []) {relative : String}
    (member : (key, value) ∈ root) (named : resourceKey? key = some relative) :
    ShapedResource value := by
  obtain ⟨_, resources⟩ := Findings.append_eq_nil_iff.mp valid
  have here := Findings.inEach_eq_nil_iff.mp resources (key, value) member
  simp only [entryProblems, named] at here
  exact shapedResource_of_problems relative value here

/-- **In a document without problems the application comes to nothing shapeless**, if the bodies of
its templates have their shapes. -/
theorem not_reachesShapeless (valid : problems root = .ok [])
    (shaped : ShapedTemplates (Templates.ofRoot root)) {node : Value}
    (reaches : ReachesFromRoot depth root node) : contentEntries? node ≠ none := by
  obtain ⟨key, value, relative, comes, named, reaches⟩ := reaches
  exact reaches.shaped shaped (shapedResource_of_mem valid comes.mem named)

/-- **Nothing is shapeless in a document without problems whose templates are applied**, if their
bodies have their shapes. -/
theorem not_meetsShapeless (valid : problems root = .ok [])
    (shaped : ShapedTemplates (Templates.ofRoot root)) {resolved : Entries}
    (applied : applyTemplatesWithin depth root = .ok resolved) :
    ∀ node ∈ documentNodes resolved, ¬ node.IsShapeless := by
  intro node member
  rcases List.mem_cons.mp member with rfl | member
  · exact not_false
  rcases List.mem_cons.mp member with rfl | member
  · exact not_false
  rcases List.mem_cons.mp member with rfl | member
  · exact not_false
  rcases List.mem_cons.mp member with rfl | member
  · exact not_false
  obtain ⟨⟨key, result⟩, isEntry, relative, named, inside⟩ := mem_resourcesNodes member
  obtain ⟨⟨first, value⟩, member, step⟩ := exists_of_mem_mapM applied isEntry
  cases isResource : resourceKey? first with
  | none =>
    simp only [resolveEntry, isResource] at step
    cases step
    cases isResource.symm.trans named
  | some path =>
    rw [resolveEntry_resource isResource] at step
    obtain ⟨resolved, done, same⟩ := bind_eq_ok_iff.mp step
    cases same
    have isShaped := shapedResource_of_mem valid member isResource
    exact (resolveResource_resolved shaped isShaped done).nodes _ node inside

end RamlInterfaces.Raml
