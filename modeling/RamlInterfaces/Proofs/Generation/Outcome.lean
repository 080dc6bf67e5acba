/-
**How the way from a document to a model ends.**

The templates of a document are applied, its description is extracted, and the model is built.  This
is meant to end with a model or with a refusal, of the document or by the model.  Otherwise a stage
comes to something of a wrong shape, or one of the first two to an integer with too many digits to
be written, and nothing else goes wrong.

* `outcome`: what the way from a document to a model ends with;
* `EndsForeseen`: it ends with a model or with a refusal;
* `MeetsShapelessTarget`, `MeetsShapelessNode`, `MeetsUnwritable`, `MeetsInfiniteLimit`: what goes
  wrong in the stages;
* `outcome_foreseen_iff`: **the way ends foreseen exactly when none of these is met**;
* `outcome_foreseen_iff_of_shaped`: **of a document without problems only the integers and limits
  matter**, where the bodies of its templates have their shapes.
-/

import RamlInterfaces.Proofs.Generation.Limits
import RamlInterfaces.Proofs.Raml.Validated
import RamlInterfaces.Raml.Reading

namespace RamlInterfaces.Generation

open Raml (applyTemplatesWithin extractDescription)
open Settings (Configuration)

/-- What the way from a document to a model ends with, templates being applied down to a depth. -/
def outcome (configuration : Configuration) (depth : Nat) (root : Entries) :
    Except Failure Session := do
  let resolved ← applyTemplatesWithin depth root
  let description ← extractDescription resolved
  buildModel configuration description

/-- Down to the depth of the program it is the model of the description of the document. -/
theorem outcome_nestingLimit (configuration : Configuration) (root : Entries) :
    outcome configuration Raml.nestingLimit root =
      Raml.describe root >>= buildModel configuration :=
  (bind_assoc _ _ _).symm

/-- A result that is foreseen: there is one, or the document or the model refuses. -/
def EndsForeseen {α : Type} (result : Except Failure α) : Prop :=
  (∃ value, result = .ok value) ∨ (∃ fault, result = .error (.raml fault)) ∨
    ∃ fault, result = .error (.model fault)

/-- The application of templates comes to the place of a resource or a method where there is neither
nothing nor a mapping, nor pairs that make one. -/
def MeetsShapelessTarget (depth : Nat) (root : Entries) : Prop :=
  ∃ node, Raml.ReachesFromRoot depth root node ∧ Raml.contentEntries? node = none

/-- The walk through the resolved document comes to a mapping of parameters, a parameter or enum
values that are none. -/
def MeetsShapelessNode (depth : Nat) (root : Entries) : Prop :=
  ∃ resolved, applyTemplatesWithin depth root = .ok resolved ∧
    ∃ node, Raml.Meets (Raml.documentNodes resolved) node ∧ node.IsShapeless

/-- The application of templates comes to a template that it cannot write the name or an argument
of, or the walk through the resolved document to a value that it cannot write. -/
def MeetsUnwritable (depth : Nat) (root : Entries) : Prop :=
  Raml.ReachesUnwritableFromRoot depth root ∨
    ∃ resolved, applyTemplatesWithin depth root = .ok resolved ∧
      ∃ node, Raml.Meets (Raml.documentNodes resolved) node ∧ node.IsUnwritable

/-- Constraints are wanted, and building comes to an integer with a limit that is not finite. -/
def MeetsInfiniteLimit (configuration : Configuration) (depth : Nat) (root : Entries) : Prop :=
  configuration.constraints = true ∧
    ∃ resolved description, applyTemplatesWithin depth root = .ok resolved ∧
      extractDescription resolved = .ok description ∧
        ∃ p session, ComesToParameter configuration description p session ∧ HasInfiniteLimit p

variable {configuration : Configuration} {depth : Nat} {root : Entries}

/-- A result is not foreseen exactly when it is a defect, if nothing else can go wrong. -/
theorem endsForeseen_iff {α : Type} {result : Except Failure α}
    (only : ∀ failure, result = .error failure →
      (∃ cause, failure = .defect cause) ∨ (∃ fault, failure = .raml fault) ∨
        ∃ fault, failure = .model fault) :
    EndsForeseen result ↔ ¬ ∃ cause, result = .error (.defect cause) := by
  unfold EndsForeseen
  constructor
  · rintro (⟨_, same⟩ | ⟨_, same⟩ | ⟨_, same⟩) ⟨_, defect⟩ <;> exact nomatch same.symm.trans defect
  · intro sound
    cases result with
    | ok value => exact .inl ⟨value, rfl⟩
    | error failure =>
      rcases only failure rfl with ⟨cause, rfl⟩ | ⟨fault, rfl⟩ | ⟨fault, rfl⟩
      · exact absurd ⟨cause, rfl⟩ sound
      · exact .inr (.inl ⟨fault, rfl⟩)
      · exact .inr (.inr ⟨fault, rfl⟩)

/-- What the way can fail with where the application of templates ends. -/
theorem outcome_error (based : configuration.basePackage.isEmpty = false)
    (ends : applyTemplatesWithin depth root ≠ .error (.defect .nestedTooDeeply))
    {failure : Failure} (failed : outcome configuration depth root = .error failure) :
    (∃ cause, failure = .defect cause) ∨ (∃ fault, failure = .raml fault) ∨
      ∃ fault, failure = .model fault := by
  rcases bind_eq_error_iff.mp failed with unresolved | ⟨resolved, _, failed⟩
  · rcases Raml.applyTemplates_error unresolved with ⟨rfl, _⟩ | unfillable
    · exact .inl ⟨_, rfl⟩
    cases unfillable with
    | refused fault => exact .inr (.inl ⟨fault, rfl⟩)
    | endless => exact absurd unresolved ends
    | unwritable => exact .inl ⟨_, rfl⟩
  rcases bind_eq_error_iff.mp failed with undescribed | ⟨description, _, failed⟩
  · rcases Raml.extractDescription_error undescribed with defect | refused
    · exact .inl defect
    · exact .inr (.inl refused)
  rcases buildModel_error based failed with refused | rfl
  · exact .inr (.inr refused)
  · exact .inl ⟨_, rfl⟩

/-- The way ends in a defect exactly when it meets one in one of its stages. -/
theorem outcome_defect_iff (based : configuration.basePackage.isEmpty = false)
    (ends : applyTemplatesWithin depth root ≠ .error (.defect .nestedTooDeeply)) :
    (∃ cause, outcome configuration depth root = .error (.defect cause)) ↔
      MeetsShapelessTarget depth root ∨ MeetsShapelessNode depth root ∨
        MeetsUnwritable depth root ∨ MeetsInfiniteLimit configuration depth root := by
  constructor
  · rintro ⟨cause, failed⟩
    rcases bind_eq_error_iff.mp failed with unresolved | ⟨resolved, applied, failed⟩
    · rcases Raml.applyTemplates_error unresolved with ⟨_, target⟩ | unfillable
      · exact .inl target
      cases unfillable with
      | endless => exact absurd unresolved ends
      | unwritable =>
        exact .inr (.inr (.inl (.inl (Raml.applyTemplates_tooManyDigits_iff.mp unresolved))))
    rcases bind_eq_error_iff.mp failed with undescribed | ⟨description, described, failed⟩
    · obtain ⟨node, meets, shapeless | unwritable⟩ :=
        Raml.extractDescription_defect_iff.mp ⟨_, undescribed⟩
      · exact .inr (.inl ⟨resolved, applied, node, meets, shapeless⟩)
      · exact .inr (.inr (.inl (.inr ⟨resolved, applied, node, meets, unwritable⟩)))
    · obtain ⟨wanted, limit⟩ := (buildModel_defect_iff based).mp ⟨_, failed⟩
      exact .inr (.inr (.inr ⟨wanted, resolved, description, applied, described, limit⟩))
  · -- a node of the resolved document ends the extraction
    have ofNode {resolved : Entries} (applied : applyTemplatesWithin depth root = .ok resolved)
        (node : ∃ node, Raml.Meets (Raml.documentNodes resolved) node ∧
          (node.IsShapeless ∨ node.IsUnwritable)) :
        ∃ cause, outcome configuration depth root = .error (.defect cause) := by
      obtain ⟨cause, undescribed⟩ := Raml.extractDescription_defect_iff.mpr node
      refine ⟨cause, bind_eq_error_iff.mpr (.inr ⟨resolved, applied, ?_⟩)⟩
      exact bind_eq_error_iff.mpr (.inl undescribed)
    rintro (target | ⟨resolved, applied, node, meets, shapeless⟩ |
      (target | ⟨resolved, applied, node, meets, unwritable⟩) |
      ⟨wanted, resolved, description, applied, described, limit⟩)
    · have unresolved := Raml.applyTemplates_notMapping_iff.mpr target
      exact ⟨.notMapping, bind_eq_error_iff.mpr (.inl unresolved)⟩
    · exact ofNode applied ⟨node, meets, .inl shapeless⟩
    · have unresolved := Raml.applyTemplates_tooManyDigits_iff.mpr target
      exact ⟨.tooManyDigits, bind_eq_error_iff.mpr (.inl unresolved)⟩
    · exact ofNode applied ⟨node, meets, .inr unwritable⟩
    · obtain ⟨cause, failed⟩ := (buildModel_defect_iff based).mpr ⟨wanted, limit⟩
      refine ⟨cause, bind_eq_error_iff.mpr (.inr ⟨resolved, applied, ?_⟩)⟩
      exact bind_eq_error_iff.mpr (.inr ⟨description, described, failed⟩)

/-- **The way from a document to a model ends with a model or a refusal exactly when it meets
nothing shapeless, nothing that cannot be written and no limit that is not finite**, if the
application of templates ends. -/
theorem outcome_foreseen_iff (based : configuration.basePackage.isEmpty = false)
    (ends : applyTemplatesWithin depth root ≠ .error (.defect .nestedTooDeeply)) :
    EndsForeseen (outcome configuration depth root) ↔ ¬ MeetsShapelessTarget depth root ∧
      ¬ MeetsShapelessNode depth root ∧ ¬ MeetsUnwritable depth root ∧
        ¬ MeetsInfiniteLimit configuration depth root := by
  rw [endsForeseen_iff fun failure => outcome_error based ends, outcome_defect_iff based ends,
    not_or, not_or, not_or]

/-- **The way from a document without problems ends with a model or a refusal exactly when it meets
nothing that cannot be written and no limit that is not finite**, if the bodies of its templates
have their shapes. -/
theorem outcome_foreseen_iff_of_shaped (valid : Raml.problems root = .ok [])
    (shaped : Raml.ShapedTemplates (Raml.Templates.ofRoot root))
    (based : configuration.basePackage.isEmpty = false)
    (ends : applyTemplatesWithin depth root ≠ .error (.defect .nestedTooDeeply)) :
    EndsForeseen (outcome configuration depth root) ↔
      ¬ MeetsUnwritable depth root ∧ ¬ MeetsInfiniteLimit configuration depth root := by
  have noTarget : ¬ MeetsShapelessTarget depth root := by
    rintro ⟨node, reaches, shapeless⟩
    exact Raml.not_reachesShapeless valid shaped reaches shapeless
  have noNode : ¬ MeetsShapelessNode depth root := by
    rintro ⟨resolved, applied, node, ⟨before, after, split, _⟩, shapeless⟩
    refine Raml.not_meetsShapeless valid shaped applied node ?_ shapeless
    rw [split]
    exact List.mem_append.mpr (.inr List.mem_cons_self)
  rw [outcome_foreseen_iff based ends]
  exact ⟨fun met => met.2.2, fun further => ⟨noTarget, noNode, further⟩⟩

/-- A document with one method, which takes its query parameters from a trait. -/
def paged (queryParameters : Value) : Entries :=
  [(.text "title", .text "t"),
    (.text "traits", .map [(.text "paged", .map [(.text "queryParameters", queryParameters)])]),
    (.text "/a", .map [(.text "get", .map [(.text "is", .text "paged")])])]

/-- The query parameters of a trait: one that has only its name. -/
def onePage : Value := .map [(.text "page", .null)]

theorem outcome_foreseen_onePage :
    EndsForeseen (outcome { basePackage := "api" } Raml.nestingLimit (paged onePage)) ∧
      ¬ MeetsShapelessTarget Raml.nestingLimit (paged onePage) ∧
      ¬ MeetsShapelessNode Raml.nestingLimit (paged onePage) ∧
      ¬ MeetsUnwritable Raml.nestingLimit (paged onePage) ∧
      ¬ MeetsInfiniteLimit { basePackage := "api" } Raml.nestingLimit (paged onePage) := by
  have built :
      (outcome { basePackage := "api" } Raml.nestingLimit (paged onePage)).isOk = true := by
    decide +kernel
  have ends : applyTemplatesWithin Raml.nestingLimit (paged onePage) ≠
      .error (.defect .nestedTooDeeply) := by
    intro failed
    unfold outcome at built
    rw [failed] at built
    cases built
  have foreseen : EndsForeseen
      (outcome { basePackage := "api" } Raml.nestingLimit (paged onePage)) := by
    cases done : outcome { basePackage := "api" } Raml.nestingLimit (paged onePage) with
    | ok session => exact .inl ⟨session, rfl⟩
    | error failure =>
      rw [done] at built
      cases built
  exact ⟨foreseen, (outcome_foreseen_iff rfl ends).mp foreseen⟩

/-- **A document without problems that ends otherwise**: the trait has a number where the query
parameters belong. -/
theorem unforeseen_end : Raml.problems (paged (.scalar (.int 5))) = .ok [] ∧
    applyTemplatesWithin Raml.nestingLimit (paged (.scalar (.int 5))) ≠
      .error (.defect .nestedTooDeeply) ∧
    ¬ EndsForeseen
      (outcome { basePackage := "api" } Raml.nestingLimit (paged (.scalar (.int 5)))) := by
  have applied :
      (applyTemplatesWithin Raml.nestingLimit (paged (.scalar (.int 5)))).isOk = true := by
    decide +kernel
  have shapeless : failure? (outcome { basePackage := "api" } Raml.nestingLimit
      (paged (.scalar (.int 5)))) = some (.defect .notMapping) := by
    decide +kernel
  refine ⟨by decide +kernel, fun failed => ?_, ?_⟩
  · rw [failed] at applied
    cases applied
  · rw [failure?_eq_some.mp shapeless]
    rintro (⟨_, same⟩ | ⟨_, same⟩ | ⟨_, same⟩) <;> cases same

end RamlInterfaces.Generation
