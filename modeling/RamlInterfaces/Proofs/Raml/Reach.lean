/-
**What the application of templates comes to, and how it fails.**

A document is refused when a template is missing, is applied in a circle or lacks an argument.  What
stands in the place of a resource or a method is looked into all the same, also where the content of
a template put it there, and a value that has no entries ends the application.  An integer with too
many digits ends it where it is written: in the name of a template or as an argument.

* `Unfillable`: the failures of a template that is applied;
* `UnwritableReference`, `UnwritableChain`: what cannot be written is referred to or passed;
* `Reaches`, `ReachesUnwritable`: the resources and methods that the application comes to, and those
  that it cannot write the templates of;
* `applyTemplates_notMapping_iff`, `applyTemplates_tooManyDigits_iff`: **the application fails so
  exactly when it comes to a value without entries, or to one that cannot be written**;
* `applyTemplates_error`: the application fails in no other way than these.
-/

import RamlInterfaces.Proofs.Raml.Inheritance
import RamlInterfaces.Proofs.Raml.Traits

namespace RamlInterfaces.Raml

/-! ### Failures -/

/-- A template that is applied fails so: the document is refused, the body has no end, or an integer
that is written has too many digits. -/
inductive Unfillable : Failure → Prop where
  | refused (fault : Fault) : Unfillable (.raml fault)
  | endless : Unfillable (.defect .nestedTooDeeply)
  | unwritable : Unfillable (.defect .tooManyDigits)

variable {templates : Templates} {types template arguments node : Entries} {failure : Failure}
  {value : Value}

theorem Unfillable.ne_notMapping (unfillable : Unfillable failure) :
    failure ≠ .defect .notMapping := by
  rintro rfl
  cases unfillable

theorem FillingFails.unfillable (fails : FillingFails failure) : Unfillable failure := by
  cases fails with
  | argument | transform => exact .refused _
  | unwritable => exact .unwritable
  | endless => exact .endless

theorem applyType_error {declared : Entries}
    (failed : applyType templates arguments declared = .error failure) : Unfillable failure := by
  obtain ⟨typed, failed⟩ := applyType_eq_error_iff.mp failed
  obtain ⟨_, _, _, _, halts⟩ := (mergeType_error_iff typed .nil).mp failed
  cases halts with
  | unwritable => exact .unwritable
  | circular | undeclared => exact .refused _
  | unfilled _ _ _ unfilled => exact (templateBody_error unfilled).unfillable

theorem TraitFails.unfillable (fails : TraitFails templates arguments value failure) :
    Unfillable failure := by
  cases fails with
  | unwritable => exact .unwritable
  | undeclared => exact .refused _
  | body _ _ unfilled => exact (templateBody_error unfilled).unfillable

/-! ### What cannot be written -/

/-- The filling of a template comes to an argument that cannot be written. -/
def FillsUnwritable (template arguments : Entries) : Prop :=
  let body := Value.map ((template.erase (.text "usage")).erase (.text "displayName"))
  body.isEndless = false ∧ ∃ p passed, FillingComesTo arguments body p ∧
    arguments.find? (.text p.name) = some passed ∧ passed.toText? = none

/-- A value refers to one of the declared templates by what cannot be written, or the template is
filled with what cannot be. -/
inductive UnwritableReference (declared arguments : Entries) (value : Value) : Prop where
  | name (noText : Reference.ofValue? value = none)
  | argument {reference : Reference} {template : Entries}
    (isReference : Reference.ofValue? value = some reference)
    (found : declared.find? (.text reference.name) = some (.map template))
    (fills : FillsUnwritable template (arguments.putAll reference.arguments))

/-- The chain of types from a node leads, through types that are all different, to a reference to
another that cannot be written or is filled with what cannot be. -/
def UnwritableChain (types arguments node : Entries) : Prop :=
  ∃ names last, Follows types arguments node names last ∧ names.Nodup ∧
    (last.get "type").isNull = false ∧
    (∀ reference, Reference.ofValue? (last.get "type") = some reference →
      reference.name ∉ names) ∧
    UnwritableReference types arguments (last.get "type")

theorem templateBody_tooManyDigits_iff :
    templateBody template arguments = .error (.defect .tooManyDigits) ↔
      FillsUnwritable template arguments := by
  rw [templateBody_eq_error_iff]
  constructor
  · rintro (⟨-, same⟩ | ⟨ends, refused⟩)
    · cases same
    · obtain ⟨p, comes, blames⟩ := substitute_eq_error_iff.mp refused
      cases blames with
      | unwritable passed noText => exact ⟨ends, p, _, comes, passed, noText⟩
  · rintro ⟨ends, p, passed, comes, isPassed, noText⟩
    exact .inr ⟨ends, substitute_eq_error_iff.mpr ⟨p, comes, .unwritable isPassed noText⟩⟩

theorem applyType_tooManyDigits_iff :
    applyType templates arguments node = .error (.defect .tooManyDigits) ↔
      (node.get "type").isNull = false ∧
        UnwritableChain templates.resourceTypes arguments node := by
  rw [applyType_eq_error_iff]
  refine and_congr_right fun typed => ?_
  rw [mergeType_error_iff typed .nil]
  constructor
  · rintro ⟨names, last, follows, apart, halts⟩
    cases halts with
    | unwritable typed noText =>
      refine ⟨names, last, follows, apart, typed, fun reference isReference => ?_, .name noText⟩
      cases noText.symm.trans isReference
    | unfilled refers fresh found failed =>
      refine ⟨names, last, follows, apart, refers.1, fun reference isReference => ?_, ?_⟩
      · cases refers.2.symm.trans isReference
        exact fresh
      · exact .argument refers.2 found (templateBody_tooManyDigits_iff.mp failed)
  · rintro ⟨names, last, follows, apart, typed, fresh, unwritable⟩
    refine ⟨names, last, follows, apart, ?_⟩
    cases unwritable with
    | name noText => exact .unwritable typed noText
    | argument isReference found fills =>
      exact .unfilled ⟨typed, isReference⟩ (fresh _ isReference) found
        (templateBody_tooManyDigits_iff.mpr fills)

theorem traitFails_tooManyDigits_iff :
    TraitFails templates arguments value (.defect .tooManyDigits) ↔
      UnwritableReference templates.traits arguments value := by
  constructor
  · intro fails
    cases fails with
    | unwritable noText => exact .name noText
    | body isReference found unfilled =>
      exact .argument isReference found (templateBody_tooManyDigits_iff.mp unfilled)
  · intro unwritable
    cases unwritable with
    | name noText => exact .unwritable noText
    | argument isReference found fills =>
      exact .body isReference found (templateBody_tooManyDigits_iff.mpr fills)

/-! ### What the application comes to -/

/-- The application to a resource comes to one of its members, those of its type among them. -/
def ComesToMember (templates : Templates) (depth : Nat) (path : String) (value : Value)
    (member : Scalar × Value) : Prop :=
  ∃ declared resource, contentEntries? value = some declared ∧
    applyType templates (resourceArguments path) declared = .ok resource ∧
    ComesTo (memberStep templates depth path resource) resource member

/-- The application to a resource comes to a node: the resource itself, one of its methods, or what
it comes to in a resource below. -/
inductive Reaches (templates : Templates) : Nat → String → String → Value → Value → Prop where
  | here {depth : Nat} {parentPath relativePath : String} {node : Value} :
    Reaches templates (depth + 1) parentPath relativePath node node
  | method {depth : Nat} {parentPath relativePath : String} {value node : Value} {key : Scalar}
    {verb : Verb}
    (member : ComesToMember templates depth (parentPath ++ relativePath) value (key, node))
    (named : verbKey? key = some verb) :
    Reaches templates (depth + 1) parentPath relativePath value node
  | within {depth : Nat} {parentPath relativePath further : String} {value child node : Value}
    {key : Scalar}
    (member : ComesToMember templates depth (parentPath ++ relativePath) value (key, child))
    (named : resourceKey? key = some further)
    (deeper : Reaches templates depth (parentPath ++ relativePath) further child node) :
    Reaches templates (depth + 1) parentPath relativePath value node

/-- The application to a method comes to a reference to a trait. -/
def ComesToTrait (templates : Templates) (path : String) (traits : List Value) (verb : Verb)
    (value reference : Value) : Prop :=
  ∃ method, contentEntries? value = some method ∧
    ComesTo (traitBody templates (methodArguments path verb.word))
      (methodReferences traits method) reference

/-- The application to a resource comes to a template that it cannot write the name or an argument
of: a type of the resource, a trait of one of its methods, or one in a resource below. -/
inductive ReachesUnwritable (templates : Templates) : Nat → String → String → Value → Prop where
  | type {depth : Nat} {parentPath relativePath : String} {value : Value} {declared : Entries}
    (content : contentEntries? value = some declared)
    (typed : (declared.get "type").isNull = false)
    (unwritable : UnwritableChain templates.resourceTypes
      (resourceArguments (parentPath ++ relativePath)) declared) :
    ReachesUnwritable templates (depth + 1) parentPath relativePath value
  | trait {depth : Nat} {parentPath relativePath : String} {value child reference : Value}
    {declared resource : Entries} {key : Scalar} {verb : Verb}
    (content : contentEntries? value = some declared)
    (typed : applyType templates (resourceArguments (parentPath ++ relativePath)) declared =
      .ok resource)
    (comes : ComesTo (memberStep templates depth (parentPath ++ relativePath) resource) resource
      (key, child))
    (named : verbKey? key = some verb)
    (refers : ComesToTrait templates (parentPath ++ relativePath)
      (referenceList (resource.get "is")) verb child reference)
    (unwritable : UnwritableReference templates.traits
      (methodArguments (parentPath ++ relativePath) verb.word) reference) :
    ReachesUnwritable templates (depth + 1) parentPath relativePath value
  | within {depth : Nat} {parentPath relativePath further : String} {value child : Value}
    {key : Scalar}
    (member : ComesToMember templates depth (parentPath ++ relativePath) value (key, child))
    (named : resourceKey? key = some further)
    (deeper : ReachesUnwritable templates depth (parentPath ++ relativePath) further child) :
    ReachesUnwritable templates (depth + 1) parentPath relativePath value

variable {depth : Nat} {parentPath relativePath : String}

/-- The steps of a resource up to a member that fails. -/
theorem resolveResource_of_member {member : Scalar × Value}
    (comes : ComesToMember templates depth (parentPath ++ relativePath) value member)
    (failed : ∀ resource, memberStep templates depth (parentPath ++ relativePath) resource member =
      .error failure) :
    resolveResource templates (depth + 1) parentPath relativePath value = .error failure := by
  obtain ⟨declared, resource, content, typed, walk⟩ := comes
  have members : resource.mapM (memberStep templates depth (parentPath ++ relativePath) resource) =
      .error failure := mapM_eq_error_iff.mpr ⟨member, walk, failed resource⟩
  rw [resolveResource_succ]
  refine bind_eq_error_iff.mpr (.inr ⟨declared, contentEntries_ok_iff.mpr content, ?_⟩)
  refine bind_eq_error_iff.mpr (.inr ⟨resource, typed, ?_⟩)
  exact bind_eq_error_iff.mpr (.inl members)

/-- **A value without entries ends the application** that comes to it. -/
theorem Reaches.resolveResource_error {node : Value} (shapeless : contentEntries? node = none)
    (reaches : Reaches templates depth parentPath relativePath value node) :
    resolveResource templates depth parentPath relativePath value =
      .error (.defect .notMapping) := by
  induction reaches with
  | here =>
    rw [resolveResource_succ]
    unfold contentEntries
    rw [shapeless]
    rfl
  | method member named =>
    refine resolveResource_of_member member fun resource => ?_
    rw [memberStep_method named, applyTraits_error_iff.mpr (.inl ⟨shapeless, rfl⟩)]
    rfl
  | within member named _ ih =>
    refine resolveResource_of_member member fun resource => ?_
    rw [memberStep_resource named, ih shapeless]
    rfl

/-- A resource fails as a node that the application comes to, or as a template. -/
theorem reaches_of_resolveResource_error
    (failed : resolveResource templates depth parentPath relativePath value = .error failure) :
    failure = .defect .notMapping ∧
        (∃ node, Reaches templates depth parentPath relativePath value node ∧
          contentEntries? node = none) ∨ Unfillable failure := by
  induction depth generalizing parentPath relativePath value with
  | zero =>
    cases failed
    exact .inr .endless
  | succ depth ih =>
    cases resourceFails failed with
    | shapeless missing => exact .inl ⟨rfl, value, .here, missing⟩
    | type _ refused => exact .inr (applyType_error refused)
    | method content typed comes named refused =>
      rcases applyTraits_error_iff.mp refused with ⟨missing, rfl⟩ | ⟨_, _, _, _, fails⟩
      · exact .inl ⟨rfl, _, .method ⟨_, _, content, typed, comes⟩ named, missing⟩
      · exact .inr fails.unfillable
    | below content typed comes named refused =>
      rcases ih refused with ⟨rfl, node, reaches, missing⟩ | unfillable
      · exact .inl ⟨rfl, node, .within ⟨_, _, content, typed, comes⟩ named reaches, missing⟩
      · exact .inr unfillable

/-- **The application to a resource fails for want of a mapping exactly when it comes to a value
without entries.** -/
theorem resolveResource_notMapping_iff :
    resolveResource templates depth parentPath relativePath value = .error (.defect .notMapping) ↔
      ∃ node, Reaches templates depth parentPath relativePath value node ∧
        contentEntries? node = none := by
  constructor
  · intro failed
    rcases reaches_of_resolveResource_error failed with ⟨_, found⟩ | unfillable
    · exact found
    · exact absurd rfl unfillable.ne_notMapping
  · rintro ⟨node, reaches, shapeless⟩
    exact reaches.resolveResource_error shapeless

/-- **The application to a resource fails for too many digits exactly when it comes to a template
that it cannot write the name or an argument of.** -/
theorem resolveResource_tooManyDigits_iff :
    resolveResource templates depth parentPath relativePath value =
        .error (.defect .tooManyDigits) ↔
      ReachesUnwritable templates depth parentPath relativePath value := by
  constructor
  · intro failed
    induction depth generalizing parentPath relativePath value with
    | zero => cases failed
    | succ depth ih =>
      cases resourceFails failed with
      | type content refused =>
        obtain ⟨typed, unwritable⟩ := applyType_tooManyDigits_iff.mp refused
        exact .type content typed unwritable
      | method content typed comes named refused =>
        rcases applyTraits_error_iff.mp refused with
          ⟨-, same⟩ | ⟨method, _, isMethod, refers, fails⟩
        · cases same
        · exact .trait content typed comes named ⟨method, isMethod, refers⟩
            (traitFails_tooManyDigits_iff.mp fails)
      | below content typed comes named refused =>
        exact .within ⟨_, _, content, typed, comes⟩ named (ih refused)
  · intro reaches
    induction reaches with
    | type content typed unwritable =>
      rw [resolveResource_succ]
      refine bind_eq_error_iff.mpr (.inr ⟨_, contentEntries_ok_iff.mpr content, ?_⟩)
      exact bind_eq_error_iff.mpr (.inl (applyType_tooManyDigits_iff.mpr ⟨typed, unwritable⟩))
    | trait content typed comes named refers unwritable =>
      obtain ⟨method, isMethod, refers⟩ := refers
      have fails := traitFails_tooManyDigits_iff.mpr unwritable
      rw [resolveResource_succ]
      refine bind_eq_error_iff.mpr (.inr ⟨_, contentEntries_ok_iff.mpr content, ?_⟩)
      refine bind_eq_error_iff.mpr (.inr ⟨_, typed, bind_eq_error_iff.mpr (.inl ?_)⟩)
      refine mapM_eq_error_iff.mpr ⟨_, comes, ?_⟩
      rw [memberStep_method named,
        applyTraits_error_iff.mpr (.inr ⟨method, _, isMethod, refers, fails⟩)]
      rfl
    | within member named _ ih =>
      refine resolveResource_of_member member fun resource => ?_
      rw [memberStep_resource named, ih]
      rfl

/-! ### Documents -/

/-- The application to a document comes to a node: one that it comes to in a resource of the
root. -/
def ReachesFromRoot (depth : Nat) (root : Entries) (node : Value) : Prop :=
  ∃ key value relative, ComesTo (resolveEntry (Templates.ofRoot root) depth) root (key, value) ∧
    resourceKey? key = some relative ∧ Reaches (Templates.ofRoot root) depth "" relative value node

/-- The application to a document comes to a template that it cannot write the name or an argument
of. -/
def ReachesUnwritableFromRoot (depth : Nat) (root : Entries) : Prop :=
  ∃ key value relative, ComesTo (resolveEntry (Templates.ofRoot root) depth) root (key, value) ∧
    resourceKey? key = some relative ∧
    ReachesUnwritable (Templates.ofRoot root) depth "" relative value

variable {root : Entries}

/-- The application to a document fails as a resource of the root that it comes to. -/
theorem applyTemplates_error_iff : applyTemplatesWithin depth root = .error failure ↔
    ∃ key value relative, ComesTo (resolveEntry (Templates.ofRoot root) depth) root (key, value) ∧
      resourceKey? key = some relative ∧
      resolveResource (Templates.ofRoot root) depth "" relative value = .error failure := by
  rw [applyTemplatesWithin, mapM_eq_error_iff]
  constructor
  · rintro ⟨⟨key, value⟩, walk, failed⟩
    cases named : resourceKey? key with
    | none =>
      simp only [resolveEntry, named] at failed
      cases failed
    | some relative =>
      rw [resolveEntry_resource named, bind_eq_error_iff] at failed
      rcases failed with failed | ⟨_, _, same⟩
      · exact ⟨key, value, relative, walk, named, failed⟩
      · cases same
  · rintro ⟨key, value, relative, walk, named, failed⟩
    refine ⟨(key, value), walk, ?_⟩
    rw [resolveEntry_resource named, failed]
    rfl

/-- A document whose templates cannot be applied is refused, has no end, or holds a value without
entries in the place of a resource or a method. -/
theorem applyTemplates_error (failed : applyTemplatesWithin depth root = .error failure) :
    failure = .defect .notMapping ∧
        (∃ node, ReachesFromRoot depth root node ∧ contentEntries? node = none) ∨
      Unfillable failure := by
  obtain ⟨key, value, relative, walk, named, failed⟩ := applyTemplates_error_iff.mp failed
  rcases reaches_of_resolveResource_error failed with ⟨rfl, node, reaches, missing⟩ | unfillable
  · exact .inl ⟨rfl, node, ⟨key, value, relative, walk, named, reaches⟩, missing⟩
  · exact .inr unfillable

/-- **The application to a document fails for want of a mapping exactly when it comes to a value
without entries.** -/
theorem applyTemplates_notMapping_iff :
    applyTemplatesWithin depth root = .error (.defect .notMapping) ↔
      ∃ node, ReachesFromRoot depth root node ∧ contentEntries? node = none := by
  rw [applyTemplates_error_iff]
  simp only [resolveResource_notMapping_iff]
  constructor
  · rintro ⟨key, value, relative, walk, named, node, reaches, shapeless⟩
    exact ⟨node, ⟨key, value, relative, walk, named, reaches⟩, shapeless⟩
  · rintro ⟨node, ⟨key, value, relative, walk, named, reaches⟩, shapeless⟩
    exact ⟨key, value, relative, walk, named, node, reaches, shapeless⟩

/-- **The application to a document fails for too many digits exactly when it comes to a template
that it cannot write the name or an argument of.** -/
theorem applyTemplates_tooManyDigits_iff :
    applyTemplatesWithin depth root = .error (.defect .tooManyDigits) ↔
      ReachesUnwritableFromRoot depth root := by
  rw [applyTemplates_error_iff]
  exact exists₃_congr fun _ _ _ => and_congr_right fun _ => and_congr_right fun _ =>
    resolveResource_tooManyDigits_iff

end RamlInterfaces.Raml
