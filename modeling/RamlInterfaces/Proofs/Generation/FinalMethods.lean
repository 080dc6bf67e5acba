/-
**Methods that every object has.**

The class of all objects has final methods, and an interface with a method of the same name and the
same parameters does not compile.  Of those without parameters only `getClass` starts with a verb,
so it is the one that a path can lead to.

* `finalMethods`, `RedefinesFinal`: the names, and methods that redefine one;
* `ReadsAsClass`: the paths whose only word is `class`;
* `actionName_getClass_iff`: **the actions whose method is `getClass`**;
* `buildModel_finalMethods`: **a model redefines a final method exactly when such an action has no
  parameters**.
-/

import RamlInterfaces.Proofs.Generation.Clashes
import RamlInterfaces.Proofs.Generation.Independence
import RamlInterfaces.Proofs.Generation.Outcome
import RamlInterfaces.Proofs.Java.Renaming

namespace RamlInterfaces.Generation

open Java
open Settings (Configuration)

/-- The final methods of the class of all objects that have no parameters. -/
def finalMethods : List String := ["getClass", "notify", "notifyAll", "wait"]

/-- The method has the name of a final method, and no parameters. -/
def RedefinesFinal (method : Method) : Prop :=
  method.name ∈ finalMethods ∧ method.parameters = []

instance (method : Method) : Decidable (RedefinesFinal method) :=
  inferInstanceAs (Decidable (_ ∧ _))

/-- The only letters and digits of the path are the word `class`, and it has no placeholder. -/
def ReadsAsClass (path : List Char) : Prop :=
  '\x7b' ∉ path ∧ ∃ word ∈ ["class".toList, "Class".toList], ∃ before after,
    path = before ++ word ++ after ∧
      (∀ c ∈ before, c.isAlphanum = false) ∧ ∀ c ∈ after, c.isAlphanum = false

/-! ### Paths -/

/-- A path without placeholders is read as it is. -/
theorem spellPlaceholders_eq_self {path : List Char} (plain : '\x7b' ∉ path) :
    spellPlaceholders path = path := by
  have each : ∀ c ∈ path,
      (if c = '\x7b' then [' ', 'B', 'y', ' '] else [c]) = [c] := by
    intro c member
    exact if_neg fun same : c = '\x7b' => plain (same ▸ member)
  unfold spellPlaceholders
  rw [List.flatMap_congr each, List.flatMap_singleton']

/-- A placeholder is read with the word `By`. -/
theorem by_mem_words {path : List Char} (opens : '\x7b' ∈ path) :
    ['B', 'y'] ∈ words (spellPlaceholders path) := by
  obtain ⟨before, after, rfl⟩ := List.append_of_mem opens
  have spelled : spellPlaceholders (before ++ '\x7b' :: after) =
      spellPlaceholders before ++ ' ' :: (['B', 'y'] ++ ' ' :: spellPlaceholders after) := by
    unfold spellPlaceholders
    rw [List.flatMap_append, List.flatMap_cons, if_pos rfl]
    rfl
  have word : words ['B', 'y'] = [['B', 'y']] := by decide
  unfold words at word ⊢
  rw [spelled, Text.runs_append (by decide), Text.runs_append (by decide), word]
  exact List.mem_append_right _ (List.mem_append_left _ List.mem_cons_self)

/-! ### The word of the path -/

/-- A small letter is what an upper case letter is the upper case of, besides itself. -/
theorem toUpper_eq_C_iff {c : Char} : c.toUpper = 'C' ↔ c = 'c' ∨ c = 'C' := by
  constructor
  · intro upper
    cases lower : c.isLower with
    | false => exact .inr ((toUpper_eq_self lower).symm.trans upper)
    | true =>
      have code := toNat_toUpper lower
      rw [upper] at code
      exact .inl (Char.ext (UInt32.toNat_inj.mp code.symm))
  · rintro (rfl | rfl) <;> rfl

theorem capitalize_eq_class_iff {word : List Char} : capitalize word = "Class".toList ↔
    word ∈ ["class".toList, "Class".toList] := by
  cases word with
  | nil => decide
  | cons first rest =>
    show first.toUpper :: rest = 'C' :: "lass".toList ↔
      first :: rest ∈ ['c' :: "lass".toList, 'C' :: "lass".toList]
    rw [List.cons_eq_cons, toUpper_eq_C_iff, List.mem_cons, List.mem_singleton,
      List.cons_eq_cons, List.cons_eq_cons, or_and_right]

/-- **The name of a type made from a path is `Class`** exactly when the path reads so. -/
theorem typeNameChars_spellPlaceholders_iff {path : List Char} :
    typeNameChars (spellPlaceholders path) = "Class".toList ↔ ReadsAsClass path := by
  have lower : ∀ c ∈ "lass".toList, c.isLower = true := List.all_eq_true.mp rfl
  have oneWord : typeNameChars (spellPlaceholders path) = 'C' :: "lass".toList ↔
      ∃ word, words (spellPlaceholders path) = [word] ∧ capitalize word = 'C' :: "lass".toList :=
    typeNameChars_eq_cons_iff (by decide) rfl lower
  refine oneWord.trans ?_
  constructor
  · rintro ⟨word, single, name⟩
    have isClass := capitalize_eq_class_iff.mp name
    have plain : '\x7b' ∉ path := by
      intro opens
      have isWord := by_mem_words opens
      rw [single, List.mem_singleton] at isWord
      rw [← isWord] at isClass
      exact absurd isClass (by decide)
    rw [spellPlaceholders_eq_self plain] at single
    obtain ⟨-, -, cut⟩ := Text.runs_eq_singleton_iff.mp single
    exact ⟨plain, word, isClass, cut⟩
  · rintro ⟨plain, word, isClass, cut⟩
    have letters : ∀ word ∈ ["class".toList, "Class".toList],
        word ≠ [] ∧ word.all Char.isAlphanum = true := by decide
    obtain ⟨some, all⟩ := letters word isClass
    rw [spellPlaceholders_eq_self plain]
    exact ⟨word, Text.runs_eq_singleton_iff.mpr ⟨some, List.all_eq_true.mp all, cut⟩,
      capitalize_eq_class_iff.mpr isClass⟩

/-! ### Names of methods -/

variable {action : Raml.Action}

/-- **The actions whose method is `getClass`**: a GET to a path that reads as `class`. -/
theorem actionName_getClass_iff : actionName action = "getClass" ↔
    action.verb = .get ∧ ReadsAsClass action.resourcePath.toList := by
  have spelled (isGet : action.verb = .get) : actionName action = "getClass" ↔
      typeNameChars (spellPlaceholders action.resourcePath.toList) = "Class".toList := by
    unfold actionName methodName
    rw [lower_word, isGet, ← String.toList_inj, String.toList_append, String.toList_ofList]
    exact List.append_right_inj "get".toList
  constructor
  · intro name
    have start := takeWhile_actionName action
    rw [name] at start
    have isGet : action.verb = .get :=
      verb_word_injective (String.toList_injective (start.symm.trans (by decide)))
    exact ⟨isGet, typeNameChars_spellPlaceholders_iff.mp ((spelled isGet).mp name)⟩
  · rintro ⟨isGet, path⟩
    exact (spelled isGet).mpr (typeNameChars_spellPlaceholders_iff.mpr path)

/-- No other final method starts with a verb. -/
theorem actionName_of_final (final : actionName action ∈ finalMethods) :
    actionName action = "getClass" := by
  have start := takeWhile_actionName action
  have noVerb : ∀ name ∈ ["notify", "notifyAll", "wait"], ∀ verb : Verb,
      name.toList.takeWhile Char.isLower ≠ verb.word.toList := by
    intro name member verb
    revert name
    cases verb <;> decide
  rcases List.mem_cons.mp final with same | other
  · exact same
  · exact absurd start (noVerb _ other _)

/-! ### Models -/

variable {configuration : Configuration} {description : Raml.Description} {session : Session}

/-- The unit of an interface has the methods of its actions. -/
theorem mem_methods_interfaceUnit_iff {resource : Raml.Resource} {method : Method} :
    method ∈ (interfaceUnit configuration resource).type.methods ↔
      ∃ entry ∈ actionsFrom resource, methodDecl configuration.basePackage
        configuration.constraints (interfaceOf configuration.basePackage (openedDecl resource).name)
        (interfacePath resource.relativePath) entry = method :=
  List.mem_map

variable {base path : String} {constrained : Bool} {owner : TypePath}
  {entry : Raml.Resource × Raml.Action}

theorem methodDecl_name :
    (methodDecl base constrained owner path entry).name = actionName entry.2 := by
  simp only [methodDecl, withArguments, openedMethodDecl]

/-- The method of an action redefines a final method where the action is a GET of `class` without
parameters. -/
theorem redefinesFinal_methodDecl_iff :
    RedefinesFinal (methodDecl base constrained owner path entry) ↔
      entry.2.verb = .get ∧ ReadsAsClass entry.2.resourcePath.toList ∧
        actionParameters entry.1 entry.2 = [] := by
  have parameters : (methodDecl base constrained owner path entry).parameters = [] ↔
      actionParameters entry.1 entry.2 = [] := by
    simp only [methodDecl, withArguments, argumentsFrom, argumentsOf, List.map_eq_nil_iff,
      List.mapIdx_eq_nil_iff]
  unfold RedefinesFinal
  rw [methodDecl_name, parameters, ← and_assoc, ← actionName_getClass_iff]
  refine and_congr_left fun _ => ⟨actionName_of_final, fun isGetClass => ?_⟩
  rw [isGetClass]
  exact List.mem_cons_self

/-- The units of a model that have methods are the interfaces of its resources. -/
theorem exists_interfaceUnit_of_method
    (built : buildModel configuration description = .ok session) {unit : CompilationUnit}
    (isUnit : unit ∈ session.model.units) {method : Method}
    (isMethod : method ∈ unit.type.methods) :
    ∃ resource ∈ description.resources, unit = interfaceUnit configuration resource := by
  rcases List.mem_append.mp ((units_perm built).mem_iff.mp isUnit) with interface | support
  · obtain ⟨resource, member, rfl⟩ := List.mem_map.mp interface
    exact ⟨resource, member, rfl⟩
  · obtain ⟨verb, -, rfl⟩ := List.mem_map.mp support
    cases isMethod

/-- **Of the final methods a model can have `getClass` only**, and it redefines that exactly when
its description has a GET without parameters whose path reads as `class`. -/
theorem buildModel_finalMethods (built : buildModel configuration description = .ok session) :
    (∀ unit ∈ session.model.units, ∀ method ∈ unit.type.methods, method.name ∈ finalMethods →
        method.name = "getClass") ∧
      ((∃ unit ∈ session.model.units, ∃ method ∈ unit.type.methods, RedefinesFinal method) ↔
        ∃ resource ∈ description.resources, ∃ entry ∈ actionsFrom resource,
          entry.2.verb = .get ∧ ReadsAsClass entry.2.resourcePath.toList ∧
            actionParameters entry.1 entry.2 = []) := by
  refine ⟨fun unit isUnit method isMethod final => ?_, ?_⟩
  · obtain ⟨resource, -, rfl⟩ := exists_interfaceUnit_of_method built isUnit isMethod
    obtain ⟨entry, -, rfl⟩ := mem_methods_interfaceUnit_iff.mp isMethod
    rw [methodDecl_name] at final ⊢
    exact actionName_of_final final
  constructor
  · rintro ⟨unit, isUnit, method, isMethod, redefines⟩
    obtain ⟨resource, isResource, rfl⟩ := exists_interfaceUnit_of_method built isUnit isMethod
    obtain ⟨entry, isEntry, rfl⟩ := mem_methods_interfaceUnit_iff.mp isMethod
    exact ⟨resource, isResource, entry, isEntry, redefinesFinal_methodDecl_iff.mp redefines⟩
  · rintro ⟨resource, isResource, entry, isEntry, redefines⟩
    refine ⟨interfaceUnit configuration resource, (units_perm built).mem_iff.mpr ?_, _,
      mem_methods_interfaceUnit_iff.mpr ⟨entry, isEntry, rfl⟩,
      redefinesFinal_methodDecl_iff.mpr redefines⟩
    exact List.mem_append_left _ (List.mem_map_of_mem isResource)

/-- No method of the users is final: each has parameters. -/
theorem finalMethods_users : ∃ session,
    buildModel { basePackage := "api" } users = .ok session ∧
      (∀ unit ∈ session.model.units, ∀ method ∈ unit.type.methods, method.name ∈ finalMethods →
        method.name = "getClass") ∧
      ¬ ∃ unit ∈ session.model.units, ∃ method ∈ unit.type.methods, RedefinesFinal method := by
  have there : (buildModel { basePackage := "api" } users).toOption.isSome = true := by
    decide +kernel
  cases built : buildModel { basePackage := "api" } users with
  | error failure =>
    rw [built] at there
    cases there
  | ok session =>
    obtain ⟨names, redefines⟩ := buildModel_finalMethods built
    have parameters : ∀ resource ∈ users.resources, ∀ entry ∈ actionsFrom resource,
        (actionParameters entry.1 entry.2).isEmpty = false := by
      decide +kernel
    refine ⟨session, rfl, names, fun redefined => ?_⟩
    obtain ⟨resource, isResource, entry, isEntry, -, -, none⟩ := redefines.mp redefined
    have some := parameters resource isResource entry isEntry
    rw [none] at some
    cases some

/-- A document with a resource whose path is `/class`. -/
def schoolClasses : Entries :=
  [(.text "title", .text "t"), (.text "/class", .map [(.text "get", .null)])]

/-- **A model that redefines a final method**: the path of the resource is `/class`. -/
theorem getClass_redefined : Raml.problems schoolClasses = .ok [] ∧ ∃ session,
    outcome { basePackage := "api" } Raml.nestingLimit schoolClasses = .ok session ∧
      ∃ unit ∈ session.model.units, ∃ method ∈ unit.type.methods, RedefinesFinal method := by
  refine ⟨by decide +kernel, ?_⟩
  have redefined : (outcome { basePackage := "api" } Raml.nestingLimit schoolClasses).toOption.any
      (fun session => decide (∃ unit ∈ session.model.units, ∃ method ∈ unit.type.methods,
        RedefinesFinal method)) = true := by
    decide +kernel
  cases ended : outcome { basePackage := "api" } Raml.nestingLimit schoolClasses with
  | error failure =>
    rw [ended] at redefined
    cases redefined
  | ok session =>
    rw [ended] at redefined
    exact ⟨session, rfl, of_decide_eq_true redefined⟩

end RamlInterfaces.Generation
