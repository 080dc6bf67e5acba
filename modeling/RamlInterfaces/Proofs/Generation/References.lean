/-
**References in the units of a model that was built.**

Every unit of such a model is rendered, its references by a naming of their classes, and by the
rules of Java they denote their classes.  The exception is a class of `java.lang` in a package that
has a type of the same name: no import is written for it, so its simple name denotes that type.

* `platform_topLevel`, `verb_topLevel`: the packages and names of the classes that units refer to;
* `Rendered`: the naming by which a unit is rendered;
* `Shadowed`: a class that a type of the package hides;
* `references_resolve`: **which references of a rendered unit denote what the model refers to**.
-/

import RamlInterfaces.Proofs.Generation.Growth
import RamlInterfaces.Proofs.Generation.Soundness
import RamlInterfaces.Proofs.Java.Reference

namespace RamlInterfaces.Generation

open Java Text
open Settings (Configuration)

/-! ### Classes of the platform -/

/-- The names of the classes of the platform: each has two names or more before its own, none of
them that of a package of units, and its own name is no other class's, nor that of an annotation
type. -/
theorem platform_names : ∀ name ∈ platformClasses,
    (3 ≤ (pieces '.' name.toList).length ∧ "resource".toList ∉ pieces '.' name.toList ∧
      "support".toList ∉ pieces '.' name.toList) ∧
    (∀ other ∈ platformClasses, afterLast '.' name.toList = afterLast '.' other.toList →
      name = other) ∧
    ∀ verb ∈ ["PATCH", "TRACE", "CONNECT"], afterLast '.' name.toList ≠ verb.toList := by
  decide +kernel

/-- A class of the platform has a package of two names or more, and neither is that of the units. -/
theorem platform_topLevel {name : String} (known : name ∈ platformClasses)
    (arguments : List TypeRef) : ∃ package last, name = package ++ "." ++ last ∧
      TopLevel (.outside name arguments) package last ∧ '.' ∈ package.toList ∧
        "resource".toList ∉ pieces '.' package.toList ∧
          "support".toList ∉ pieces '.' package.toList := by
  obtain ⟨long, notResource, notSupport⟩ := (platform_names name known).1
  obtain ⟨left, right, cut, simple⟩ := exists_last (mem_of_pieces (Nat.lt_of_succ_lt long))
  have same : name = String.ofList left ++ "." ++ String.ofList right := by
    apply String.toList_injective
    rw [toList_qualified, String.toList_ofList, String.toList_ofList, cut]
  refine ⟨String.ofList left, String.ofList right, same, ?_, ?_⟩
  · exact {
      importName := by rw [TypeRef.importName?, same]
      simpleName := by rw [TypeRef.simpleName?, cut, afterLast_append left simple]
      qualifiedName := by rw [TypeRef.qualifiedName, same]
      simple := by rwa [String.toList_ofList] }
  · rw [cut, pieces_append, pieces_eq_self simple] at long notResource notSupport
    rw [List.length_append] at long
    rw [String.toList_ofList]
    exact ⟨mem_of_pieces (Nat.lt_of_succ_lt_succ long),
      fun found => notResource (List.mem_append_left _ found),
      fun found => notSupport (List.mem_append_left _ found)⟩

/-! ### Names under a base package -/

section Names

variable {base : String} {unit : CompilationUnit}

theorem SoundUnit.shallow (sound : SoundUnit base unit) : Shallow unit.path unit.type where
  top := rfl
  own := rfl
  package := sound.package_isEmpty
  simple := sound.plain.dot_notMem
  nested := fun inner member => by
    obtain ⟨plain, other, below⟩ := sound.nested inner member
    exact ⟨plain.dot_notMem, other, below⟩

/-- Another package is not that of the unit and not the unit itself, if it is in neither of the
packages of units. -/
theorem SoundUnit.abroad (sound : SoundUnit base unit) {package : String}
    (notResource : "resource".toList ∉ pieces '.' package.toList)
    (notSupport : "support".toList ∉ pieces '.' package.toList) :
    package ≠ unit.package ∧ package ≠ unit.path.qualifiedName := by
  have marked : "resource".toList ∈ pieces '.' unit.package.toList ∨
      "support".toList ∈ pieces '.' unit.package.toList := by
    rcases sound.pieces_package with same | same
    · rw [same]
      exact .inl (List.mem_append_right _ List.mem_cons_self)
    · rw [same]
      exact .inr (List.mem_append_right _ List.mem_cons_self)
  constructor
  · rintro rfl
    exact marked.elim notResource notSupport
  · rintro rfl
    rw [sound.shallow.qualifiedName, pieces_qualified _ sound.shallow.simple]
      at notResource notSupport
    rcases marked with resource | support
    · exact notResource (List.mem_append_left _ resource)
    · exact notSupport (List.mem_append_left _ support)

/-- The annotation type of a verb is declared in a package that an interface is not in. -/
theorem verb_topLevel (base : String) (verb : Verb) :
    TopLevel (.declared ⟨supportPackageOf base, verb.name, []⟩) (supportPackageOf base)
      verb.name := by
  have whole : TypePath.qualify (supportPackageOf base) verb.name =
      supportPackageOf base ++ "." ++ verb.name := by
    have notEmpty : (supportPackageOf base).isEmpty = false := by simp [supportPackageOf]
    rw [TypePath.qualify, notEmpty]
    rfl
  exact {
    importName := congrArg some whole
    simpleName := rfl
    qualifiedName := whole
    simple := (isPlain_verb verb).dot_notMem }

theorem SoundUnit.abroad_support (sound : SoundUnit base unit)
    (interface : unit.package = resourcePackageOf base) :
    supportPackageOf base ≠ unit.package ∧ supportPackageOf base ≠ unit.path.qualifiedName := by
  have cut :
      pieces '.' unit.path.package.toList = pieces '.' base.toList ++ ["resource".toList] := by
    show pieces '.' unit.package.toList = _
    rw [interface, pieces_resourcePackageOf]
  constructor
  · intro same
    have pieces := congrArg (fun name => pieces '.' name.toList) same
    simp only [interface, pieces_supportPackageOf, pieces_resourcePackageOf] at pieces
    exact absurd (List.append_cancel_left pieces) (by decide)
  · intro same
    have pieces := congrArg (fun name => (pieces '.' name.toList).length) same
    simp only [pieces_supportPackageOf, sound.shallow.qualifiedName,
      pieces_qualified _ sound.shallow.simple, cut] at pieces
    simp at pieces

end Names

/-! ### References -/

/-- The unit is rendered by the naming: its source lists the imports of that, and every class is
spelled by it. -/
structure Rendered (unit : CompilationUnit) (naming : Naming) : Prop where
  ran : (renderType true unit.type).run (Naming.ofUnit unit.path unit.type) =
    .ok (typeText naming.spell true unit.type, naming)
  source : renderUnit unit.path unit.type = .ok (String.ofList
    (layOutUnit unit.package naming.sortedImports (typeText naming.spell true unit.type)))

/-- A unit is rendered by the naming that its classes leave exactly if its annotations can be
written. -/
theorem rendered_iff {unit : CompilationUnit} {naming : Naming}
    (adopted : (Naming.ofUnit unit.path unit.type).adoptAll (typeClasses unit.type) = .ok naming) :
    Rendered unit naming ↔ unit.type.isWritable = true :=
  ⟨fun rendered => (renderUnit_eq_ok_iff.mp rendered.source).1, fun writable =>
    ⟨renderType_run writable adopted, renderUnit_eq_ok_iff.mpr ⟨writable, naming, adopted, rfl⟩⟩⟩

/-- The names of the top-level types of a package. -/
def namesIn (model : Model) (package : String) : List String :=
  (model.units.filter (·.package == package)).map (·.type.name)

/-- What is in scope in a unit of a model. -/
def scopeIn (model : Model) (unit : CompilationUnit) (naming : Naming) : Scope :=
  naming.scope unit.path unit.type (namesIn model unit.package)

/-- A class of `java.lang` in a unit whose package has another type of its name, where neither the
unit nor a type nested in it has that name. -/
def Shadowed (model : Model) (unit : CompilationUnit) (type : TypeRef) : Prop :=
  type.package = "java.lang" ∧ ∃ other ∈ model.units, other.package = unit.package ∧
    type.simpleName? = some other.type.name ∧ other.type.name ≠ unit.type.name ∧
      other.type.name ∉ unit.type.nested.map (·.name)

instance (model : Model) (unit : CompilationUnit) (type : TypeRef) :
    Decidable (Shadowed model unit type) :=
  inferInstanceAs (Decidable (_ ∧ _))

section References

variable {base : String} {model : Model} {unit : CompilationUnit} {naming : Naming}
  (sound : SoundUnit base unit)
  (coherent : Naming.Coherent unit.path unit.type (typeClasses unit.type) naming)

include sound coherent

/-- A class of the platform owns its name unless the unit or a type nested in it has that name. -/
theorem owner?_platform_iff {name package last : String} (known : name ∈ platformClasses)
    {arguments : List TypeRef} (cut : name = package ++ "." ++ last)
    (topLevel : TopLevel (.outside name arguments) package last)
    (abroad : package ≠ unit.package) (outside : package ≠ unit.path.qualifiedName)
    (member : .outside name arguments ∈ typeClasses unit.type) :
    naming.owner? last = some name ↔
      last ≠ unit.type.name ∧ last ∉ unit.type.nested.map (·.name) := by
  have shallow := sound.shallow
  rw [← owner?_ofUnit_eq_none_iff shallow]
  constructor
  · intro owned
    cases first : (Naming.ofUnit unit.path unit.type).owner? last with
    | none => rfl
    | some owner =>
      have same := (coherent.extended last owner first).symm.trans owned
      rw [same, cut] at first
      exact absurd first (owner?_ofUnit_ne shallow topLevel.simple abroad outside last)
  · intro free
    obtain ⟨owner, owned⟩ := coherent.owned _ member name rfl
    have simple : importedName name = last := by rw [cut, importedName_qualified _ topLevel.simple]
    rw [simple] at owned
    rcases coherent.source last owner owned with own | ⟨other, isClass, isOwner, same⟩
    · rw [free] at own
      cases own
    · obtain ⟨_, distinct, notVerb⟩ := platform_names name known
      have names : importedName owner = importedName name := same.trans simple.symm
      cases sound.classes other isClass with
      | platform other _ =>
        cases isOwner
        rw [distinct owner other (String.ofList_injective names.symm)]
        exact owned
      | @verb verb _ missing =>
        rw [(verb_topLevel base verb).importName] at isOwner
        cases isOwner
        rw [importedName_qualified _ (verb_topLevel base verb).simple] at names
        have chars := congrArg String.toList names
        rw [importedName, String.toList_ofList] at chars
        refine absurd chars.symm (notVerb verb.name ?_)
        cases verb <;> first | decide | cases missing
      | nested _ =>
        have whole : some owner = some (unit.package ++ "." ++ unit.type.name) :=
          isOwner.symm.trans (congrArg some shallow.outermostName)
        cases whole
        rw [importedName_qualified _ shallow.simple] at same
        exact absurd same.symm ((owner?_ofUnit_eq_none_iff shallow).mp free).1

/-- **The spelling of a class of the platform denotes it unless it is shadowed.** -/
theorem resolve_platform_iff {name : String} (known : name ∈ platformClasses)
    {arguments : List TypeRef} (member : .outside name arguments ∈ typeClasses unit.type) :
    (scopeIn model unit naming).resolve (naming.spell (.outside name arguments)) = name ↔
      ¬ Shadowed model unit (.outside name arguments) := by
  obtain ⟨package, last, cut, topLevel, deep, notResource, notSupport⟩ :=
    platform_topLevel known arguments
  obtain ⟨abroad, outside⟩ := sound.abroad notResource notSupport
  have resolved : (scopeIn model unit naming).resolve (naming.spell (.outside name arguments)) =
      package ++ "." ++ last ↔ ¬ (package = "java.lang" ∧
        naming.owner? last = some (package ++ "." ++ last) ∧ last ∈ namesIn model unit.package) :=
    resolve_spell_iff sound.shallow coherent topLevel member abroad outside deep
  rw [← cut, owner?_platform_iff sound coherent known cut topLevel abroad outside member]
    at resolved
  have inPackage : (TypeRef.outside name arguments).package = package := by
    rw [TypeRef.package, cut, toList_qualified, beforeLast_append _ topLevel.simple,
      String.ofList_toList]
  refine resolved.trans (not_congr ?_)
  unfold Shadowed
  rw [inPackage, topLevel.simpleName]
  refine and_congr_right fun _ => ?_
  constructor
  · rintro ⟨⟨notOwn, notNested⟩, sibling⟩
    obtain ⟨other, isOther, rfl⟩ := List.mem_map.mp sibling
    obtain ⟨there, same⟩ := List.mem_filter.mp isOther
    exact ⟨other, there, beq_iff_eq.mp same, rfl, notOwn, notNested⟩
  · rintro ⟨other, there, same, named, notOwn, notNested⟩
    cases named
    exact ⟨⟨notOwn, notNested⟩,
      List.mem_map_of_mem (List.mem_filter.mpr ⟨there, beq_iff_eq.mpr same⟩)⟩

/-- The spelling of the annotation type of a verb denotes it. -/
theorem resolve_verb {verb : Verb} (interface : unit.package = resourcePackageOf base)
    (member : .declared ⟨supportPackageOf base, verb.name, []⟩ ∈ typeClasses unit.type) :
    (scopeIn model unit naming).resolve
        (naming.spell (.declared ⟨supportPackageOf base, verb.name, []⟩)) =
      (TypePath.mk (supportPackageOf base) verb.name []).qualifiedName := by
  have topLevel := verb_topLevel base verb
  obtain ⟨abroad, outside⟩ := sound.abroad_support interface
  have deep : '.' ∈ (supportPackageOf base).toList := by
    rw [supportPackageOf, String.toList_append]
    exact List.mem_append_right _ List.mem_cons_self
  refine Eq.trans ?_ topLevel.qualifiedName.symm
  refine (resolve_spell_iff sound.shallow coherent topLevel member abroad outside deep).mpr ?_
  exact fun shadowed => supportPackageOf_ne base shadowed.1

/-- **The spelling of a class that a unit refers to denotes it unless it is shadowed.** -/
theorem resolve_reference_iff {type : TypeRef} (member : type ∈ typeClasses unit.type) :
    (scopeIn model unit naming).resolve (naming.spell type) = type.qualifiedName ↔
      ¬ Shadowed model unit type := by
  cases sound.classes type member with
  | platform known arguments => exact resolve_platform_iff sound coherent known member
  | verb interface _ =>
    exact iff_of_true (resolve_verb sound coherent interface member)
      fun shadowed => supportPackageOf_ne base shadowed.1
  | nested isNested =>
    exact iff_of_true (resolve_spell_nested sound.shallow coherent isNested)
      fun shadowed => sound.package_ne shadowed.1

end References

/-! ### Models -/

variable {configuration : Configuration} {description : Raml.Description} {session : Session}

theorem Refers.importName {base : String} {unit : CompilationUnit} {type : TypeRef}
    (refers : Refers base unit type) : ∃ importName, type.importName? = some importName := by
  cases refers <;> exact ⟨_, rfl⟩

/-- **Every unit of a model that was built is rendered if its annotations can be written, and by the
rules of Java each reference in its source denotes the type that the model refers to, unless that is
a shadowed class of `java.lang`.**  The names of the nested types, written in their own bodies,
denote them. -/
theorem references_resolve (built : buildModel configuration description = .ok session)
    {unit : CompilationUnit} (member : unit ∈ session.model.units) :
    ∃ naming, (Rendered unit naming ↔ unit.type.isWritable = true) ∧
      (∀ type ∈ typeClasses unit.type,
        (scopeIn session.model unit naming).resolve (naming.spell type) = type.qualifiedName ↔
          ¬ Shadowed session.model unit type) ∧
      ∀ inner ∈ unit.type.nested, (scopeIn session.model unit naming).resolve inner.name =
        (unit.path.nested inner.name).qualifiedName := by
  have sound := (buildModel_sound built).units unit member
  obtain ⟨naming, adopted⟩ := (Naming.ofUnit unit.path unit.type).exists_adoptAll
    fun type isClass => (sound.classes type isClass).importName
  have coherent := Naming.coherent_adoptAll adopted
  refine ⟨naming, rendered_iff adopted, fun type isClass => ?_, fun inner isInner => ?_⟩
  · exact resolve_reference_iff sound coherent isClass
  · exact resolve_inner sound.shallow isInner

/-- A description of two resources with a parameter each, the first of them named `string`. -/
def strings : Raml.Description where
  title := "t"
  version := none
  baseUri := none
  mediaType := none
  resources := ["/string", "/users"].map fun path =>
    { relativePath := path, path, displayName := none, description := none, pathParameters := []
      actions := [⟨.get, path, none, [], [("order", { default := some "x" })]⟩]
      resources := [] }

theorem references_resolve_strings : ∃ session,
    buildModel { basePackage := "api" } strings = .ok session ∧ session.model.units ≠ [] ∧
      ∀ unit ∈ session.model.units, ∃ naming, Rendered unit naming ∧
        (∀ type ∈ typeClasses unit.type,
          (scopeIn session.model unit naming).resolve (naming.spell type) = type.qualifiedName ↔
            ¬ Shadowed session.model unit type) ∧
        ∀ inner ∈ unit.type.nested, (scopeIn session.model unit naming).resolve inner.name =
          (unit.path.nested inner.name).qualifiedName := by
  have there : ((buildModel { basePackage := "api" } strings).toOption.any
      fun session => !session.model.units.isEmpty &&
        session.model.units.all (·.type.isWritable)) = true := by
    decide +kernel
  cases built : buildModel { basePackage := "api" } strings with
  | error failure =>
    rw [built] at there
    cases there
  | ok session =>
    rw [built] at there
    obtain ⟨nonempty, writable⟩ := Bool.and_eq_true_iff.mp there
    refine ⟨session, rfl, by simpa using nonempty, fun unit member => ?_⟩
    obtain ⟨naming, rendered, resolves⟩ := references_resolve built member
    exact ⟨naming, rendered.mpr (List.all_eq_true.mp writable unit member), resolves⟩

/-- **A reference that does not denote its type**: `java.lang.String` is written by its simple name
in a package that has an interface `String`. -/
theorem string_denotes_another : ∃ session,
    buildModel { basePackage := "api" } strings = .ok session ∧
      ∃ unit ∈ session.model.units, ∃ naming, Rendered unit naming ∧
        ∃ type ∈ typeClasses unit.type,
          (scopeIn session.model unit naming).resolve (naming.spell type) ≠ type.qualifiedName := by
  have shadowed : ((buildModel { basePackage := "api" } strings).toOption.any fun session =>
      decide (∃ unit ∈ session.model.units, unit.type.isWritable = true ∧
        ∃ type ∈ typeClasses unit.type, Shadowed session.model unit type)) = true := by
    decide +kernel
  cases built : buildModel { basePackage := "api" } strings with
  | error failure =>
    rw [built] at shadowed
    cases shadowed
  | ok session =>
    rw [built] at shadowed
    obtain ⟨unit, member, writable, type, isClass, hidden⟩ := of_decide_eq_true shadowed
    have sound := (buildModel_sound built).units unit member
    obtain ⟨naming, adopted⟩ := (Naming.ofUnit unit.path unit.type).exists_adoptAll
      fun other isOther => (sound.classes other isOther).importName
    refine ⟨session, rfl, unit, member, naming, (rendered_iff adopted).mpr writable, type, isClass,
      ?_⟩
    intro resolved
    have coherent := Naming.coherent_adoptAll adopted
    exact (resolve_reference_iff sound coherent isClass).mp resolved hidden

end RamlInterfaces.Generation
