/-
**Interfaces do not depend on each other.**

What is generated for a resource is the same whatever other resources are described with it, and in
whatever order: nothing is carried over from one interface to the next but the annotation types of
verbs, and these do not depend on who asks for them.

* `mem_verbsOf_iff`, `nodup_verbsOf`: the verbs that annotation types are declared for;
* `units_perm`: the types of a model, read off the resources of its description;
* `exists_buildModel_of_subset`: some of the resources can be built where all can;
* `buildModel_independent`: **a resource alone gives the same interface, and resources in another
  order the same types**.
-/

import Mathlib.Data.List.Forall2
import Mathlib.Data.List.Nodup
import Mathlib.Data.List.Perm.Basic
import RamlInterfaces.Generation.SourceFile
import RamlInterfaces.Proofs.Generation.Clashes
import RamlInterfaces.Proofs.Generation.InterfaceDeclarations

namespace RamlInterfaces.Generation

open Java
open Settings (Configuration)

variable {configuration : Configuration} {description : Raml.Description} {session : Session}

/-! ### Verbs -/

theorem mem_noteVerb_iff {verbs : List Verb} {verb other : Verb} :
    other ∈ noteVerb verbs verb ↔
      other ∈ verbs ∨ platformVerbType? other = none ∧ verb = other := by
  unfold noteVerb
  by_cases known : verb ∈ verbs
  · rw [if_pos (by simp [known])]
    refine (or_iff_left_of_imp ?_).symm
    rintro ⟨_, rfl⟩
    exact known
  · cases platform : platformVerbType? verb with
    | some type =>
      rw [if_pos (by simp)]
      refine (or_iff_left_of_imp ?_).symm
      rintro ⟨none, rfl⟩
      rw [platform] at none
      cases none
    | none =>
      rw [if_neg (by simp [known]), List.mem_append, List.mem_singleton]
      refine or_congr_right ⟨?_, fun same => same.2.symm⟩
      rintro rfl
      exact ⟨platform, rfl⟩

/-- **Annotation types are declared for the verbs of actions that the platform has none for.** -/
theorem mem_verbsOf_iff {entries : List (Raml.Resource × Raml.Action)} {verb : Verb} :
    verb ∈ verbsOf entries ↔
      platformVerbType? verb = none ∧ ∃ entry ∈ entries, entry.2.verb = verb := by
  have further (verbs : List Verb) :
      verb ∈ entries.foldl (fun verbs entry => noteVerb verbs entry.2.verb) verbs ↔
        verb ∈ verbs ∨ platformVerbType? verb = none ∧ ∃ entry ∈ entries, entry.2.verb = verb := by
    induction entries generalizing verbs with
    | nil => simp
    | cons first rest ih =>
      rw [List.foldl_cons, ih, mem_noteVerb_iff, or_assoc, ← and_or_left, List.exists_mem_cons_iff]
  exact (further []).trans (or_iff_right List.not_mem_nil)

theorem nodup_noteVerb {verbs : List Verb} (distinct : verbs.Nodup) (verb : Verb) :
    (noteVerb verbs verb).Nodup := by
  unfold noteVerb
  by_cases known : verb ∈ verbs
  · rw [if_pos (by simp [known])]
    exact distinct
  · split
    · exact distinct
    · rw [← List.concat_eq_append]
      exact List.Nodup.concat known distinct

theorem nodup_verbsOf (entries : List (Raml.Resource × Raml.Action)) : (verbsOf entries).Nodup :=
  List.foldlRecOn (motive := List.Nodup) entries _ List.nodup_nil
    fun _ distinct entry _ => nodup_noteVerb distinct entry.2.verb

/-! ### The types of a model -/

/-- The unit of the interface of a resource. -/
def interfaceUnit (configuration : Configuration) (resource : Raml.Resource) : CompilationUnit :=
  ⟨resourcePackageOf configuration.basePackage,
    interfaceDecl configuration.basePackage configuration.constraints resource⟩

/-- The unit of the annotation type of a verb. -/
def verbUnit (configuration : Configuration) (verb : Verb) : CompilationUnit :=
  ⟨supportPackageOf configuration.basePackage, verbDecl verb⟩

/-- The units of a package are their types in that package. -/
theorem units_of_types {α : Type} {units : List CompilationUnit} {package : String}
    {items : List α} {decl : α → TypeDecl}
    (types : (units.filter (·.package == package)).map (·.type) = items.map decl) :
    units.filter (·.package == package) = items.map fun item => ⟨package, decl item⟩ := by
  have whole : (units.filter (·.package == package)).map
      (fun unit => (⟨package, unit.type⟩ : CompilationUnit)) =
        units.filter (·.package == package) := by
    refine (List.map_congr_left fun unit member => ?_).trans (List.map_id _)
    have isPackage : unit.package = package := beq_iff_eq.mp (List.mem_filter.mp member).2
    rw [← isPackage]
    rfl
  have units := congrArg (List.map (CompilationUnit.mk package)) types
  rw [List.map_map, List.map_map] at units
  exact whole.symm.trans units

/-- **The interfaces of a model are those of the resources of its description.** -/
theorem interfaces_of_built (built : buildModel configuration description = .ok session) :
    session.model.units.filter (·.type.kind == .interface) =
      description.resources.map (interfaceUnit configuration) := by
  rw [(buildModel_reached built).outlined.filter_interface]
  exact units_of_types (buildModel_made built).declares.interfaces

/-- **The types of a model, in some order**: an interface for each resource, and an annotation type
for each verb that the platform has none for. -/
theorem units_perm (built : buildModel configuration description = .ok session) :
    session.model.units.Perm
      (description.resources.map (interfaceUnit configuration) ++
        (verbsOf (description.resources.flatMap actionsFrom)).map (verbUnit configuration)) := by
  let base := configuration.basePackage
  have reached := buildModel_reached built
  have made := buildModel_made built
  have others : session.model.units.filter (fun unit => !isResource base unit) =
      session.model.units.filter (isSupport base) := by
    refine List.filter_congr fun unit member => ?_
    rcases (reached.outlined.units unit member).role with ⟨isInterface, _⟩ | ⟨inSupports, _⟩
    · rw [isInterface, isSupport_of_isResource isInterface]
      rfl
    · rw [inSupports]
      cases isInterface : isResource base unit with
      | false => rfl
      | true =>
        rw [isSupport_of_isResource isInterface] at inSupports
        cases inSupports
  have interfaces : session.model.units.filter (isResource base) =
      description.resources.map (interfaceUnit configuration) :=
    units_of_types made.declares.interfaces
  have supports : session.model.units.filter (isSupport base) =
      (verbsOf (description.resources.flatMap actionsFrom)).map (verbUnit configuration) :=
    units_of_types made.declares.supports
  have parts := List.filter_append_perm (isResource base) session.model.units
  rw [others, interfaces, supports] at parts
  exact parts.symm

/-! ### Building some of the resources -/

/-- **Resources of different names can be built where more can.** -/
theorem exists_buildModel_of_subset (built : buildModel configuration description = .ok session)
    {resources : List Raml.Resource} (subset : resources ⊆ description.resources)
    (distinct : (resources.map fun resource =>
      interfaceName resource.displayName resource.relativePath).Nodup) :
    ∃ other, buildModel configuration { description with resources } = .ok other := by
  obtain ⟨based, clear⟩ := exists_buildModel_iff.mp ⟨session, built⟩
  refine exists_buildModel_iff.mpr ⟨based, throughout_clearInterface.mpr ⟨distinct, ?_⟩⟩
  exact fun resource member => (throughout_clearInterface.mp clear).2 resource (subset member)

/-- Fewer resources have fewer types. -/
theorem units_subset {other : Session} (built : buildModel configuration description = .ok session)
    {resources : List Raml.Resource} (subset : resources ⊆ description.resources)
    (built' : buildModel configuration { description with resources } = .ok other) :
    other.model.units ⊆ session.model.units := by
  intro unit member
  rw [(units_perm built).mem_iff]
  rcases List.mem_append.mp ((units_perm built').mem_iff.mp member) with isInterface | isVerb
  · exact List.mem_append_left _ (List.map_subset _ subset isInterface)
  · refine List.mem_append_right _ (List.map_subset _ (fun verb isNeeded => ?_) isVerb)
    obtain ⟨none, entry, isEntry, same⟩ := mem_verbsOf_iff.mp isNeeded
    obtain ⟨resource, isResource, isAction⟩ := List.mem_flatMap.mp isEntry
    refine mem_verbsOf_iff.mpr ⟨none, entry, ?_, same⟩
    exact List.mem_flatMap.mpr ⟨resource, subset isResource, isAction⟩

/-! ### Source texts -/

/-- Fewer types have fewer source texts, each the same. -/
theorem renderModel_of_subset {model other : Model} {texts : List (CompilationUnit × String)}
    (subset : other.units ⊆ model.units) (rendered : renderModel model = .ok texts) :
    ∃ fewer, renderModel other = .ok fewer ∧ fewer ⊆ texts :=
  exists_mapM_of_subset subset rendered

/-- The same types in another order have the same source texts in another order. -/
theorem renderModel_of_perm {model other : Model} {texts : List (CompilationUnit × String)}
    (perm : other.units.Perm model.units) (rendered : renderModel model = .ok texts) :
    ∃ permuted, renderModel other = .ok permuted ∧ permuted.Perm texts := by
  obtain ⟨permuted, isRendered, _⟩ := renderModel_of_subset perm.subset rendered
  refine ⟨permuted, isRendered, ?_⟩
  have results := perm.map fun unit =>
    (renderUnit unit.path unit.type).map fun text => (unit, text)
  rw [mapM_eq_ok_iff.mp isRendered, mapM_eq_ok_iff.mp rendered] at results
  exact (List.map_perm_map_iff fun _ _ same => Except.ok.inj same).mp results

/-! ### Independence -/

/-- The interfaces that a session has for the resources of a description do not depend on each
other. -/
structure Independent (configuration : Configuration) (description : Raml.Description)
    (session : Session) : Prop where
  /-- Each resource can be built alone, and gives the same interface with the same source text. -/
  alone : List.Forall₂ (fun unit resource => ∃ alone,
      buildModel configuration { description with resources := [resource] } = .ok alone ∧
      alone.model.units.filter (·.type.kind == .interface) = [unit] ∧
      ∀ texts, renderModel session.model = .ok texts → ∃ fewer,
        renderModel alone.model = .ok fewer ∧ fewer ⊆ texts)
    (session.model.units.filter (·.type.kind == .interface)) description.resources
  /-- The resources can be built in any order, and give the same types with the same source texts in
  another order. -/
  permuted : ∀ resources, resources.Perm description.resources → ∃ other,
    buildModel configuration { description with resources } = .ok other ∧
    other.model.units.Perm session.model.units ∧
    ∀ texts, renderModel session.model = .ok texts → ∃ permuted,
      renderModel other.model = .ok permuted ∧ permuted.Perm texts

/-- **Interfaces do not depend on each other.** -/
theorem buildModel_independent (built : buildModel configuration description = .ok session) :
    Independent configuration description session where
  alone := by
    rw [interfaces_of_built built, List.forall₂_map_left_iff, List.forall₂_same]
    intro resource member
    have subset : [resource] ⊆ description.resources := by simpa using member
    obtain ⟨alone, isBuilt⟩ := exists_buildModel_of_subset built subset (List.nodup_singleton _)
    refine ⟨alone, isBuilt, interfaces_of_built isBuilt, fun texts rendered => ?_⟩
    exact renderModel_of_subset (units_subset built subset isBuilt) rendered
  permuted := by
    intro resources perm
    obtain ⟨_, clear⟩ := exists_buildModel_iff.mp ⟨session, built⟩
    have distinct := (throughout_clearInterface.mp clear).1
    obtain ⟨other, isBuilt⟩ := exists_buildModel_of_subset built perm.subset
      ((perm.map _).nodup_iff.mpr distinct)
    -- the verbs come up in another order, but each of them once
    have verbs : (verbsOf (resources.flatMap actionsFrom)).Perm
        (verbsOf (description.resources.flatMap actionsFrom)) := by
      refine (List.perm_ext_iff_of_nodup (nodup_verbsOf _) (nodup_verbsOf _)).mpr fun verb => ?_
      simp only [mem_verbsOf_iff, (perm.flatMap_right actionsFrom).mem_iff]
    have units : other.model.units.Perm session.model.units :=
      (units_perm isBuilt).trans
        (((perm.map _).append (verbs.map _)).trans (units_perm built).symm)
    exact ⟨other, isBuilt, units, fun texts rendered => renderModel_of_perm units rendered⟩

/-- A description of two resources that use a verb in common. -/
def shelves : Raml.Description where
  title := "t"
  version := none
  baseUri := none
  mediaType := none
  resources := [{
    relativePath := "/shelves", path := "/shelves", displayName := none, description := none
    pathParameters := []
    actions := [⟨.patch, "/shelves", none, [],
      [("order", { enumValues := some ["up", "down"], default := some "up" })]⟩]
    resources := [] }, {
    relativePath := "/books", path := "/books", displayName := none, description := some "Books."
    pathParameters := []
    actions := [⟨.patch, "/books", none, [("X-Page", { kind := some "integer" })],
      [("order", { enumValues := some ["title"] })]⟩]
    resources := [] }]

theorem independent_shelves : ∃ session texts,
    buildModel { basePackage := "api", constraints := true } shelves = .ok session ∧
      Independent { basePackage := "api", constraints := true } shelves session ∧
      renderModel session.model = .ok texts ∧
      texts.map (·.1.type.name) = ["Shelves", "PATCH", "Books"] := by
  have names : ((buildModel { basePackage := "api", constraints := true } shelves).toOption.bind
      fun session => (renderModel session.model).toOption.map fun texts =>
        texts.map (·.1.type.name)) = some ["Shelves", "PATCH", "Books"] := by
    decide +kernel
  obtain ⟨session, isSession, names⟩ := Option.bind_eq_some_iff.mp names
  obtain ⟨texts, isTexts, names⟩ := Option.map_eq_some_iff.mp names
  have built := toOption_eq_some_iff.mp isSession
  exact ⟨session, texts, built, buildModel_independent built, toOption_eq_some_iff.mp isTexts,
    names⟩

end RamlInterfaces.Generation
