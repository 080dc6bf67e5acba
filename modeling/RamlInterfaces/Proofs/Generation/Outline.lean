/-
**The outlines of interfaces.**

What an interface is made of, without the comments and the types of its parameters: its name, its
annotations, its methods with the variables of their parameters, what binds these and the tags for
them, and the types nested in it.  The declarations of a model change the outline of the interface
that they are made in and no other.

* `MethodOutline`, `Outline`, `outlineOf`: the outlines of methods and interfaces;
* `Outlined`: a model with interfaces of the given outlines and annotation types of the given names;
* `Outlined.type?`: an interface is found by its name;
* `Outlined.modifyInterface`, `Outlined.modifySupport`: **a change in one type**;
* `Settles`: a result is there, or a collision is in the way;
* `Outlined.define_interface`, `Outlined.define_support`: **a new type**.
-/

import Mathlib.Data.List.Nodup
import RamlInterfaces.Proofs.Generation.Soundness
import RamlInterfaces.Proofs.Java.Reference

namespace RamlInterfaces.Generation

open Java

/-! ### Outlines -/

/-- The annotation says where in a request a parameter is bound from. -/
def isBinding (mark : Annotation) : Bool :=
  ["javax.ws.rs.PathParam", "javax.ws.rs.HeaderParam", "javax.ws.rs.QueryParam"].contains
    mark.type.qualifiedName

/-- What a method is made of: its parameters are variables with the annotations that bind them. -/
structure MethodOutline where
  name : String
  annotations : List Annotation := []
  parameters : List (String × List Annotation) := []
  tags : List (String × String) := []

/-- What an interface is made of. -/
structure Outline where
  name : String
  annotations : List Annotation := []
  methods : List MethodOutline := []
  nested : List TypeDecl := []

/-- A variable with the annotations that bind it. -/
def parameterOutline (parameter : Parameter) : String × List Annotation :=
  (parameter.name, parameter.annotations.filter isBinding)

/-- The outline of a method. -/
def methodOutline (method : Method) : MethodOutline where
  name := method.name
  annotations := method.annotations
  parameters := method.parameters.map parameterOutline
  tags := method.doc.tags

/-- The outline of a type. -/
def outlineOf (decl : TypeDecl) : Outline where
  name := decl.name
  annotations := decl.annotations
  methods := decl.methods.map methodOutline
  nested := decl.nested

/-- The unit is one of the interfaces under a base package. -/
def isResource (base : String) (unit : CompilationUnit) : Bool :=
  unit.package == resourcePackageOf base

/-- The unit is one of the annotation types under a base package. -/
def isSupport (base : String) (unit : CompilationUnit) : Bool :=
  unit.package == supportPackageOf base

/-- A unit under a base package: an interface, or an annotation type, which has no methods. -/
structure PlainUnit (base : String) (unit : CompilationUnit) : Prop where
  plain : IsPlain unit.type.name
  role : isResource base unit = true ∧ unit.type.kind = .interface ∨
    isSupport base unit = true ∧ unit.type.kind = .annotationType ∧ unit.type.methods = []

/-- The units of a model under a base package are interfaces of the given outlines, in order, no two
of one name, and annotation types of the given names. -/
structure Outlined (base : String) (outlines : List Outline) (supports : List String)
    (model : Model) : Prop where
  units : ∀ unit ∈ model.units, PlainUnit base unit
  interfaces : (model.units.filter (isResource base)).map (outlineOf ·.type) = outlines
  supports : (model.units.filter (isSupport base)).map (·.type.name) = supports
  distinct : (outlines.map (·.name)).Nodup

variable {base : String} {outlines done : List Outline} {supports : List String} {model : Model}
  {outline : Outline} {unit : CompilationUnit} {path : TypePath}

theorem resourcePackageOf_ne (base : String) : resourcePackageOf base ≠ supportPackageOf base := by
  intro same
  have suffix := String.append_right_inj _ |>.mp same
  exact absurd suffix (by decide)

theorem isSupport_of_isResource (isInterface : isResource base unit = true) :
    isSupport base unit = false := by
  unfold isResource at isInterface
  unfold isSupport
  rw [beq_iff_eq.mp isInterface]
  exact beq_false_of_ne (resourcePackageOf_ne base)

/-- The interfaces are the units that were declared as such. -/
theorem PlainUnit.isResource_eq (plain : PlainUnit base unit) :
    isResource base unit = (unit.type.kind == .interface) := by
  rcases plain.role with ⟨isInterface, kind⟩ | ⟨inSupports, kind, _⟩
  · rw [isInterface, kind]
    rfl
  · rw [kind]
    cases isInterface : isResource base unit with
    | false => rfl
    | true =>
      rw [isSupport_of_isResource isInterface] at inSupports
      cases inSupports

theorem outlined_empty (base : String) : Outlined base [] [] {} where
  units := fun _ member => absurd member List.not_mem_nil
  interfaces := rfl
  supports := rfl
  distinct := List.nodup_nil

theorem holds_iff : Model.holds path unit = true ↔
    unit.package = path.package ∧ unit.type.name = path.outermost := by
  unfold Model.holds
  rw [Bool.and_eq_true, beq_iff_eq, beq_iff_eq]

/-! ### Looking up -/

/-- The interfaces of a model are the units in the package of resources. -/
theorem Outlined.filter_interface (outlined : Outlined base outlines supports model) :
    model.units.filter (·.type.kind == .interface) = model.units.filter (isResource base) :=
  List.filter_congr fun unit member => (outlined.units unit member).isResource_eq.symm

/-- Interfaces of one name have one outline. -/
theorem Outlined.outline_eq (outlined : Outlined base outlines supports model)
    (member : outline ∈ outlines) (isUnit : unit ∈ model.units)
    (holds : Model.holds (interfaceOf base outline.name) unit = true) :
    outlineOf unit.type = outline := by
  obtain ⟨package, name⟩ := holds_iff.mp holds
  have isInterface : unit ∈ model.units.filter (isResource base) :=
    List.mem_filter.mpr ⟨isUnit, beq_iff_eq.mpr package⟩
  have isOutline : outlineOf unit.type ∈ outlines := by
    rw [← outlined.interfaces]
    exact List.mem_map_of_mem isInterface
  exact List.inj_on_of_nodup_map outlined.distinct isOutline member name

/-- **An interface is found by its name.** -/
theorem Outlined.type? (outlined : Outlined base outlines supports model)
    (member : outline ∈ outlines) : ∃ decl,
      model.type? (interfaceOf base outline.name) = some decl ∧ outlineOf decl = outline := by
  have isMapped := member
  rw [← outlined.interfaces] at isMapped
  obtain ⟨unit, kept, same⟩ := List.mem_map.mp isMapped
  obtain ⟨isUnit, isInterface⟩ := List.mem_filter.mp kept
  have name : unit.type.name = outline.name := congrArg Outline.name same
  have isThere : (model.units.find?
      (Model.holds (interfaceOf base outline.name))).isSome = true :=
    List.find?_isSome.mpr ⟨unit, isUnit, holds_iff.mpr ⟨beq_iff_eq.mp isInterface, name⟩⟩
  obtain ⟨found, isFound⟩ := Option.isSome_iff_exists.mp isThere
  refine ⟨found.type, ?_, ?_⟩
  · unfold Model.type?
    rw [isFound]
    rfl
  · exact outlined.outline_eq member (List.mem_of_find?_eq_some isFound)
      (List.find?_some isFound)

/-! ### Changes -/

/-- Names with one more are distinct if they are and it is new. -/
theorem nodup_map_concat_iff {α β : Type} {view : α → β} {items : List α} {item : α} :
    ((items ++ [item]).map view).Nodup ↔ (items.map view).Nodup ∧ view item ∉ items.map view := by
  rw [List.map_append, List.map_singleton, ← List.concat_eq_append, List.nodup_concat, and_comm]

/-- The outline of a unit after the type at a path is changed. -/
def changedOutline (path : TypePath) (change : TypeDecl → TypeDecl) (unit : CompilationUnit) :
    Outline :=
  outlineOf (if Model.holds path unit then unit.type.modify change path.inner else unit.type)

/-- **A change of the type at a path** that keeps what its unit is. -/
theorem Outlined.modifyType {later : List Outline} {change : TypeDecl → TypeDecl}
    (outlined : Outlined base outlines supports model)
    (name : ∀ unit ∈ model.units, Model.holds path unit = true →
      (unit.type.modify change path.inner).name = unit.type.name)
    (role : ∀ unit ∈ model.units, Model.holds path unit = true → PlainUnit base unit →
      PlainUnit base { unit with type := unit.type.modify change path.inner })
    (names : later.map (·.name) = outlines.map (·.name))
    (interfaces : (model.units.filter (isResource base)).map (changedOutline path change) = later) :
    Outlined base later supports (model.modifyType path change) := by
  let step (unit : CompilationUnit) : CompilationUnit :=
    if Model.holds path unit then { unit with type := unit.type.modify change path.inner } else unit
  have package (unit : CompilationUnit) : (step unit).package = unit.package := by
    by_cases holds : Model.holds path unit = true <;> simp [step, holds]
  have outline (unit : CompilationUnit) :
      outlineOf (step unit).type = changedOutline path change unit := by
    by_cases holds : Model.holds path unit = true <;> simp [step, changedOutline, holds]
  have kept (isIn : String) : model.units.filter ((·.package == isIn) ∘ step) =
      model.units.filter (·.package == isIn) := by
    refine List.filter_congr fun unit _ => ?_
    rw [Function.comp_apply, package]
  refine ⟨fun unit member => ?_, ?_, ?_, names ▸ outlined.distinct⟩
  · obtain ⟨old, isOld, rfl⟩ := List.mem_map.mp member
    by_cases holds : Model.holds path old = true
    · rw [if_pos holds]
      exact role old isOld holds (outlined.units old isOld)
    · rw [if_neg holds]
      exact outlined.units old isOld
  · show ((model.units.map step).filter (isResource base)).map _ = later
    rw [List.filter_map, List.map_map, ← interfaces]
    exact (congrArg (List.map _) (kept _)).trans (List.map_congr_left fun unit _ => outline unit)
  · show ((model.units.map step).filter (isSupport base)).map _ = supports
    rw [List.filter_map, List.map_map, ← outlined.supports]
    refine (congrArg (List.map _) (kept _)).trans (List.map_congr_left fun unit isKept => ?_)
    show (step unit).type.name = unit.type.name
    by_cases holds : Model.holds path unit = true
    · simpa [step, holds] using name unit (List.mem_of_mem_filter isKept) holds
    · simp [step, holds]

/-- **A change in the interface that was declared last** changes its outline only. -/
theorem Outlined.modifyInterface {later : Outline} {inner : List String}
    {change : TypeDecl → TypeDecl}
    (outlined : Outlined base (done ++ [outline]) supports model)
    (named : later.name = outline.name)
    (effect : ∀ decl : TypeDecl, outlineOf decl = outline →
      outlineOf (decl.modify change inner) = later)
    (kind : ∀ decl : TypeDecl, (decl.modify change inner).kind = decl.kind) :
    Outlined base (done ++ [later]) supports
      (model.modifyType ⟨resourcePackageOf base, outline.name, inner⟩ change) := by
  let path : TypePath := ⟨resourcePackageOf base, outline.name, inner⟩
  have last : outline ∈ done ++ [outline] := List.mem_append_right _ List.mem_cons_self
  have there (unit : CompilationUnit) (isUnit : unit ∈ model.units)
      (holds : Model.holds path unit = true) :
      outlineOf (unit.type.modify change inner) = later :=
    effect _ (outlined.outline_eq last isUnit (holds_iff.mpr (holds_iff.mp holds)))
  have name (unit : CompilationUnit) (isUnit : unit ∈ model.units)
      (holds : Model.holds path unit = true) :
      (unit.type.modify change inner).name = unit.type.name := by
    have same : (unit.type.modify change inner).name = later.name :=
      congrArg Outline.name (there unit isUnit holds)
    exact same.trans (named.trans (holds_iff.mp holds).2.symm)
  refine outlined.modifyType name (fun unit isUnit holds plain => ?_) (by simp [named]) ?_
  · have isInterface : isResource base unit = true := beq_iff_eq.mpr (holds_iff.mp holds).1
    have declared : unit.type.kind = .interface :=
      beq_iff_eq.mp (plain.isResource_eq.symm.trans isInterface)
    exact ⟨name unit isUnit holds ▸ plain.plain, .inl ⟨isInterface, (kind _).trans declared⟩⟩
  -- the interfaces that were declared before have other names
  obtain ⟨others, mine, split, isDone, isLast⟩ := List.map_eq_append_iff.mp outlined.interfaces
  obtain ⟨unit, rfl, same⟩ := List.map_eq_singleton_iff.mp isLast
  have isMine : unit ∈ model.units.filter (isResource base) := by
    rw [split]
    exact List.mem_append_right _ List.mem_cons_self
  rw [split, List.map_append, List.map_singleton, ← isDone]
  congr 1
  · refine List.map_congr_left fun other member => congrArg outlineOf (if_neg fun holds => ?_)
    have isNamed : (outlineOf other.type).name = outline.name := (holds_iff.mp holds).2
    refine (nodup_map_concat_iff.mp outlined.distinct).2 ?_
    rw [← isNamed, ← isDone]
    exact List.mem_map_of_mem (List.mem_map_of_mem member)
  · obtain ⟨isUnit, isInterface⟩ := List.mem_filter.mp isMine
    have holds : Model.holds path unit = true :=
      holds_iff.mpr ⟨beq_iff_eq.mp isInterface, congrArg Outline.name same⟩
    exact congrArg ([·]) ((congrArg outlineOf (if_pos holds)).trans (there unit isUnit holds))

/-- A change in an annotation type that keeps its name, its kind and its methods. -/
theorem Outlined.modifySupport {name : String} {change : TypeDecl → TypeDecl}
    (outlined : Outlined base outlines supports model)
    (named : ∀ decl, (change decl).name = decl.name)
    (kind : ∀ decl, (change decl).kind = decl.kind)
    (methods : ∀ decl, (change decl).methods = decl.methods) :
    Outlined base outlines supports
      (model.modifyType ⟨supportPackageOf base, name, []⟩ change) := by
  refine outlined.modifyType (fun unit _ _ => named unit.type) (fun unit _ _ plain => ?_) rfl ?_
  · refine ⟨(named unit.type).symm ▸ plain.plain, ?_⟩
    rcases plain.role with ⟨isInterface, declared⟩ | ⟨inSupports, declared, empty⟩
    · exact .inl ⟨isInterface, (kind _).trans declared⟩
    · exact .inr ⟨inSupports, (kind _).trans declared, (methods _).trans empty⟩
  · rw [← outlined.interfaces]
    refine List.map_congr_left fun unit kept => congrArg outlineOf (if_neg fun holds => ?_)
    have inSupports : isSupport base unit = true := beq_iff_eq.mpr (holds_iff.mp holds).1
    rw [isSupport_of_isResource (List.mem_filter.mp kept).2] at inSupports
    cases inSupports

/-! ### New types -/

/-- The result is there if nothing is in the way, and a collision otherwise. -/
structure Settles {α : Type} (result : Except Fault α) (clear : Prop) (after : α → Prop) :
    Prop where
  succeeds : clear → ∃ value, result = .ok value ∧ after value
  collides : ¬ clear → ∃ fault, result = .error fault ∧ fault.isCollision = true

theorem Settles.mono {α : Type} {result : Except Fault α} {clear : Prop} {after later : α → Prop}
    (settles : Settles result clear after)
    (implies : ∀ value, clear → after value → later value) : Settles result clear later where
  succeeds := fun free => by
    obtain ⟨value, done, holds⟩ := settles.succeeds free
    exact ⟨value, done, implies value free holds⟩
  collides := settles.collides

theorem Settles.congr {α : Type} {result : Except Fault α} {clear other : Prop}
    {after : α → Prop} (settles : Settles result clear after) (same : clear ↔ other) :
    Settles result other after :=
  propext same ▸ settles

theorem Settles.map {α β : Type} {result : Except Fault α} {clear : Prop} {change : α → β}
    {after : β → Prop} (settles : Settles result clear fun value => after (change value)) :
    Settles (result.map change) clear after where
  succeeds := fun free => by
    obtain ⟨value, rfl, holds⟩ := settles.succeeds free
    exact ⟨change value, rfl, holds⟩
  collides := fun taken => by
    obtain ⟨fault, rfl, collision⟩ := settles.collides taken
    exact ⟨fault, rfl, collision⟩

theorem qualifiedName_eq_append {package : String} (unit : CompilationUnit)
    (inPackage : unit.package = package) (based : package.isEmpty = false) :
    unit.qualifiedName = package ++ "." ++ unit.type.name := by
  show TypePath.qualify unit.package unit.type.name = _
  rw [inPackage, TypePath.qualify, based]
  rfl

theorem resourcePackageOf_isEmpty (base : String) : (resourcePackageOf base).isEmpty = false := by
  simp [resourcePackageOf]

theorem supportPackageOf_isEmpty (base : String) : (supportPackageOf base).isEmpty = false := by
  simp [supportPackageOf]

theorem PlainUnit.package (plain : PlainUnit base unit) :
    unit.package = resourcePackageOf base ∨ unit.package = supportPackageOf base := by
  rcases plain.role with ⟨isInterface, _⟩ | ⟨inSupports, _⟩
  · exact .inl (beq_iff_eq.mp isInterface)
  · exact .inr (beq_iff_eq.mp inSupports)

/-- **Units of one qualified name have one package and one name.** -/
theorem PlainUnit.eq_of_qualifiedName {other : CompilationUnit} (plain : PlainUnit base unit)
    (otherPlain : PlainUnit base other) (same : unit.qualifiedName = other.qualifiedName) :
    unit.package = other.package ∧ unit.type.name = other.type.name := by
  have based {unit : CompilationUnit} (plain : PlainUnit base unit) :
      unit.package.isEmpty = false := by
    rcases plain.package with package | package
    · rw [package]
      exact resourcePackageOf_isEmpty base
    · rw [package]
      exact supportPackageOf_isEmpty base
  have cut := same
  rw [qualifiedName_eq_append unit rfl (based plain),
    qualifiedName_eq_append other rfl (based otherPlain)] at cut
  have package := package_eq_of_qualified plain.plain.dot_notMem otherPlain.plain.dot_notMem cut
  rw [package] at cut
  exact ⟨package, String.append_right_inj _ |>.mp cut⟩

/-- **A type is declared unless the model has one of its package and name.** -/
theorem Outlined.define (outlined : Outlined base outlines supports model) {package name : String}
    {kind : Kind} (plain : PlainUnit base ⟨package, { name, kind }⟩) :
    Settles (model.define package name kind)
      (¬ ∃ unit ∈ model.units, unit.package = package ∧ unit.type.name = name)
      fun next => next = { units := model.units ++ [⟨package, { name, kind }⟩] } := by
  constructor
  · intro fresh
    refine ⟨_, Model.define_eq_ok_iff.mpr ⟨fun taken => ?_, rfl⟩, rfl⟩
    obtain ⟨unit, isUnit, same⟩ := List.mem_map.mp taken
    exact fresh ⟨unit, isUnit, (outlined.units unit isUnit).eq_of_qualifiedName plain same⟩
  · intro taken
    obtain ⟨unit, isUnit, isPackage, isName⟩ := not_not.mp taken
    refine ⟨_, Model.define_eq_error_iff.mpr ⟨List.mem_map.mpr ⟨unit, isUnit, ?_⟩, rfl⟩, rfl⟩
    show TypePath.qualify unit.package unit.type.name = TypePath.qualify package name
    rw [isPackage, isName]

/-- The names of the interfaces. -/
theorem Outlined.mem_names_iff (outlined : Outlined base outlines supports model) {name : String} :
    name ∈ outlines.map (·.name) ↔
      ∃ unit ∈ model.units, unit.package = resourcePackageOf base ∧ unit.type.name = name := by
  rw [← outlined.interfaces, List.map_map]
  constructor
  · intro member
    obtain ⟨unit, kept, same⟩ := List.mem_map.mp member
    obtain ⟨isUnit, isInterface⟩ := List.mem_filter.mp kept
    exact ⟨unit, isUnit, beq_iff_eq.mp isInterface, same⟩
  · rintro ⟨unit, isUnit, package, rfl⟩
    exact List.mem_map.mpr ⟨unit, List.mem_filter.mpr ⟨isUnit, beq_iff_eq.mpr package⟩, rfl⟩

/-- The names of the annotation types. -/
theorem Outlined.mem_supports_iff (outlined : Outlined base outlines supports model)
    {name : String} : name ∈ supports ↔
      ∃ unit ∈ model.units, unit.package = supportPackageOf base ∧ unit.type.name = name := by
  rw [← outlined.supports]
  constructor
  · intro member
    obtain ⟨unit, kept, same⟩ := List.mem_map.mp member
    obtain ⟨isUnit, inSupports⟩ := List.mem_filter.mp kept
    exact ⟨unit, isUnit, beq_iff_eq.mp inSupports, same⟩
  · rintro ⟨unit, isUnit, package, rfl⟩
    exact List.mem_map.mpr ⟨unit, List.mem_filter.mpr ⟨isUnit, beq_iff_eq.mpr package⟩, rfl⟩

/-- **An interface is declared unless one has its name.** -/
theorem Outlined.define_interface (outlined : Outlined base outlines supports model) {name : String}
    (plain : IsPlain name) :
    Settles (model.define (resourcePackageOf base) name .interface)
      (name ∉ outlines.map (·.name))
      (Outlined base (outlines ++ [({ name } : Outline)]) supports) := by
  have added : PlainUnit base ⟨resourcePackageOf base, { name, kind := .interface }⟩ :=
    ⟨plain, .inl ⟨beq_self_eq_true _, rfl⟩⟩
  rw [outlined.mem_names_iff]
  refine (outlined.define added).mono fun next fresh same => ?_
  rw [same]
  have isInterface : isResource base ⟨resourcePackageOf base, { name, kind := .interface }⟩ =
      true := beq_self_eq_true _
  refine ⟨fun unit isUnit => ?_, ?_, ?_, ?_⟩
  · rcases List.mem_append.mp isUnit with old | new
    · exact outlined.units unit old
    · rw [List.mem_singleton.mp new]
      exact added
  · rw [List.filter_append, List.map_append, outlined.interfaces,
      List.filter_cons_of_pos isInterface]
    rfl
  · rw [List.filter_append, List.map_append, outlined.supports, List.filter_cons_of_neg]
    · exact List.append_nil _
    · simp [isSupport_of_isResource isInterface]
  · refine nodup_map_concat_iff.mpr ⟨outlined.distinct, fun member => ?_⟩
    exact fresh (outlined.mem_names_iff.mp member)

/-- **An annotation type is declared unless one has its name.** -/
theorem Outlined.define_support (outlined : Outlined base outlines supports model) {name : String}
    (plain : IsPlain name) :
    Settles (model.define (supportPackageOf base) name .annotationType) (name ∉ supports)
      (Outlined base outlines (supports ++ [name])) := by
  have inSupports : isSupport base ⟨supportPackageOf base, { name, kind := .annotationType }⟩ =
      true := beq_self_eq_true _
  have added : PlainUnit base ⟨supportPackageOf base, { name, kind := .annotationType }⟩ :=
    ⟨plain, .inr ⟨inSupports, rfl, rfl⟩⟩
  rw [outlined.mem_supports_iff]
  refine (outlined.define added).mono fun next _ same => ?_
  rw [same]
  refine ⟨fun unit isUnit => ?_, ?_, ?_, outlined.distinct⟩
  · rcases List.mem_append.mp isUnit with old | new
    · exact outlined.units unit old
    · rw [List.mem_singleton.mp new]
      exact added
  · rw [List.filter_append, List.map_append, outlined.interfaces, List.filter_cons_of_neg]
    · exact List.append_nil _
    · intro isInterface
      rw [isSupport_of_isResource isInterface] at inSupports
      cases inSupports
  · rw [List.filter_append, List.map_append, outlined.supports,
      List.filter_cons_of_pos inSupports]
    rfl

end RamlInterfaces.Generation
