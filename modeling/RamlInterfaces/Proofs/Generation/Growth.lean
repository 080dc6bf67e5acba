/-
**Units of a model that is built.**

Interfaces and the annotation types of verbs, in two packages under the base package.  An interface
refers to classes of the platform, to annotation types of verbs and to enums nested in it; no type
is nested any deeper.

* `Refers`: the classes that a unit may refer to;
* `SoundUnit`: a unit with plain names that refers to what it may refer to;
* `Grows`, `GrowsModel`: units and models with more members;
* `growsModel_annotate`, `growsModel_addParameter`, `growsModel_nest`: **the declarations of members
  grow a model**;
* `SoundUnit.pieces_package`: the segments of the package of a unit.
-/

import RamlInterfaces.Generation.Session
import RamlInterfaces.Proofs.Java.Identifier
import RamlInterfaces.Proofs.Java.Model
import RamlInterfaces.Proofs.Java.SourceText
import RamlInterfaces.Proofs.Text.Runs

namespace RamlInterfaces.Generation

open Java

/-- The classes of the platform that generated types refer to. -/
def platformClasses : List String :=
  ["java.lang.String", "java.lang.Override", "java.lang.IllegalArgumentException",
    "java.lang.Boolean", "java.lang.Long", "java.lang.Double", "java.lang.Object",
    "java.lang.annotation.Target", "java.lang.annotation.Retention",
    "java.lang.annotation.RetentionPolicy", "java.lang.annotation.ElementType",
    "java.util.Date", "java.util.List", "java.io.File",
    "javax.ws.rs.GET", "javax.ws.rs.POST", "javax.ws.rs.PUT", "javax.ws.rs.DELETE",
    "javax.ws.rs.HEAD", "javax.ws.rs.OPTIONS", "javax.ws.rs.HttpMethod", "javax.ws.rs.Path",
    "javax.ws.rs.PathParam", "javax.ws.rs.HeaderParam", "javax.ws.rs.QueryParam",
    "javax.ws.rs.DefaultValue",
    "javax.validation.constraints.NotNull", "javax.validation.constraints.Size",
    "javax.validation.constraints.Pattern", "javax.validation.constraints.Min",
    "javax.validation.constraints.Max", "javax.validation.constraints.DecimalMin",
    "javax.validation.constraints.DecimalMax"]

/-- The package of the interfaces under a base package. -/
def resourcePackageOf (base : String) : String := base ++ ".resource"

/-- The package of the annotation types under a base package. -/
def supportPackageOf (base : String) : String := base ++ ".support"

/-- The classes that a unit under a base package may refer to: those of the platform, the annotation
types of verbs that the platform has none for, and the types nested in it. -/
inductive Refers (base : String) (unit : CompilationUnit) : TypeRef → Prop
  | platform {name : String} (known : name ∈ platformClasses) (arguments : List TypeRef) :
    Refers base unit (.outside name arguments)
  | verb {verb : Verb} (interface : unit.package = resourcePackageOf base)
    (missing : platformVerbType? verb = none) :
    Refers base unit (.declared ⟨supportPackageOf base, verb.name, []⟩)
  | nested {name : String} (member : name ∈ unit.type.nested.map (·.name)) :
    Refers base unit (.declared ⟨unit.package, unit.type.name, [name]⟩)

/-- A unit under a base package with plain names, types nested in its own only, and references to
what it may refer to. -/
structure SoundUnit (base : String) (unit : CompilationUnit) : Prop where
  package : unit.package = resourcePackageOf base ∨ unit.package = supportPackageOf base
  plain : IsPlain unit.type.name
  nested : ∀ inner ∈ unit.type.nested,
    IsPlain inner.name ∧ inner.name ≠ unit.type.name ∧ inner.nested = []
  classes : ∀ type ∈ typeClasses unit.type, Refers base unit type

/-- The path of an interface under a base package. -/
def interfaceOf (base name : String) : TypePath := ⟨resourcePackageOf base, name, []⟩

theorem name_of_holds {path : TypePath} {unit : CompilationUnit}
    (holds : Model.holds path unit = true) : unit.type.name = path.outermost := by
  unfold Model.holds at holds
  rw [Bool.and_eq_true, beq_iff_eq, beq_iff_eq] at holds
  exact holds.2

theorem package_of_holds {path : TypePath} {unit : CompilationUnit}
    (holds : Model.holds path unit = true) : unit.package = path.package := by
  unfold Model.holds at holds
  rw [Bool.and_eq_true, beq_iff_eq, beq_iff_eq] at holds
  exact holds.1

/-- The path leads into one of the units. -/
def Leading (units : List CompilationUnit) (path : TypePath) : Prop :=
  ∃ unit ∈ units, Model.holds path unit = true

/-- The interface of a name is there, and has a nested type of the second name. -/
structure Hosts (base : String) (units : List CompilationUnit) (owner name : String) : Prop where
  owned : Leading units (interfaceOf base owner)
  nested : ∀ unit ∈ units, Model.holds (interfaceOf base owner) unit = true →
    name ∈ unit.type.nested.map (·.name)

/-! ### Growing units -/

/-- A unit with more members: its name stays, and so do the names of its nested types. -/
structure Grows (base : String) (unit later : CompilationUnit) : Prop where
  package : later.package = unit.package
  name : later.type.name = unit.type.name
  nested : ∀ name ∈ unit.type.nested.map (·.name), name ∈ later.type.nested.map (·.name)
  sound : SoundUnit base unit → SoundUnit base later

variable {base : String} {unit later : CompilationUnit}

theorem Grows.refl (base : String) (unit : CompilationUnit) : Grows base unit unit :=
  ⟨rfl, rfl, fun _ member => member, fun sound => sound⟩

theorem Grows.holds (grows : Grows base unit later) (path : TypePath) :
    Model.holds path later = Model.holds path unit := by
  unfold Model.holds
  rw [grows.package, grows.name]

theorem Grows.qualifiedName (grows : Grows base unit later) :
    later.qualifiedName = unit.qualifiedName := by
  unfold CompilationUnit.qualifiedName CompilationUnit.path
  rw [grows.package, grows.name]

/-- A grown unit may refer to what it could refer to. -/
theorem Refers.grow {type : TypeRef} (refers : Refers base unit type)
    (package : later.package = unit.package) (name : later.type.name = unit.type.name)
    (nested : ∀ name ∈ unit.type.nested.map (·.name), name ∈ later.type.nested.map (·.name)) :
    Refers base later type := by
  cases refers with
  | platform known arguments => exact .platform known arguments
  | verb interface missing => exact .verb (package.trans interface) missing
  | nested member =>
    rw [← package, ← name]
    exact .nested (nested _ member)

/-- **A type that changes in its members but in no nested one grows**, if the unit may refer to what
the change refers to. -/
theorem grows_of_change {change : TypeDecl → TypeDecl} {extra : List TypeRef}
    (name : (change unit.type).name = unit.type.name)
    (nested : (change unit.type).nested = unit.type.nested)
    (classes : ∀ type ∈ typeClasses (change unit.type), type ∈ typeClasses unit.type ∨ type ∈ extra)
    (allowed : ∀ type ∈ extra, Refers base unit type) :
    Grows base unit { unit with type := change unit.type } where
  package := rfl
  name := name
  nested := fun _ member => by
    show _ ∈ (change unit.type).nested.map (·.name)
    rwa [nested]
  sound := fun sound => {
    package := sound.package
    plain := by
      show IsPlain (change unit.type).name
      rw [name]
      exact sound.plain
    nested := by
      show ∀ inner ∈ (change unit.type).nested,
        IsPlain inner.name ∧ inner.name ≠ (change unit.type).name ∧ inner.nested = []
      rw [nested, name]
      exact sound.nested
    classes := fun type member => by
      have refers : Refers base unit type := by
        rcases classes type member with old | new
        · exact sound.classes type old
        · exact allowed type new
      refine refers.grow rfl name fun _ there => ?_
      show _ ∈ (change unit.type).nested.map (·.name)
      rwa [nested] }

/-! ### Growing models -/

/-- A model whose units have more members. -/
def GrowsModel (base : String) (model later : Model) : Prop :=
  ∃ change, later.units = model.units.map change ∧
    ∀ unit ∈ model.units, Grows base unit (change unit)

variable {model next : Model}

theorem Leading.grow {path : TypePath} (leading : Leading model.units path)
    (grown : GrowsModel base model next) : Leading next.units path := by
  obtain ⟨change, same, grows⟩ := grown
  obtain ⟨unit, member, holds⟩ := leading
  rw [same]
  exact ⟨change unit, List.mem_map_of_mem member, by rw [(grows unit member).holds, holds]⟩

theorem Hosts.grow {owner name : String} (hosts : Hosts base model.units owner name)
    (grown : GrowsModel base model next) : Hosts base next.units owner name where
  owned := hosts.owned.grow grown
  nested := fun later member holds => by
    obtain ⟨change, same, grows⟩ := grown
    rw [same] at member
    obtain ⟨unit, old, rfl⟩ := List.mem_map.mp member
    rw [(grows unit old).holds] at holds
    exact (grows unit old).nested _ (hosts.nested unit old holds)

/-- A model grows when the units at a path do. -/
theorem growsModel_modifyType {path : TypePath} {change : TypeDecl → TypeDecl}
    (grows : ∀ unit ∈ model.units, Model.holds path unit = true →
      Grows base unit { unit with type := unit.type.modify change path.inner }) :
    GrowsModel base model (model.modifyType path change) := by
  refine ⟨_, rfl, fun unit member => ?_⟩
  by_cases holds : Model.holds path unit = true
  · rw [if_pos holds]
    exact grows unit member holds
  · rw [if_neg holds]
    exact .refl _ unit

/-- A model grows when the types at a path change in their members but in no nested one. -/
theorem growsModel_changeType {path : TypePath} (outermost : path.inner = [])
    {change : TypeDecl → TypeDecl} {extra : List TypeRef}
    (name : ∀ decl, (change decl).name = decl.name)
    (nested : ∀ decl, (change decl).nested = decl.nested)
    (classes : ∀ decl, ∀ type ∈ typeClasses (change decl), type ∈ typeClasses decl ∨ type ∈ extra)
    (allowed : ∀ unit ∈ model.units, Model.holds path unit = true → ∀ type ∈ extra,
      Refers base unit type) : GrowsModel base model (model.modifyType path change) := by
  refine growsModel_modifyType fun unit member holds => ?_
  rw [outermost]
  exact grows_of_change (name unit.type) (nested unit.type) (classes unit.type)
    (allowed unit member holds)

theorem mem_modify {α : Type} {item : α} {items : List α} {index : Nat} {change : α → α}
    (member : item ∈ items.modify index change) :
    item ∈ items ∨ ∃ old ∈ items, item = change old := by
  induction items generalizing index with
  | nil => simp at member
  | cons first rest ih =>
    cases index with
    | zero =>
      rw [List.modify_zero_cons] at member
      rcases List.mem_cons.mp member with rfl | later
      · exact .inr ⟨first, List.mem_cons_self, rfl⟩
      · exact .inl (List.mem_cons_of_mem _ later)
    | succ index =>
      rw [List.modify_succ_cons] at member
      rcases List.mem_cons.mp member with rfl | later
      · exact .inl List.mem_cons_self
      · rcases ih later with old | ⟨old, there, same⟩
        · exact .inl (List.mem_cons_of_mem _ old)
        · exact .inr ⟨old, List.mem_cons_of_mem _ there, same⟩

/-- A model grows when methods change. -/
theorem growsModel_changeMethods {path : TypePath} (outermost : path.inner = [])
    {change : List Method → List Method} {extra : List TypeRef}
    (classes : ∀ methods, ∀ method ∈ change methods, ∀ type ∈ methodClasses method,
      (∃ old ∈ methods, type ∈ methodClasses old) ∨ type ∈ extra)
    (allowed : ∀ unit ∈ model.units, Model.holds path unit = true → ∀ type ∈ extra,
      Refers base unit type) :
    GrowsModel base model (model.modifyType path fun decl =>
      { decl with methods := change decl.methods }) := by
  refine growsModel_changeType outermost (fun _ => rfl) (fun _ => rfl) (fun decl type member => ?_)
    allowed
  rcases mem_typeClasses.mp member with inMark | inEnum | ⟨method, there, inMethod⟩ | inNested
  · exact .inl (mem_typeClasses.mpr (.inl inMark))
  · exact .inl (mem_typeClasses.mpr (.inr (.inl inEnum)))
  · rcases classes decl.methods method there type inMethod with kept | new
    · exact .inl (mem_typeClasses.mpr (.inr (.inr (.inl kept))))
    · exact .inr new
  · exact .inl (mem_typeClasses.mpr (.inr (.inr (.inr inNested))))

/-- A model grows when a method changes. -/
theorem growsModel_modifyMethod {path : MethodPath} (outermost : path.type.inner = [])
    {change : Method → Method} {extra : List TypeRef}
    (classes : ∀ method, ∀ type ∈ methodClasses (change method),
      type ∈ methodClasses method ∨ type ∈ extra)
    (allowed : ∀ unit ∈ model.units, Model.holds path.type unit = true → ∀ type ∈ extra,
      Refers base unit type) : GrowsModel base model (model.modifyMethod path change) := by
  refine growsModel_changeMethods outermost (fun methods method there type inMethod => ?_) allowed
  rcases mem_modify there with old | ⟨old, was, rfl⟩
  · exact .inl ⟨method, old, inMethod⟩
  · rcases classes old type inMethod with kept | new
    · exact .inl ⟨old, was, kept⟩
    · exact .inr new

/-- A change that names no class refers to nothing new. -/
theorem nothing_refers (path : TypePath) : ∀ unit ∈ model.units, Model.holds path unit = true →
    ∀ type ∈ ([] : List TypeRef), Refers base unit type :=
  fun _ _ _ _ none => absurd none List.not_mem_nil

theorem growsModel_addMethod {path : TypePath} (outermost : path.inner = []) (name : String) :
    GrowsModel base model (model.addMethod path name (.primitive .void)).2 := by
  let change : List Method → List Method := fun methods =>
    methods ++ [{ name, returnType := .primitive .void }]
  show GrowsModel base model (model.modifyType path fun decl =>
    { decl with methods := change decl.methods })
  refine growsModel_changeMethods outermost (fun methods method there type inMethod => ?_)
    (nothing_refers path)
  rcases List.mem_append.mp there with old | new
  · exact .inl ⟨method, old, inMethod⟩
  · rw [List.mem_singleton.mp new] at inMethod
    cases inMethod

/-- A model grows when a method gets a parameter of a type that its unit may refer to. -/
theorem growsModel_addParameter {path : MethodPath} (outermost : path.type.inner = [])
    {type : TypeRef} {name : String} {parameter : ParameterPath}
    (added : model.addParameter path type name = .ok (parameter, next))
    (allowed : ∀ unit ∈ model.units, Model.holds path.type unit = true → ∀ other ∈ type.classes,
      Refers base unit other) : GrowsModel base model next ∧ parameter.method = path := by
  obtain ⟨_, -, -, -, rfl, rfl⟩ := Model.addParameter_eq_ok_iff.mp added
  refine ⟨growsModel_modifyMethod outermost (fun method other member => ?_) allowed, rfl⟩
  simp only [methodClasses, List.flatMap_append, List.flatMap_singleton, List.mem_append]
    at member ⊢
  rcases member with before | old | new
  · exact .inl (.inl before)
  · exact .inl (.inr old)
  · simp only [parameterClasses, List.flatMap_nil, List.nil_append] at new
    exact .inr new

/-- The path of the type that a site is in. -/
def typePathOf : Site → TypePath
  | .type path => path
  | .method path => path.type
  | .parameter path => path.method.type

/-- A model grows when a site gets an annotation that its unit may refer to. -/
theorem growsModel_annotate {site : Site} (outermost : (typePathOf site).inner = [])
    {mark : Annotation}
    (allowed : ∀ unit ∈ model.units, Model.holds (typePathOf site) unit = true →
      ∀ type ∈ annotationClasses mark, Refers base unit type) :
    GrowsModel base model (model.annotate site mark) := by
  cases site with
  | type path =>
    refine growsModel_changeType outermost (fun _ => rfl) (fun _ => rfl)
      (fun decl type member => ?_) allowed
    rcases mem_typeClasses.mp member with ⟨other, inMarks, inMark⟩ | elsewhere
    · rcases List.mem_append.mp inMarks with old | new
      · exact .inl (mem_typeClasses.mpr (.inl ⟨other, old, inMark⟩))
      · rw [List.mem_singleton] at new
        rw [new] at inMark
        exact .inr inMark
    · exact .inl (mem_typeClasses.mpr (.inr elsewhere))
  | method path =>
    refine growsModel_modifyMethod outermost (fun method type member => ?_) allowed
    simp only [methodClasses, List.flatMap_append, List.flatMap_singleton, List.mem_append]
      at member ⊢
    rcases member with ((old | new) | returned) | parameters
    · exact .inl (.inl (.inl old))
    · exact .inr new
    · exact .inl (.inl (.inr returned))
    · exact .inl (.inr parameters)
  | parameter path =>
    refine growsModel_modifyMethod outermost (fun method type member => ?_) allowed
    simp only [methodClasses, List.mem_append, List.mem_flatMap] at member ⊢
    rcases member with before | ⟨parameter, there, inParameter⟩
    · exact .inl (.inl before)
    · rcases mem_modify there with old | ⟨old, was, rfl⟩
      · exact .inl (.inr ⟨parameter, old, inParameter⟩)
      · simp only [parameterClasses, List.flatMap_append, List.flatMap_singleton,
          List.mem_append] at inParameter
        rcases inParameter with (kept | new) | itself
        · exact .inl (.inr ⟨old, was, List.mem_append_left _ kept⟩)
        · exact .inr new
        · exact .inl (.inr ⟨old, was, List.mem_append_right _ itself⟩)

/-- A model grows when a comment changes. -/
theorem growsModel_modifyTypeDoc {path : TypePath} (outermost : path.inner = [])
    (change : DocComment → DocComment) :
    GrowsModel base model (model.modifyTypeDoc path change) :=
  growsModel_changeType outermost (fun _ => rfl) (fun _ => rfl)
    (fun decl type member => by
      have same := mem_typeClasses.mp member
      exact .inl (mem_typeClasses.mpr same)) (nothing_refers path)

theorem growsModel_modifyMethodDoc {path : MethodPath} (outermost : path.type.inner = [])
    (change : DocComment → DocComment) :
    GrowsModel base model (model.modifyMethodDoc path change) :=
  growsModel_modifyMethod outermost (fun _ _ member => .inl member) (nothing_refers path.type)

/-! ### Nested enums -/

/-- What the members of an enum refer to is there on the platform. -/
theorem refers_of_mem_enumClasses {type : TypeRef} (member : type ∈ enumClasses) :
    Refers base unit type := by
  simp only [enumClasses, List.mem_cons, List.not_mem_nil, or_false] at member
  rcases member with rfl | rfl | rfl
  · exact .platform (by decide) []
  · exact .platform (by decide) []
  · exact .platform (by decide) []

/-- A type without members names the classes of the members of an enum at most. -/
theorem mem_typeClasses_empty {name : String} {kind : Kind} {type : TypeRef}
    (member : type ∈ typeClasses { name, kind }) : type ∈ enumClasses := by
  rcases mem_typeClasses.mp member with ⟨_, none, _⟩ | ⟨_, inEnum⟩ | ⟨_, none, _⟩ | ⟨_, none, _⟩
  · cases none
  · exact inEnum
  · cases none
  · cases none

/-- A unit grows by a nested type without members. -/
theorem grows_nest {name : String} (plain : IsPlain name) (other : name ≠ unit.type.name)
    (kind : Kind) : Grows base unit
      { unit with type := { unit.type with nested := unit.type.nested ++ [{ name, kind }] } } where
  package := rfl
  name := rfl
  nested := fun _ member => by
    rw [List.map_append]
    exact List.mem_append_left _ member
  sound := fun sound => {
    package := sound.package
    plain := sound.plain
    nested := fun inner member => by
      rcases List.mem_append.mp member with old | new
      · exact sound.nested inner old
      · rw [List.mem_singleton.mp new]
        exact ⟨plain, other, rfl⟩
    classes := fun type member => by
      have kept (was : type ∈ typeClasses unit.type) : Refers base
          { unit with type := { unit.type with nested := unit.type.nested ++ [{ name, kind }] } }
          type := by
        refine (sound.classes type was).grow rfl rfl fun _ there => ?_
        rw [List.map_append]
        exact List.mem_append_left _ there
      rcases mem_typeClasses.mp member with inMark | inEnum | inMethod | ⟨inner, there, inInner⟩
      · exact kept (mem_typeClasses.mpr (.inl inMark))
      · exact kept (mem_typeClasses.mpr (.inr (.inl inEnum)))
      · exact kept (mem_typeClasses.mpr (.inr (.inr (.inl inMethod))))
      · rcases List.mem_append.mp there with old | new
        · exact kept (mem_typeClasses.mpr (.inr (.inr (.inr ⟨inner, old, inInner⟩))))
        · rw [List.mem_singleton.mp new] at inInner
          exact refers_of_mem_enumClasses (mem_typeClasses_empty inInner) }

/-- A model grows when a type is nested in an interface, and then the interface has it. -/
theorem growsModel_nest {owner name : String} {kind : Kind} (plain : IsPlain name)
    (nested : model.nest (interfaceOf base owner) name kind = .ok next) :
    GrowsModel base model next ∧
      ∀ unit ∈ next.units, Model.holds (interfaceOf base owner) unit = true →
        name ∈ unit.type.nested.map (·.name) := by
  obtain ⟨free, rfl⟩ := Model.nest_eq_ok_iff.mp nested
  have other : name ≠ owner := free.1
  have grows : ∀ unit ∈ model.units, Model.holds (interfaceOf base owner) unit = true →
      Grows base unit { unit with
        type := { unit.type with nested := unit.type.nested ++ [{ name, kind }] } } := by
    intro unit member holds
    refine grows_nest plain ?_ kind
    rw [name_of_holds holds]
    exact other
  refine ⟨growsModel_modifyType grows, fun later member holds => ?_⟩
  obtain ⟨unit, old, rfl⟩ := List.mem_map.mp member
  by_cases was : Model.holds (interfaceOf base owner) unit = true
  · rw [if_pos was]
    show name ∈ (unit.type.nested ++ [({ name, kind } : TypeDecl)]).map (·.name)
    simp
  · rw [if_neg was] at holds
    exact absurd holds was

/-- A unit grows when types nested in it change but keep their names, what is nested in them and the
classes that they name. -/
theorem grows_changeNested {change : TypeDecl → TypeDecl}
    (name : ∀ decl, (change decl).name = decl.name)
    (nested : ∀ decl, (change decl).nested = decl.nested)
    (classes : ∀ decl, typeClasses (change decl) = typeClasses decl) :
    Grows base unit
      { unit with type := { unit.type with nested := unit.type.nested.map change } } := by
  have names : (unit.type.nested.map change).map (·.name) = unit.type.nested.map (·.name) := by
    rw [List.map_map]
    exact List.map_congr_left fun decl _ => name decl
  have kept : ∀ other ∈ unit.type.nested.map (·.name),
      other ∈ (unit.type.nested.map change).map (·.name) := by
    rw [names]
    exact fun _ member => member
  refine ⟨rfl, rfl, kept, fun sound => ⟨sound.package, sound.plain, fun later member => ?_,
    fun type member => ?_⟩⟩
  · obtain ⟨inner, old, rfl⟩ := List.mem_map.mp member
    rw [name, nested]
    exact sound.nested inner old
  · refine (sound.classes type ?_).grow rfl rfl kept
    rcases mem_typeClasses.mp member with inMark | inEnum | inMethod | ⟨later, there, inLater⟩
    · exact mem_typeClasses.mpr (.inl inMark)
    · exact mem_typeClasses.mpr (.inr (.inl inEnum))
    · exact mem_typeClasses.mpr (.inr (.inr (.inl inMethod)))
    · obtain ⟨inner, old, rfl⟩ := List.mem_map.mp there
      rw [classes] at inLater
      exact mem_typeClasses.mpr (.inr (.inr (.inr ⟨inner, old, inLater⟩)))

/-- A unit grows when a type nested in it changes in its constants. -/
theorem grows_constants (change : List Constant → List Constant) (inner : String) :
    Grows base unit { unit with
      type := unit.type.modify (fun decl => { decl with constants := change decl.constants })
        [inner] } := by
  refine grows_changeNested (fun decl => ?_) (fun decl => ?_) (fun decl => ?_)
  · split <;> rfl
  · split <;> rfl
  · split
    · cases decl
      rfl
    · rfl

/-- A model grows when a nested enum gets a constant. -/
theorem growsModel_addConstant {owner inner name literal : String}
    (added : model.addConstant ((interfaceOf base owner).nested inner) name literal = .ok next) :
    GrowsModel base model next := by
  obtain ⟨_, -, -, -, rfl⟩ := Model.addConstant_eq_ok_iff.mp added
  exact growsModel_modifyType fun unit _ _ => grows_constants (· ++ [⟨name, literal⟩]) inner

/-! ### The packages of units -/

open Text

theorem pieces_resourcePackageOf (base : String) : pieces '.' (resourcePackageOf base).toList =
    pieces '.' base.toList ++ ["resource".toList] := by
  have cut : (resourcePackageOf base).toList = base.toList ++ '.' :: "resource".toList := by
    rw [resourcePackageOf, String.toList_append]
    rfl
  rw [cut, pieces_append, pieces_eq_self (show '.' ∉ "resource".toList by decide)]

theorem pieces_supportPackageOf (base : String) : pieces '.' (supportPackageOf base).toList =
    pieces '.' base.toList ++ ["support".toList] := by
  have cut : (supportPackageOf base).toList = base.toList ++ '.' :: "support".toList := by
    rw [supportPackageOf, String.toList_append]
    rfl
  rw [cut, pieces_append, pieces_eq_self (show '.' ∉ "support".toList by decide)]

theorem SoundUnit.pieces_package (sound : SoundUnit base unit) :
    pieces '.' unit.package.toList = pieces '.' base.toList ++ ["resource".toList] ∨
      pieces '.' unit.package.toList = pieces '.' base.toList ++ ["support".toList] := by
  rcases sound.package with same | same
  · exact .inl (by rw [same, pieces_resourcePackageOf])
  · exact .inr (by rw [same, pieces_supportPackageOf])

theorem SoundUnit.package_isEmpty (sound : SoundUnit base unit) : unit.package.isEmpty = false := by
  rcases sound.package with same | same <;> simp [same, resourcePackageOf, supportPackageOf]

theorem SoundUnit.package_ne (sound : SoundUnit base unit) : unit.package ≠ "java.lang" := by
  intro same
  have last := congrArg (fun name => name.toList.getLast?) same
  rcases sound.package with package | package <;>
    simp [package, resourcePackageOf, supportPackageOf] at last

theorem supportPackageOf_ne (base : String) : supportPackageOf base ≠ "java.lang" := by
  intro same
  have last := congrArg (fun name => name.toList.getLast?) same
  simp [supportPackageOf] at last

end RamlInterfaces.Generation
