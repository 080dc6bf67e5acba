/-
**The names of a model.**

Names come from display names, paths, keys of parameters and literals of enums, whatever characters
these have.  Each is one that Java accepts, and no two types of a model have one qualified name.

* `isLegal_interfaceName`, `isLegal_actionName`, `isLegal_argumentName`: the names of members;
* `declaredNames`: the names that the declaration of a type declares;
* `isLegal_interfaceDecl`, `isLegal_verbDecl`: they are legal in what is generated;
* `nodup_qualifiedNames`: the types of a model have distinct qualified names;
* `buildModel_legal`: **a model declares legal names only, and its types have distinct ones**.
-/

import Mathlib.Data.List.Induction
import RamlInterfaces.Proofs.Generation.Independence
import RamlInterfaces.Proofs.Generation.Growth
import RamlInterfaces.Proofs.Java.Legality

namespace RamlInterfaces.Generation

open Java Text
open Settings (Configuration)

/-! ### Names of members -/

/-- **The name of an interface is legal**, whatever its resource is called. -/
theorem isLegal_interfaceName (displayName : Option String) (relativePath : String) :
    IsLegal (interfaceName displayName relativePath) := by
  unfold interfaceName
  extract_lets source name
  split
  · decide
  · rename_i some
    refine isLegal_typeName fun none => some ?_
    rw [show name = "" from none]
    rfl

theorem isLegal_word (verb : Verb) : IsLegal verb.word := by
  cases verb <;> decide

/-- **The name of a method is legal**, whatever its path. -/
theorem isLegal_actionName (action : Raml.Action) : IsLegal (actionName action) := by
  unfold actionName methodName
  rw [lower_word]
  have verb := isLegal_word action.verb
  cases shape : typeNameChars (spellPlaceholders action.resourcePath.toList) with
  | nil =>
    rw [String.ofList_nil, String.append_empty]
    exact verb
  | cons first rest =>
    have identifier : isIdentifier (first :: rest) = true :=
      shape ▸ isIdentifier_typeNameChars (by simp [shape])
    refine IsLegal.of_mem (c := first) ?_ ?_ (isLower_of_typeNameChars shape)
    · rw [String.toList_append, String.toList_ofList]
      exact isIdentifier_append verb.identifier (isIdentifierChar_of_mem identifier)
    · rw [String.toList_append, String.toList_ofList]
      exact List.mem_append_right _ List.mem_cons_self

/-- **The name of a parameter is legal**, whatever its key. -/
theorem isLegal_argumentName (key : String) (position : Nat) :
    IsLegal (argumentName key position) := by
  unfold argumentName
  extract_lets name
  split
  · have start : IsLegal "param" := by decide
    exact start.numbered position
  · rename_i some
    refine isLegal_variableName fun none => some ?_
    rw [show name = "" from none]
    rfl

/-- The name of a parameter has a letter or digit. -/
theorem exists_alphanum_argumentName (key : String) (position : Nat) :
    ∃ c ∈ (argumentName key position).toList, c.isAlphanum = true := by
  unfold argumentName
  extract_lets name
  split
  · refine ⟨'p', ?_, rfl⟩
    rw [String.toList_append]
    exact List.mem_append_left _ List.mem_cons_self
  · rename_i some
    refine exists_alphanum_variableName fun none => some ?_
    rw [show name = "" from none]
    rfl

/-- **The name of an enum is legal**: it is made from that of a parameter. -/
theorem isLegal_enumName (key : String) (position : Nat) :
    IsLegal (typeName (argumentName key position)) := by
  obtain ⟨c, member, usable⟩ := exists_alphanum_argumentName key position
  exact isLegal_typeName (typeName_ne_empty member usable)

/-! ### Declared names -/

/-- The names that a method declares: its own and those of its parameters. -/
def methodNames (method : Method) : List String := method.name :: method.parameters.map (·.name)

/-- The names that an enum declares: its constants, and the field with their literals. -/
def enumNames (kind : Kind) (constants : List Constant) : List String :=
  if kind = .enum then constants.map (·.name) ++ [literalField constants]
  else constants.map (·.name)

/-- The names that the declaration of a type declares, with those of the types nested in it. -/
def declaredNames : TypeDecl → List String
  | ⟨name, kind, _, _, methods, nested, constants⟩ =>
    name :: methods.flatMap methodNames ++ enumNames kind constants ++ nestedNames nested
where
  /-- The names that the types nested in a type declare. -/
  nestedNames : List TypeDecl → List String
    | [] => []
    | inner :: rest => declaredNames inner ++ nestedNames rest

variable {name : String}

theorem mem_nestedNames_iff {decls : List TypeDecl} :
    name ∈ declaredNames.nestedNames decls ↔ ∃ inner ∈ decls, name ∈ declaredNames inner := by
  induction decls with
  | nil => simp [declaredNames.nestedNames]
  | cons inner rest ih =>
    rw [declaredNames.nestedNames, List.mem_append, ih, List.exists_mem_cons_iff]

/-- **The names that a type declares** are its own, those of its methods, its constants and its
field, and those that its nested types declare. -/
theorem mem_declaredNames_iff {decl : TypeDecl} : name ∈ declaredNames decl ↔
    name = decl.name ∨ (∃ method ∈ decl.methods, name ∈ methodNames method) ∨
      name ∈ enumNames decl.kind decl.constants ∨
        ∃ inner ∈ decl.nested, name ∈ declaredNames inner := by
  obtain ⟨own, kind, annotations, doc, methods, nested, constants⟩ := decl
  rw [declaredNames, List.mem_append, List.mem_append, List.mem_cons, List.mem_flatMap,
    mem_nestedNames_iff, or_assoc, or_assoc]

/-! ### Declarations of a description -/

/-- The enums that are declared are enums that are asked for. -/
theorem exists_request_of_mem_enumsOf {requests : List Request} {inner : TypeDecl}
    (member : inner ∈ enumsOf requests) :
    ∃ request ∈ requests, inner = enumDecl request.name request.literals := by
  induction requests using List.reverseRecOn with
  | nil => cases member
  | append_singleton before request ih =>
    have old (isOld : inner ∈ enumsOf before) : ∃ request' ∈ before ++ [request],
        inner = enumDecl request'.name request'.literals := by
      obtain ⟨earlier, isAsked, same⟩ := ih isOld
      exact ⟨earlier, List.mem_append_left _ isAsked, same⟩
    rw [enumsOf_concat, askFor] at member
    split at member
    · exact old member
    · rcases List.mem_append.mp member with isOld | isNew
      · exact old isOld
      · exact ⟨request, List.mem_append_right _ List.mem_cons_self, List.mem_singleton.mp isNew⟩

/-- No two enums that are declared have one name. -/
theorem nodup_enumsOf (requests : List Request) : ((enumsOf requests).map (·.name)).Nodup := by
  induction requests using List.reverseRecOn with
  | nil => exact List.nodup_nil
  | append_singleton before request ih =>
    rw [enumsOf_concat, askFor]
    split
    · exact ih
    · rename_i fresh
      refine nodup_map_concat_iff.mpr ⟨ih, fun taken => fresh ?_⟩
      obtain ⟨inner, isEarlier, same⟩ := List.mem_map.mp taken
      exact List.find?_isSome.mpr ⟨inner, isEarlier, beq_iff_eq.mpr same⟩

/-- The enum that a parameter asks for is named for its variable. -/
theorem name_of_mem_requestsOf {argument : String} {p : Raml.Parameter} {request : Request}
    (member : request ∈ requestsOf argument p) : request.name = typeName argument := by
  unfold requestsOf at member
  split at member
  · rw [List.mem_singleton.mp member]
  · cases member

/-- An enum declares legal names if its own is. -/
theorem isLegal_enumDecl {enum : String} (legal : IsLegal enum) (literals : List String) :
    ∀ name ∈ declaredNames (enumDecl enum literals), IsLegal name := by
  intro name member
  rcases mem_declaredNames_iff.mp member with rfl | ⟨_, none, _⟩ | own | ⟨_, none, _⟩
  · exact legal
  · cases none
  · have names : name ∈ (enumDecl enum literals).constants.map (·.name) ++
        [literalField (enumDecl enum literals).constants] := own
    rcases List.mem_append.mp names with isConstant | isField
    · rw [show (enumDecl enum literals).constants.map (·.name) = literals.map constantName from
        List.map_map] at isConstant
      obtain ⟨literal, _, rfl⟩ := List.mem_map.mp isConstant
      exact isLegal_constantName literal
    · rw [List.mem_singleton.mp isField]
      exact isLegal_literalField _
  · cases none

/-- **The annotation type of a verb declares legal names.** -/
theorem isLegal_verbDecl (verb : Verb) : ∀ name ∈ declaredNames (verbDecl verb), IsLegal name := by
  intro name member
  rcases mem_declaredNames_iff.mp member with rfl | ⟨_, none, _⟩ | none | ⟨_, none, _⟩
  · cases verb <;> decide
  · cases none
  · cases none
  · cases none

/-- The name of an argument is made from its key. -/
theorem exists_argumentName {entry : Raml.Resource × Raml.Action} {argument : Argument}
    (member : argument ∈ argumentsFrom entry) :
    ∃ position, argument.name = argumentName argument.key position := by
  obtain ⟨index, isIndex, rfl⟩ := List.mem_mapIdx.mp member
  obtain ⟨argument, same, _, named⟩ :=
    Argument.exists_ofEntry index (actionParameters entry.1 entry.2)[index]
  rw [same]
  exact ⟨index + 1, named.symm⟩

/-- **The method of an action declares legal names.** -/
theorem isLegal_methodDecl (base : String) (constrained : Bool) (owner : TypePath) (path : String)
    (entry : Raml.Resource × Raml.Action) :
    ∀ name ∈ methodNames (methodDecl base constrained owner path entry), IsLegal name := by
  have names : methodNames (methodDecl base constrained owner path entry) =
      actionName entry.2 :: (argumentsFrom entry).map (·.name) := by
    simp only [methodNames, methodDecl, withArguments, openedMethodDecl, List.map_map]
    rfl
  intro name member
  rw [names] at member
  rcases List.mem_cons.mp member with rfl | isParameter
  · exact isLegal_actionName entry.2
  · obtain ⟨argument, isArgument, rfl⟩ := List.mem_map.mp isParameter
    obtain ⟨position, same⟩ := exists_argumentName isArgument
    rw [same]
    exact isLegal_argumentName _ _

/-- **The enums of actions declare legal names.** -/
theorem isLegal_enumsOf (entries : List (Raml.Resource × Raml.Action)) :
    ∀ inner ∈ enumsOf (requestsFrom entries), ∀ name ∈ declaredNames inner, IsLegal name := by
  intro inner member
  obtain ⟨request, isAsked, rfl⟩ := exists_request_of_mem_enumsOf member
  obtain ⟨entry, _, isAsked⟩ := List.mem_flatMap.mp isAsked
  obtain ⟨argument, isArgument, isAsked⟩ := List.mem_flatMap.mp isAsked
  obtain ⟨position, same⟩ := exists_argumentName isArgument
  refine isLegal_enumDecl ?_ _
  rw [name_of_mem_requestsOf isAsked, same]
  exact isLegal_enumName _ _

theorem interfaceDecl_methods (base : String) (constrained : Bool) (resource : Raml.Resource) :
    (interfaceDecl base constrained resource).methods = (actionsFrom resource).map
      (methodDecl base constrained (interfaceOf base (openedInterface resource).name)
        (interfacePath resource.relativePath)) := by
  simp only [interfaceDecl, withActions, openedDecl]

theorem interfaceDecl_nested (base : String) (constrained : Bool) (resource : Raml.Resource) :
    (interfaceDecl base constrained resource).nested =
      enumsOf (requestsFrom (actionsFrom resource)) := by
  simp only [interfaceDecl, withActions]

/-- **The interface of a resource declares legal names.** -/
theorem isLegal_interfaceDecl (base : String) (constrained : Bool) (resource : Raml.Resource) :
    ∀ name ∈ declaredNames (interfaceDecl base constrained resource), IsLegal name := by
  intro name member
  rw [mem_declaredNames_iff, interfaceDecl_name, openedInterface_name, interfaceDecl_methods,
    interfaceDecl_nested] at member
  rcases member with rfl | ⟨method, isMethod, inside⟩ | none | ⟨inner, isNested, inside⟩
  · exact isLegal_interfaceName _ _
  · obtain ⟨entry, _, rfl⟩ := List.mem_map.mp isMethod
    exact isLegal_methodDecl _ _ _ _ _ name inside
  · cases none
  · exact isLegal_enumsOf _ inner isNested name inside

/-! ### Qualified names -/

/-- The paths of all types of a model. -/
def modelPaths (model : Model) : List TypePath :=
  model.units.flatMap fun unit => typePaths unit.path unit.type

/-- A path into one of the two packages under a base package, of plain names. -/
structure Placed (base : String) (path : TypePath) : Prop where
  package : path.package = resourcePackageOf base ∨ path.package = supportPackageOf base
  plain : ∀ name ∈ path.outermost :: path.inner, IsPlain name

variable {base : String}

/-- The pieces of the qualified name of a placed path: the base package, one of two words, and the
names. -/
theorem Placed.pieces_eq {path : TypePath} (placed : Placed base path) :
    (path.package = resourcePackageOf base ∧ pieces '.' path.qualifiedName.toList =
      pieces '.' base.toList ++ "resource".toList :: path.names) ∨
    (path.package = supportPackageOf base ∧ pieces '.' path.qualifiedName.toList =
      pieces '.' base.toList ++ "support".toList :: path.names) := by
  have simple : ∀ name ∈ path.outermost :: path.inner, '.' ∉ name.toList :=
    fun name member => (placed.plain name member).dot_notMem
  rcases placed.package with package | package
  · refine .inl ⟨package, ?_⟩
    have based : path.package.isEmpty = false := by
      rw [package]
      exact resourcePackageOf_isEmpty base
    rw [pieces_qualifiedName based simple, package, pieces_resourcePackageOf, List.append_assoc]
    rfl
  · refine .inr ⟨package, ?_⟩
    have based : path.package.isEmpty = false := by
      rw [package]
      exact supportPackageOf_isEmpty base
    rw [pieces_qualifiedName based simple, package, pieces_supportPackageOf, List.append_assoc]
    rfl

/-- The names of a path are those of one path in a package. -/
theorem eq_of_names {path other : TypePath} (package : path.package = other.package)
    (names : path.names = other.names) : path = other := by
  have injective : Function.Injective String.toList := fun _ _ => String.toList_injective
  obtain ⟨outermost, inner⟩ := List.cons.inj (List.map_injective_iff.mpr injective names)
  obtain ⟨_, _, _⟩ := path
  obtain ⟨_, _, _⟩ := other
  cases package
  cases outermost
  cases inner
  rfl

/-- **Placed paths of one qualified name are one path.** -/
theorem Placed.eq_of_qualifiedName {path other : TypePath} (placed : Placed base path)
    (otherPlaced : Placed base other) (same : path.qualifiedName = other.qualifiedName) :
    path = other := by
  rcases placed.pieces_eq with ⟨package, cut⟩ | ⟨package, cut⟩ <;>
    rcases otherPlaced.pieces_eq with ⟨otherPackage, otherCut⟩ | ⟨otherPackage, otherCut⟩ <;>
    rw [same, otherCut, List.append_cancel_left_eq, List.cons_eq_cons] at cut
  · exact eq_of_names (package.trans otherPackage.symm) cut.2.symm
  · exact absurd cut.1 (by decide)
  · exact absurd cut.1 (by decide)
  · exact eq_of_names (package.trans otherPackage.symm) cut.2.symm

/-- The paths of the types of a sound unit. -/
theorem SoundUnit.typePaths_eq {unit : CompilationUnit} (sound : SoundUnit base unit) :
    typePaths unit.path unit.type =
      unit.path :: unit.type.nested.map fun inner => unit.path.nested inner.name :=
  Java.typePaths_eq fun inner member => (sound.nested inner member).2.2

theorem SoundUnit.placed {unit : CompilationUnit} (sound : SoundUnit base unit) :
    ∀ path ∈ typePaths unit.path unit.type, Placed base path := by
  intro path member
  rw [sound.typePaths_eq] at member
  rcases List.mem_cons.mp member with rfl | nested
  · exact ⟨sound.package, fun name isName => List.mem_singleton.mp isName ▸ sound.plain⟩
  · obtain ⟨inner, isNested, rfl⟩ := List.mem_map.mp nested
    refine ⟨sound.package, List.forall_mem_cons.mpr ⟨sound.plain, fun name isName => ?_⟩⟩
    rw [List.mem_singleton.mp isName]
    exact (sound.nested inner isNested).1

/-- The types of a sound unit are at the path of the unit or inside it. -/
theorem SoundUnit.outermostName_eq {unit : CompilationUnit} (sound : SoundUnit base unit) :
    ∀ path ∈ typePaths unit.path unit.type, path.outermostName = unit.qualifiedName := by
  intro path member
  rw [sound.typePaths_eq] at member
  rcases List.mem_cons.mp member with rfl | nested
  · rfl
  · obtain ⟨inner, _, rfl⟩ := List.mem_map.mp nested
    rfl

/-- Types of one unit have different paths if the nested ones have different names. -/
theorem SoundUnit.nodup_typePaths {unit : CompilationUnit} (sound : SoundUnit base unit)
    (distinct : (unit.type.nested.map (·.name)).Nodup) :
    (typePaths unit.path unit.type).Nodup := by
  have injective : Function.Injective unit.path.nested := by
    intro name other same
    exact (List.cons.inj (congrArg TypePath.inner same)).1
  have paths : unit.type.nested.map (fun inner => unit.path.nested inner.name) =
      (unit.type.nested.map (·.name)).map unit.path.nested := by
    rw [List.map_map]
    rfl
  rw [sound.typePaths_eq, List.nodup_cons, paths]
  refine ⟨fun nested => ?_, distinct.map injective⟩
  obtain ⟨name, _, same⟩ := List.mem_map.mp nested
  cases congrArg TypePath.inner same

variable {configuration : Configuration} {description : Raml.Description} {session : Session}

/-- The types nested in a type of a model have distinct names. -/
theorem nodup_nested (built : buildModel configuration description = .ok session) :
    ∀ unit ∈ session.model.units, (unit.type.nested.map (·.name)).Nodup := by
  intro unit member
  rcases List.mem_append.mp ((units_perm built).mem_iff.mp member) with isInterface | isVerb
  · obtain ⟨resource, _, rfl⟩ := List.mem_map.mp isInterface
    unfold interfaceUnit
    rw [interfaceDecl_nested]
    exact nodup_enumsOf _
  · obtain ⟨verb, _, rfl⟩ := List.mem_map.mp isVerb
    exact List.nodup_nil

/-- **The types of a model have distinct paths.** -/
theorem nodup_modelPaths (built : buildModel configuration description = .ok session) :
    (modelPaths session.model).Nodup := by
  have sound := buildModel_sound built
  refine List.nodup_flatMap.mpr ⟨fun unit member => ?_, ?_⟩
  · exact (sound.units unit member).nodup_typePaths (nodup_nested built unit member)
  · refine (List.pairwise_map.mp sound.distinct).imp_of_mem fun {unit other} isUnit isOther ne => ?_
    intro path inFirst inSecond
    refine ne ?_
    rw [← (sound.units unit isUnit).outermostName_eq path inFirst,
      ← (sound.units other isOther).outermostName_eq path inSecond]

/-- **The types of a model have distinct qualified names.** -/
theorem nodup_qualifiedNames (built : buildModel configuration description = .ok session) :
    ((modelPaths session.model).map TypePath.qualifiedName).Nodup := by
  have sound := buildModel_sound built
  have placed : ∀ path ∈ modelPaths session.model, Placed configuration.basePackage path := by
    intro path member
    obtain ⟨unit, isUnit, inside⟩ := List.mem_flatMap.mp member
    exact (sound.units unit isUnit).placed path inside
  refine List.Nodup.map_on (fun path isPath other isOther same => ?_) (nodup_modelPaths built)
  exact (placed path isPath).eq_of_qualifiedName (placed other isOther) same

/-! ### Models -/

/-- **A model declares legal names only, and its types have distinct qualified names**, whatever
characters its description is made of. -/
theorem buildModel_legal (built : buildModel configuration description = .ok session) :
    (∀ unit ∈ session.model.units, ∀ name ∈ declaredNames unit.type, IsLegal name) ∧
      ((modelPaths session.model).map TypePath.qualifiedName).Nodup := by
  refine ⟨fun unit member => ?_, nodup_qualifiedNames built⟩
  rcases List.mem_append.mp ((units_perm built).mem_iff.mp member) with isInterface | isVerb
  · obtain ⟨resource, _, rfl⟩ := List.mem_map.mp isInterface
    exact isLegal_interfaceDecl _ _ resource
  · obtain ⟨verb, _, rfl⟩ := List.mem_map.mp isVerb
    exact isLegal_verbDecl verb

/-- A description whose names are not those of Java. -/
def oddNames : Raml.Description where
  title := "t"
  version := none
  baseUri := none
  mediaType := none
  resources := [{
    relativePath := "/", path := "/", displayName := some "  ", description := none
    pathParameters := []
    actions := [⟨.patch, "/", none, [("\u00e9", {})],
      [("class", {}), ("2nd", { enumValues := some ["new", "404", "", "value"] })]⟩]
    resources := [] }, {
    relativePath := "/2nd", path := "/2nd", displayName := none, description := none
    pathParameters := []
    actions := [⟨.get, "/2nd/\x7bid\x7d", none, [], []⟩]
    resources := [] }]

theorem legal_oddNames : ∃ session,
    buildModel { basePackage := "api" } oddNames = .ok session ∧
      (∀ unit ∈ session.model.units, ∀ name ∈ declaredNames unit.type, IsLegal name) ∧
      ((modelPaths session.model).map TypePath.qualifiedName).Nodup ∧
      session.model.units.map (fun unit => declaredNames unit.type) =
        [["Root", "patch", "param1", "$class", "_2nd", "_2nd", "$new", "_404", "VALUE", "value",
            "_value"], ["PATCH"], ["_2nd", "get_2ndById"]] ∧
      (modelPaths session.model).map TypePath.qualifiedName =
        ["api.resource.Root", "api.resource.Root._2nd", "api.support.PATCH",
          "api.resource._2nd"] := by
  have names : (buildModel { basePackage := "api" } oddNames).toOption.map (fun session =>
      (session.model.units.map (fun unit => declaredNames unit.type),
        (modelPaths session.model).map TypePath.qualifiedName)) =
      some ([["Root", "patch", "param1", "$class", "_2nd", "_2nd", "$new", "_404", "VALUE", "value",
            "_value"], ["PATCH"], ["_2nd", "get_2ndById"]],
        ["api.resource.Root", "api.resource.Root._2nd", "api.support.PATCH",
          "api.resource._2nd"]) := by
    decide +kernel
  obtain ⟨session, isSession, names⟩ := Option.map_eq_some_iff.mp names
  obtain ⟨declared, qualified⟩ := Prod.mk.inj names
  have built := toOption_eq_some_iff.mp isSession
  obtain ⟨legal, distinct⟩ := buildModel_legal built
  exact ⟨session, built, legal, distinct, declared, qualified⟩

end RamlInterfaces.Generation
