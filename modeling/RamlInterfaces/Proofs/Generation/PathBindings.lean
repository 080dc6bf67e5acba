/-
**What binds the parameters of a path.**

The placeholders of a relative path are read again when a request comes in, so every one of them
needs a parameter that is bound to it by its name.

* `DeclaredAction`, `declaredActions`: the actions below a resource, where a document declares them;
* `comesFrom_followsExtraction`: **actions come from where they are declared**, with the parameters
  of the paths of their resources;
* `pathBindings`: the annotations of a method that bind the parameters of its path;
* `pathBindings_methodDecl`: they are those of the path parameters of the resource;
* `BindsPath`, `buildModel_bindsPath`: **the methods of a model bind the paths of their resources**.
-/

import Mathlib.Data.List.Count
import Mathlib.Data.Option.Basic
import RamlInterfaces.Proofs.Generation.InterfaceDeclarations
import RamlInterfaces.Proofs.Generation.Paths
import RamlInterfaces.Proofs.Raml.Placeholders

namespace RamlInterfaces.Generation

open Java
open Settings (Configuration)

/-! ### Actions where they are declared -/

/-- An action where it is declared: the relative path and the members of its resource, and its
verb. -/
structure DeclaredAction where
  relativePath : String
  members : Entries
  verb : Verb

namespace DeclaredAction

/-- The names that the resource declares for its path. -/
def declared (action : DeclaredAction) : List String := Raml.uriNames action.members

/-- The names of the placeholders in the relative path of the resource. -/
def placeholders (action : DeclaredAction) : List String :=
  Raml.pathPlaceholders action.relativePath

/-- The names that are bound in the path of the resource. -/
def bound (action : DeclaredAction) : List String :=
  Raml.boundNames action.declared action.relativePath

end DeclaredAction

/-- The actions that a node declares under a relative path, those of the node itself first. -/
def declaredActions (relativePath : String) : Value → List DeclaredAction
  | .map members =>
    members.filterMap (fun entry =>
      (Raml.verbKey? entry.1).map (DeclaredAction.mk relativePath members)) ++
      declaredBelow members
  | _ => []
where
  /-- The actions that the resources among the members of a node declare. -/
  declaredBelow : List (Scalar × Value) → List DeclaredAction
    | [] => []
    | (key, child) :: rest =>
      ((Raml.resourceKey? key).elim [] fun relative => declaredActions relative child) ++
        declaredBelow rest

/-- The nodes of the top-level resources of a document, with their relative paths. -/
def topNodes (root : Entries) : List (String × Value) :=
  root.filterMap fun entry => (Raml.resourceKey? entry.1).map (·, entry.2)

/-- An action of a resource comes from where it is declared. -/
structure ComesFrom (action : DeclaredAction) (entry : Raml.Resource × Raml.Action) : Prop where
  verb : entry.2.verb = action.verb
  keys : entry.1.pathParameters.map (·.1) = action.bound
  implicit : ∀ name ∈ action.placeholders, name ∉ action.declared →
    Raml.implicitEntry name ∈ entry.1.pathParameters

/-- The actions of a resource have the verbs among its members. -/
theorem verbs_of_extractActions (relativePath : String) {path : String} {members : Entries}
    {actions : List Raml.Action} (extracted : Raml.extractActions path members = .ok actions) :
    List.Forall₂ (fun declared (action : Raml.Action) =>
        (declared.relativePath = relativePath ∧ declared.members = members) ∧
          action.verb = declared.verb)
      (members.filterMap fun entry =>
        (Raml.verbKey? entry.1).map (DeclaredAction.mk relativePath members)) actions := by
  let verbs := members.filterMap fun (entry : Scalar × Value) =>
    (Raml.verbKey? entry.1).map fun verb => (verb, entry.2)
  have declared : (members.filterMap fun entry =>
      (Raml.verbKey? entry.1).map (DeclaredAction.mk relativePath members)) =
        verbs.map fun verb => DeclaredAction.mk relativePath members verb.1 := by
    unfold verbs
    rw [List.map_filterMap]
    refine List.filterMap_congr fun entry _ => ?_
    rw [Option.map_map]
    rfl
  have steps : verbs.map (fun verb => Raml.extractAction verb.1 path verb.2) =
      actions.map .ok := mapM_eq_ok_iff.mp extracted
  rw [declared, List.forall₂_map_left_iff]
  exact (forall₂_of_map_eq steps).imp fun verb action made =>
    ⟨⟨rfl, rfl⟩, (Raml.verb_of_extractAction made.2).1⟩

/-- The actions of a resource come from its members. -/
theorem comesFrom_extractActions {relativePath path : String} {members : Entries}
    {resource : Raml.Resource} {parameters : Raml.Parameters}
    (parametersAre : resource.pathParameters =
      Raml.withImplicit parameters (Raml.placeholderNames relativePath))
    (extracted : Raml.extractParameters true (members.get "uriParameters") = .ok parameters)
    (actions : Raml.extractActions path members = .ok resource.actions) :
    List.Forall₂ ComesFrom (members.filterMap fun entry =>
        (Raml.verbKey? entry.1).map (DeclaredAction.mk relativePath members))
      (resource.actions.map (Prod.mk resource)) := by
  have keys : parameters.map (·.1) = (Raml.uriNames members).eraseDups :=
    Raml.keys_extractParameters extracted
  rw [List.forall₂_map_right_iff]
  refine (verbs_of_extractActions relativePath actions).imp fun action made comes => ?_
  obtain ⟨⟨isPath, isMembers⟩, verb⟩ := comes
  have names : action.declared = Raml.uriNames members := congrArg Raml.uriNames isMembers
  have holes : action.placeholders = Raml.pathPlaceholders relativePath :=
    congrArg Raml.pathPlaceholders isPath
  refine ⟨verb, ?_, fun name member undeclared => ?_⟩
  · unfold DeclaredAction.bound
    rw [parametersAre, names, isPath]
    exact Raml.keys_withImplicit keys relativePath
  · rw [holes] at member
    rw [names] at undeclared
    rw [parametersAre]
    exact Raml.implicitEntry_mem keys member undeclared

/-- **Actions come from where they are declared**, and have the parameters of those paths; besides,
the top-level resources are told apart. -/
theorem comesFrom_followsExtraction : Raml.FollowsExtraction
    (fun _ relativePath value resource =>
      List.Forall₂ ComesFrom (declaredActions relativePath value) (actionsFrom resource))
    (fun _ members resources =>
      List.Forall₂ ComesFrom (declaredActions.declaredBelow members)
          (actionsFrom.actionsFromAll resources) ∧
        List.Forall₂ (fun node resource =>
            List.Forall₂ ComesFrom (declaredActions node.1 node.2) (actionsFrom resource))
          (topNodes members) resources) where
  bare := by
    rintro parentPath relativePath value ⟨⟩ noMap ⟨-, -, rfl, rfl⟩
    cases value with
    | map => cases noMap
    | _ => exact .nil
  node := by
    intro parentPath relativePath members resource content below
    obtain ⟨parameters, isParameters, pathParameters⟩ := content.pathParameters
    have methods := comesFrom_extractActions pathParameters isParameters content.actions
    cases resource
    unfold declaredActions actionsFrom
    exact List.rel_append methods below.1
  nil := ⟨.nil, .nil⟩
  skip := by
    intro parentPath key child rest resources named later
    unfold declaredActions.declaredBelow topNodes
    rw [List.filterMap_cons_none (by rw [named]; rfl), named]
    exact later
  cons := by
    intro parentPath key relativePath child rest resource others named here later
    unfold declaredActions.declaredBelow actionsFrom.actionsFromAll topNodes
    rw [List.filterMap_cons_some (b := (relativePath, child)) (by rw [named]; rfl), named]
    exact ⟨List.rel_append here later.1, .cons here later.2⟩

/-- **The actions of a description come from where its document declares them.** -/
theorem comesFrom_extractDescription {root : Entries} {description : Raml.Description}
    (extracted : Raml.extractDescription root = .ok description) :
    List.Forall₂ (fun node resource =>
        List.Forall₂ ComesFrom (declaredActions node.1 node.2) (actionsFrom resource))
      (topNodes root) description.resources := by
  obtain ⟨isResources, -⟩ := Raml.resources_of_extractDescription extracted
  exact (comesFrom_followsExtraction.of_resources root isResources).2

/-! ### The bindings of a method -/

/-- The annotation binds a parameter of a path. -/
def isPathBinding (mark : Annotation) : Bool :=
  mark.type.qualifiedName == "javax.ws.rs.PathParam"

/-- The annotations of the parameters of a method that bind parameters of its path, in order. -/
def pathBindings (method : Method) : List Annotation :=
  (method.parameters.flatMap (·.annotations)).filter isPathBinding

/-- The text that is the only element of an annotation. -/
def valueOf? (mark : Annotation) : Option String :=
  match mark.elements with
  | [("value", .scalar (.text text))] => some text
  | _ => none

/-- The names that the parameters of a method are bound to in its path, in order. -/
def pathValues (method : Method) : List (Option String) := (pathBindings method).map valueOf?

/-- Of the annotations of a parameter, one for a parameter of a path is what binds it. -/
theorem filter_marks (constrained : Bool) (argument : Argument) :
    (argument.marks constrained).filter isPathBinding =
      if argument.location = .path then [bindingMark .path argument.key] else [] := by
  have default : (argument.parameter.default.map defaultMark).toList.filter isPathBinding = [] := by
    cases argument.parameter.default <;> rfl
  have limits : (if constrained then (constraints argument.parameter).map constraintMark
      else []).filter isPathBinding = [] := by
    refine List.filter_eq_nil_iff.mpr fun mark member => ?_
    split at member
    · obtain ⟨c, _, rfl⟩ := List.mem_map.mp member
      cases c <;> exact Bool.false_ne_true
    · cases member
  unfold Argument.marks
  rw [List.filter_append, List.filter_append, default, limits, List.append_nil, List.append_nil]
  cases argument.location <;> rfl

/-- What binds a parameter under a key, if it is one of a path. -/
def pathMarks (place : Location × String) : List Annotation :=
  if place.1 = .path then [bindingMark .path place.2] else []

/-- The arguments for parameters have their places. -/
theorem places_argumentsOf (entries : List (Location × String × Raml.Parameter)) :
    (argumentsOf entries).map (fun argument => (argument.location, argument.key)) =
      entries.map fun entry => (entry.1, entry.2.1) := by
  unfold argumentsOf
  exact List.ext_getElem (by simp) fun index _ _ => by simp [Argument.ofEntry]

/-- **The path bindings of the method of an action** are those of the parameters of the path of its
resource. -/
theorem pathBindings_methodDecl (base : String) (constrained : Bool) (owner : TypePath)
    (path : String) (entry : Raml.Resource × Raml.Action) :
    pathBindings (methodDecl base constrained owner path entry) =
      entry.1.pathParameters.map fun parameter => bindingMark .path parameter.1 := by
  have others (location : Location) (other : location ≠ .path) (parameters : Raml.Parameters) :
      (parameters.map (Prod.mk location)).flatMap (fun entry => pathMarks (entry.1, entry.2.1)) =
        [] := by
    rw [List.flatMap_map, List.flatMap_eq_nil_iff]
    exact fun _ _ => if_neg other
  have own (parameters : Raml.Parameters) :
      (parameters.map (Prod.mk Location.path)).flatMap
          (fun entry => pathMarks (entry.1, entry.2.1)) =
        parameters.map fun parameter => bindingMark .path parameter.1 := by
    rw [List.flatMap_map, ← List.flatMap_singleton' (parameters.map _), List.flatMap_map]
    rfl
  calc pathBindings (methodDecl base constrained owner path entry)
      = (((argumentsFrom entry).map (·.declaration owner constrained)).flatMap
          (·.annotations)).filter isPathBinding := rfl
    _ = (argumentsFrom entry).flatMap fun argument =>
          pathMarks (argument.location, argument.key) := by
        rw [List.flatMap_map, List.filter_flatMap]
        exact List.flatMap_congr fun argument _ => filter_marks constrained argument
    _ = ((argumentsFrom entry).map fun argument => (argument.location, argument.key)).flatMap
          pathMarks := by rw [List.flatMap_map]
    _ = (actionParameters entry.1 entry.2).flatMap
          fun entry => pathMarks (entry.1, entry.2.1) := by
        unfold argumentsFrom
        rw [places_argumentsOf, List.flatMap_map]
    _ = entry.1.pathParameters.map fun parameter => bindingMark .path parameter.1 := by
        unfold actionParameters
        rw [List.flatMap_append, List.flatMap_append, own, others .header (by decide),
          others .query (by decide), List.append_nil, List.append_nil]

/-- The annotations of a required parameter of a path that has only its name. -/
def implicitMarks (constrained : Bool) (name : String) : List Annotation :=
  bindingMark .path name ::
    if constrained then [⟨.named "javax.validation.constraints.NotNull", []⟩] else []

/-- An implicit parameter becomes a required text. -/
theorem exists_implicit_parameter (base : String) (constrained : Bool) (owner : TypePath)
    (path : String) {entry : Raml.Resource × Raml.Action} {name : String}
    (member : Raml.implicitEntry name ∈ entry.1.pathParameters) :
    ∃ parameter ∈ (methodDecl base constrained owner path entry).parameters,
      parameter.type = stringClass ∧ parameter.annotations = implicitMarks constrained name := by
  have isEntry : (Location.path, Raml.implicitEntry name) ∈ actionParameters entry.1 entry.2 :=
    List.mem_append_left _ (List.mem_append_left _ (List.mem_map_of_mem member))
  obtain ⟨index, inside, same⟩ := List.mem_iff_getElem.mp isEntry
  have isArgument : Argument.ofEntry index (Location.path, Raml.implicitEntry name) ∈
      argumentsFrom entry := List.mem_mapIdx.mpr ⟨index, inside, by rw [same]⟩
  refine ⟨_, List.mem_map_of_mem isArgument, rfl, ?_⟩
  cases constrained <;> rfl

/-! ### The bindings of a model -/

/-- A method binds the path of the resource that declares its action: to the declared names, each
once and in order, and then to the names of the other placeholders, each once and in order.  So
every placeholder is bound once, and one that is not declared to a required text. -/
structure BindsPath (configuration : Configuration) (method : Method) (action : DeclaredAction) :
    Prop where
  verb : method.annotations.head? = some ⟨verbReference configuration.basePackage action.verb, []⟩
  values : pathValues method =
    (action.declared.eraseDups ++
      (action.placeholders.removeAll action.declared).eraseDups).map some
  once : ∀ name ∈ action.placeholders, (pathValues method).count (some name) = 1
  implicit : ∀ name ∈ action.placeholders, name ∉ action.declared →
    ∃ parameter ∈ method.parameters, parameter.type = stringClass ∧
      parameter.annotations = implicitMarks configuration.constraints name

/-- **The method of an action binds the path of its resource.** -/
theorem ComesFrom.bindsPath {configuration : Configuration} {action : DeclaredAction}
    {entry : Raml.Resource × Raml.Action} (comes : ComesFrom action entry) (owner : TypePath)
    (path : String) :
    BindsPath configuration
      (methodDecl configuration.basePackage configuration.constraints owner path entry) action := by
  have values : pathValues
      (methodDecl configuration.basePackage configuration.constraints owner path entry) =
        action.bound.map some := by
    unfold pathValues
    rw [pathBindings_methodDecl, ← comes.keys, List.map_map, List.map_map]
    rfl
  refine ⟨?_, values, fun name member => ?_, fun name member undeclared => ?_⟩
  · rw [← comes.verb]
    rfl
  · rw [values, List.count_map_of_injective _ _ (Option.some_injective _)]
    exact List.count_eq_one_of_mem (Raml.nodup_boundNames _ _) (Raml.mem_boundNames member)
  · exact exists_implicit_parameter _ _ owner path (comes.implicit name member undeclared)

/-- **The methods of a model bind the paths of their resources.**  An interface has a method for
every action below its top node, and every method binds the placeholders of the path of the resource
that declares its action. -/
theorem buildModel_bindsPath {configuration : Configuration} {root : Entries}
    {description : Raml.Description} {session : Session}
    (extracted : Raml.extractDescription root = .ok description)
    (built : buildModel configuration description = .ok session) :
    List.Forall₂ (fun unit node => List.Forall₂ (BindsPath configuration) unit.type.methods
        (declaredActions node.1 node.2))
      (session.model.units.filter (·.type.kind == .interface)) (topNodes root) := by
  let decl := interfaceDecl configuration.basePackage configuration.constraints
  have interfaces : (session.model.units.filter (·.type.kind == .interface)).map (·.type) =
      description.resources.map decl := by
    rw [(buildModel_reached built).outlined.filter_interface]
    exact (buildModel_made built).declares.interfaces
  have methods (resource : Raml.Resource) (node : String × Value)
      (comes : List.Forall₂ ComesFrom (declaredActions node.1 node.2) (actionsFrom resource)) :
      List.Forall₂ (BindsPath configuration) (decl resource).methods
        (declaredActions node.1 node.2) := by
    unfold decl interfaceDecl withActions
    rw [List.forall₂_map_left_iff]
    exact (comes.imp fun _ _ comes => comes.bindsPath _ _).flip
  have types : List.Forall₂ (fun (decl : TypeDecl) node =>
      List.Forall₂ (BindsPath configuration) decl.methods (declaredActions node.1 node.2))
      ((session.model.units.filter (·.type.kind == .interface)).map (·.type)) (topNodes root) := by
    rw [interfaces, List.forall₂_map_left_iff]
    exact ((comesFrom_extractDescription extracted).imp fun node resource =>
      methods resource node).flip
  exact List.forall₂_map_left_iff.mp types

/-- A document with placeholders that are repeated, nested and empty, and with names that are
declared for them. -/
def shelfPages : Entries :=
  [(.text "title", .text "t"),
    (.text "/{shelf}", .map [
      (.text "uriParameters", .map [(.int 7, .null), (.text "7", .null), (.text "row", .null)]),
      (.text "get", .map [(.text "headers", .map [(.text "Range", .null)])]),
      (.text "/{}/{book}/{a{row}}/{book}", .map [
        (.text "uriParameters", .map [(.text "row", .map [(.text "type", .text "integer")])]),
        (.text "put", .null)])])]

theorem bindsPath_shelfPages : ∃ description session,
    Raml.extractDescription shelfPages = .ok description ∧
    buildModel { basePackage := "api", constraints := true } description = .ok session ∧
    List.Forall₂ (fun unit node =>
        List.Forall₂ (BindsPath { basePackage := "api", constraints := true }) unit.type.methods
          (declaredActions node.1 node.2))
      (session.model.units.filter (·.type.kind == .interface)) (topNodes shelfPages) ∧
    session.model.units.map (fun unit => unit.type.methods.map pathValues) =
      [[[some "7", some "row", some "shelf"], [some "row", some "book"]]] := by
  have values : ((Raml.extractDescription shelfPages).toOption.bind fun description =>
      (buildModel { basePackage := "api", constraints := true } description).toOption.map
        fun session => session.model.units.map fun unit => unit.type.methods.map pathValues) =
      some [[[some "7", some "row", some "shelf"], [some "row", some "book"]]] := by
    decide +kernel
  obtain ⟨description, isDescription, values⟩ := Option.bind_eq_some_iff.mp values
  obtain ⟨session, isSession, values⟩ := Option.map_eq_some_iff.mp values
  have extracted := toOption_eq_some_iff.mp isDescription
  have built := toOption_eq_some_iff.mp isSession
  exact ⟨description, session, extracted, built, buildModel_bindsPath extracted built, values⟩

end RamlInterfaces.Generation
