/-
**The rows that are listed for a model.**

The methods that are listed are read off the model that is built in memory: the interface, the verb
and the paths of a row come from names and annotations.  The counts are read off the description.

* `nodesFrom`, `actionsFrom_eq`, `countResources_eq`: the nodes of a tree, and their counts;
* `methodRows_eq`: **the rows of a model are those of the actions of its description**;
* `segments_joinedPath`, `IsRow`, `isRow_actionRow`: **what a row tells of an action**.
-/

import RamlInterfaces.Command.Inspection
import RamlInterfaces.Proofs.Generation.ParameterNames
import RamlInterfaces.Proofs.Generation.Paths
import RamlInterfaces.Proofs.Java.Reference

namespace RamlInterfaces.Command

open Generation
open Java (CompilationUnit IsPlain Method TypePath importedName_qualified)
open Settings (Configuration)

/-! ### The nodes of a tree -/

/-- A resource and all resources below it, in the order of a walk downwards. -/
def nodesFrom : Raml.Resource → List Raml.Resource
  | ⟨relativePath, path, displayName, description, pathParameters, actions, resources⟩ =>
    ⟨relativePath, path, displayName, description, pathParameters, actions, resources⟩ ::
      nodesFromAll resources
where
  /-- The nodes of resources one after the other. -/
  nodesFromAll : List Raml.Resource → List Raml.Resource
    | [] => []
    | resource :: rest => nodesFrom resource ++ nodesFromAll rest

/-- The actions of a node. -/
def actionsAt (node : Raml.Resource) : List (Raml.Resource × Raml.Action) :=
  node.actions.map (Prod.mk node)

mutual

/-- The actions in a tree are those of its nodes. -/
theorem actionsFrom_eq : (resource : Raml.Resource) →
    actionsFrom resource = (nodesFrom resource).flatMap actionsAt
  | ⟨relativePath, path, displayName, description, pathParameters, actions, resources⟩ => by
    unfold actionsFrom nodesFrom
    rw [List.flatMap_cons, ← actionsFromAll_eq resources]
    rfl

theorem actionsFromAll_eq : (resources : List Raml.Resource) →
    actionsFrom.actionsFromAll resources = (nodesFrom.nodesFromAll resources).flatMap actionsAt
  | [] => rfl
  | resource :: rest => by
    unfold actionsFrom.actionsFromAll nodesFrom.nodesFromAll
    rw [List.flatMap_append, actionsFrom_eq resource, actionsFromAll_eq rest]

end

theorem nodesFromAll_eq (resources : List Raml.Resource) :
    nodesFrom.nodesFromAll resources = resources.flatMap nodesFrom := by
  induction resources with
  | nil => rfl
  | cons resource rest ih =>
    unfold nodesFrom.nodesFromAll
    rw [ih, List.flatMap_cons]

mutual

theorem countBelow_eq : (resource : Raml.Resource) →
    (1 + (Raml.countResources.countBelow resource).1,
      (Raml.countResources.countBelow resource).2) =
        ((nodesFrom resource).length, ((nodesFrom resource).flatMap actionsAt).length)
  | ⟨relativePath, path, displayName, description, pathParameters, actions, resources⟩ => by
    unfold Raml.countResources.countBelow nodesFrom
    rw [countNodes_eq resources, List.length_cons, List.flatMap_cons, List.length_append,
      Nat.add_comm]
    unfold actionsAt
    rw [List.length_map]

/-- The counts of trees are those of their nodes and of the actions of these. -/
theorem countNodes_eq : (resources : List Raml.Resource) →
    Raml.countResources resources = ((nodesFrom.nodesFromAll resources).length,
      ((nodesFrom.nodesFromAll resources).flatMap actionsAt).length)
  | [] => rfl
  | resource :: rest => by
    obtain ⟨nodes, actions⟩ := Prod.mk.inj (countBelow_eq resource)
    unfold Raml.countResources nodesFrom.nodesFromAll
    rw [countNodes_eq rest, List.length_append, List.flatMap_append, List.length_append, ← nodes,
      ← actions]

end

/-- **The counts of a description are those of its nodes and of their actions.** -/
theorem countResources_eq (resources : List Raml.Resource) :
    Raml.countResources resources = ((resources.flatMap nodesFrom).length,
      ((resources.flatMap nodesFrom).flatMap actionsAt).length) := by
  rw [← nodesFromAll_eq]
  exact countNodes_eq resources

/-! ### The rows of a model -/

variable {configuration : Configuration} {description : Raml.Description} {session : Session}

/-- The paths of an interface and its method as they are shown together. -/
def joinedPath (above below : String) : String :=
  "/" ++ "/".intercalate ([above, below].filter fun path => !path.isEmpty)

/-- The row of the method of an action in the tree of a top-level resource. -/
def actionRow (top : Raml.Resource) (entry : Raml.Resource × Raml.Action) : MethodRow where
  interface := interfaceName top.displayName top.relativePath
  method := actionName entry.2
  verb := entry.2.verb.name
  path := joinedPath (interfacePath top.relativePath)
    (methodPath entry.2.resourcePath (interfacePath top.relativePath))
  parameters := (argumentsFrom entry).map (·.name)

theorem lastSegment_qualify {package name : String} (based : package.isEmpty = false)
    (simple : '.' ∉ name.toList) : lastSegment (TypePath.qualify package name) = name := by
  rw [TypePath.qualify, based]
  exact importedName_qualified package simple

theorem lastSegment_platformVerbType {verb : Verb} {type : Java.TypeRef}
    (platform : platformVerbType? verb = some type) :
    lastSegment type.qualifiedName = verb.name := by
  cases verb <;> cases platform <;> decide

/-- **A verb is read off its annotation**, whether its type is one of the platform or not. -/
theorem lastSegment_verbReference (base : String) (verb : Verb) :
    lastSegment (verbReference base verb).qualifiedName = verb.name := by
  unfold verbReference
  cases isPlatform : platformVerbType? verb with
  | some type => exact lastSegment_platformVerbType isPlatform
  | none =>
    have simple : '.' ∉ verb.name.toList := by
      cases verb <;> decide
    exact lastSegment_qualify (supportPackageOf_isEmpty base) simple

theorem boundPath_pathMark (path : String) : boundPath [pathMark path] = .ok path := rfl

theorem boundPath_verb (base : String) (verb : Verb) (path : String) :
    boundPath [⟨verbReference base verb, []⟩, pathMark path] = .ok path := by
  unfold boundPath Java.findAnnotation?
  have other : ((verbReference base verb).qualifiedName == "javax.ws.rs.Path") = false :=
    isPathMark_verbReference base verb
  rw [List.find?_cons, other]
  rfl

/-- The row of the method of an action is read off its outline. -/
theorem methodRow_eq {base : String} {top : Raml.Resource} {entry : Raml.Resource × Raml.Action}
    {method : Method}
    (outlined : methodOutline method = methodFor base (interfacePath top.relativePath) entry) :
    methodRow (TypePath.qualify (resourcePackageOf base) (openedInterface top).name)
        (interfacePath top.relativePath) method = .ok (actionRow top entry) := by
  have plain : IsPlain (openedInterface top).name := by
    rw [openedInterface_name]
    exact isPlain_interfaceName top.displayName top.relativePath
  have simple : '.' ∉ (openedInterface top).name.toList := plain.notMem (by decide)
  have interface := lastSegment_qualify (resourcePackageOf_isEmpty base) simple
  have verb := lastSegment_verbReference base entry.2.verb
  have name : method.name = actionName entry.2 := congrArg MethodOutline.name outlined
  have marks : method.annotations = [⟨verbReference base entry.2.verb, []⟩,
      pathMark (methodPath entry.2.resourcePath (interfacePath top.relativePath))] :=
    congrArg MethodOutline.annotations outlined
  have names : method.parameters.map (·.name) = (argumentsFrom entry).map (·.name) := by
    have pairs := congrArg (fun outline => outline.parameters.map (·.1)) outlined
    have here : (methodOutline method).parameters.map (·.1) = method.parameters.map (·.name) :=
      List.map_map
    exact here.symm.trans (pairs.trans List.map_map)
  unfold methodRow actionRow
  rw [marks, boundPath_verb, interface, openedInterface_name, name, names, ← verb]
  rfl

/-- The rows of an interface are those of the actions in the tree of its resource. -/
theorem unitRows_eq {base : String} {unit : CompilationUnit} {top : Raml.Resource}
    (isInterface : unit.type.kind = .interface) (isIn : unit.package = resourcePackageOf base)
    (outlined : outlineOf unit.type = interfaceOutline base top) :
    unitRows unit = .ok ((actionsFrom top).map (actionRow top)) := by
  have name : unit.type.name = (openedInterface top).name :=
    (congrArg Outline.name outlined).trans (interfaceOutline_name base top)
  have marks : unit.type.annotations = [pathMark (interfacePath top.relativePath)] :=
    congrArg Outline.annotations outlined
  have methods : unit.type.methods.map methodOutline =
      (actionsFrom top).map (methodFor base (interfacePath top.relativePath)) :=
    congrArg Outline.methods outlined
  have qualified : unit.qualifiedName =
      TypePath.qualify (resourcePackageOf base) (openedInterface top).name := by
    rw [← isIn, ← name]
    rfl
  unfold unitRows
  rw [if_pos isInterface, marks, boundPath_pathMark, qualified]
  refine mapM_eq_ok_iff.mpr ?_
  rw [List.map_map, ← List.forall₂_eq_eq_eq, List.forall₂_map_left_iff, List.forall₂_map_right_iff]
  exact (forall₂_of_map_eq methods).imp fun method entry alike => methodRow_eq alike.2

theorem flatMap_filter {α β : Type} {keeps : α → Bool} {view : α → List β}
    (others : ∀ item, keeps item = false → view item = []) (items : List α) :
    (items.filter keeps).flatMap view = items.flatMap view := by
  induction items with
  | nil => rfl
  | cons item rest ih =>
    cases kept : keeps item with
    | true => rw [List.filter_cons_of_pos kept, List.flatMap_cons, List.flatMap_cons, ih]
    | false =>
      rw [List.filter_cons_of_neg (by rw [kept]; exact Bool.false_ne_true), List.flatMap_cons, ih,
        others item kept, List.nil_append]

/-- The rows of a unit, where they can be read off. -/
def rowsOf (unit : CompilationUnit) : List MethodRow := (unitRows unit).toOption.getD []

/-- **The rows of a model are those of the actions of its description.** -/
theorem methodRows_eq (built : buildModel configuration description = .ok session) :
    methodRows session.model =
      .ok (description.resources.flatMap fun top => (actionsFrom top).map (actionRow top)) := by
  have reached := buildModel_reached built
  have outlines := reached.outlined.interfaces
  have onlyInterfaces (unit : CompilationUnit) (other : (unit.type.kind == .interface) = false) :
      unitRows unit = .ok [] := if_neg (beq_eq_false_iff_ne.mp other)
  have rows (unit : CompilationUnit) (top : Raml.Resource)
      (isUnit : unit ∈ session.model.units.filter (isResource configuration.basePackage))
      (outlined : outlineOf unit.type = interfaceOutline configuration.basePackage top) :
      unitRows unit = .ok ((actionsFrom top).map (actionRow top)) := by
    obtain ⟨member, isResource⟩ := List.mem_filter.mp isUnit
    have isInterface : unit.type.kind = .interface :=
      beq_iff_eq.mp ((reached.outlined.units unit member).isResource_eq.symm.trans isResource)
    exact unitRows_eq isInterface (beq_iff_eq.mp isResource) outlined
  have each : ∀ unit ∈ session.model.units, unitRows unit = .ok (rowsOf unit) := by
    intro unit member
    unfold rowsOf
    cases isInterface : unit.type.kind == .interface with
    | false =>
      rw [onlyInterfaces unit isInterface]
      rfl
    | true =>
      have isUnit : unit ∈ session.model.units.filter (isResource configuration.basePackage) := by
        rw [← reached.outlined.filter_interface]
        exact List.mem_filter.mpr ⟨member, isInterface⟩
      have outlined : outlineOf unit.type ∈
          description.resources.map (interfaceOutline configuration.basePackage) := by
        rw [← outlines]
        exact List.mem_map_of_mem isUnit
      obtain ⟨top, -, same⟩ := List.mem_map.mp outlined
      rw [rows unit top isUnit same.symm]
      rfl
  have all : session.model.units.mapM unitRows = .ok (session.model.units.map rowsOf) :=
    mapM_eq_ok_iff.mpr ((List.map_congr_left each).trans List.map_map.symm)
  have flat : (session.model.units.map rowsOf).flatten =
      description.resources.flatMap fun top => (actionsFrom top).map (actionRow top) := by
    have noRows (unit : CompilationUnit) (other : (unit.type.kind == .interface) = false) :
        rowsOf unit = [] := by
      unfold rowsOf
      rw [onlyInterfaces unit other]
      rfl
    rw [← List.flatMap_def, ← flatMap_filter noRows, reached.outlined.filter_interface,
      ← List.forall₂_eq_eq_eq]
    refine List.rel_flatMap (forall₂_of_map_eq outlines) fun unit top alike => ?_
    obtain ⟨⟨isUnit, -⟩, outlined⟩ := alike
    rw [List.forall₂_eq_eq_eq]
    unfold rowsOf
    rw [rows unit top isUnit outlined]
    rfl
  unfold methodRows
  rw [all, ← flat]
  rfl

/-! ### What a row tells -/

/-- The segments of paths with slashes between them are those of each. -/
theorem segments_intercalate (paths : List String) :
    segments ("/".intercalate paths) = paths.flatMap segments := by
  induction paths with
  | nil => rfl
  | cons path rest ih =>
    cases rest with
    | nil => exact (List.append_nil _).symm
    | cons next others =>
      have joined : ("/".intercalate (path :: next :: others)).toList =
          path.toList ++ '/' :: ("/".intercalate (next :: others)).toList := by
        rw [String.intercalate_cons_cons, String.append_assoc, String.toList_append,
          String.toList_append]
        rfl
      rw [List.flatMap_cons, ← ih]
      unfold segments
      rw [joined, segmentsOf_append]

/-- An empty path is left out, and has no segments. -/
theorem segments_joinedPath (above below : String) :
    segments (joinedPath above below) = segments above ++ segments below := by
  have empty (path : String) (isEmpty : (!path.isEmpty) = false) : segments path = [] := by
    have same : path = "" := by simpa using isEmpty
    rw [same]
    rfl
  have slash (path : String) : segments ("/" ++ path) = segments path := by
    unfold segments
    rw [String.toList_append]
    exact segmentsOf_cons_slash _
  unfold joinedPath
  rw [slash, segments_intercalate, flatMap_filter empty, List.flatMap_cons,
    List.flatMap_singleton]

/-- The cells of a row tell of an action in the tree of a top-level resource: the interface, the
method, the verb in capitals, a path with the segments of the action's, and the names of the
arguments in order. -/
def IsRow (top : Raml.Resource) (entry : Raml.Resource × Raml.Action)
    (cells : List String) : Prop :=
  ∃ path, segments path = segments entry.2.resourcePath ∧
    cells = [interfaceName top.displayName top.relativePath, actionName entry.2,
      entry.2.verb.word.toUpper, path,
      if argumentNames (parameterKeys entry) = [] then "-"
      else ", ".intercalate (argumentNames (parameterKeys entry))]

theorem isRow_actionRow {top : Raml.Resource} {entry : Raml.Resource × Raml.Action}
    (ways : ∀ way ∈ waysFrom top, IsWay "" way) (member : entry ∈ actionsFrom top) :
    IsRow top entry (actionRow top entry).cells := by
  have verb : entry.2.verb.word.toUpper = entry.2.verb.name := by
    cases entry.2.verb <;> decide +kernel
  have isAction : entry.2 ∈ (waysFrom top).map (·.2) := by
    rw [map_waysFrom]
    exact List.mem_map_of_mem member
  obtain ⟨way, isWay, same⟩ := List.mem_map.mp isAction
  have split := ((ways way isWay).isSplit isWay).sameSegments
  rw [same] at split
  refine ⟨_, (segments_joinedPath _ _).trans split, ?_⟩
  rw [verb, ← argumentNames_from entry]
  simp only [MethodRow.cells, actionRow, List.isEmpty_iff]

end RamlInterfaces.Command
