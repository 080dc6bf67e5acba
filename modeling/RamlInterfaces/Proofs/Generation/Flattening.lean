/-
**Interfaces are the flattened resources.**

A top-level resource becomes an interface, every action in its tree a method of it in the order of a
walk downwards, and every parameter of an action a parameter of its method.

* `interfaceOutline`: the outline of the interface of a resource;
* `ClearMethod`, `ClearInterface`: what is clear after others;
* `buildInterfaces_decides`: **the interfaces are built exactly if each is clear after those before
  it**;
* `exists_buildModel_iff`: a model is built exactly where they are;
* `buildModel_outlines`: **the interfaces of a model are those of the resources of its
  description**.
-/

import RamlInterfaces.Proofs.Generation.Arguments

namespace RamlInterfaces.Generation

open Java
open Settings (Configuration)

/-! ### The outlines of resources -/

/-- The arguments of the method of an action: the parameters of its resource, the headers and the
parameters of the query. -/
def argumentsFrom (entry : Raml.Resource × Raml.Action) : List Argument :=
  argumentsOf (actionParameters entry.1 entry.2)

/-- The outline of the method of an action. -/
def methodFor (base interfacePath : String) (entry : Raml.Resource × Raml.Action) : MethodOutline :=
  (openedMethod base interfacePath entry.2).withArguments (argumentsFrom entry)

/-- The enums that actions ask for. -/
def requestsFrom (entries : List (Raml.Resource × Raml.Action)) : List Request :=
  entries.flatMap fun entry => (argumentsFrom entry).flatMap (·.requests)

/-- The outline of an interface with the methods of the given actions and the enums that these ask
for. -/
def Outline.withActions (outline : Outline) (base interfacePath : String)
    (entries : List (Raml.Resource × Raml.Action)) : Outline :=
  { outline with
    methods := entries.map (methodFor base interfacePath)
    nested := enumsOf (requestsFrom entries) }

theorem withActions_name (outline : Outline) (base path : String)
    (entries : List (Raml.Resource × Raml.Action)) :
    (outline.withActions base path entries).name = outline.name := rfl

/-- An interface without members is that without actions. -/
theorem withActions_nil {outline : Outline} (methods : outline.methods = [])
    (nested : outline.nested = []) (base path : String) :
    outline.withActions base path [] = outline := by
  cases outline
  cases methods
  cases nested
  rfl

/-- The outline of the interface of a resource: a method for each action in its tree. -/
def interfaceOutline (base : String) (resource : Raml.Resource) : Outline :=
  (openedInterface resource).withActions base (interfacePath resource.relativePath)
    (actionsFrom resource)

theorem interfaceOutline_name (base : String) (resource : Raml.Resource) :
    (interfaceOutline base resource).name = (openedInterface resource).name := by
  unfold interfaceOutline
  exact withActions_name _ _ _ _

/-! ### Methods -/

/-- An action is clear after others of its interface: the name of its method is new, and each of its
parameters is clear after those before it. -/
def ClearMethod (constrained : Bool) (owner : String)
    (earlier : List (Raml.Resource × Raml.Action)) (entry : Raml.Resource × Raml.Action) : Prop :=
  actionName entry.2 ∉ earlier.map (actionName ·.2) ∧
    Throughout (ClearParameter constrained owner (requestsFrom earlier)) []
      (actionParameters entry.1 entry.2)

variable {configuration : Configuration} {done : List Outline}

/-- The method of an action is declared if no other action of its interface has one of its name. -/
theorem openAction_decides (outline : Outline) (path : String)
    (earlier : List (Raml.Resource × Raml.Action)) (entry : Raml.Resource × Raml.Action) :
    Decides
      (Reached configuration
        (done ++ [outline.withActions configuration.basePackage path earlier]))
      (openMethod (interfaceOf configuration.basePackage outline.name) path entry.2)
      (actionName entry.2 ∉ earlier.map (actionName ·.2)) fun result session =>
        result = lastMethod configuration.basePackage
            (outline.withActions configuration.basePackage path earlier) ∧
          Reached configuration
            (done ++ [(outline.withActions configuration.basePackage path earlier).fill
              (requestsFrom earlier) (openedMethod configuration.basePackage path entry.2) []])
            session := by
  let before := outline.withActions configuration.basePackage path earlier
  let method := openedMethod configuration.basePackage path entry.2
  have names : before.methods.map (·.name) = earlier.map (actionName ·.2) := List.map_map
  have opened : before.fill (requestsFrom earlier) method [] = before.addMethod method := by
    unfold Outline.fill
    rw [List.flatMap_nil, List.append_nil]
    rfl
  rw [← names, opened]
  exact openMethod_decides path entry.2

/-- The method of an action is added if it is clear after the others. -/
theorem methodRound_decides (outline : Outline) (path : String)
    (earlier : List (Raml.Resource × Raml.Action)) (entry : Raml.Resource × Raml.Action) :
    Decides
      (Reached configuration
        (done ++ [outline.withActions configuration.basePackage path earlier]))
      (methodRound (interfaceOf configuration.basePackage outline.name) path entry)
      (ClearMethod configuration.constraints outline.name earlier entry)
      fun _ => Reached configuration
        (done ++ [outline.withActions configuration.basePackage path (earlier ++ [entry])]) := by
  let base := configuration.basePackage
  let before := outline.withActions base path earlier
  let method := openedMethod base path entry.2
  have filled : before.fill (requestsFrom earlier) method (argumentsFrom entry) =
      outline.withActions base path (earlier ++ [entry]) := by
    unfold Outline.fill Outline.withActions requestsFrom
    rw [List.flatMap_append, List.flatMap_singleton, List.map_append]
    rfl
  have added : Decides
      (Reached configuration (done ++ [before.fill (requestsFrom earlier) method []]))
      (forM (actionParameters entry.1 entry.2)
        (parameterRound (interfaceOf base before.name) (lastMethod base before)
          (actionName entry.2)))
      (Throughout (ClearParameter configuration.constraints before.name (requestsFrom earlier)) []
        (actionParameters entry.1 entry.2))
      fun _ => Reached configuration
        (done ++ [before.fill (requestsFrom earlier) method (argumentsFrom entry)]) :=
    addParameters_decides _ _ _
  refine (openAction_decides outline path earlier entry).bind fun result =>
    Decides.assuming fun isMethod => ?_
  rw [isMethod, ← filled]
  exact added.loop.close fun _ => Decides.pure fun _ holds => holds

/-! ### Interfaces -/

/-- A resource is clear after others: the name of its interface is new, and each of its actions is
clear after those before it. -/
def ClearInterface (constrained : Bool) (earlier : List Raml.Resource) (resource : Raml.Resource) :
    Prop :=
  (openedInterface resource).name ∉ earlier.map (fun other => (openedInterface other).name) ∧
    Throughout (ClearMethod constrained (openedInterface resource).name) [] (actionsFrom resource)

/-- The interface of a resource is built if it is clear after the others. -/
theorem buildInterface_decides (earlier : List Raml.Resource) (resource : Raml.Resource) :
    Decides
      (Reached configuration (earlier.map (interfaceOutline configuration.basePackage)))
      (buildInterface resource) (ClearInterface configuration.constraints earlier resource)
      fun _ => Reached configuration
        ((earlier ++ [resource]).map (interfaceOutline configuration.basePackage)) := by
  let done := earlier.map (interfaceOutline configuration.basePackage)
  let path := interfacePath resource.relativePath
  have names : done.map (·.name) = earlier.map fun other => (openedInterface other).name := by
    rw [List.map_map]
    exact List.map_congr_left fun other _ => interfaceOutline_name _ other
  have later : (earlier ++ [resource]).map (interfaceOutline configuration.basePackage) =
      done ++ [interfaceOutline configuration.basePackage resource] := List.map_append
  have opened : (openedInterface resource).withActions configuration.basePackage path [] =
      openedInterface resource := withActions_nil rfl rfl _ _
  have declared : Decides (Reached configuration done) (openInterface resource)
      ((openedInterface resource).name ∉ earlier.map fun other => (openedInterface other).name)
      fun owner session =>
        owner = interfaceOf configuration.basePackage (openedInterface resource).name ∧
          Reached configuration (done ++ [(openedInterface resource).withActions
            configuration.basePackage path []]) session := by
    rw [← names, opened]
    exact openInterface_decides resource
  unfold buildInterface ClearInterface
  refine declared.bind fun owner => Decides.assuming fun isOwner => ?_
  rw [isOwner, addMethods_eq_forM, later]
  exact Decides.forM (methodRound_decides (openedInterface resource) path) [] _

/-- **The interfaces of a description are built exactly if each is clear after those before it.** -/
theorem buildInterfaces_decides (description : Raml.Description) :
    Decides (Reached configuration []) (buildInterfaces description)
      (Throughout (ClearInterface configuration.constraints) [] description.resources)
      fun _ => Reached configuration
        (description.resources.map (interfaceOutline configuration.basePackage)) := by
  unfold buildInterfaces
  refine (Decides.forM buildInterface_decides [] description.resources).loop.close fun _ => ?_
  exact Decides.pure fun _ holds => holds

/-- **A model is built exactly where there is a base package and the interfaces are clear.** -/
theorem exists_buildModel_iff {description : Raml.Description} :
    (∃ session, buildModel configuration description = .ok session) ↔
      configuration.basePackage.isEmpty = false ∧
        Throughout (ClearInterface configuration.constraints) [] description.resources := by
  have decides : Decides (Reached configuration []) (buildInterfaces description)
      (Throughout (ClearInterface configuration.constraints) [] description.resources)
      fun _ => Reached configuration
        (description.resources.map (interfaceOutline configuration.basePackage)) :=
    buildInterfaces_decides description
  unfold buildModel Session.start
  cases based : configuration.basePackage.isEmpty with
  | true => simp [bind, Except.bind]
  | false =>
    simp only [bind, Except.bind, Bool.false_eq_true, if_false, true_and]
    constructor
    · rintro ⟨session, built⟩
      split at built
      · rename_i final ran
        exact (decides.keep.leads _ _ _ (reached_start configuration) ran).1
      · cases built
    · intro clear
      obtain ⟨_, session, ran, _⟩ := decides.succeeds _ (reached_start configuration) clear
      refine ⟨session, ?_⟩
      rw [ran]

/-- The session in which a model was built has the interfaces of its resources. -/
theorem buildModel_reached {description : Raml.Description} {session : Session}
    (built : buildModel configuration description = .ok session) :
    Reached configuration (description.resources.map (interfaceOutline configuration.basePackage))
      session :=
  (buildInterfaces_decides description).leads.buildModel (reached_start configuration) built

/-- **The interfaces of a model are those of the resources of its description, in order**: each has
a method for every action in the tree of its resource, in the order of a walk downwards, and each
method the parameters of its resource, the headers and the parameters of the query, in order, with a
tag for each.  No other type of the model has a method. -/
theorem buildModel_outlines {description : Raml.Description} {session : Session}
    (built : buildModel configuration description = .ok session) :
    (session.model.units.filter (·.type.kind == .interface)).map (outlineOf ·.type) =
        description.resources.map (interfaceOutline configuration.basePackage) ∧
      ∀ unit ∈ session.model.units, unit.type.kind ≠ .interface → unit.type.methods = [] := by
  have reached := buildModel_reached built
  constructor
  · rw [← reached.outlined.interfaces]
    congr 1
    refine List.filter_congr fun unit member => ?_
    exact (reached.outlined.units unit member).isResource_eq.symm
  · intro unit member other
    rcases (reached.outlined.units unit member).role with ⟨_, kind⟩ | ⟨_, _, empty⟩
    · exact absurd kind other
    · exact empty

/-- A description of users with a resource for each user. -/
def users : Raml.Description where
  title := "t"
  version := none
  baseUri := none
  mediaType := none
  resources := [{
    relativePath := "/users", path := "/users", displayName := none, description := none
    pathParameters := []
    actions := [
      ⟨.get, "/users", none, [("X-Page", {})],
        [("order", { enumValues := some ["up", "down"] }), ("%", {})]⟩]
    resources := [{
      relativePath := "/\x7bid\x7d", path := "/users/\x7bid\x7d", displayName := none
      description := none, pathParameters := [("id", {})]
      actions := [
        ⟨.patch, "/users/\x7bid\x7d", none, [], [("order", { enumValues := some ["up", "down"] })]⟩,
        ⟨.get, "/users/\x7bid\x7d", none, [], []⟩]
      resources := [] }] }]

theorem outlines_users : ∃ session,
    buildModel { basePackage := "api" } users = .ok session ∧
      (session.model.units.filter (·.type.kind == .interface)).map (outlineOf ·.type) =
        users.resources.map (interfaceOutline "api") ∧
      (∀ unit ∈ session.model.units, unit.type.kind ≠ .interface → unit.type.methods = []) ∧
      (users.resources.map (interfaceOutline "api")).map (fun outline =>
          (outline.name, outline.methods.map fun method =>
            (method.name, method.parameters.map Prod.fst))) =
        [("Users", [("getUsers", ["xPage", "order", "param3"]),
          ("patchUsersById", ["id", "order"]), ("getUsersById", ["id"])])] := by
  have there : (buildModel { basePackage := "api" } users).toOption.isSome = true := by
    decide +kernel
  cases built : buildModel { basePackage := "api" } users with
  | error failure =>
    rw [built] at there
    cases there
  | ok session =>
    obtain ⟨interfaces, others⟩ := buildModel_outlines built
    exact ⟨session, rfl, interfaces, others, by decide +kernel⟩

end RamlInterfaces.Generation
