/-
**The declarations of a model.**

Interfaces are built one after the other, each with its methods, and the annotation type of a verb
is created when a method needs it.

* `methodRound_made`, `addMethods_made`: **the methods of an interface are added**;
* `buildInterface_made`: one more interface;
* `buildModel_made`: **a model has the declarations of the resources of its description**.
-/

import RamlInterfaces.Proofs.Generation.ParameterDeclarations

namespace RamlInterfaces.Generation

open Java
open Settings (Configuration)

variable {configuration : Configuration} {done : List TypeDecl} {decl : TypeDecl}
  {verbs : List Verb} {outlines : List Outline} {outline : Outline}

theorem verbsOf_concat (entries : List (Raml.Resource × Raml.Action))
    (entry : Raml.Resource × Raml.Action) :
    verbsOf (entries ++ [entry]) = noteVerb (verbsOf entries) entry.2.verb := by
  unfold verbsOf
  rw [List.foldl_append]
  rfl

/-- **The method of an action is added** with its parameters. -/
theorem methodRound_made (named : decl.name = outline.name) (fresh : decl.name ∉ done.map (·.name))
    (path : String) (others earlier : List (Raml.Resource × Raml.Action))
    (entry : Raml.Resource × Raml.Action) :
    let base := configuration.basePackage
    let filled := withActions base configuration.constraints path decl
    Leads
      (Filling configuration outlines (outline.withActions base path earlier) done (filled earlier)
        (verbsOf (others ++ earlier)))
      (methodRound (interfaceOf base outline.name) path entry)
      fun _ => Made configuration (done ++ [filled (earlier ++ [entry])])
        (verbsOf (others ++ (earlier ++ [entry]))) := by
  intro base filled
  let asked := requestsFrom earlier
  let shown := openedMethod base path entry.2
  let method := openedMethodDecl base path entry.2
  let before := outline.withActions base path earlier
  let owner := interfaceOf base outline.name
  let verbs := verbsOf (others ++ (earlier ++ [entry]))
  let added (arguments : List Argument) : TypeDecl :=
    withMethod (withEnums (filled earlier) (asked ++ arguments.flatMap (·.requests)))
      (withArguments owner configuration.constraints method arguments)
  have shows : Shows before (filled earlier) :=
    ⟨named, (List.length_map _).trans (List.length_map _).symm⟩
  have noted : verbs = noteVerb (verbsOf (others ++ earlier)) entry.2.verb := by
    unfold verbs
    rw [← List.append_assoc, verbsOf_concat]
  have opened : Leads
      (Filling configuration outlines before done (filled earlier) (verbsOf (others ++ earlier)))
      (openMethod owner path entry.2) fun result session =>
        Filling configuration outlines (before.fill asked shown []) done (added []) verbs session ∧
          result = lastMethod base before := by
    have empty : added [] = withMethod (filled earlier) method := by
      unfold added
      rw [List.flatMap_nil, List.append_nil]
      rfl
    have emptyShown : before.fill asked shown [] = before.addMethod shown := by
      unfold Outline.fill
      rw [List.flatMap_nil, List.append_nil]
      rfl
    rw [empty, emptyShown, noted]
    refine ((openMethod_decides path entry.2).leads.and
      (openMethod_made shows fresh path entry.2)).mono (fun _ holds => holds) ?_
    exact fun result session there => ⟨⟨there.1.2, there.2⟩, there.1.1⟩
  have parameters : Leads
      (Filling configuration outlines (before.fill asked shown []) done (added []) verbs)
      (forIn (actionParameters entry.1 entry.2) () fun parameter _ => do
        parameterRound owner (lastMethod base before) (actionName entry.2) parameter
        pure (ForInStep.yield ()))
      fun _ => Made configuration (done ++ [added (argumentsFrom entry)]) verbs := by
    rw [loop_eq_forM]
    exact addParameters_made shows fresh asked (actionName entry.2)
      (actionParameters entry.1 entry.2)
  have last : added (argumentsFrom entry) = filled (earlier ++ [entry]) := by
    unfold added filled withMethod withEnums withActions asked requestsFrom
    rw [List.flatMap_append, List.flatMap_singleton, List.map_append, List.map_singleton, named]
    rfl
  rw [← last]
  refine opened.bind fun result => Leads.assuming fun isMethod => ?_
  rw [isMethod]
  exact parameters.bind fun _ => Leads.pure fun _ made => made

/-- The methods of actions are added to an interface without members, one after the other. -/
theorem addMethods_made (named : decl.name = outline.name) (fresh : decl.name ∉ done.map (·.name))
    {path : String}
    (empty : withActions configuration.basePackage configuration.constraints path decl [] = decl)
    (emptyOutline : outline.withActions configuration.basePackage path [] = outline)
    (others entries : List (Raml.Resource × Raml.Action)) :
    Leads (Filling configuration outlines outline done decl (verbsOf others))
      (forM entries (methodRound (interfaceOf configuration.basePackage outline.name) path))
      fun _ => Made configuration
        (done ++
          [withActions configuration.basePackage configuration.constraints path decl entries])
        (verbsOf (others ++ entries)) := by
  let base := configuration.basePackage
  let holds (earlier : List (Raml.Resource × Raml.Action)) : Session → Prop :=
    Filling configuration outlines (outline.withActions base path earlier) done
      (withActions base configuration.constraints path decl earlier) (verbsOf (others ++ earlier))
  have round (earlier : List (Raml.Resource × Raml.Action)) (entry : Raml.Resource × Raml.Action) :
      Leads (holds earlier) (methodRound (interfaceOf base outline.name) path entry)
        fun _ => holds (earlier ++ [entry]) :=
    (methodRound_decides outline path earlier entry).leads.and
      (methodRound_made named fresh path others earlier entry)
  have start : holds [] = Filling configuration outlines outline done decl (verbsOf others) := by
    unfold holds
    rw [empty, emptyOutline, List.append_nil]
  rw [← start]
  exact (Leads.forM round [] entries).mono (fun _ holds => holds) fun _ _ holds => holds.2

/-- **The interface of a resource is built.** -/
theorem buildInterface_made (earlier : List Raml.Resource) (resource : Raml.Resource) :
    let base := configuration.basePackage
    let built (resources : List Raml.Resource) : Session → Prop :=
      Made configuration (resources.map (interfaceDecl base configuration.constraints))
        (verbsOf (resources.flatMap actionsFrom))
    Leads
      (fun session => Reached configuration (earlier.map (interfaceOutline base)) session ∧
        built earlier session)
      (buildInterface resource) fun _ => built (earlier ++ [resource]) := by
  intro base built
  refine (buildInterface_decides earlier resource).leads_of_clear fun clear => ?_
  have name := openedDecl_name resource
  have isInterface : interfaceDecl base configuration.constraints resource =
      withActions base configuration.constraints (interfacePath resource.relativePath)
        (openedDecl resource) (actionsFrom resource) := by
    unfold interfaceDecl
    rfl
  have fresh : (openedDecl resource).name ∉
      (earlier.map (interfaceDecl base configuration.constraints)).map (·.name) := by
    have names : (fun resource => TypeDecl.name resource) ∘
        interfaceDecl base configuration.constraints = fun other => (openedInterface other).name :=
      funext (interfaceDecl_name base configuration.constraints)
    rw [List.map_map, name, names]
    exact clear.1
  let outlines := earlier.map (interfaceOutline base)
  let done := earlier.map (interfaceDecl base configuration.constraints)
  let others := earlier.flatMap actionsFrom
  have opened : Leads
      (fun session => Reached configuration outlines session ∧ built earlier session)
      (openInterface resource) fun owner session =>
        Filling configuration outlines (openedInterface resource) done (openedDecl resource)
          (verbsOf others) session ∧
          owner = interfaceOf base (openedInterface resource).name := by
    have reached : Leads (Reached configuration outlines) (openInterface resource)
        fun owner session => owner = interfaceOf base (openedInterface resource).name ∧
          Reached configuration (outlines ++ [openedInterface resource]) session :=
      (openInterface_decides resource).leads
    have made : Leads (built earlier) (openInterface resource) fun _ =>
        Made configuration (done ++ [openedDecl resource]) (verbsOf others) :=
      openInterface_made resource (name ▸ fresh)
    exact (reached.and (made.mono (fun _ holds => holds.2) fun _ _ made => made)).mono
      (fun _ holds => holds) fun _ session there => ⟨⟨there.1.2, there.2⟩, there.1.1⟩
  have filled : Leads
      (Filling configuration outlines (openedInterface resource) done (openedDecl resource)
        (verbsOf others))
      (forM (actionsFrom resource)
        (methodRound (interfaceOf base (openedInterface resource).name)
          (interfacePath resource.relativePath)))
      fun _ => built (earlier ++ [resource]) := by
    unfold built
    rw [List.map_append, List.flatMap_append, List.flatMap_singleton, List.map_singleton,
      isInterface]
    exact addMethods_made name fresh (withActions_empty rfl rfl _ _ _) (withActions_nil rfl rfl _ _)
      others (actionsFrom resource)
  refine opened.bind fun owner => Leads.assuming fun isOwner => ?_
  rw [isOwner, addMethods_eq_forM]
  exact filled

/-- **The interfaces of a description are built.** -/
theorem buildInterfaces_made (description : Raml.Description) :
    Leads (fun session => Reached configuration [] session ∧ Made configuration [] [] session)
      (buildInterfaces description) fun _ => Made configuration
        (description.resources.map
          (interfaceDecl configuration.basePackage configuration.constraints))
        (verbsOf (description.resources.flatMap actionsFrom)) := by
  let holds (resources : List Raml.Resource) (session : Session) : Prop :=
    Reached configuration (resources.map (interfaceOutline configuration.basePackage)) session ∧
      Made configuration
        (resources.map (interfaceDecl configuration.basePackage configuration.constraints))
        (verbsOf (resources.flatMap actionsFrom)) session
  have round (earlier : List Raml.Resource) (resource : Raml.Resource) :
      Leads (holds earlier) (buildInterface resource) fun _ => holds (earlier ++ [resource]) :=
    (buildInterface_decides earlier resource).leads.and (buildInterface_made earlier resource)
  unfold buildInterfaces
  rw [loop_eq_forM]
  exact (Leads.forM round [] description.resources).bind fun _ => Leads.pure fun _ holds => holds.2

/-- **A model has the declarations of the resources of its description**, in order, and the
annotation types of their verbs. -/
theorem buildModel_made {description : Raml.Description} {session : Session}
    (built : buildModel configuration description = .ok session) :
    Made configuration
      (description.resources.map
        (interfaceDecl configuration.basePackage configuration.constraints))
      (verbsOf (description.resources.flatMap actionsFrom)) session :=
  (buildInterfaces_made description).buildModel
    ⟨reached_start configuration, made_start configuration⟩ built

end RamlInterfaces.Generation
