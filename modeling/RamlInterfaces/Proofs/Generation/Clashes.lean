/-
**Descriptions whose names clash.**

Six kinds of names can clash, and a model is built exactly when none of them do.  No other two names
ever clash: methods of different verbs have different names, and so have types of the two packages.

* `actionName_verb`: the name of a method tells its verb;
* `Clash`: the names of a description that clash;
* `throughout_clearInterface_iff`: the interfaces are clear one after the other when none clash;
* `buildModel_collides_iff`: **building ends in a collision exactly when names clash, and with a
  model otherwise**.
-/

import RamlInterfaces.Proofs.Generation.Flattening

namespace RamlInterfaces.Generation

open Java
open Settings (Configuration)

/-! ### Names of methods -/

theorem takeWhile_typeNameChars (text : List Char) :
    (typeNameChars text).takeWhile Char.isLower = [] := by
  cases shape : typeNameChars text with
  | nil => rfl
  | cons first rest =>
    refine List.takeWhile_cons_of_neg ?_
    rw [isLower_of_typeNameChars shape]
    exact Bool.false_ne_true

theorem lower_word (verb : Verb) : Text.lower verb.word = verb.word := by
  cases verb <;> decide +kernel

theorem word_isLower (verb : Verb) : ∀ c ∈ verb.word.toList, c.isLower = true := by
  have all : verb.word.toList.all Char.isLower = true := by
    cases verb <;> decide
  exact List.all_eq_true.mp all

theorem verb_word_injective {verb other : Verb} (same : verb.word = other.word) :
    verb = other := by
  revert same
  cases verb <;> cases other <;> decide

/-- The small letters that the name of a method starts with are those of its verb. -/
theorem takeWhile_actionName (action : Raml.Action) :
    (actionName action).toList.takeWhile Char.isLower = action.verb.word.toList := by
  unfold actionName methodName
  rw [lower_word, String.toList_append, String.toList_ofList,
    List.takeWhile_append_of_pos (word_isLower action.verb), takeWhile_typeNameChars,
    List.append_nil]

/-- **The name of a method tells its verb.** -/
theorem actionName_verb {action other : Raml.Action} (same : actionName action = actionName other) :
    action.verb = other.verb := by
  refine verb_word_injective (String.toList_injective ?_)
  rw [← takeWhile_actionName action, ← takeWhile_actionName other, same]

/-! ### Clear as a whole -/

variable {constrained : Bool} {owner : String} {asked : List Request}

/-- The parameters of an action are clear when its arguments are. -/
theorem throughout_clearParameter_iff {entries : List (Location × String × Raml.Parameter)} :
    Throughout (ClearParameter constrained owner asked) [] entries ↔
      Throughout (ClearArgument constrained owner asked) [] (argumentsOf entries) := by
  rw [← throughout_image_iff [] entries rfl argumentsOf_concat]
  exact throughout_congr fun _ _ => throughout_singleton_iff.symm

/-- **The arguments of a method are clear** when all of their enums can be asked for, they have
distinct names, and their limits are finite where constraints are wanted. -/
theorem throughout_clearArgument_iff {arguments : List Argument} :
    Throughout (ClearArgument constrained owner asked) [] arguments ↔
      (Throughout (Admits owner) asked (arguments.flatMap (·.requests)) ∧
        (arguments.map (·.name)).Nodup) ∧
          ∀ argument ∈ arguments, ¬ (constrained = true ∧ HasInfiniteLimit argument.parameter) := by
  have requests : Throughout (fun earlier argument => Throughout (Admits owner)
      (asked ++ earlier.flatMap (·.requests)) (Argument.requests argument)) [] arguments ↔
        Throughout (Admits owner) asked (arguments.flatMap (·.requests)) :=
    throughout_image_iff asked arguments rfl fun earlier argument => by
      rw [List.flatMap_append, List.flatMap_singleton]
  have distinct : (([] : List Argument).map (·.name)).Nodup := List.nodup_nil
  have names : Throughout (fun earlier argument => Argument.name argument ∉ earlier.map (·.name))
      [] arguments ↔ (arguments.map (·.name)).Nodup := throughout_notMem_iff distinct
  unfold ClearArgument
  rw [throughout_and_iff, throughout_and_iff, requests, names, throughout_forall_iff]

theorem requestsFrom_concat (entries : List (Raml.Resource × Raml.Action))
    (entry : Raml.Resource × Raml.Action) : requestsFrom (entries ++ [entry]) =
      requestsFrom entries ++ (argumentsFrom entry).flatMap (·.requests) := by
  unfold requestsFrom
  rw [List.flatMap_append, List.flatMap_singleton]

/-- An action is clear after others when the name of its method is new, its enums can be asked for,
its arguments have distinct names, and their limits are finite where constraints are wanted. -/
theorem clearMethod_iff {earlier : List (Raml.Resource × Raml.Action)}
    {entry : Raml.Resource × Raml.Action} : ClearMethod constrained owner earlier entry ↔
      actionName entry.2 ∉ earlier.map (actionName ·.2) ∧
        Throughout (Admits owner) (requestsFrom earlier)
          ((argumentsFrom entry).flatMap (·.requests)) ∧
        ((argumentsFrom entry).map (·.name)).Nodup ∧
          ∀ argument ∈ argumentsFrom entry,
            ¬ (constrained = true ∧ HasInfiniteLimit argument.parameter) := by
  unfold ClearMethod
  rw [throughout_clearParameter_iff, throughout_clearArgument_iff, and_assoc]
  rfl

/-- **The actions of an interface are clear** when all of their enums can be asked for, their
methods have distinct names, and so have the arguments of each. -/
theorem throughout_clearMethod_iff {entries : List (Raml.Resource × Raml.Action)} :
    Throughout (ClearMethod constrained owner) [] entries ↔
      (entries.map (actionName ·.2)).Nodup ∧ Throughout (Admits owner) [] (requestsFrom entries) ∧
        (∀ entry ∈ entries, ((argumentsFrom entry).map (·.name)).Nodup) ∧
          ∀ entry ∈ entries, ∀ argument ∈ argumentsFrom entry,
            ¬ (constrained = true ∧ HasInfiniteLimit argument.parameter) := by
  have distinct : (([] : List (Raml.Resource × Raml.Action)).map (actionName ·.2)).Nodup :=
    List.nodup_nil
  have names : Throughout (fun earlier entry => actionName (Prod.snd entry) ∉
      List.map (fun other : Raml.Resource × Raml.Action => actionName other.2) earlier) [] entries ↔
        (entries.map (actionName ·.2)).Nodup := throughout_notMem_iff distinct
  have requests : Throughout (fun earlier entry => Throughout (Admits owner) (requestsFrom earlier)
      ((argumentsFrom entry).flatMap (·.requests))) [] entries ↔
        Throughout (Admits owner) [] (requestsFrom entries) :=
    throughout_image_iff [] entries rfl fun earlier entry => requestsFrom_concat earlier entry
  rw [throughout_congr fun _ _ => clearMethod_iff, throughout_and_iff, throughout_and_iff,
    throughout_and_iff, names, requests, throughout_forall_iff, throughout_forall_iff]

/-! ### Enums that agree -/

/-- The enums that are asked for in an interface agree: none has its name, their constants have
distinct names, and those of one name have the same literals. -/
structure Agree (owner : String) (requests : List Request) : Prop where
  names : ∀ request ∈ requests, request.name ≠ owner
  constants : ∀ request ∈ requests, (request.literals.map constantName).Nodup
  literals : ∀ first ∈ requests, ∀ second ∈ requests, first.name = second.name →
    first.literals = second.literals

theorem Agree.of_append {requests rest : List Request} (agree : Agree owner (requests ++ rest)) :
    Agree owner requests where
  names := fun request member => agree.names request (List.mem_append_left _ member)
  constants := fun request member => agree.constants request (List.mem_append_left _ member)
  literals := fun first isFirst second isSecond =>
    agree.literals first (List.mem_append_left _ isFirst) second (List.mem_append_left _ isSecond)

theorem Agree.concat (agree : Agree owner asked) {request : Request} (name : request.name ≠ owner)
    (constants : (request.literals.map constantName).Nodup)
    (literals : ∀ known ∈ asked, known.name = request.name → known.literals = request.literals) :
    Agree owner (asked ++ [request]) where
  names := fun other member => by
    rcases List.mem_append.mp member with old | new
    · exact agree.names other old
    · rw [List.mem_singleton.mp new]
      exact name
  constants := fun other member => by
    rcases List.mem_append.mp member with old | new
    · exact agree.constants other old
    · rw [List.mem_singleton.mp new]
      exact constants
  literals := fun first isFirst second isSecond same => by
    rcases List.mem_append.mp isFirst with firstOld | firstNew
    · rcases List.mem_append.mp isSecond with secondOld | secondNew
      · exact agree.literals first firstOld second secondOld same
      · rw [List.mem_singleton.mp secondNew] at same ⊢
        exact literals first firstOld same
    · rw [List.mem_singleton.mp firstNew] at same ⊢
      rcases List.mem_append.mp isSecond with secondOld | secondNew
      · exact (literals second secondOld same.symm).symm
      · rw [List.mem_singleton.mp secondNew]

/-- An enum can be asked for after others if it agrees with them. -/
theorem Agree.concat_iff (agree : Agree owner asked) {request : Request} :
    Admits owner asked request ↔ Agree owner (asked ++ [request]) := by
  have last : request ∈ asked ++ [request] := List.mem_append_right _ List.mem_cons_self
  unfold Admits
  cases found : asked.find? (·.name == request.name) with
  | some known =>
    have isAsked := List.mem_of_find?_eq_some found
    have isNamed := List.find?_some found
    have named : known.name = request.name := beq_iff_eq.mp isNamed
    constructor
    · intro same
      refine agree.concat ?_ ?_ fun other member sameName => ?_
      · rw [← named]
        exact agree.names known isAsked
      · rw [← same]
        exact agree.constants known isAsked
      · exact (agree.literals other member known isAsked (sameName.trans named.symm)).trans same
    · intro all
      exact all.literals known (List.mem_append_left _ isAsked) request last named
  | none =>
    have other : ∀ known ∈ asked, known.name ≠ request.name := fun known member same =>
      List.find?_eq_none.mp found known member (beq_iff_eq.mpr same)
    constructor
    · rintro ⟨notOwner, distinct⟩
      exact agree.concat notOwner distinct fun known member same => absurd same (other known member)
    · exact fun all => ⟨all.names request last, all.constants request last⟩

/-- **Enums can be asked for one after the other when they agree.** -/
theorem throughout_admits_iff {requests : List Request} (agree : Agree owner asked) :
    Throughout (Admits owner) asked requests ↔ Agree owner (asked ++ requests) := by
  induction requests generalizing asked with
  | nil =>
    rw [List.append_nil]
    exact iff_of_true trivial agree
  | cons request rest ih =>
    have split : asked ++ request :: rest = asked ++ [request] ++ rest := by simp
    rw [throughout_cons_iff, agree.concat_iff, split]
    constructor
    · rintro ⟨first, further⟩
      exact (ih first).mp further
    · intro all
      exact ⟨all.of_append, (ih all.of_append).mpr all⟩

/-! ### Descriptions -/

/-- Names of a description that clash. -/
inductive Clash (description : Raml.Description) : Prop where
  /-- Two top-level resources have one interface name. -/
  | interfaces (same : ¬ (description.resources.map fun resource =>
      interfaceName resource.displayName resource.relativePath).Nodup)
  /-- Two actions in the tree of a top-level resource have one verb and one method name. -/
  | methods {resource : Raml.Resource} (member : resource ∈ description.resources)
    (same : ¬ ((actionsFrom resource).map fun entry => (entry.2.verb, actionName entry.2)).Nodup)
  /-- Two parameters of an action have one variable. -/
  | arguments {resource : Raml.Resource} {entry : Raml.Resource × Raml.Action}
    (member : resource ∈ description.resources) (isAction : entry ∈ actionsFrom resource)
    (same : ¬ ((argumentsFrom entry).map (·.name)).Nodup)
  /-- An enum has the name of its interface. -/
  | owner {resource : Raml.Resource} {request : Request}
    (member : resource ∈ description.resources)
    (isAsked : request ∈ requestsFrom (actionsFrom resource))
    (same : request.name = interfaceName resource.displayName resource.relativePath)
  /-- Two enums in the tree of a top-level resource have one name and other literals. -/
  | literals {resource : Raml.Resource} {first second : Request}
    (member : resource ∈ description.resources)
    (isFirst : first ∈ requestsFrom (actionsFrom resource))
    (isSecond : second ∈ requestsFrom (actionsFrom resource)) (same : first.name = second.name)
    (other : first.literals ≠ second.literals)
  /-- Two literals of an enum have one constant. -/
  | constants {resource : Raml.Resource} {request : Request}
    (member : resource ∈ description.resources)
    (isAsked : request ∈ requestsFrom (actionsFrom resource))
    (same : ¬ (request.literals.map constantName).Nodup)

/-- The limits of a parameter are finite. -/
def HasFiniteLimits (p : Raml.Parameter) : Prop :=
  ∀ bound, p.minimum = some bound ∨ p.maximum = some bound → isFinite bound = true

instance (p : Raml.Parameter) : Decidable (HasFiniteLimits p) :=
  decidable_of_iff ((p.minimum.all isFinite && p.maximum.all isFinite) = true) <| by
    unfold HasFiniteLimits
    cases p.minimum <;> cases p.maximum <;> simp [or_imp, forall_and]

/-- The limits of the parameters of all actions are finite. -/
def FiniteLimits (description : Raml.Description) : Prop :=
  ∀ resource ∈ description.resources, ∀ entry ∈ actionsFrom resource,
    ∀ parameter ∈ actionParameters entry.1 entry.2, HasFiniteLimits parameter.2.2

instance (description : Raml.Description) : Decidable (FiniteLimits description) :=
  inferInstanceAs (Decidable (∀ resource ∈ description.resources, ∀ entry ∈ actionsFrom resource,
    ∀ parameter ∈ actionParameters entry.1 entry.2, HasFiniteLimits parameter.2.2))

variable {configuration : Configuration} {description : Raml.Description}

theorem HasFiniteLimits.not_infinite {p : Raml.Parameter} (finite : HasFiniteLimits p) :
    ¬ HasInfiniteLimit p := by
  rintro ⟨_, _, _, bound, isLimit, infinite⟩
  rw [finite bound isLimit] at infinite
  cases infinite

theorem mem_argumentsOf {entries : List (Location × String × Raml.Parameter)} {argument : Argument}
    (member : argument ∈ argumentsOf entries) :
    ∃ entry ∈ entries, argument.parameter = entry.2.2 := by
  obtain ⟨index, isIndex, rfl⟩ := List.mem_mapIdx.mp member
  exact ⟨entries[index], List.getElem_mem isIndex, rfl⟩

/-- The limits of all arguments are finite. -/
theorem FiniteLimits.arguments (finite : FiniteLimits description) {resource : Raml.Resource}
    (member : resource ∈ description.resources) : ∀ entry ∈ actionsFrom resource,
      ∀ argument ∈ argumentsFrom entry,
        ¬ (constrained = true ∧ HasInfiniteLimit argument.parameter) := by
  intro entry isAction argument isArgument
  obtain ⟨parameter, isParameter, same⟩ := mem_argumentsOf isArgument
  rw [same]
  exact fun infinite =>
    (finite resource member entry isAction parameter isParameter).not_infinite infinite.2

/-- Methods of one name have one verb. -/
theorem nodup_actionNames_iff {entries : List (Raml.Resource × Raml.Action)} :
    (entries.map (actionName ·.2)).Nodup ↔
      (entries.map fun entry => (entry.2.verb, actionName entry.2)).Nodup := by
  have names : entries.map (actionName ·.2) =
      (entries.map fun entry => (entry.2.verb, actionName entry.2)).map Prod.snd := by
    rw [List.map_map]
    rfl
  rw [names]
  constructor
  · exact List.Nodup.of_map Prod.snd
  · refine List.Nodup.map_on fun first isFirst second isSecond same => ?_
    obtain ⟨one, _, rfl⟩ := List.mem_map.mp isFirst
    obtain ⟨other, _, rfl⟩ := List.mem_map.mp isSecond
    exact Prod.ext (actionName_verb same) same

theorem openedInterface_name (resource : Raml.Resource) : (openedInterface resource).name =
    interfaceName resource.displayName resource.relativePath := by
  simp only [openedInterface]

/-- The interfaces are clear when they have distinct names and the actions of each are clear. -/
theorem throughout_clearInterface {resources : List Raml.Resource} :
    Throughout (ClearInterface constrained) [] resources ↔
      (resources.map fun resource =>
        interfaceName resource.displayName resource.relativePath).Nodup ∧
      ∀ resource ∈ resources, Throughout (ClearMethod constrained
        (interfaceName resource.displayName resource.relativePath)) [] (actionsFrom resource) := by
  let name (resource : Raml.Resource) : String :=
    interfaceName resource.displayName resource.relativePath
  have parts (earlier : List Raml.Resource) (resource : Raml.Resource) :
      ClearInterface constrained earlier resource ↔ name resource ∉ earlier.map name ∧
        Throughout (ClearMethod constrained (name resource)) [] (actionsFrom resource) := by
    unfold ClearInterface
    simp only [openedInterface_name, name]
  have distinct : (([] : List Raml.Resource).map name).Nodup := List.nodup_nil
  rw [throughout_congr parts, throughout_and_iff, throughout_notMem_iff distinct,
    throughout_forall_iff]
  rfl

/-- **The interfaces of a description are clear exactly when no names clash.** -/
theorem throughout_clearInterface_iff (finite : FiniteLimits description) :
    Throughout (ClearInterface constrained) [] description.resources ↔ ¬ Clash description := by
  rw [throughout_clearInterface]
  have agrees (owner : String) : Agree owner [] :=
    ⟨fun _ member => absurd member List.not_mem_nil, fun _ member => absurd member List.not_mem_nil,
      fun _ member => absurd member List.not_mem_nil⟩
  constructor
  · rintro ⟨names, each⟩ clash
    have parts (resource : Raml.Resource) (member : resource ∈ description.resources) :=
      throughout_clearMethod_iff.mp (each resource member)
    cases clash with
    | interfaces same => exact same names
    | methods member same => exact same (nodup_actionNames_iff.mp (parts _ member).1)
    | arguments member isAction same => exact same ((parts _ member).2.2.1 _ isAction)
    | owner member isAsked same =>
      have agree := (throughout_admits_iff (agrees _)).mp (parts _ member).2.1
      exact agree.names _ isAsked same
    | literals member isFirst isSecond same other =>
      have agree := (throughout_admits_iff (agrees _)).mp (parts _ member).2.1
      exact other (agree.literals _ isFirst _ isSecond same)
    | constants member isAsked same =>
      have agree := (throughout_admits_iff (agrees _)).mp (parts _ member).2.1
      exact same (agree.constants _ isAsked)
  · intro none
    refine ⟨?_, fun resource member => throughout_clearMethod_iff.mpr ⟨?_, ?_, ?_, ?_⟩⟩
    · by_contra same
      exact none (.interfaces same)
    · by_contra same
      exact none (.methods member fun distinct => same (nodup_actionNames_iff.mpr distinct))
    · refine (throughout_admits_iff (agrees _)).mpr ⟨fun request isAsked same => ?_,
        fun request isAsked => ?_, fun first isFirst second isSecond same => ?_⟩
      · exact none (.owner member isAsked same)
      · by_contra repeated
        exact none (.constants member isAsked repeated)
      · by_contra other
        exact none (.literals member isFirst isSecond same other)
    · intro entry isAction
      by_contra same
      exact none (.arguments member isAction same)
    · exact finite.arguments member

/-! ### Building -/

/-- Building comes to parameters of actions only. -/
theorem ComesToParameter.hasFiniteLimits {p : Raml.Parameter} {session : Session}
    (comes : ComesToParameter configuration description p session)
    (finite : FiniteLimits description) : HasFiniteLimits p := by
  obtain ⟨interface, _, inInterface, _, inMethod, _⟩ := comes
  exact finite _ interface.mem _ inInterface.mem _ inMethod.mem

/-- A model is built where no names clash. -/
theorem exists_buildModel (based : configuration.basePackage.isEmpty = false)
    (finite : FiniteLimits description) (none : ¬ Clash description) :
    ∃ session, buildModel configuration description = .ok session :=
  exists_buildModel_iff.mpr ⟨based, (throughout_clearInterface_iff finite).mpr none⟩

/-- **Building ends in a collision exactly when names clash**, and otherwise with a model. -/
theorem buildModel_collides_iff (based : configuration.basePackage.isEmpty = false)
    (finite : FiniteLimits description) :
    ((∃ fault, buildModel configuration description = .error (.model fault) ∧
        fault.isCollision = true) ↔ Clash description) ∧
      (¬ Clash description → ∃ session, buildModel configuration description = .ok session) := by
  refine ⟨⟨fun collides => ?_, fun clash => ?_⟩, exists_buildModel based finite⟩
  · by_contra none
    obtain ⟨fault, failed, _⟩ := collides
    obtain ⟨session, built⟩ := exists_buildModel based finite none
    rw [built] at failed
    cases failed
  · have blocked : ¬ Throughout (ClearInterface configuration.constraints) []
        description.resources := fun clear =>
      (throughout_clearInterface_iff finite).mp clear clash
    obtain ⟨failure, failed, foreseen⟩ :=
      (buildInterfaces_decides description).fails _ (reached_start configuration) blocked
    have failed := (buildModel_eq_error_iff based).mpr failed
    rcases foreseen with ⟨fault, rfl, collision⟩ | rfl
    · exact ⟨fault, failed, collision⟩
    · obtain ⟨_, p, session, comes, infinite⟩ := (buildModel_defect_iff based).mp ⟨_, failed⟩
      exact absurd infinite (comes.hasFiniteLimits finite).not_infinite

/-- A description of orders, where two parameters have enums of one name and other literals. -/
def orders : Raml.Description where
  title := "t"
  version := none
  baseUri := none
  mediaType := none
  resources := [{
    relativePath := "/orders", path := "/orders", displayName := none, description := none
    pathParameters := []
    actions := [
      ⟨.get, "/orders", none, [],
        [("state", { enumValues := some ["open", "closed"] }),
          ("limit", { kind := some "integer", minimum := some (.finite false 1 0) })]⟩,
      ⟨.post, "/orders", none, [("state", { enumValues := some ["open"] })], []⟩]
    resources := [] }]

theorem collision_orders : FiniteLimits orders ∧ ∃ fault,
    buildModel { basePackage := "api" } orders = .error (.model fault) ∧
      fault.isCollision = true := by
  have finite : FiniteLimits orders := by decide +kernel
  have isFirst : ∀ resource ∈ orders.resources,
      Request.mk "State" ["open", "closed"] ∈ requestsFrom (actionsFrom resource) := by
    decide +kernel
  have isSecond : ∀ resource ∈ orders.resources,
      Request.mk "State" ["open"] ∈ requestsFrom (actionsFrom resource) := by
    decide +kernel
  obtain ⟨resource, member⟩ : ∃ resource, resource ∈ orders.resources := ⟨_, List.mem_cons_self⟩
  have clash : Clash orders :=
    .literals member (isFirst _ member) (isSecond _ member) rfl (by decide)
  exact ⟨finite, (buildModel_collides_iff (by decide) finite).1.mpr clash⟩

end RamlInterfaces.Generation
