/-
**The names of the parameters of a method.**

A parameter has the name that its key comes to, and a name by its position where the key comes to
none.  Such a position can give the name that another key comes to, and then the method is refused.
Where it does not, and the keys come to names that differ, no parameter is refused for its name.

* `ownNames`, `TakesPosition`, `argumentNames`: the names of keys, and those of parameters;
* `nodup_argumentNames_iff`: **the parameters have distinct names exactly when the keys come to
  distinct names and no position gives one of them**;
* `FailsFrom`: the failures of a step from sessions that are known;
* `methodRound_failsFrom`: **then no parameter of the method is refused for its name**;
* `ComesToAction`, `buildModel_parameterDefined_iff`: the actions that building comes to, and those
  at which it ends for the name of a parameter;
* `methodRound_names`: **the parameters of an action that building comes to**.
-/

import RamlInterfaces.Proofs.Except
import RamlInterfaces.Proofs.Generation.Clashes

namespace RamlInterfaces.Generation

open Java
open Settings (Configuration)

variable {α β : Type} {keys : List String} {session there : Session}

/-! ### Names -/

/-- The keys of the parameters of an action, in the order of its method. -/
def parameterKeys (entry : Raml.Resource × Raml.Action) : List String :=
  (actionParameters entry.1 entry.2).map (·.2.1)

/-- The names that keys come to, the keys aside that come to none. -/
def ownNames (keys : List String) : List String := (keys.map variableName).filter (· ≠ "")

/-- The name by a position. -/
def positionName (position : Nat) : String := "param" ++ toString position

/-- A key comes to no name at a position that gives the name that another key comes to. -/
def TakesPosition (keys : List String) : Prop :=
  ∃ entry ∈ keys.zipIdx, variableName entry.1 = "" ∧ positionName (entry.2 + 1) ∈ ownNames keys

/-- The names of the parameters for keys. -/
def argumentNames (keys : List String) : List String :=
  keys.mapIdx fun index key => argumentName key (index + 1)

instance (keys : List String) : Decidable (TakesPosition keys) :=
  inferInstanceAs (Decidable (∃ entry ∈ keys.zipIdx,
    variableName entry.1 = "" ∧ positionName (entry.2 + 1) ∈ ownNames keys))

theorem argumentName_of_own {key : String} (own : variableName key ≠ "") (position : Nat) :
    argumentName key position = variableName key := by
  have named : ¬ (variableName key).isEmpty = true := fun empty => own (String.isEmpty_iff.mp empty)
  unfold argumentName
  extract_lets name
  rw [if_neg named]

theorem argumentName_of_none {key : String} (none : variableName key = "") (position : Nat) :
    argumentName key position = positionName position := by
  have unnamed : (variableName key).isEmpty = true := String.isEmpty_iff.mpr none
  unfold argumentName
  extract_lets name
  rw [if_pos unnamed]
  rfl

theorem positionName_injective {position other : Nat}
    (same : positionName position = positionName other) : position = other := by
  have digits := String.append_right_inj _ |>.mp same
  have read := congrArg (fun text => Nat.ofDigitChars 10 text.toList 0) digits
  simpa [Nat.toString_eq_repr, Nat.toList_repr] using read

theorem argumentNames_eq (keys : List String) : argumentNames keys =
    keys.zipIdx.map fun entry => argumentName entry.1 (entry.2 + 1) := by
  unfold argumentNames
  rw [List.mapIdx_eq_zipIdx_map]

theorem mem_ownNames_iff {name : String} : name ∈ ownNames keys ↔
    ∃ key ∈ keys, variableName key = name ∧ name ≠ "" := by
  unfold ownNames
  simp only [List.mem_filter, List.mem_map, decide_eq_true_eq]
  constructor
  · rintro ⟨⟨key, member, same⟩, own⟩
    exact ⟨key, member, same, own⟩
  · rintro ⟨key, member, same, own⟩
    exact ⟨⟨key, member, same⟩, own⟩

/-- The names that keys come to, with the places of the keys. -/
theorem ownNames_eq (keys : List String) : ownNames keys =
    (keys.zipIdx.filter fun entry => variableName entry.1 ≠ "").map
      fun entry => variableName entry.1 := by
  have placed : keys.map variableName = keys.zipIdx.map fun entry => variableName entry.1 := by
    rw [← Function.comp_def variableName, ← List.map_map, List.zipIdx_map_fst]
  unfold ownNames
  rw [placed, List.filter_map]
  simp only [Function.comp_def]

/-- Places of keys are the same where their positions are. -/
theorem eq_of_position {entry other : String × Nat} (member : entry ∈ keys.zipIdx)
    (isOther : other ∈ keys.zipIdx) (same : entry.2 = other.2) : entry = other := by
  have first := List.mem_zipIdx_iff_getElem?.mp member
  have second := List.mem_zipIdx_iff_getElem?.mp isOther
  rw [same, second, Option.some.injEq] at first
  exact Prod.ext first.symm same

theorem mem_ownNames_of_place {entry : String × Nat} (member : entry ∈ keys.zipIdx)
    (own : variableName entry.1 ≠ "") : variableName entry.1 ∈ ownNames keys :=
  mem_ownNames_iff.mpr ⟨entry.1, List.fst_mem_of_mem_zipIdx member, rfl, own⟩

/-- **The parameters have distinct names** exactly when the keys come to distinct names and no
position gives one of them. -/
theorem nodup_argumentNames_iff : (argumentNames keys).Nodup ↔
    (ownNames keys).Nodup ∧ ¬ TakesPosition keys := by
  have places : keys.zipIdx.Nodup := by
    refine List.Nodup.of_map Prod.snd ?_
    rw [List.zipIdx_map_snd]
    exact List.nodup_range'
  rw [argumentNames_eq]
  constructor
  · intro distinct
    have same := fun entry isEntry other isOther => List.inj_on_of_nodup_map distinct
      (x := entry) (y := other) isEntry isOther
    constructor
    · rw [ownNames_eq]
      refine List.Nodup.map_on (fun entry isEntry other isOther alike => ?_) (places.filter _)
      obtain ⟨isEntry, own⟩ := List.mem_filter.mp isEntry
      obtain ⟨isOther, ownOther⟩ := List.mem_filter.mp isOther
      refine same entry isEntry other isOther ?_
      rw [argumentName_of_own (of_decide_eq_true own), alike,
        argumentName_of_own (of_decide_eq_true ownOther)]
    · rintro ⟨entry, isEntry, none, taken⟩
      obtain ⟨key, isKey, named, own⟩ := mem_ownNames_iff.mp taken
      rw [← List.zipIdx_map_fst 0 keys] at isKey
      obtain ⟨other, isOther, rfl⟩ := List.mem_map.mp isKey
      have alike : argumentName entry.1 (entry.2 + 1) = argumentName other.1 (other.2 + 1) := by
        rw [argumentName_of_none none, ← named, argumentName_of_own (named ▸ own)]
      rw [← same entry isEntry other isOther alike] at named
      exact own (named.symm.trans none)
  · rintro ⟨distinct, free⟩
    refine List.Nodup.map_on (fun entry isEntry other isOther alike => ?_) places
    by_cases own : variableName entry.1 = ""
    · by_cases ownOther : variableName other.1 = ""
      · -- two positions give two names
        rw [argumentName_of_none own, argumentName_of_none ownOther] at alike
        have position := positionName_injective alike
        exact eq_of_position isEntry isOther (Nat.succ.inj position)
      · rw [argumentName_of_none own, argumentName_of_own ownOther] at alike
        exact absurd ⟨entry, isEntry, own, alike ▸ mem_ownNames_of_place isOther ownOther⟩ free
    · by_cases ownOther : variableName other.1 = ""
      · rw [argumentName_of_own own, argumentName_of_none ownOther] at alike
        exact absurd ⟨other, isOther, ownOther, alike ▸ mem_ownNames_of_place isEntry own⟩ free
      · rw [argumentName_of_own own, argumentName_of_own ownOther] at alike
        rw [ownNames_eq] at distinct
        exact List.inj_on_of_nodup_map distinct
          (List.mem_filter.mpr ⟨isEntry, decide_eq_true own⟩)
          (List.mem_filter.mpr ⟨isOther, decide_eq_true ownOther⟩) alike

theorem argumentNames_from (entry : Raml.Resource × Raml.Action) :
    (argumentsFrom entry).map (·.name) = argumentNames (parameterKeys entry) := by
  unfold argumentsFrom argumentsOf argumentNames parameterKeys
  rw [List.mapIdx_eq_zipIdx_map, List.mapIdx_eq_zipIdx_map, List.zipIdx_map, List.map_map,
    List.map_map]
  refine List.map_congr_left fun placed _ => ?_
  simp only [Function.comp_apply, Argument.ofEntry, Prod.map_fst, Prod.map_snd, id_eq]

/-! ### Failures from sessions that are known -/

/-- From sessions with a property a step can fail only so. -/
def FailsFrom (before : Session → Prop) (allowed : Failure → Prop) (step : Build α) : Prop :=
  ∀ session failure, before session → Fails step session failure → allowed failure

namespace FailsFrom

variable {before : Session → Prop} {allowed : Failure → Prop}

protected theorem only {step : Build α} (only : FailsOnly allowed step) :
    FailsFrom before allowed step :=
  fun session failure _ failed => only session failure failed

protected theorem mono {wider : Failure → Prop} {step : Build α}
    (fails : FailsFrom before allowed step) (implies : ∀ failure, allowed failure → wider failure) :
    FailsFrom before wider step :=
  fun session failure holds failed => implies failure (fails session failure holds failed)

/-- A step that is clear does not fail. -/
protected theorem clear {step : Build α} {clear : Prop} {after : α → Session → Prop}
    (decides : Decides before step clear after) (free : clear) : FailsFrom before allowed step := by
  intro session failure holds failed
  obtain ⟨result, final, ran, _⟩ := decides.succeeds session holds free
  unfold Fails at failed
  rw [ran] at failed
  cases failed

protected theorem assuming {fact : Prop} {step : Build α}
    (fails : fact → FailsFrom before allowed step) :
    FailsFrom (fun session => fact ∧ before session) allowed step :=
  fun session failure holds failed => fails holds.1 session failure holds.2 failed

/-- **One step after another.** -/
protected theorem bind {step : Build α} {next : α → Build β} {middle : α → Session → Prop}
    (first : FailsFrom before allowed step) (leads : Leads before step middle)
    (second : ∀ value, FailsFrom (middle value) allowed (next value)) :
    FailsFrom before allowed (step >>= next) := by
  intro session failure holds failed
  rcases fails_bind_iff.mp failed with here | ⟨value, between, ran, later⟩
  · exact first session failure holds here
  · exact second value between failure (leads session value between holds ran) later

end FailsFrom

/-- A loop of decided rounds comes to an item after those before it. -/
theorem Arrives.after {holds : List α → Session → Prop} {clear : List α → α → Prop}
    {round : α → Build Unit} (each : ∀ before item,
      Decides (holds before) (round item) (clear before item) fun _ => holds (before ++ [item]))
    {items : List α} {item : α} (start : holds [] session)
    (arrives : Arrives round items session item there) :
    ∃ earlier later, items = earlier ++ item :: later ∧ holds earlier there := by
  have further (before : List α) (start : holds before session) :
      ∃ earlier later, items = earlier ++ item :: later ∧ holds (before ++ earlier) there := by
    clear * - each start arrives
    induction arrives generalizing before with
    | here =>
      refine ⟨[], _, rfl, ?_⟩
      rw [List.append_nil]
      exact start
    | @later first _ _ _ _ _ passed _ ih =>
      have next := (each before first).leads _ _ _ start passed
      obtain ⟨earlier, later, rfl, there⟩ := ih _ next
      refine ⟨first :: earlier, later, rfl, ?_⟩
      rw [List.append_assoc] at there
      exact there
  exact further [] start

/-! ### Parameters that are not refused -/

/-- Building ends otherwise than for the name of a parameter: the model refuses another element, or
a limit is not finite. -/
def IsOtherEnd (failure : Failure) : Prop :=
  IsOtherRefusal failure ∨ failure = .defect .unboundedLimit

theorem IsOtherEnd.ne {failure : Failure} (other : IsOtherEnd failure) (parameter method : String) :
    failure ≠ .model (.parameterDefined parameter method) := by
  rintro rfl
  rcases other with ⟨fault, same, otherwise⟩ | same
  · cases same
    exact otherwise parameter method rfl
  · cases same

variable {configuration : Configuration} {done : List Outline} {outline : Outline}
  {method : MethodOutline}

/-- **A parameter whose variable is new is not refused for its name.** -/
theorem declareParameter_failsFrom (asked : List Request) (arguments : List Argument)
    (methodName : String) {argument : Argument}
    (position : argumentName argument.key (arguments.length + 1) = argument.name)
    (fresh : argument.name ∉ arguments.map (·.name)) :
    FailsFrom (Reached configuration
        (done ++ [(outline.withEnums asked).addMethod (method.withArguments arguments)]))
      IsOtherRefusal
      (declareParameter (interfaceOf configuration.basePackage outline.name)
        (lastMethod configuration.basePackage outline) methodName argument.location argument.key
        argument.parameter) := by
  have named : argument.name.isEmpty = false := position ▸ argumentName_isEmpty _ _
  refine FailsFrom.bind (.only (stepwise_otherwise.parameterCount _)) parameterCount_decides.leads
    fun count => FailsFrom.assuming fun isCount => ?_
  have counted : count = arguments.length := isCount.trans (List.length_map _)
  rw [counted, position]
  have reported (name : String) := stepwise_otherwise.reportFallback (fun _ => FailsOnly.modify _)
    methodName argument.location argument.key name
  refine FailsFrom.bind (.only (reported _))
    (reportFallback_decides _ _ _ _).leads fun _ => ?_
  refine FailsFrom.bind (.only (inferType_otherwise _ _ _))
    (typeArgument_decides asked arguments argument).leads fun type => ?_
  have added := @addArgument_decides configuration done outline method (asked ++ argument.requests)
    arguments _ named type
  refine FailsFrom.bind (.clear added fresh) added.leads fun place => .only ?_
  refine (annotate_failsOnly _ _ _).bind fun _ => ?_
  exact (stepwise_otherwise.annotateDefault _ _).bind fun _ => FailsOnly.pure _

theorem addParameter_failsFrom (asked : List Request) (arguments : List Argument)
    (methodName : String) {argument : Argument}
    (position : argumentName argument.key (arguments.length + 1) = argument.name)
    (fresh : argument.name ∉ arguments.map (·.name)) :
    FailsFrom (Reached configuration
        (done ++ [(outline.withEnums asked).addMethod (method.withArguments arguments)])) IsOtherEnd
      (addParameter (interfaceOf configuration.basePackage outline.name)
        (lastMethod configuration.basePackage outline) methodName argument.location argument.key
        argument.parameter) := by
  refine FailsFrom.bind ((declareParameter_failsFrom asked arguments methodName position fresh).mono
    fun _ => .inl) (declareParameter_decides asked arguments methodName position).leads
    fun declared => .only ?_
  refine FailsOnly.bind (fun session failure failed => ?_) fun _ => FailsOnly.change _
  exact .inr (constrain_fails_iff.mp failed).2.1

theorem parameterRound_failsFrom (asked : List Request)
    (earlier : List (Location × String × Raml.Parameter)) (methodName : String)
    {entry : Location × String × Raml.Parameter}
    (fresh : (Argument.ofEntry (argumentsOf earlier).length entry).name ∉
      (argumentsOf earlier).map (·.name)) :
    FailsFrom (Reached configuration (done ++ [outline.fill asked method (argumentsOf earlier)]))
      IsOtherEnd
      (parameterRound (interfaceOf configuration.basePackage outline.name)
        (lastMethod configuration.basePackage outline) methodName entry) := by
  obtain ⟨argument, isArgument, isEntry, position⟩ :=
    Argument.exists_ofEntry (argumentsOf earlier).length entry
  rw [isArgument] at fresh
  rw [isEntry]
  exact addParameter_failsFrom _ (argumentsOf earlier) methodName position fresh

/-- Where names are distinct, the next one is new. -/
theorem notMem_of_nodup_argumentsOf {earlier later : List (Location × String × Raml.Parameter)}
    {entry : Location × String × Raml.Parameter}
    (distinct : ((argumentsOf (earlier ++ entry :: later)).map (·.name)).Nodup) :
    (Argument.ofEntry (argumentsOf earlier).length entry).name ∉
      (argumentsOf earlier).map (·.name) := by
  have split : earlier ++ entry :: later = earlier ++ [entry] ++ later := by simp
  have front : argumentsOf (earlier ++ [entry]) <+: argumentsOf (earlier ++ [entry] ++ later) := by
    unfold argumentsOf
    rw [@List.mapIdx_append _ _ _ (earlier ++ [entry])]
    exact List.prefix_append _ _
  rw [split] at distinct
  have kept := distinct.sublist (front.sublist.map (·.name))
  rw [argumentsOf_concat] at kept
  exact (nodup_map_concat_iff.mp kept).2

/-- **No parameter of a loop is refused for its name** where the names of the arguments are
distinct. -/
theorem parameters_failsFrom (asked : List Request) (methodName : String)
    {entries : List (Location × String × Raml.Parameter)}
    (distinct : ((argumentsOf entries).map (·.name)).Nodup) :
    FailsFrom (Reached configuration (done ++ [outline.fill asked method []])) IsOtherEnd
      (forIn entries () fun entry _ => do
        parameterRound (interfaceOf configuration.basePackage outline.name)
          (lastMethod configuration.basePackage outline) methodName entry
        pure (ForInStep.yield ())) := by
  intro session failure start failed
  obtain ⟨entry, there, arrives, here⟩ := forIn_fails_iff.mp failed
  obtain ⟨earlier, later, rfl, holds⟩ :=
    Arrives.after (parameterRound_decides asked methodName) start arrives
  exact parameterRound_failsFrom asked earlier methodName (notMem_of_nodup_argumentsOf distinct)
    there failure holds here

/-- Nor is a parameter of the method of an action. -/
theorem methodRound_failsFrom (outline : Outline) (path : String)
    (earlier : List (Raml.Resource × Raml.Action)) {entry : Raml.Resource × Raml.Action}
    (distinct : ((argumentsFrom entry).map (·.name)).Nodup) :
    FailsFrom
      (Reached configuration
        (done ++ [outline.withActions configuration.basePackage path earlier])) IsOtherEnd
      (methodRound (interfaceOf configuration.basePackage outline.name) path entry) := by
  have opened : FailsFrom
      (Reached configuration
        (done ++ [outline.withActions configuration.basePackage path earlier])) IsOtherEnd
      (openMethod (interfaceOf configuration.basePackage outline.name) path entry.2) :=
    (FailsFrom.only (openMethod_otherwise _ _ _)).mono fun _ => .inl
  refine opened.bind (openAction_decides outline path earlier entry).leads fun result =>
    FailsFrom.assuming fun isMethod => ?_
  rw [isMethod]
  refine FailsFrom.bind (parameters_failsFrom (requestsFrom earlier) (actionName entry.2) distinct)
    (addParameters_decides (requestsFrom earlier) (actionName entry.2) _).loop.leads
    fun _ => .only (FailsOnly.pure _)

/-! ### Actions that building comes to -/

/-- The building of a description comes to an action in the tree of a top-level resource, whose
interface is the given one: the interfaces before it and the methods before its own are built. -/
inductive ComesToAction (configuration : Configuration) (description : Raml.Description)
    (resource : Raml.Resource) (entry : Raml.Resource × Raml.Action) (owner : TypePath)
    (session : Session) : Prop where
  | intro {first second : Session}
    (interface : Arrives buildInterface description.resources { configuration } resource first)
    (opened : (openInterface resource).run first = (.ok owner, second))
    (inInterface : Arrives (methodRound owner (interfacePath resource.relativePath))
      (actionsFrom resource) second entry session)

variable {description : Raml.Description} {resource : Raml.Resource}
  {entry : Raml.Resource × Raml.Action} {owner : TypePath}

/-- The session in which building comes to an action has the methods of those before it. -/
theorem ComesToAction.reached
    (comes : ComesToAction configuration description resource entry owner session) :
    ∃ done earlier later, actionsFrom resource = earlier ++ entry :: later ∧
      owner = interfaceOf configuration.basePackage (openedInterface resource).name ∧
      Reached configuration (done ++ [(openedInterface resource).withActions
        configuration.basePackage (interfacePath resource.relativePath) earlier]) session := by
  obtain ⟨interface, opened, inInterface⟩ := comes
  obtain ⟨before, _, _, atInterface⟩ :=
    Arrives.after buildInterface_decides (reached_start configuration) interface
  obtain ⟨rfl, inside⟩ := (openInterface_decides resource).leads _ _ _ atInterface opened
  have empty : (openedInterface resource).withActions configuration.basePackage
      (interfacePath resource.relativePath) [] = openedInterface resource :=
    withActions_nil rfl rfl _ _
  rw [← empty] at inside
  obtain ⟨earlier, later, split, atAction⟩ := Arrives.after
    (methodRound_decides (openedInterface resource) (interfacePath resource.relativePath))
    inside inInterface
  exact ⟨_, earlier, later, split, rfl, atAction⟩

/-- **Building ends for the name of a parameter** exactly where it comes to an action whose method
is refused for it. -/
theorem buildModel_parameterDefined_iff {parameter method : String}
    (based : configuration.basePackage.isEmpty = false) :
    buildModel configuration description = .error (.model (.parameterDefined parameter method)) ↔
      ∃ resource entry owner session,
        ComesToAction configuration description resource entry owner session ∧
        Fails (methodRound owner (interfacePath resource.relativePath) entry) session
          (.model (.parameterDefined parameter method)) := by
  rw [buildModel_eq_error_iff based]
  unfold buildInterfaces
  rw [fails_bind_last_iff fun _ => FailsOnly.pure _, forIn_fails_iff]
  constructor
  · rintro ⟨resource, first, interface, failed⟩
    rcases fails_bind_iff.mp failed with refused | ⟨owner, second, opened, failed⟩
    · have other := IsOtherEnd.ne (.inl (openInterface_otherwise resource _ _ refused))
      exact absurd rfl (other parameter method)
    · obtain ⟨entry, session, inInterface, failed⟩ := addMethods_fails_iff.mp failed
      exact ⟨resource, entry, owner, session, ⟨interface, opened, inInterface⟩, failed⟩
  · rintro ⟨resource, entry, owner, session, ⟨interface, opened, inInterface⟩, failed⟩
    refine ⟨resource, _, interface, fails_bind_iff.mpr (.inr ⟨owner, _, opened, ?_⟩)⟩
    exact addMethods_fails_iff.mpr ⟨entry, session, inInterface, failed⟩

/-- What else than the names of its parameters an action needs: the name of its method is new, its
enums can be asked for, and its limits are finite where constraints are wanted. -/
structure ClearBeside (constrained : Bool) (owner : String)
    (earlier : List (Raml.Resource × Raml.Action)) (entry : Raml.Resource × Raml.Action) :
    Prop where
  method : actionName entry.2 ∉ earlier.map (actionName ·.2)
  enums : Throughout (Admits owner) (requestsFrom earlier)
    ((argumentsFrom entry).flatMap (·.requests))
  limits : ∀ argument ∈ argumentsFrom entry,
    ¬ (constrained = true ∧ HasInfiniteLimit argument.parameter)

/-- A step that is decided ends with a result exactly where it is clear. -/
theorem Decides.run_iff {before : Session → Prop} {clear : Prop} {after : Unit → Session → Prop}
    {step : Build Unit} (decides : Decides before step clear after) (holds : before session) :
    (∃ final, step.run session = (.ok (), final)) ↔ clear := by
  constructor
  · rintro ⟨final, ran⟩
    exact (decides.keep.leads _ _ _ holds ran).1
  · intro free
    obtain ⟨_, final, ran, _⟩ := decides.succeeds session holds free
    exact ⟨final, ran⟩

/-- The method that was added last, with its parameters. -/
theorem Reached.exists_lastMethod {path : String} {earlier : List (Raml.Resource × Raml.Action)}
    (holds : Reached configuration
      (done ++ [outline.withActions configuration.basePackage path (earlier ++ [entry])]) session) :
    ∃ decl method, session.model.type? (interfaceOf configuration.basePackage outline.name) =
        some decl ∧ decl.methods.getLast? = some method ∧ method.name = actionName entry.2 ∧
      method.parameters.map (·.name) = argumentNames (parameterKeys entry) ∧
      method.parameters.map parameterOutline = (argumentsFrom entry).map (·.outline) := by
  obtain ⟨decl, found, same⟩ := holds.outlined.type? (List.mem_append_right _ List.mem_cons_self)
  have methods : decl.methods.map methodOutline =
      (earlier ++ [entry]).map (methodFor configuration.basePackage path) :=
    congrArg Outline.methods same
  have last : decl.methods.getLast?.map methodOutline =
      some (methodFor configuration.basePackage path entry) := by
    rw [← List.getLast?_map, methods, List.map_append, List.map_singleton, List.getLast?_concat]
  obtain ⟨method, isLast, outlined⟩ := Option.map_eq_some_iff.mp last
  have parameters : method.parameters.map parameterOutline =
      (argumentsFrom entry).map (·.outline) := congrArg MethodOutline.parameters outlined
  refine ⟨decl, method, found, isLast, congrArg MethodOutline.name outlined, ?_, parameters⟩
  have names := congrArg (List.map Prod.fst) parameters
  rw [List.map_map, List.map_map] at names
  exact names.trans (argumentNames_from entry)

/-- **The parameters of an action that building comes to.**  Let the keys of its parameters come to
distinct names, those aside that come to none, and let no position of such a one give a name that
another key comes to.  Then the names of the parameters are distinct, and a key that comes to none
has the name by its position.  The method is not refused for the name of a parameter, and it is
added unless its own name is taken, an enum cannot be asked for, or a limit is not finite.  Once
added, it is the last of its interface and has all parameters, in order. -/
theorem methodRound_names
    (comes : ComesToAction configuration description resource entry owner session)
    (distinct : (ownNames (parameterKeys entry)).Nodup)
    (free : ¬ TakesPosition (parameterKeys entry)) :
    (argumentNames (parameterKeys entry)).Nodup ∧
    (∀ index key, (parameterKeys entry)[index]? = some key → variableName key = "" →
      (argumentNames (parameterKeys entry))[index]? = some (positionName (index + 1))) ∧
    (∀ failure, Fails (methodRound owner (interfacePath resource.relativePath) entry) session
      failure → IsOtherEnd failure) ∧
    ∃ earlier later, actionsFrom resource = earlier ++ entry :: later ∧
      ((∃ final, (methodRound owner (interfacePath resource.relativePath) entry).run session =
          (.ok (), final)) ↔
        ClearBeside configuration.constraints (openedInterface resource).name earlier entry) ∧
      ∀ final, (methodRound owner (interfacePath resource.relativePath) entry).run session =
          (.ok (), final) →
        ∃ decl method, final.model.type? owner = some decl ∧ decl.methods.getLast? = some method ∧
          method.name = actionName entry.2 ∧
          method.parameters.map (·.name) = argumentNames (parameterKeys entry) ∧
          method.parameters.map parameterOutline = (argumentsFrom entry).map (·.outline) := by
  have names : (argumentNames (parameterKeys entry)).Nodup :=
    nodup_argumentNames_iff.mpr ⟨distinct, free⟩
  have arguments : ((argumentsFrom entry).map (·.name)).Nodup := argumentNames_from entry ▸ names
  obtain ⟨done, earlier, later, split, rfl, holds⟩ := comes.reached
  have decides := @methodRound_decides configuration done (openedInterface resource)
    (interfacePath resource.relativePath) earlier entry
  refine ⟨names, fun index key isKey none => ?_, fun failure failed => ?_, earlier, later, split,
    ?_, fun final ran => ?_⟩
  · unfold argumentNames
    rw [List.getElem?_mapIdx, isKey, Option.map_some, argumentName_of_none none]
  · exact methodRound_failsFrom (openedInterface resource) _ earlier arguments session failure
      holds failed
  · rw [decides.run_iff holds, clearMethod_iff]
    exact ⟨fun ⟨method, enums, _, limits⟩ => ⟨method, enums, limits⟩,
      fun beside => ⟨beside.method, beside.enums, arguments, beside.limits⟩⟩
  · exact (decides.leads _ _ _ holds ran).exists_lastMethod

/-! ### Items -/

/-- The action that lists items, with the given keys of query parameters. -/
def itemsAction (keys : List String) : Raml.Action :=
  ⟨.get, "/items", none, [], keys.map fun key => (key, {})⟩

/-- The resource of items. -/
def itemsResource (keys : List String) : Raml.Resource where
  relativePath := "/items"
  path := "/items"
  displayName := none
  description := none
  pathParameters := []
  actions := [itemsAction keys]
  resources := []

/-- The description of that resource only. -/
def itemsDescription (keys : List String) : Raml.Description where
  title := "t"
  version := none
  baseUri := none
  mediaType := none
  resources := [itemsResource keys]

/-- A key that comes to no name before one that comes to one: the method is added with both. -/
theorem methodRound_names_items : ∃ owner session final decl method,
    ComesToAction { basePackage := "api" } (itemsDescription ["---", "limit"])
      (itemsResource ["---", "limit"])
      (itemsResource ["---", "limit"], itemsAction ["---", "limit"]) owner session ∧
    (ownNames (parameterKeys (itemsResource ["---", "limit"],
      itemsAction ["---", "limit"]))).Nodup ∧
    ¬ TakesPosition (parameterKeys (itemsResource ["---", "limit"],
      itemsAction ["---", "limit"])) ∧
    (methodRound owner (interfacePath "/items")
      (itemsResource ["---", "limit"], itemsAction ["---", "limit"])).run session =
        (.ok (), final) ∧
    final.model.type? owner = some decl ∧ decl.methods.getLast? = some method ∧
    method.parameters.map (·.name) = ["param1", "limit"] := by
  let resource := itemsResource ["---", "limit"]
  let entry := (resource, itemsAction ["---", "limit"])
  obtain ⟨owner, session, opened, _⟩ := (openInterface_decides resource).succeeds _
    (reached_start { basePackage := "api" }) List.not_mem_nil
  have comes : ComesToAction { basePackage := "api" } (itemsDescription ["---", "limit"]) resource
      entry owner session := ⟨.here, opened, .here⟩
  have distinct : (ownNames (parameterKeys entry)).Nodup := by decide +kernel
  have free : ¬ TakesPosition (parameterKeys entry) := by decide +kernel
  obtain ⟨_, _, _, earlier, later, split, runs, added⟩ := methodRound_names comes distinct free
  have first : earlier = [] := by
    have lengths := congrArg List.length split
    rw [List.length_append, List.length_cons] at lengths
    have one : (actionsFrom resource).length = 1 := rfl
    exact List.length_eq_zero_iff.mp (by omega)
  have beside : ClearBeside false (openedInterface resource).name earlier entry := by
    rw [first]
    exact ⟨List.not_mem_nil, trivial, fun argument _ wanted => Bool.false_ne_true wanted.1⟩
  obtain ⟨final, ran⟩ := runs.mpr beside
  obtain ⟨decl, method, found, isLast, _, names, _⟩ := added final ran
  have isName : argumentNames (parameterKeys entry) = ["param1", "limit"] := by decide +kernel
  exact ⟨owner, session, final, decl, method, comes, distinct, free, ran, found, isLast,
    names.trans isName⟩

/-- The keys come to no two names that are the same, and yet the method is refused: the second key
comes to none, and its position gives the name of the first. -/
theorem items_parameterDefined :
    (ownNames (parameterKeys (itemsResource ["param2", "---"],
      itemsAction ["param2", "---"]))).Nodup ∧
    buildModel { basePackage := "api" } (itemsDescription ["param2", "---"]) =
      .error (.model (.parameterDefined "param2" "getItems")) :=
  ⟨by decide +kernel, failure?_eq_some.mp (by decide +kernel)⟩

end RamlInterfaces.Generation
