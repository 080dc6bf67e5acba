/-
**The warnings about parameters.**

Two things about a parameter are reported: that its variable is named by position, since its key has
no usable identifier, and that its declared kind is none that there is, so that its type is
`java.lang.Object`.  No other step of building warns.  So the warnings of a session are those about
its parameters in the order of the walk, once for each method that a parameter belongs to.

* `ParameterWarning`, `warningsFor`: the warnings about a parameter, read off its declaration;
* `Silent`, `stepwise_silent`: the steps that leave the warnings as they are;
* `inferType_warned`, `addParameter_warned`: **what is reported of a parameter**;
* `addParameters_warned`, `buildInterfaces_warned`: **what is reported along the walk**;
* `isObject_argumentType_iff`: the parameters whose type is not known;
* `buildModel_warnings`: **the warnings of a session, and what they say about its model**.
-/

import RamlInterfaces.Proofs.Generation.Contexts

namespace RamlInterfaces.Generation

open Java
open Settings (Configuration)

/-! ### Warnings -/

/-- A warning about a parameter. -/
inductive ParameterWarning where
  | unnamed (location : Location) (key method name : String)
  | unsupported (kind : String)
deriving DecidableEq

namespace ParameterWarning

/-- The message of a warning. -/
def message : ParameterWarning → String
  | .unnamed location key method name => location.word ++ " parameter '" ++ key ++ "' of " ++
      method ++ " has no usable identifier, using '" ++ name ++ "'"
  | .unsupported kind => "Unsupported RAML type: " ++ kind

theorem message_unnamed (location : Location) (key method name : String) :
    (unnamed location key method name).message =
      location.word ++ " parameter '" ++ key ++ "' of " ++ method ++
        " has no usable identifier, using '" ++ name ++ "'" := by
  unfold message
  dsimp only

end ParameterWarning

/-- The kinds of parameters. -/
def knownKinds : List String := ["string", "boolean", "integer", "number", "date", "file"]

/-- The declared kind of a parameter, if it is none of the known ones. -/
def strangeKind? (p : Raml.Parameter) : Option String := p.kind.filter (!knownKinds.contains ·)

/-- The warnings about the type of a parameter: enum values make up for its kind. -/
def typeWarnings (p : Raml.Parameter) : List ParameterWarning :=
  if (p.enumValues.getD []).isEmpty then (strangeKind? p).toList.map .unsupported else []

/-- The warnings about the name of a parameter after the given number of others. -/
def nameWarnings (method : String) (location : Location) (key : String) (index : Nat) :
    List ParameterWarning :=
  if (variableName key).isEmpty then
    [.unnamed location key method ("param" ++ toString (index + 1))] else []

/-- The warnings about a parameter of a method after the given number of others. -/
def warningsFor (method : String) (entry : Location × String × Raml.Parameter) (index : Nat) :
    List ParameterWarning :=
  nameWarnings method entry.1 entry.2.1 index ++ typeWarnings entry.2.2

/-- The warnings about the parameters of a method. -/
def parameterWarnings (method : String) (entries : List (Location × String × Raml.Parameter)) :
    List ParameterWarning :=
  entries.zipIdx.flatMap fun (entry, index) => warningsFor method entry index

/-- The warnings about the method of an action. -/
def actionWarnings (entry : Raml.Resource × Raml.Action) : List ParameterWarning :=
  parameterWarnings (actionName entry.2) (actionParameters entry.1 entry.2)

/-- The warnings of a session, in the order of their reports. -/
def Session.warnings (session : Session) : List String :=
  (session.records.filter (·.level == .warning)).map (·.message)

theorem parameterWarnings_concat (method : String)
    (entries : List (Location × String × Raml.Parameter))
    (entry : Location × String × Raml.Parameter) :
    parameterWarnings method (entries ++ [entry]) =
      parameterWarnings method entries ++ warningsFor method entry entries.length := by
  unfold parameterWarnings
  rw [List.zipIdx_append, List.flatMap_append, Nat.zero_add, List.zipIdx_singleton,
    List.flatMap_singleton]

/-! ### Steps that do not warn -/

/-- The warnings are the same. -/
def SameWarnings (session later : Session) : Prop := later.warnings = session.warnings

instance : IsPreorder Session SameWarnings where
  refl _ := rfl
  trans _ _ _ first second := Eq.trans second first

/-- A step that leaves the warnings as they are, whether it ends with a result or fails. -/
abbrev Silent {α : Type} (step : Build α) : Prop := Along SameWarnings step

theorem change_silent (update : Model → Model) : Silent (Build.change update) := fun _ => rfl

theorem attempt_silent {α : Type} (step : Model → Except Fault (α × Model)) :
    Silent (Build.attempt step) :=
  Along.attempt fun _ _ _ _ => rfl

theorem annotate_silent (site : Site) (type : TypeRef) (elements : List (String × ElementValue)) :
    Silent (Build.annotate site type elements) :=
  change_silent _

theorem debug_silent (message : String) : Silent (Build.report .debug message) := by
  intro session
  show Session.warnings { session with records := session.records ++ [⟨.debug, message⟩] } = _
  unfold Session.warnings
  rw [List.filter_append]
  exact congrArg (List.map _) (List.append_nil _)

theorem createMethod_silent (owner : TypePath) (name : String) (returnType : TypeRef) :
    Silent (createMethod owner name returnType) := by
  refine Along.get_bind fun seen => ?_
  dsimp only
  split
  · rfl
  · exact Along.throw _ seen

theorem createEnum_silent (owner : TypePath) (name : String) (literals : List String) :
    Silent (createEnum owner name literals) := by
  intro session
  have declared :
      Silent (declareEnum owner name literals >>= rememberEnum owner name literals) := by
    refine Along.bind (Along.bind (attempt_silent _) fun path => ?_) fun path => ?_
    · exact (Along.forM (fun _ => attempt_silent _) literals).bind fun _ => Along.pure path
    · exact Along.bind (Along.modify fun _ => rfl) fun _ => Along.pure path
  rcases createEnum_run owner name literals session with
    ⟨_, -, -, -, ⟨-, ran⟩ | ⟨_, ran⟩⟩ | ran
  · rw [ran]
    rfl
  · rw [ran]
    rfl
  · rw [ran]
    exact declared session

/-- **What is declared, annotated and described is not warned of.** -/
theorem stepwise_silent : Stepwise (Along SameWarnings) where
  pure := Along.pure
  bind := Along.bind
  get_bind each := Along.get_bind fun seen => each seen seen
  refuse _ := Along.throw _
  define _ _ _ := attempt_silent _
  createMethod := createMethod_silent
  annotate := annotate_silent
  describeType _ _ := change_silent _
  describeMethod _ _ := change_silent _
  debug := debug_silent
  noteVerb _ _ := fun _ => rfl
  enter _ := fun _ => rfl

/-! ### What is reported of a parameter -/

/-- A session with the messages of the given warnings. -/
def Warned (warnings : List ParameterWarning) (session : Session) : Prop :=
  session.warnings = warnings.map (·.message)

variable {warnings : List ParameterWarning} {session : Session} {configuration : Configuration}
  {done : List Outline} {outline : Outline} {shown : MethodOutline}

theorem Along.warned {α : Type} {step : Build α} (silent : Silent step) :
    Leads (Warned warnings) step fun _ => Warned warnings :=
  silent.leads fun _ _ same warned => same.trans warned

/-- What a step that does not warn leads to besides. -/
theorem Leads.silently {α : Type} {step : Build α} {before : Session → Prop}
    {after : α → Session → Prop} (leads : Leads before step after) (silent : Silent step) :
    Leads (fun session => before session ∧ Warned warnings session) step
      fun result session => after result session ∧ Warned warnings session :=
  leads.and (silent.warned.mono (fun _ there => there.2) fun _ _ warned => warned)

/-- A warning comes after those before it. -/
theorem report_warned (warning : ParameterWarning) :
    Leads (Warned warnings) (Build.report .warning warning.message)
      fun _ => Warned (warnings ++ [warning]) := by
  refine Leads.modify fun session warned => ?_
  show Session.warnings
    { session with records := session.records ++ [⟨.warning, warning.message⟩] } = _
  unfold Session.warnings
  rw [List.filter_append, List.map_append, List.map_append]
  exact congrArg (· ++ [warning.message]) warned

theorem unwarned (warned : Warned warnings session) : Warned (warnings ++ []) session := by
  rwa [List.append_nil]

theorem argumentName_eq (key : String) (position : Nat) : argumentName key position =
    if (variableName key).isEmpty then "param" ++ toString position else variableName key := by
  unfold argumentName
  rfl

theorem reportFallback_warned (method : String) (location : Location) (key : String)
    (index : Nat) :
    Leads (Warned warnings)
      (reportFallback method location key (argumentName key (index + 1)))
      fun _ => Warned (warnings ++ nameWarnings method location key index) := by
  unfold reportFallback nameWarnings
  rw [argumentName_eq]
  by_cases empty : (variableName key).isEmpty = true
  · simp only [if_pos empty, ← ParameterWarning.message_unnamed]
    exact report_warned _
  · rw [if_neg empty, if_neg empty]
    exact Leads.pure fun _ warned => unwarned warned

/-- **A kind has no type exactly if it is declared and is none of the known ones.** -/
theorem scalarType?_eq_none_iff (p : Raml.Parameter) :
    scalarType? p = none ↔ (strangeKind? p).isSome = true := by
  unfold scalarType? strangeKind? knownKinds
  cases p.kind with
  | none => simp
  | some kind => split <;> simp_all [Option.filter]

theorem strangeKind?_eq_none {p : Raml.Parameter} {type : TypeRef}
    (known : scalarType? p = some type) : strangeKind? p = none := by
  rw [← Option.not_isSome_iff_eq_none, ← scalarType?_eq_none_iff, known]
  exact Option.some_ne_none type

theorem scalarType_warned (p : Raml.Parameter) :
    Leads (Warned warnings) (scalarType p)
      fun _ => Warned (warnings ++ (strangeKind? p).toList.map .unsupported) := by
  unfold scalarType
  cases known : scalarType? p with
  | some type =>
    rw [strangeKind?_eq_none known]
    exact Leads.pure fun _ warned => unwarned warned
  | none =>
    obtain ⟨kind, isStrange⟩ :=
      Option.isSome_iff_exists.mp ((scalarType?_eq_none_iff p).mp known)
    have declared : p.kind = some kind := (Option.filter_eq_some_iff.mp isStrange).1
    rw [isStrange, declared]
    exact (report_warned (.unsupported kind)).bind fun _ => Leads.pure fun _ warned => warned

theorem isEmpty_enumValues {p : Raml.Parameter}
    (noEnum : ∀ first rest, p.enumValues ≠ some (first :: rest)) :
    (p.enumValues.getD []).isEmpty = true := by
  cases values : p.enumValues with
  | none => rfl
  | some literals =>
    cases literals with
    | nil => rfl
    | cons first rest => exact absurd values (noEnum first rest)

theorem inferType_warned (p : Raml.Parameter) (name : String) (owner : Option TypePath) :
    Leads (Warned warnings) (inferType p name owner)
      fun _ => Warned (warnings ++ typeWarnings p) := by
  unfold inferType typeWarnings
  split
  · rename_i first rest enum
    rw [enum]
    refine Leads.get_bind fun seen warned => ?_
    split
    · refine Leads.start (Leads.bind (createEnum_silent _ _ _).warned fun path => ?_) warned
      exact Leads.pure fun _ warned => unwarned warned
    · exact Leads.throw _
  · rename_i noEnum
    rw [if_pos (isEmpty_enumValues noEnum)]
    exact (scalarType_warned p).bind fun _ => Leads.pure fun _ warned => warned

/-- **A parameter is reported as its declaration says**, after as many others as its method has. -/
theorem addParameter_warned (owner : TypePath) (method : MethodPath) (methodName : String)
    (entry : Location × String × Raml.Parameter) (index : Nat) :
    Leads
      (fun session => Warned warnings session ∧
        ((session.model.method? method).map (·.parameters.length)).getD 0 = index)
      (parameterRound owner method methodName entry)
      fun _ => Warned (warnings ++ warningsFor methodName entry index) := by
  obtain ⟨location, key, p⟩ := entry
  have counted : Leads
      (fun session => Warned warnings session ∧
        ((session.model.method? method).map (·.parameters.length)).getD 0 = index)
      (parameterCount method) fun count session => Warned warnings session ∧ count = index := by
    refine Leads.get_bind fun seen holds => Leads.pure fun session same => ?_
    rw [same]
    exact holds
  unfold parameterRound addParameter declareParameter warningsFor
  rw [← List.append_assoc]
  refine Leads.bind (counted.bind fun count => Leads.assuming fun isCount => ?_) fun declared =>
    Leads.bind (stepwise_silent.constrain (fun _ => Along.throw _) _ _).warned fun _ =>
      (change_silent _).warned
  rw [isCount]
  refine (reportFallback_warned methodName location key index).bind fun _ => ?_
  refine (inferType_warned p _ _).bind fun type => ?_
  refine (attempt_silent _).warned.bind fun parameter => ?_
  exact (annotate_silent _ _ _).warned.bind fun _ =>
    (stepwise_silent.annotateDefault _ _).warned.bind
    fun _ => Leads.pure fun _ warned => warned

/-! ### What is reported along the walk -/

/-- The parameters of an action are reported one after the other. -/
theorem addParameters_warned (asked : List Request) (methodName : String)
    (entries : List (Location × String × Raml.Parameter)) :
    Leads
      (fun session => Reached configuration (done ++ [outline.fill asked shown []]) session ∧
        Warned warnings session)
      (forM entries (parameterRound (interfaceOf configuration.basePackage outline.name)
        (lastMethod configuration.basePackage outline) methodName))
      fun _ => Warned (warnings ++ parameterWarnings methodName entries) := by
  let holds (earlier : List (Location × String × Raml.Parameter)) (session : Session) : Prop :=
    Reached configuration (done ++ [outline.fill asked shown (argumentsOf earlier)]) session ∧
      Warned (warnings ++ parameterWarnings methodName earlier) session
  have round (earlier : List (Location × String × Raml.Parameter))
      (entry : Location × String × Raml.Parameter) :
      Leads (holds earlier)
        (parameterRound (interfaceOf configuration.basePackage outline.name)
          (lastMethod configuration.basePackage outline) methodName entry)
        fun _ => holds (earlier ++ [entry]) := by
    refine (parameterRound_decides asked methodName earlier entry).leads.and ?_
    rw [parameterWarnings_concat, ← List.append_assoc]
    refine (addParameter_warned _ _ methodName entry earlier.length).mono (fun session there => ?_)
      fun _ _ warned => warned
    have count : _ = (argumentsOf earlier).length :=
      there.1.outlined.parameterCount.trans (List.length_map _)
    exact ⟨there.2, count.trans List.length_mapIdx⟩
  have start : warnings ++ parameterWarnings methodName [] = warnings := List.append_nil _
  refine (Leads.forM round [] entries).mono (fun session there => ?_) fun _ _ there => there.2
  exact ⟨there.1, start.symm ▸ there.2⟩

/-- The parameters of a method are reported when it is added. -/
theorem methodRound_warned (path : String) (earlier : List (Raml.Resource × Raml.Action))
    (entry : Raml.Resource × Raml.Action) :
    let before := outline.withActions configuration.basePackage path earlier
    Leads
      (fun session => Reached configuration (done ++ [before]) session ∧ Warned warnings session)
      (methodRound (interfaceOf configuration.basePackage outline.name) path entry)
      fun _ => Warned (warnings ++ actionWarnings entry) := by
  intro before
  let owner := interfaceOf configuration.basePackage outline.name
  let method := openedMethod configuration.basePackage path entry.2
  let filled := before.fill (requestsFrom earlier) method []
  have opened : Leads
      (fun session => Reached configuration (done ++ [before]) session ∧ Warned warnings session)
      (openMethod owner path entry.2) fun result session =>
        (Reached configuration (done ++ [filled]) session ∧ Warned warnings session) ∧
          result = lastMethod configuration.basePackage before :=
    ((openAction_decides outline path earlier entry).leads.silently
      (stepwise_silent.openMethod _ _ _)).mono
      (fun _ holds => holds) fun _ _ there => ⟨⟨there.1.2, there.2⟩, there.1.1⟩
  have parameters : Leads
      (fun session => Reached configuration (done ++ [filled]) session ∧ Warned warnings session)
      (forM (actionParameters entry.1 entry.2)
        (parameterRound owner (lastMethod configuration.basePackage before) (actionName entry.2)))
      fun _ => Warned (warnings ++ actionWarnings entry) :=
    addParameters_warned (requestsFrom earlier) (actionName entry.2) _
  rw [← loop_eq_forM] at parameters
  refine opened.bind fun result => Leads.assuming fun isMethod => ?_
  rw [isMethod]
  exact parameters.bind fun _ => Leads.pure fun _ warned => warned

/-- The methods of an interface are reported when it is built. -/
theorem buildInterface_warned (earlier : List Raml.Resource) (resource : Raml.Resource) :
    Leads
      (fun session => Reached configuration
        (earlier.map (interfaceOutline configuration.basePackage)) session ∧
          Warned warnings session)
      (buildInterface resource)
      fun _ => Warned (warnings ++ (actionsFrom resource).flatMap actionWarnings) := by
  let base := configuration.basePackage
  let done := earlier.map (interfaceOutline base)
  let path := interfacePath resource.relativePath
  let holds (entries : List (Raml.Resource × Raml.Action)) (session : Session) : Prop :=
    Reached configuration (done ++ [(openedInterface resource).withActions base path entries])
      session ∧ Warned (warnings ++ entries.flatMap actionWarnings) session
  have round (entries : List (Raml.Resource × Raml.Action)) (entry : Raml.Resource × Raml.Action) :
      Leads (holds entries)
        (methodRound (interfaceOf base (openedInterface resource).name) path entry)
        fun _ => holds (entries ++ [entry]) := by
    refine (methodRound_decides (openedInterface resource) path entries entry).leads.and ?_
    rw [List.flatMap_append, List.flatMap_singleton, ← List.append_assoc]
    exact methodRound_warned path entries entry
  have opened : Leads
      (fun session => Reached configuration done session ∧ Warned warnings session)
      (openInterface resource) fun owner session =>
        (Reached configuration (done ++ [openedInterface resource]) session ∧
          Warned warnings session) ∧ owner = interfaceOf base (openedInterface resource).name :=
    ((openInterface_decides resource).leads.silently (stepwise_silent.openInterface resource)).mono
      (fun _ holds => holds) fun _ _ there => ⟨⟨there.1.2, there.2⟩, there.1.1⟩
  have empty : (openedInterface resource).withActions base path [] = openedInterface resource :=
    withActions_nil rfl rfl _ _
  refine opened.bind fun owner => Leads.assuming fun isOwner => ?_
  rw [isOwner, addMethods_eq_forM]
  refine (Leads.forM round [] (actionsFrom resource)).mono (fun session there => ?_)
    fun _ _ there => there.2
  exact ⟨empty.symm ▸ there.1, unwarned there.2⟩

/-- **The interfaces of a description are reported one after the other.** -/
theorem buildInterfaces_warned (description : Raml.Description) :
    Leads (fun session => Reached configuration [] session ∧ Warned [] session)
      (buildInterfaces description)
      fun _ => Warned ((description.resources.flatMap actionsFrom).flatMap actionWarnings) := by
  let holds (resources : List Raml.Resource) (session : Session) : Prop :=
    Reached configuration (resources.map (interfaceOutline configuration.basePackage)) session ∧
      Warned ((resources.flatMap actionsFrom).flatMap actionWarnings) session
  have round (earlier : List Raml.Resource) (resource : Raml.Resource) :
      Leads (holds earlier) (buildInterface resource) fun _ => holds (earlier ++ [resource]) := by
    refine (buildInterface_decides earlier resource).leads.and ?_
    rw [List.flatMap_append, List.flatMap_append, List.flatMap_singleton]
    exact buildInterface_warned earlier resource
  unfold buildInterfaces
  rw [loop_eq_forM]
  exact (Leads.forM round [] description.resources).bind fun _ => Leads.pure fun _ there => there.2

/-! ### What the warnings say about a model -/

/-- The type is that of all objects, or a list of it. -/
def IsObject (type : TypeRef) : Prop :=
  type = .named "java.lang.Object" ∨ type = .narrow "java.util.List" [.named "java.lang.Object"]

theorem boxed_primitiveOrBoxed (p : Raml.Parameter) (type : Primitive) :
    (primitiveOrBoxed p type).boxed = (TypeRef.primitive type).boxed := by
  unfold primitiveOrBoxed
  split
  · rfl
  · cases type <;> rfl

/-- The class of a known kind is neither that of all objects nor that of lists. -/
theorem boxed_scalarType? {p : Raml.Parameter} {type : TypeRef}
    (known : scalarType? p = some type) :
    type.boxed.qualifiedName ∉ ["java.lang.Object", "java.util.List"] := by
  unfold scalarType? at known
  split at known <;> cases known
  case h_1 | h_2 | h_6 | h_7 => decide
  all_goals
    rw [boxed_primitiveOrBoxed]
    decide

theorem not_isObject {type : TypeRef}
    (other : type.boxed.qualifiedName ∉ ["java.lang.Object", "java.util.List"]) (repeated : Bool) :
    ¬ IsObject (if repeated then .narrow "java.util.List" [type] else type) := by
  have noObject : type.boxed.qualifiedName ≠ "java.lang.Object" :=
    fun same => other (same ▸ List.mem_cons_self)
  have noList : type.boxed.qualifiedName ≠ "java.util.List" :=
    fun same => other (List.mem_cons_of_mem _ (List.mem_singleton.mpr same))
  cases repeated with
  | true =>
    rintro (object | list)
    · exact absurd (TypeRef.outside.inj object).1 (by decide)
    · have inner := List.head_eq_of_cons_eq (TypeRef.outside.inj list).2
      exact noObject (congrArg TypeRef.qualifiedName inner)
  | false =>
    rintro (object | list)
    · exact noObject (congrArg (fun type => type.boxed.qualifiedName) object)
    · exact noList (congrArg (fun type => type.boxed.qualifiedName) list)

/-- **A parameter is an object, or a list of them, exactly if its kind is reported.** -/
theorem isObject_argumentType_iff (owner : TypePath) (name : String) (p : Raml.Parameter) :
    IsObject (argumentType owner name p) ↔ ∃ kind, .unsupported kind ∈ typeWarnings p := by
  unfold argumentType
  split
  · rename_i first rest enum
    have none : typeWarnings p = [] := by
      unfold typeWarnings
      rw [enum]
      rfl
    rw [none]
    exact iff_of_false nofun nofun
  · rename_i noEnum
    unfold typeWarnings
    rw [if_pos (isEmpty_enumValues noEnum)]
    cases known : scalarType? p with
    | some type =>
      rw [strangeKind?_eq_none known]
      exact iff_of_false (not_isObject (boxed_scalarType? known) p.repeated) nofun
    | none =>
      obtain ⟨kind, isStrange⟩ :=
        Option.isSome_iff_exists.mp ((scalarType?_eq_none_iff p).mp known)
      rw [isStrange]
      refine iff_of_true ?_ ⟨kind, List.mem_cons_self⟩
      cases p.repeated with
      | true => exact .inr rfl
      | false => exact .inl rfl

/-- What is generated for a parameter of a method after the given number of others is what the
warnings about it say: it has the variable of its key unless a warning names another one, and the
type of its kind unless a warning tells that there is none. -/
structure Accounted (method : String) (indexed : (Location × String × Raml.Parameter) × Nat)
    (parameter : Parameter) : Prop where
  name : parameter.name ≠ variableName indexed.1.2.1 ↔
    .unnamed indexed.1.1 indexed.1.2.1 method parameter.name ∈
      warningsFor method indexed.1 indexed.2
  type : IsObject parameter.type ↔
    ∃ kind, .unsupported kind ∈ warningsFor method indexed.1 indexed.2

theorem accounted_declaration (owner : TypePath) (constrained : Bool) (method : String)
    (indexed : (Location × String × Raml.Parameter) × Nat) :
    Accounted method indexed
      ((Argument.ofEntry indexed.2 indexed.1).declaration owner constrained) := by
  obtain ⟨entry, index⟩ := indexed
  obtain ⟨argument, isArgument, rfl, position⟩ := Argument.exists_ofEntry index entry
  obtain ⟨name, location, key, p⟩ := argument
  have noName (warning : ParameterWarning) (member : warning ∈ typeWarnings p) :
      ∃ kind, warning = .unsupported kind := by
    unfold typeWarnings at member
    split at member
    · obtain ⟨kind, -, same⟩ := List.mem_map.mp member
      exact ⟨kind, same.symm⟩
    · cases member
  dsimp only at isArgument position ⊢
  rw [isArgument]
  constructor
  · show name ≠ variableName key ↔ .unnamed location key method name ∈
      nameWarnings method location key index ++ typeWarnings p
    rw [← position]
    have named := argumentName_isEmpty key (index + 1)
    unfold nameWarnings
    rw [argumentName_eq] at named ⊢
    generalize "param" ++ toString (index + 1) = fallback at named ⊢
    by_cases empty : (variableName key).isEmpty = true
    · rw [if_pos empty] at named
      simp only [if_pos empty]
      refine iff_of_true (fun same => ?_) List.mem_cons_self
      rw [same, empty] at named
      cases named
    · simp only [if_neg empty, List.nil_append]
      refine iff_of_false (fun other => other rfl) fun member => ?_
      obtain ⟨kind, same⟩ := noName _ member
      cases same
  · refine (isObject_argumentType_iff owner _ p).trans (exists_congr fun kind => ?_)
    refine ⟨List.mem_append_right _, fun member => ?_⟩
    refine (List.mem_append.mp member).resolve_left fun isName => ?_
    unfold nameWarnings at isName
    split at isName
    · cases List.mem_singleton.mp isName
    · cases isName

/-- The parameters of a method are accounted for one after the other. -/
theorem forall₂_accounted (base : String) (constrained : Bool) (owner : TypePath) (path : String)
    (entry : Raml.Resource × Raml.Action) :
    List.Forall₂ (Accounted (actionName entry.2)) (actionParameters entry.1 entry.2).zipIdx
      (methodDecl base constrained owner path entry).parameters := by
  have parameters : (methodDecl base constrained owner path entry).parameters =
      (actionParameters entry.1 entry.2).zipIdx.map fun indexed =>
        (Argument.ofEntry indexed.2 indexed.1).declaration owner constrained := by
    show (argumentsFrom entry).map _ = _
    unfold argumentsFrom argumentsOf
    rw [List.mapIdx_eq_zipIdx_map, List.map_map]
    rfl
  rw [parameters, List.forall₂_map_right_iff, List.forall₂_same]
  exact fun indexed _ => accounted_declaration owner constrained _ indexed

/-- The methods of the interfaces of a model, in order. -/
def interfaceMethods (model : Model) : List Method :=
  (model.units.filter (·.type.kind == .interface)).flatMap (·.type.methods)

variable {description : Raml.Description}

/-- The methods of a model are those of the actions of its description. -/
theorem interfaceMethods_eq (built : buildModel configuration description = .ok session) :
    interfaceMethods session.model = description.resources.flatMap fun resource =>
      (interfaceDecl configuration.basePackage configuration.constraints resource).methods := by
  have made := (buildModel_made built).declares.interfaces
  have units : (session.model.units.filter (·.type.kind == .interface)).map (·.type) =
      description.resources.map
        (interfaceDecl configuration.basePackage configuration.constraints) :=
    (congrArg _ (buildModel_reached built).outlined.filter_interface).trans made
  have methods := congrArg (List.flatMap (·.methods)) units
  rwa [List.flatMap_map, List.flatMap_map] at methods

theorem warned_of_buildModel (built : buildModel configuration description = .ok session) :
    Warned ((description.resources.flatMap actionsFrom).flatMap actionWarnings) session :=
  (buildInterfaces_warned description).buildModel ⟨reached_start configuration, rfl⟩ built

/-- **The warnings of a session are those about the parameters of its methods**, in the order of the
walk, and what is generated for each parameter is what the warnings about it say. -/
theorem buildModel_warnings (built : buildModel configuration description = .ok session) :
    session.warnings =
        ((description.resources.flatMap actionsFrom).flatMap actionWarnings).map (·.message) ∧
      List.Forall₂
        (fun entry method => method.name = actionName entry.2 ∧
          List.Forall₂ (Accounted method.name) (actionParameters entry.1 entry.2).zipIdx
            method.parameters)
        (description.resources.flatMap actionsFrom) (interfaceMethods session.model) := by
  refine ⟨warned_of_buildModel built, ?_⟩
  rw [interfaceMethods_eq built]
  refine List.rel_flatMap (List.forall₂_same.mpr fun _ _ => rfl) ?_
  rintro resource _ rfl
  show List.Forall₂ _ _ ((actionsFrom resource).map _)
  rw [List.forall₂_map_right_iff, List.forall₂_same]
  exact fun entry _ => ⟨rfl, forall₂_accounted _ _ _ _ entry⟩

/-- A description in which a parameter of a resource is strange in both of its methods, and the kind
of another does not matter beside its values. -/
def odd : Raml.Description where
  title := "t"
  version := none
  baseUri := none
  mediaType := none
  resources := [{
    relativePath := "/items", path := "/items", displayName := none, description := none
    pathParameters := []
    actions := [⟨.get, "/items", none, [("X-Page", { kind := some "integer" })],
      [("%", { kind := some "uuid", repeated := true }),
        ("order", { kind := some "uuid", enumValues := some ["up", "down"] })]⟩]
    resources := [{
      relativePath := "/\x7b?\x7d", path := "/items/\x7b?\x7d", displayName := none
      description := none, pathParameters := [("?", { kind := some "String", required := true })]
      actions := [⟨.patch, "/items/\x7b?\x7d", none, [], []⟩,
        ⟨.get, "/items/\x7b?\x7d", none, [], [("-", {})]⟩]
      resources := [] }] }]

theorem warnings_odd : ∃ session, buildModel { basePackage := "api" } odd = .ok session ∧
    session.warnings = [
      "Query parameter '%' of getItems has no usable identifier, using 'param2'",
      "Unsupported RAML type: uuid",
      "Path parameter '?' of patchItemsBy has no usable identifier, using 'param1'",
      "Unsupported RAML type: String",
      "Path parameter '?' of getItemsBy has no usable identifier, using 'param1'",
      "Unsupported RAML type: String",
      "Query parameter '-' of getItemsBy has no usable identifier, using 'param2'"] ∧
    List.Forall₂
      (fun entry method => method.name = actionName entry.2 ∧
        List.Forall₂ (Accounted method.name) (actionParameters entry.1 entry.2).zipIdx
          method.parameters)
      (odd.resources.flatMap actionsFrom) (interfaceMethods session.model) := by
  have there : (buildModel { basePackage := "api" } odd).toOption.isSome = true := by
    decide +kernel
  cases built : buildModel { basePackage := "api" } odd with
  | error failure =>
    rw [built] at there
    cases there
  | ok session =>
    obtain ⟨warnings, accounted⟩ := buildModel_warnings built
    exact ⟨session, rfl, warnings.trans (by decide +kernel), accounted⟩

end RamlInterfaces.Generation
