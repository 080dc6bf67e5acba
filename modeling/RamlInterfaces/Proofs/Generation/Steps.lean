/-
**Steps of building that end with a result.**

A step of building changes the session and ends with a result or a failure.  What holds after the
steps that end with a result is proved along the steps.

* `run_bind_eq_ok`: steps one after the other end with a result where each of them does;
* `Leads`: a step takes sessions with one property to sessions with another;
* `Leads.bind`, `Leads.get_bind`, `Leads.forIn`: steps one after the other, steps that look at the
  session, and loops;
* `Leads.change`, `Leads.attempt`, `Leads.attempt_map`: the steps that change the model;
* `Leads.buildModel`: what holds of the session in which a model was built;
* `actionsFrom`, `addMethods_eq_forM`: the walk through the actions of a resource;
* `Stepwise`: a property of steps that is kept where they are put together, and **the steps of
  building that have it**.
-/

import RamlInterfaces.Generation.Interface
import RamlInterfaces.Proofs.Except

namespace RamlInterfaces.Generation

open Java

variable {α β : Type}

section Runs

variable {σ ε : Type} {step : ExceptT ε (StateM σ) α}
  {next : α → ExceptT ε (StateM σ) β} {state middle final : σ}

theorem run_bind_ok (next : α → ExceptT ε (StateM σ) β) {value : α}
    (ran : step.run state = (.ok value, middle)) :
    (step >>= next).run state = (next value).run middle := by
  show (ExceptT.bindCont next (step.run state).1) (step.run state).2 = _
  rw [ran]
  rfl

theorem run_bind_error (next : α → ExceptT ε (StateM σ) β) {failure : ε}
    (ran : step.run state = (.error failure, middle)) :
    (step >>= next).run state = (.error failure, middle) := by
  show (ExceptT.bindCont next (step.run state).1) (step.run state).2 = _
  rw [ran]
  rfl

/-- Steps one after the other end with a result where each of them does. -/
theorem run_bind_eq_ok {result : β} : (step >>= next).run state = (.ok result, final) ↔
    ∃ value middle, step.run state = (.ok value, middle) ∧
      (next value).run middle = (.ok result, final) := by
  cases ran : step.run state with
  | mk outcome middle =>
    cases outcome with
    | error failure =>
      rw [run_bind_error next ran]
      constructor
      · intro same
        cases same
      · rintro ⟨_, _, same, _⟩
        cases same
    | ok value =>
      rw [run_bind_ok next ran]
      constructor
      · exact fun done => ⟨value, middle, rfl, done⟩
      · rintro ⟨_, _, same, done⟩
        cases same
        exact done

end Runs

/-- A step that ends with a result takes every session with the first property to one with the
second, which may depend on the result. -/
def Leads (before : Session → Prop) (step : Build α) (after : α → Session → Prop) : Prop :=
  ∀ session result final, before session → step.run session = (.ok result, final) →
    after result final

namespace Leads

variable {before : Session → Prop} {after : β → Session → Prop}

/-- From stronger properties to weaker ones. -/
protected theorem mono {stronger : Session → Prop} {step : Build β}
    {weaker : β → Session → Prop} (leads : Leads before step after)
    (implied : ∀ session, stronger session → before session)
    (implies : ∀ result session, after result session → weaker result session) :
    Leads stronger step weaker :=
  fun session result final holds ran =>
    implies result final (leads session result final (implied session holds) ran)

/-- From a session that is known. -/
protected theorem start {seen : Session} {step : Build β} (leads : Leads before step after)
    (holds : before seen) : Leads (fun session => session = seen) step after :=
  leads.mono (fun _ same => same ▸ holds) fun _ _ there => there

/-- What a step leads to besides something else. -/
protected theorem and {also : Session → Prop} {step : Build β} {later : β → Session → Prop}
    (leads : Leads before step after)
    (other : Leads (fun session => before session ∧ also session) step later) :
    Leads (fun session => before session ∧ also session) step
      fun result session => after result session ∧ later result session :=
  fun session result final holds ran =>
    ⟨leads session result final holds.1 ran, other session result final holds ran⟩

/-- What is known of the sessions and not of one only. -/
protected theorem assuming {fact : Prop} {step : Build β}
    (leads : fact → Leads before step after) :
    Leads (fun session => before session ∧ fact) step after :=
  fun session result final holds ran => leads holds.2 session result final holds.1 ran

protected theorem pure {value : β} (holds : ∀ session, before session → after value session) :
    Leads before (pure value) after := by
  intro session result final start ran
  cases ran
  exact holds session start

protected theorem throw (failure : Failure) : Leads before (throw failure) after := by
  intro session result final start ran
  cases ran

/-- **One step after another**; the second may use the value of the first. -/
protected theorem bind {step : Build α} {next : α → Build β} {middle : α → Session → Prop}
    (first : Leads before step middle) (second : ∀ value, Leads (middle value) (next value) after) :
    Leads before (step >>= next) after := by
  intro session result final start ran
  obtain ⟨value, between, ranFirst, ranSecond⟩ := run_bind_eq_ok.mp ran
  exact second value between result final (first session value between start ranFirst) ranSecond

/-- A step that looks at the session first. -/
protected theorem get_bind {next : Session → Build β}
    (each : ∀ seen, before seen → Leads (fun session => session = seen) (next seen) after) :
    Leads before (get >>= next) after := by
  intro session result final start ran
  exact each session start session result final rfl ran

protected theorem modify {update : Session → Session} {after : Unit → Session → Prop}
    (holds : ∀ session, before session → after () (update session)) :
    Leads before (modify update) after := by
  intro session result final start ran
  cases ran
  exact holds session start

protected theorem set {updated : Session} {after : Unit → Session → Prop}
    (holds : after () updated) : Leads before (set updated) after := by
  intro session result final start ran
  cases ran
  exact holds

/-- **A walk whose rounds each take one more item into account** takes all of them into account. -/
protected theorem forM {holds : List α → Session → Prop} {round : α → Build Unit}
    (each : ∀ before item, Leads (holds before) (round item) fun _ => holds (before ++ [item]))
    (before items : List α) :
    Leads (holds before) (forM items round) fun _ => holds (before ++ items) := by
  induction items generalizing before with
  | nil =>
    rw [List.append_nil]
    exact Leads.pure fun _ there => there
  | cons item rest ih =>
    have further := ih (before ++ [item])
    rw [List.append_assoc] at further
    exact (each before item).bind fun _ => further

/-- **A loop whose rounds keep a property** keeps it. -/
protected theorem forIn {keeps : Session → Prop} {items : List α} {body : α → Build Unit}
    (each : ∀ item ∈ items, Leads keeps (body item) fun _ => keeps) :
    Leads keeps (forIn items () fun item _ => do
      body item
      pure (ForInStep.yield ())) fun _ => keeps := by
  induction items with
  | nil => exact Leads.pure fun _ holds => holds
  | cons item rest ih =>
    rw [List.forIn_cons]
    have round : Leads keeps (body item >>= fun _ => pure (ForInStep.yield ()))
        fun next session => next = .yield () ∧ keeps session :=
      (each item List.mem_cons_self).bind fun _ => Leads.pure fun _ holds => ⟨rfl, holds⟩
    refine round.bind fun next => ?_
    cases next with
    | done value =>
      intro session result final start
      cases start.1
    | yield value =>
      exact (ih fun other member => each other (List.mem_cons_of_mem _ member)).mono
        (fun _ holds => holds.2) fun _ _ holds => holds

/-- A change of the model. -/
protected theorem change {update : Model → Model} {after : Unit → Session → Prop}
    (holds : ∀ session, before session →
      after () { session with model := update session.model }) :
    Leads before (Build.change update) after :=
  Leads.modify holds

/-- A change of the model that may be refused. -/
protected theorem attempt {step : Model → Except Fault (β × Model)}
    (holds : ∀ session result model, before session → step session.model = .ok (result, model) →
      after result { session with model }) : Leads before (Build.attempt step) after := by
  refine Leads.get_bind fun seen start => ?_
  cases stepped : step seen.model with
  | error fault => exact Leads.throw _
  | ok outcome =>
    refine Leads.bind (Leads.set ?_) fun _ => Leads.pure fun _ there => there
    exact holds seen outcome.1 outcome.2 start stepped

/-- A change of the model that may be refused, with a result that is known before. -/
protected theorem attempt_map {step : Model → Except Fault Model} {value : β}
    (holds : ∀ session next, before session → step session.model = .ok next →
      after value { session with model := next }) :
    Leads before (Build.attempt fun model => (step model).map fun next => (value, next)) after := by
  refine Leads.attempt fun session result next start mapped => ?_
  obtain ⟨_, isNext, pair⟩ := map_eq_ok_iff.mp mapped
  cases pair
  exact holds session next start isNext

/-- **The steps of a description** lead from the start to the session in which its model was
built. -/
protected theorem buildModel {configuration : Settings.Configuration}
    {description : Raml.Description} {session : Session} {after : Session → Prop}
    (leads : Leads before (buildInterfaces description) fun _ => after)
    (start : before { configuration })
    (built : buildModel configuration description = .ok session) : after session := by
  unfold Generation.buildModel Session.start at built
  split at built
  · cases built
  · simp only [bind, Except.bind] at built
    split at built
    · rename_i final ran
      cases built
      exact leads _ _ _ start ran
    · cases built

end Leads

/-! ### The walk of building -/

/-- The actions of a resource and of all resources below it, each with its resource. -/
def actionsFrom : Raml.Resource → List (Raml.Resource × Raml.Action)
  | ⟨relativePath, path, displayName, description, pathParameters, actions, resources⟩ =>
    actions.map (Prod.mk
      ⟨relativePath, path, displayName, description, pathParameters, actions, resources⟩) ++
      actionsFromAll resources
where
  /-- The actions of resources one after the other. -/
  actionsFromAll : List Raml.Resource → List (Raml.Resource × Raml.Action)
    | [] => []
    | resource :: rest => actionsFrom resource ++ actionsFromAll rest

/-- Adds the method of an action of a resource. -/
def methodRound (owner : TypePath) (interfacePath : String)
    (entry : Raml.Resource × Raml.Action) : Build Unit :=
  addMethod owner interfacePath entry.1 entry.2

/-- Adds a parameter at its location. -/
def parameterRound (owner : TypePath) (method : MethodPath) (methodName : String)
    (entry : Location × String × Raml.Parameter) : Build Unit :=
  addParameter owner method methodName entry.1 entry.2.1 entry.2.2

/-- A loop is a walk. -/
theorem loop_eq_forM (round : α → Build Unit) (items : List α) :
    (forIn items () fun item _ => do
      round item
      pure (ForInStep.yield ())) = forM items round := by
  induction items with
  | nil => rfl
  | cons item rest ih =>
    rw [List.forIn_cons, List.forM_cons, bind_assoc, ← ih]
    congr 1

mutual

/-- The methods of a resource and of all below it are added in one walk. -/
theorem addMethods_eq_forM (owner : TypePath) (interfacePath : String) :
    (resource : Raml.Resource) → addMethods owner interfacePath resource =
      forM (actionsFrom resource) (methodRound owner interfacePath)
  | ⟨relativePath, path, displayName, description, pathParameters, actions, resources⟩ => by
    unfold addMethods actionsFrom
    rw [List.forM_append, List.forM_map, ← addAll_eq_forM owner interfacePath resources,
      ← loop_eq_forM]
    rfl

theorem addAll_eq_forM (owner : TypePath) (interfacePath : String) :
    (resources : List Raml.Resource) → addMethods.addAll owner interfacePath resources =
      forM (actionsFrom.actionsFromAll resources) (methodRound owner interfacePath)
  | [] => rfl
  | resource :: rest => by
    unfold addMethods.addAll actionsFrom.actionsFromAll
    rw [List.forM_append, addMethods_eq_forM owner interfacePath resource,
      addAll_eq_forM owner interfacePath rest]

end

/-! ### What is the same of all steps -/

/-- A property of steps that is kept where steps are put together, and that those have which
declare, annotate and describe interfaces and their methods. -/
structure Stepwise (holds : {α : Type} → Build α → Prop) : Prop where
  protected pure {α : Type} (value : α) : holds (pure value : Build α)
  protected bind {α β : Type} {step : Build α} {next : α → Build β} (first : holds step)
    (second : ∀ value, holds (next value)) : holds (step >>= next)
  protected get_bind {α : Type} {next : Session → Build α} (each : ∀ seen, holds (next seen)) :
    holds (get >>= next)
  refuse {α : Type} {fault : Fault}
    (other : ∀ parameter method, fault ≠ .parameterDefined parameter method) :
    holds (throw (.model fault) : Build α)
  protected define (package name : String) (kind : Kind) : holds (Build.define package name kind)
  protected createMethod (owner : TypePath) (name : String) (returnType : TypeRef) :
    holds (createMethod owner name returnType)
  protected annotate (site : Site) (type : TypeRef) (elements : List (String × ElementValue)) :
    holds (Build.annotate site type elements)
  describeType (path : TypePath) (change : DocComment → DocComment) :
    holds (Build.change fun model => model.modifyTypeDoc path change)
  describeMethod (path : MethodPath) (change : DocComment → DocComment) :
    holds (Build.change fun model => model.modifyMethodDoc path change)
  debug (message : String) : holds (Build.report .debug message)
  noteVerb (verb : Verb) (path : TypePath) : holds (modify fun session =>
    { session with verbTypes := session.verbTypes ++ [(verb, path)] })
  enter (owner : TypePath) : holds (modify fun session => { session with current := some owner })

namespace Stepwise

variable {holds : {α : Type} → Build α → Prop} (stepwise : Stepwise holds)

include stepwise

/-- A loop whose rounds have the property has it. -/
protected theorem forIn {items : List α} {body : α → Build Unit}
    (each : ∀ item, holds (body item)) :
    holds (forIn items () fun item _ => do
      body item
      pure (ForInStep.yield ())) := by
  induction items with
  | nil => exact stepwise.pure _
  | cons item rest ih =>
    rw [List.forIn_cons]
    refine stepwise.bind (stepwise.bind (each item) fun _ => stepwise.pure _) fun next => ?_
    cases next with
    | done value => exact stepwise.pure _
    | yield value => exact ih

/-! #### Interfaces and methods -/

protected theorem createInterface (name : String) : holds (createInterface name) :=
  stepwise.get_bind fun _ => stepwise.define _ _ _

protected theorem verbType (verb : Verb) : holds (verbType verb) := by
  have created : holds (createVerbType verb) := by
    refine stepwise.get_bind fun _ => stepwise.bind (stepwise.define _ _ _) fun path => ?_
    refine stepwise.bind (stepwise.describeType _ _) fun _ => ?_
    refine stepwise.bind (stepwise.annotate _ _ _) fun _ => ?_
    refine stepwise.bind (stepwise.annotate _ _ _) fun _ => ?_
    refine stepwise.bind (stepwise.annotate _ _ _) fun _ => ?_
    exact stepwise.bind (stepwise.debug _) fun _ => stepwise.pure path
  unfold Generation.verbType
  split
  · exact stepwise.pure _
  · refine stepwise.get_bind fun _ => ?_
    split
    · exact stepwise.pure _
    · refine stepwise.bind created fun path => ?_
      exact stepwise.bind (stepwise.noteVerb verb path) fun _ => stepwise.pure _

protected theorem annotateVerb (verb : Verb) (method : MethodPath) :
    holds (annotateVerb verb method) :=
  stepwise.bind (stepwise.verbType verb) fun _ => stepwise.annotate _ _ _

protected theorem annotateWord (word : String) (method : MethodPath) :
    holds (annotateWord word method) := by
  unfold Generation.annotateWord
  split
  · exact stepwise.annotateVerb _ method
  · exact stepwise.refuse nofun

protected theorem describe (description : Option String) {add : String → Model → Model}
    (each : ∀ text, holds (Build.change (add text))) : holds (describe description add) := by
  unfold Generation.describe
  split
  · exact each _
  · exact stepwise.pure ()

protected theorem openMethod (owner : TypePath) (interfacePath : String) (action : Raml.Action) :
    holds (openMethod owner interfacePath action) := by
  refine stepwise.bind (stepwise.createMethod _ _ _) fun method => ?_
  refine stepwise.bind (stepwise.annotateVerb _ method) fun _ => ?_
  refine stepwise.bind (stepwise.annotate _ _ _) fun _ => ?_
  have described := stepwise.describe action.description fun text =>
    stepwise.describeMethod method (·.add text)
  exact stepwise.bind described fun _ => stepwise.pure method

protected theorem openInterface (resource : Raml.Resource) : holds (openInterface resource) := by
  refine stepwise.bind (stepwise.createInterface _) fun owner => ?_
  refine stepwise.bind (stepwise.enter owner) fun _ => ?_
  refine stepwise.bind (stepwise.annotate _ _ _) fun _ => ?_
  have described := stepwise.describe resource.description fun text =>
    stepwise.describeType owner (·.add text)
  refine stepwise.bind described fun _ => ?_
  exact stepwise.bind (stepwise.debug _) fun _ => stepwise.pure owner

/-! #### Parameters -/

protected theorem inferType (warn : ∀ message, holds (Build.report .warning message))
    (enum : ∀ owner name literals, holds (createEnum owner name literals)) (p : Raml.Parameter)
    (name : String) (owner : Option TypePath) : holds (inferType p name owner) := by
  have scalar : holds (scalarType p) := by
    unfold scalarType
    split
    · exact stepwise.pure _
    · exact stepwise.bind (warn _) fun _ => stepwise.pure _
  unfold Generation.inferType
  split
  · refine stepwise.get_bind fun _ => ?_
    split
    · exact stepwise.bind (enum _ _ _) fun _ => stepwise.pure _
    · exact stepwise.refuse nofun
  · exact stepwise.bind scalar fun _ => stepwise.pure _

protected theorem parameterCount (method : MethodPath) : holds (parameterCount method) :=
  stepwise.get_bind fun _ => stepwise.pure _

protected theorem reportFallback (warn : ∀ message, holds (Build.report .warning message))
    (methodName : String) (location : Location) (key name : String) :
    holds (reportFallback methodName location key name) := by
  unfold Generation.reportFallback
  split
  · exact warn _
  · exact stepwise.pure ()

protected theorem annotateDefault (p : Raml.Parameter) (site : Site) :
    holds (annotateDefault p site) := by
  unfold Generation.annotateDefault
  split
  · exact stepwise.annotate _ _ _
  · exact stepwise.pure ()

protected theorem declareParameter (warn : ∀ message, holds (Build.report .warning message))
    (enum : ∀ owner name literals, holds (createEnum owner name literals))
    (add : ∀ method type name,
      holds (Build.attempt fun model => model.addParameter method type name))
    (owner : TypePath) (method : MethodPath) (methodName : String) (location : Location)
    (key : String) (p : Raml.Parameter) :
    holds (declareParameter owner method methodName location key p) := by
  refine stepwise.bind (stepwise.parameterCount method) fun _ => ?_
  refine stepwise.bind (stepwise.reportFallback warn _ _ _ _) fun _ => ?_
  refine stepwise.bind (stepwise.inferType warn enum p _ _) fun type => ?_
  refine stepwise.bind (add _ type _) fun parameter => ?_
  refine stepwise.bind (stepwise.annotate _ _ _) fun _ => ?_
  exact stepwise.bind (stepwise.annotateDefault p _) fun _ => stepwise.pure _

protected theorem annotateConstraints
    (stop : ∀ defect, holds (throw (.defect defect) : Build Unit)) (p : Raml.Parameter)
    (site : Site) : holds (annotateConstraints p site) := by
  have each (c : Constraint) : holds (annotateConstraint site c) := by
    unfold annotateConstraint
    split
    · exact stepwise.annotate _ _ _
    · exact stepwise.bind (stepwise.annotate _ _ _) fun _ => stop _
  exact stepwise.bind (stepwise.forIn each) fun _ => stepwise.pure ()

protected theorem constrain (stop : ∀ defect, holds (throw (.defect defect) : Build Unit))
    (p : Raml.Parameter) (site : Site) : holds (constrain p site) := by
  refine stepwise.get_bind fun _ => ?_
  split
  · exact stepwise.annotateConstraints stop p site
  · exact stepwise.pure ()

protected theorem addParameter (warn : ∀ message, holds (Build.report .warning message))
    (enum : ∀ owner name literals, holds (createEnum owner name literals))
    (add : ∀ method type name,
      holds (Build.attempt fun model => model.addParameter method type name))
    (stop : ∀ defect, holds (throw (.defect defect) : Build Unit)) (owner : TypePath)
    (method : MethodPath) (methodName : String) (location : Location) (key : String)
    (p : Raml.Parameter) : holds (addParameter owner method methodName location key p) := by
  refine stepwise.bind (stepwise.declareParameter warn enum add _ method _ _ _ p) fun _ => ?_
  exact stepwise.bind (stepwise.constrain stop p _) fun _ => stepwise.describeMethod method _

/-! #### Descriptions -/

section Walk

variable (parameter : ∀ owner method methodName location key p,
  holds (addParameter owner method methodName location key p))

include parameter

protected theorem addMethod (owner : TypePath) (interfacePath : String) (resource : Raml.Resource)
    (action : Raml.Action) : holds (addMethod owner interfacePath resource action) := by
  refine stepwise.bind (stepwise.openMethod owner interfacePath action) fun method => ?_
  have round (entry : Location × String × Raml.Parameter) :
      holds (parameterRound owner method (actionName action) entry) :=
    parameter owner method _ entry.1 entry.2.1 entry.2.2
  exact stepwise.bind (stepwise.forIn round) fun _ => stepwise.pure ()

protected theorem buildInterface (resource : Raml.Resource) : holds (buildInterface resource) := by
  refine stepwise.bind (stepwise.openInterface resource) fun owner => ?_
  have round (entry : Raml.Resource × Raml.Action) :
      holds (methodRound owner (interfacePath resource.relativePath) entry) :=
    stepwise.addMethod parameter owner _ entry.1 entry.2
  rw [addMethods_eq_forM, ← loop_eq_forM]
  exact stepwise.forIn round

/-- **The building of a description has the property if the adding of a parameter has it.** -/
protected theorem buildInterfaces (description : Raml.Description) :
    holds (buildInterfaces description) :=
  stepwise.bind (stepwise.forIn (stepwise.buildInterface parameter)) fun _ => stepwise.pure ()

end Walk

end Stepwise

end RamlInterfaces.Generation
