/-
**How building fails.**

A model refuses what would make it inconsistent, and the steps that declare the elements of a model
can only fail so.

* `Fails`, `FailsOnly`: a step that fails, and the failures that a step can end with;
* `Arrives`, `forIn_fails_iff`: **a loop fails as the first round that does**;
* `declareParameter_refuses`, `openMethod_refuses`, `openInterface_refuses`: **elements are declared
  unless the model refuses them**;
* `stepwise_otherwise`: **only parameters are refused for the name of one**;
* `IsOtherRefusal`, `openMethod_otherwise`, `openInterface_otherwise`: what is refused otherwise
  than for the name of a parameter.
-/

import RamlInterfaces.Proofs.Generation.Steps
import RamlInterfaces.Proofs.Java.Model

namespace RamlInterfaces.Generation

open Java

variable {α β : Type} {session : Session} {failure : Failure}

/-! ### Steps that fail -/

/-- The step ends with a failure. -/
def Fails (step : Build α) (session : Session) (failure : Failure) : Prop :=
  (step.run session).1 = .error failure

/-- Of two steps the first fails, or the second does after the first. -/
theorem fails_bind_iff {step : Build α} {next : α → Build β} :
    Fails (step >>= next) session failure ↔ Fails step session failure ∨
      ∃ value middle, step.run session = (.ok value, middle) ∧
        Fails (next value) middle failure := by
  unfold Fails
  cases ran : step.run session with
  | mk outcome middle =>
    cases outcome with
    | error other =>
      rw [run_bind_error next ran]
      constructor
      · intro same
        cases same
        exact .inl rfl
      · rintro (same | ⟨_, _, same, _⟩)
        · cases same
          rfl
        · cases same
    | ok value =>
      rw [run_bind_ok next ran]
      constructor
      · exact fun there => .inr ⟨value, middle, rfl, there⟩
      · rintro (same | ⟨_, _, same, there⟩)
        · cases same
        · cases same
          exact there

/-- The step can fail only so. -/
def FailsOnly (allowed : Failure → Prop) (step : Build α) : Prop :=
  ∀ session failure, Fails step session failure → allowed failure

namespace FailsOnly

variable {allowed : Failure → Prop}

protected theorem mono {wider : Failure → Prop} {step : Build α} (only : FailsOnly allowed step)
    (implies : ∀ failure, allowed failure → wider failure) : FailsOnly wider step :=
  fun session failure failed => implies failure (only session failure failed)

protected theorem pure (value : α) : FailsOnly allowed (pure value : Build α) := by
  intro session failure failed
  cases failed

protected theorem modify (update : Session → Session) :
    FailsOnly allowed (modify update : Build Unit) := by
  intro session failure failed
  cases failed

protected theorem change (update : Model → Model) : FailsOnly allowed (Build.change update) :=
  FailsOnly.modify _

protected theorem throw {failure : Failure} (holds : allowed failure) :
    FailsOnly allowed (throw failure : Build α) := by
  intro session other failed
  cases failed
  exact holds

protected theorem bind {step : Build α} {next : α → Build β} (first : FailsOnly allowed step)
    (second : ∀ value, FailsOnly allowed (next value)) : FailsOnly allowed (step >>= next) := by
  intro session failure failed
  rcases fails_bind_iff.mp failed with here | ⟨value, middle, _, there⟩
  · exact first session failure here
  · exact second value middle failure there

protected theorem get_bind {next : Session → Build β}
    (each : ∀ seen, FailsOnly allowed (next seen)) : FailsOnly allowed (get >>= next) :=
  fun session failure failed => each session session failure failed

end FailsOnly

/-- The model refuses what it is asked for. -/
def IsRefusal (failure : Failure) : Prop := ∃ fault, failure = .model fault

/-- The model refuses what it is asked for, and not for the name of a parameter. -/
def IsOtherRefusal (failure : Failure) : Prop :=
  ∃ fault, failure = .model fault ∧
    ∀ parameter method, fault ≠ .parameterDefined parameter method

theorem IsOtherRefusal.isRefusal (failure : Failure) (refused : IsOtherRefusal failure) :
    IsRefusal failure := by
  obtain ⟨fault, same, _⟩ := refused
  exact ⟨fault, same⟩

theorem attempt_failsOnly {allowed : Failure → Prop} {step : Model → Except Fault (α × Model)}
    (each : ∀ model fault, step model = .error fault → allowed (.model fault)) :
    FailsOnly allowed (Build.attempt step) := by
  refine FailsOnly.get_bind fun seen => ?_
  cases stepped : step seen.model with
  | error fault => exact FailsOnly.throw (each _ _ stepped)
  | ok outcome => exact FailsOnly.bind (FailsOnly.modify _) fun _ => FailsOnly.pure _

theorem attempt_refuses (step : Model → Except Fault (α × Model)) :
    FailsOnly IsRefusal (Build.attempt step) :=
  attempt_failsOnly fun _ fault _ => ⟨fault, rfl⟩

/-- A change of the model that is refused, if at all, for another reason than the name of a
parameter. -/
theorem attempt_otherwise {step : Model → Except Fault Model} {result : Model → α × Model}
    (each : ∀ model fault, step model = .error fault →
      ∀ parameter method, fault ≠ .parameterDefined parameter method) :
    FailsOnly IsOtherRefusal (Build.attempt fun model => (step model).map result) := by
  refine attempt_failsOnly fun model fault failed => ⟨fault, rfl, ?_⟩
  cases stepped : step model with
  | error other =>
    rw [stepped] at failed
    cases failed
    exact each model _ stepped
  | ok next =>
    rw [stepped] at failed
    cases failed

/-- After a step that only the model refuses, another failure is that of the next step. -/
theorem FailsOnly.fails_bind_iff {step : Build α} {next : α → Build β} {cause : Defect}
    (only : FailsOnly IsRefusal step) : Fails (step >>= next) session (.defect cause) ↔
      ∃ value middle, step.run session = (.ok value, middle) ∧
        Fails (next value) middle (.defect cause) := by
  rw [Generation.fails_bind_iff]
  constructor
  · rintro (here | there)
    · obtain ⟨_, same⟩ := only session _ here
      cases same
    · exact there
  · exact .inr

/-- A step that cannot fail does not matter at the end. -/
theorem fails_bind_last_iff {step : Build α} {last : α → Build β}
    (never : ∀ value, FailsOnly (fun _ => False) (last value)) :
    Fails (step >>= last) session failure ↔ Fails step session failure := by
  rw [fails_bind_iff]
  constructor
  · rintro (here | ⟨value, middle, _, there⟩)
    · exact here
    · exact (never value middle failure there).elim
  · exact .inl

/-! ### Loops -/

/-- A loop over items comes to one of them, in the session that the rounds before it leave. -/
inductive Arrives (round : α → Build Unit) : List α → Session → α → Session → Prop where
  | here {item : α} {rest : List α} {session : Session} :
    Arrives round (item :: rest) session item session
  | later {first item : α} {rest : List α} {session middle there : Session}
    (passed : (round first).run session = (.ok (), middle))
    (arrives : Arrives round rest middle item there) :
    Arrives round (first :: rest) session item there

variable {round : α → Build Unit} {items : List α} {item : α} {there : Session}

/-- What the rounds of a loop keep holds where it comes to an item. -/
theorem Arrives.keeps {keeps : Session → Prop}
    (each : ∀ item, Leads keeps (round item) fun _ => keeps) (start : keeps session)
    (arrives : Arrives round items session item there) : keeps there := by
  induction arrives with
  | here => exact start
  | later passed _ ih => exact ih (each _ _ _ _ start passed)

/-- A first round that ends with a result is followed by the others. -/
theorem forIn_fails_cons_iff {first : α} {rest : List α} :
    Fails (forIn (first :: rest) () fun item _ => do
      round item
      pure (ForInStep.yield ())) session failure ↔ Fails (round first) session failure ∨
        ∃ middle, (round first).run session = (.ok (), middle) ∧
          Fails (forIn rest () fun item _ => do
            round item
            pure (ForInStep.yield ())) middle failure := by
  rw [List.forIn_cons, bind_assoc, fails_bind_iff]
  constructor
  · rintro (here | ⟨⟨⟩, middle, passed, failed⟩)
    · exact .inl here
    · exact .inr ⟨middle, passed, failed⟩
  · rintro (here | ⟨middle, passed, failed⟩)
    · exact .inl here
    · exact .inr ⟨(), middle, passed, failed⟩

/-- **A loop fails as the first round that does.** -/
theorem forIn_fails_iff : Fails (forIn items () fun item _ => do
      round item
      pure (ForInStep.yield ())) session failure ↔
    ∃ item there, Arrives round items session item there ∧
      Fails (round item) there failure := by
  induction items generalizing session with
  | nil =>
    constructor
    · intro failed
      cases failed
    · rintro ⟨_, _, arrives, _⟩
      cases arrives
  | cons first rest ih =>
    rw [forIn_fails_cons_iff]
    constructor
    · rintro (here | ⟨middle, passed, failed⟩)
      · exact ⟨first, session, .here, here⟩
      · obtain ⟨item, there, arrives, failed⟩ := ih.mp failed
        exact ⟨item, there, .later passed arrives, failed⟩
    · rintro ⟨item, there, arrives, failed⟩
      cases arrives with
      | here => exact .inl failed
      | later passed arrives => exact .inr ⟨_, passed, ih.mpr ⟨item, there, arrives, failed⟩⟩

theorem Arrives.mem (arrives : Arrives round items session item there) : item ∈ items := by
  induction arrives with
  | here => exact List.mem_cons_self
  | later _ _ ih => exact List.mem_cons_of_mem _ ih

/-- A loop with a round that fails in every session comes to one that fails. -/
theorem exists_arrives_of_fails (member : item ∈ items)
    (fails : ∀ session, ∃ failure, Fails (round item) session failure) :
    ∃ other there failure, Arrives round items session other there ∧
      Fails (round other) there failure := by
  induction items generalizing session with
  | nil => cases member
  | cons first rest ih =>
    cases ran : (round first).run session with
    | mk outcome middle =>
      cases outcome with
      | error failure =>
        have failed : Fails (round first) session failure := by
          unfold Fails
          rw [ran]
        exact ⟨first, session, failure, .here, failed⟩
      | ok value =>
        rcases List.mem_cons.mp member with rfl | further
        · obtain ⟨failure, failed⟩ := fails session
          unfold Fails at failed
          rw [ran] at failed
          cases failed
        · obtain ⟨other, there, failure, arrives, failed⟩ := ih further
          exact ⟨other, there, failure, .later ran arrives, failed⟩

/-! ### Steps that only the model refuses -/

variable {allowed : Failure → Prop}

theorem annotate_failsOnly (site : Site) (type : TypeRef)
    (elements : List (String × ElementValue)) :
    FailsOnly allowed (Build.annotate site type elements) :=
  FailsOnly.modify _

theorem define_otherwise (package name : String) (kind : Kind) :
    FailsOnly IsOtherRefusal (Build.define package name kind) := by
  refine attempt_otherwise fun model fault failed => ?_
  obtain ⟨-, rfl⟩ := Model.define_eq_error_iff.mp failed
  nofun

theorem nest_otherwise (owner : TypePath) (name : String) (kind : Kind) :
    FailsOnly IsOtherRefusal (Build.nest owner name kind) := by
  refine attempt_otherwise fun model fault failed => ?_
  obtain ⟨-, rfl⟩ := Model.nest_eq_error_iff.mp failed
  nofun

theorem addConstant_otherwise (path : TypePath) (name literal : String) :
    FailsOnly IsOtherRefusal (Build.attempt fun model =>
      (model.addConstant path name literal).map fun model => ((), model)) := by
  refine attempt_otherwise fun model fault failed => ?_
  rcases Model.addConstant_eq_error_iff.mp failed with ⟨-, rfl⟩ | ⟨_, -, -, -, rfl⟩
  · nofun
  · nofun

theorem createMethod_otherwise (owner : TypePath) (name : String) (returnType : TypeRef) :
    FailsOnly IsOtherRefusal (createMethod owner name returnType) := by
  refine FailsOnly.get_bind fun seen => ?_
  split
  · exact FailsOnly.bind (FailsOnly.modify _) fun _ => FailsOnly.pure _
  · exact FailsOnly.throw ⟨_, rfl, nofun⟩

/-- **The elements of a model are declared unless the model refuses them**, and only parameters are
refused for the name of one. -/
theorem stepwise_failsOnly (wider : ∀ failure, IsOtherRefusal failure → allowed failure) :
    Stepwise (FailsOnly allowed) where
  pure := FailsOnly.pure
  bind := FailsOnly.bind
  get_bind := FailsOnly.get_bind
  refuse other := FailsOnly.throw (wider _ ⟨_, rfl, other⟩)
  define _ _ _ := (define_otherwise _ _ _).mono wider
  createMethod _ _ _ := (createMethod_otherwise _ _ _).mono wider
  annotate := annotate_failsOnly
  describeType _ _ := FailsOnly.change _
  describeMethod _ _ := FailsOnly.change _
  debug _ := FailsOnly.modify _
  noteVerb _ _ := FailsOnly.modify _
  enter _ := FailsOnly.modify _

theorem stepwise_otherwise : Stepwise (FailsOnly IsOtherRefusal) :=
  stepwise_failsOnly fun _ refused => refused

theorem createEnum_otherwise (owner : TypePath) (name : String) (literals : List String) :
    FailsOnly IsOtherRefusal (createEnum owner name literals) := by
  refine FailsOnly.get_bind fun seen => ?_
  simp only
  split
  · split
    · exact FailsOnly.pure _
    · exact FailsOnly.throw ⟨_, rfl, nofun⟩
  · refine (nest_otherwise _ _ _).bind fun path => ?_
    refine FailsOnly.bind (stepwise_otherwise.forIn fun literal =>
      addConstant_otherwise path (constantName literal) literal) fun _ => ?_
    exact (FailsOnly.modify _).bind fun _ => FailsOnly.pure _

theorem inferType_otherwise (p : Raml.Parameter) (name : String) (owner : Option TypePath) :
    FailsOnly IsOtherRefusal (inferType p name owner) :=
  stepwise_otherwise.inferType (fun _ => FailsOnly.modify _)
    createEnum_otherwise p name owner

/-- **A parameter is declared unless the model refuses it.** -/
theorem declareParameter_refuses (owner : TypePath) (method : MethodPath) (methodName : String)
    (location : Location) (key : String) (p : Raml.Parameter) :
    FailsOnly IsRefusal (declareParameter owner method methodName location key p) :=
  (stepwise_failsOnly IsOtherRefusal.isRefusal).declareParameter (fun _ => FailsOnly.modify _)
    (fun _ _ _ => (createEnum_otherwise _ _ _).mono IsOtherRefusal.isRefusal)
    (fun _ _ _ => attempt_refuses _) owner method methodName location key p

/-- A method is declared unless the model refuses it, and not for the name of a parameter. -/
theorem openMethod_otherwise (owner : TypePath) (interfacePath : String) (action : Raml.Action) :
    FailsOnly IsOtherRefusal (openMethod owner interfacePath action) :=
  stepwise_otherwise.openMethod owner interfacePath action

/-- **A method is declared unless the model refuses it.** -/
theorem openMethod_refuses (owner : TypePath) (interfacePath : String) (action : Raml.Action) :
    FailsOnly IsRefusal (openMethod owner interfacePath action) :=
  (openMethod_otherwise owner interfacePath action).mono IsOtherRefusal.isRefusal

/-- So is an interface. -/
theorem openInterface_otherwise (resource : Raml.Resource) :
    FailsOnly IsOtherRefusal (openInterface resource) :=
  stepwise_otherwise.openInterface resource

/-- **An interface is declared unless the model refuses it.** -/
theorem openInterface_refuses (resource : Raml.Resource) :
    FailsOnly IsRefusal (openInterface resource) :=
  (openInterface_otherwise resource).mono IsOtherRefusal.isRefusal

end RamlInterfaces.Generation
