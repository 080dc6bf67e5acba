/-
**Models under any operations.**

A model is changed by a few operations, each of which may be refused.  What each of them keeps holds
after any number of them in any order.

* `Operation`, `run_perform`: the operations, and **what each one does to a session**;
* `Operation.orderly`: an operation keeps a model orderly;
* `performInOrder`, `orderly_performInOrder`: **so does every sequence of operations**;
* `WellFormed`, `wellFormed_of_orderly`: tables that are what they are looked up in for;
* `performInOrder_wellFormed`: **every model that is reached is well formed, and an operation that
  is refused leaves it as it was**.
-/

import Mathlib.Data.List.Induction
import RamlInterfaces.Proofs.Generation.Orderly

namespace RamlInterfaces.Generation

open Java
open Settings (Configuration)

/-! ### Operations -/

/-- An operation on the model of a session, on a type, a method or an annotation that was given back
before, or on any other place. -/
inductive Operation where
  | define (package name : String) (kind : Kind)
  | nest (owner : TypePath) (name : String) (kind : Kind)
  | addMethod (owner : TypePath) (name : String) (returnType : TypeRef)
  | addParameter (method : MethodPath) (type : TypeRef) (name : String)
  | addConstant (owner : TypePath) (name literal : String)
  | annotate (site : Site) (type : TypeRef)
  | setElement (site : Site) (index : Nat) (name : String) (value : ElementValue)
  | describeType (path : TypePath) (change : DocComment → DocComment)
  | describeMethod (method : MethodPath) (change : DocComment → DocComment)

namespace Operation

/-- Carries out an operation. -/
def perform : Operation → Build Unit
  | .define package name kind => discard <| Build.define package name kind
  | .nest owner name kind => discard <| Build.nest owner name kind
  | .addMethod owner name returnType =>
    discard <| Build.attempt fun model => .ok (model.addMethod owner name returnType)
  | .addParameter method type name =>
    discard <| Build.attempt fun model => model.addParameter method type name
  | .addConstant owner name literal =>
    discard <| Build.attempt fun model =>
      (model.addConstant owner name literal).map fun model => ((), model)
  | .annotate site type => Build.annotate site type []
  | .setElement site index name value =>
    Build.change fun model => model.setElement site index name value
  | .describeType path change => Build.change fun model => model.modifyTypeDoc path change
  | .describeMethod method change => Build.change fun model => model.modifyMethodDoc method change

/-- The model after an operation that is not refused. -/
def result (model : Model) : Operation → Except Fault Model
  | .define package name kind => model.define package name kind
  | .nest owner name kind => model.nest owner name kind
  | .addMethod owner name returnType => .ok (model.addMethod owner name returnType).2
  | .addParameter method type name => (model.addParameter method type name).map (·.2)
  | .addConstant owner name literal => model.addConstant owner name literal
  | .annotate site type => .ok (model.annotate site { type, elements := [] })
  | .setElement site index name value => .ok (model.setElement site index name value)
  | .describeType path change => .ok (model.modifyTypeDoc path change)
  | .describeMethod method change => .ok (model.modifyMethodDoc method change)

/-- The name of the type that an operation declares. -/
def typeName? : Operation → Option String
  | .define _ name _ => some name
  | .nest _ name _ => some name
  | _ => none

end Operation

section Runs

variable {α : Type}

/-- An attempt that is refused changes nothing, and any other changes the model alone. -/
theorem run_attempt (step : Model → Except Fault (α × Model)) (session : Session) :
    (Build.attempt step).run session =
      match step session.model with
      | .ok (value, model) => (.ok value, { session with model })
      | .error fault => (.error (.model fault), session) := by
  have looked : (get : Build Session).run session = (.ok session, session) := rfl
  unfold Build.attempt
  rw [run_bind_ok _ looked]
  cases step session.model with
  | error fault => rfl
  | ok outcome => rfl

/-- An attempt whose result is not needed. -/
theorem run_discard_attempt (step : Model → Except Fault (α × Model)) (session : Session) :
    (discard (Build.attempt step)).run session =
      match (step session.model).map (·.2) with
      | .ok model => (.ok (), { session with model })
      | .error fault => (.error (.model fault), session) := by
  have ran := run_attempt step session
  cases stepped : step session.model with
  | error fault =>
    rw [stepped] at ran
    exact run_bind_error (fun _ => pure ()) ran
  | ok outcome =>
    rw [stepped] at ran
    exact run_bind_ok (fun _ => pure ()) ran

/-- What an attempt gives besides the model is left out. -/
theorem map_snd_map (value : α) (result : Except Fault Model) :
    (result.map fun model => (value, model)).map (·.2) = result := by
  cases result <;> rfl

end Runs

/-- **An operation that is refused changes nothing, and any other changes the model alone.** -/
theorem run_perform (operation : Operation) (session : Session) :
    operation.perform.run session =
      match operation.result session.model with
      | .ok model => (.ok (), { session with model })
      | .error fault => (.error (.model fault), session) := by
  cases operation with
  | define package name kind =>
    have ran := run_discard_attempt (fun model => (model.define package name kind).map fun model =>
      ((⟨package, name, []⟩ : TypePath), model)) session
    rw [map_snd_map] at ran
    exact ran
  | nest owner name kind =>
    have ran := run_discard_attempt (fun model => (model.nest owner name kind).map fun model =>
      (owner.nested name, model)) session
    rw [map_snd_map] at ran
    exact ran
  | addMethod owner name returnType => exact run_discard_attempt _ session
  | addParameter method type name => exact run_discard_attempt _ session
  | addConstant owner name literal =>
    have ran := run_discard_attempt (fun model => (model.addConstant owner name literal).map
      fun model => ((), model)) session
    rw [map_snd_map] at ran
    exact ran
  | _ => rfl

variable {legal : String → Prop} {model next : Model}

/-- **An operation keeps a model orderly.** -/
theorem Operation.orderly {operation : Operation}
    (isLegal : ∀ name, operation.typeName? = some name → legal name)
    (orderly : model.Orderly legal) (performed : operation.result model = .ok next) :
    next.Orderly legal := by
  cases operation with
  | define package name kind => exact orderly.define (isLegal name rfl) performed
  | nest owner name kind => exact orderly.nest (isLegal name rfl) performed
  | addMethod owner name returnType =>
    cases performed
    exact orderly.addMethod owner name returnType
  | addParameter method type name =>
    obtain ⟨⟨place, model⟩, added, same⟩ := map_eq_ok_iff.mp performed
    cases same
    exact orderly.addParameter added
  | addConstant owner name literal => exact orderly.addConstant performed
  | annotate site type =>
    cases performed
    exact orderly.modifyAnnotations _ site
  | setElement site index name value =>
    cases performed
    exact orderly.modifyAnnotations _ site
  | describeType path change =>
    cases performed
    exact orderly.modifyTypeDoc path change
  | describeMethod method change =>
    cases performed
    exact orderly.modifyMethodDoc method change

/-! ### Sequences of operations -/

/-- The session after operations, each of which may be refused. -/
def performInOrder (operations : List Operation) (session : Session) : Session :=
  operations.foldl (fun session operation => (operation.perform.run session).2) session

theorem performInOrder_concat (operations : List Operation) (operation : Operation)
    (session : Session) : performInOrder (operations ++ [operation]) session =
      (operation.perform.run (performInOrder operations session)).2 := by
  unfold performInOrder
  rw [List.foldl_append]
  rfl

/-- **Every sequence of operations keeps a model orderly.** -/
theorem orderly_performInOrder {operations : List Operation}
    (isLegal : ∀ operation ∈ operations, ∀ name, operation.typeName? = some name → legal name)
    (configuration : Configuration) :
    (performInOrder operations { configuration }).model.Orderly legal := by
  induction operations using List.reverseRecOn with
  | nil => exact orderly_empty
  | append_singleton earlier operation ih =>
    rw [List.forall_mem_append, List.forall_mem_singleton] at isLegal
    have before := ih isLegal.1
    rw [performInOrder_concat, run_perform]
    cases performed : operation.result (performInOrder earlier { configuration }).model with
    | ok next => exact operation.orderly isLegal.2 before performed
    | error fault => exact before

/-! ### Models that are reached -/

/-- A type whose methods have parameters with distinct names, none of them empty, and that has
constants, with distinct names, only if it is an enum. -/
structure SoundMembers (decl : TypeDecl) : Prop where
  parameters : ∀ method ∈ decl.methods, OrderlyMethod method
  constants : (decl.constants.map (·.name)).Nodup
  enum : decl.constants ≠ [] → decl.kind = .enum

/-- A model whose tables are what they are looked up in for: a type is found under its qualified
name if it is at the top, and under its own name in the type around it if it is nested. -/
structure WellFormed (model : Model) : Prop where
  registry : ∀ key decl, model.get? key = some decl ↔
    ∃ unit ∈ model.units, unit.qualifiedName = key ∧ unit.type = decl
  tables : ∀ path decl, model.type? path = some decl → ∀ name inner,
    model.type? (path.nested name) = some inner ↔ inner ∈ decl.nested ∧ inner.name = name
  members : ∀ unit ∈ model.units, unit.type.All SoundMembers

/-- **An orderly model is well formed.** -/
theorem wellFormed_of_orderly (orderly : model.Orderly legal) : WellFormed model := by
  refine ⟨fun key decl => ?_, fun path decl found name inner => ?_, fun unit member => ?_⟩
  · unfold Model.get?
    rw [Option.map_eq_some_iff]
    simp only [find?_key_iff orderly.registry, and_assoc]
  · rw [Model.type?_nested, found, Option.bind_some]
    exact find?_key_iff (orderly.type? found).here.nested
  · exact (orderly.types unit member).mono fun decl here =>
      ⟨here.methods, here.constants, here.enum⟩

/-- **Every model that is reached is well formed**, whatever operations were carried out and
whichever of them were refused; and an operation that is refused leaves the session as it was. -/
theorem performInOrder_wellFormed (configuration : Configuration) (operations : List Operation) :
    WellFormed (performInOrder operations { configuration }).model ∧
      ∀ (operation : Operation) (failure : Failure) (next : Session),
        operation.perform.run (performInOrder operations { configuration }) =
          (.error failure, next) → next = performInOrder operations { configuration } := by
  have orderly : (performInOrder operations { configuration }).model.Orderly fun _ => True :=
    orderly_performInOrder (fun _ _ _ _ => trivial) configuration
  refine ⟨wellFormed_of_orderly orderly, fun operation failure next ran => ?_⟩
  rw [run_perform] at ran
  split at ran
  · cases ran
  · exact (Prod.mk.inj ran).2.symm

end RamlInterfaces.Generation
