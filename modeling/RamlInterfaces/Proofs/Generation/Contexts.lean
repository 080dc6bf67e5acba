/-
**Sessions at any point.**

A session changes by calls of its operations, by operations on its model, and by the steps that a
description is built with; each may fail, and what it did before stays.  No step takes a declared
type away or changes its kind, so an enum that a session remembers is one at any later point.

* `Persists`: a model that still has the types of another;
* `Along`: what a step does to a session, whether it ends with a result or fails;
* `Move`, `Arises`: the steps, and the sessions that come about by them;
* `stepwise_keeps`: **no step of building takes away what stands**;
* `EnumsStand`, `createEnum_stands`: an enum that is remembered, and one that is returned;
* `Arises.stands`: **every enum that a session remembers is declared as one**;
* `ComesToParameter.arises`: every parameter of a description is declared in a session that comes
  about.
-/

import Mathlib.Order.Defs.Unbundled
import RamlInterfaces.Proofs.Generation.Histories
import RamlInterfaces.Proofs.Generation.ModelOperations

namespace RamlInterfaces.Generation

open Java
open Settings (Configuration)

/-! ### Types that stay -/

/-- The type with more members: it has its name and its kind, and the types nested in it are found
as before. -/
structure Retains (decl later : TypeDecl) : Prop where
  name : later.name = decl.name
  kind : later.kind = decl.kind
  nested : ∀ name inner, decl.nested.find? (·.name == name) = some inner →
    later.nested.find? (·.name == name) = some inner

/-- What is at a path in one type is at that path in the other, and of the same kind. -/
def PersistsIn (found later : Option TypeDecl) : Prop :=
  ∀ decl, found = some decl → ∃ after, later = some after ∧ after.kind = decl.kind

/-- Every type of the first model is one of the second, of the same kind. -/
def Persists (model later : Model) : Prop :=
  ∀ path, PersistsIn (model.type? path) (later.type? path)

theorem Persists.refl (model : Model) : Persists model model :=
  fun _ decl found => ⟨decl, found, rfl⟩

theorem Persists.trans {model middle later : Model} (first : Persists model middle)
    (second : Persists middle later) : Persists model later := by
  intro path decl found
  obtain ⟨between, isBetween, kind⟩ := first path decl found
  obtain ⟨after, isAfter, same⟩ := second path between isBetween
  exact ⟨after, isAfter, same.trans kind⟩

/-- What is found after changes that keep what is looked at. -/
theorem find?_map_of_kept {α : Type} {step : α → α} {wanted : α → Bool}
    (kept : ∀ item, wanted (step item) = wanted item) (items : List α) :
    (items.map step).find? wanted = (items.find? wanted).map step := by
  have same : wanted ∘ step = wanted := funext kept
  rw [List.find?_map, same]

variable {change : TypeDecl → TypeDecl}

theorem modify_name (retains : ∀ decl, Retains decl (change decl)) (inner : List String)
    (decl : TypeDecl) : (decl.modify change inner).name = decl.name := by
  cases inner with
  | nil => exact (retains decl).name
  | cons name rest => rfl

/-- **A change at one path leaves the types at all paths.** -/
theorem persistsIn_modify (retains : ∀ decl, Retains decl (change decl)) (inner path : List String)
    (decl : TypeDecl) : PersistsIn (decl.at? path) ((decl.modify change inner).at? path) := by
  induction inner generalizing decl path with
  | nil =>
    intro target found
    cases path with
    | nil =>
      cases found
      exact ⟨change decl, rfl, (retains decl).kind⟩
    | cons name rest =>
      rw [TypeDecl.at?_cons] at found
      obtain ⟨inside, isInside, there⟩ := Option.bind_eq_some_iff.mp found
      refine ⟨target, ?_, rfl⟩
      rw [TypeDecl.at?_cons, TypeDecl.modify, (retains decl).nested name inside isInside]
      exact there
  | cons first more ih =>
    intro target found
    cases path with
    | nil =>
      cases found
      exact ⟨_, rfl, rfl⟩
    | cons name rest =>
      let changed (inside : TypeDecl) : TypeDecl :=
        if inside.name = first then inside.modify change more else inside
      have named (inside : TypeDecl) : (changed inside).name = inside.name := by
        by_cases isFirst : inside.name = first
        · exact (congrArg TypeDecl.name (if_pos isFirst)).trans (modify_name retains more inside)
        · exact congrArg TypeDecl.name (if_neg isFirst)
      rw [TypeDecl.at?_cons] at found
      obtain ⟨inside, isInside, there⟩ := Option.bind_eq_some_iff.mp found
      have isChanged : (decl.nested.map changed).find? (·.name == name) =
          some (changed inside) := by
        rw [find?_map_of_kept fun other => by rw [named], isInside]
        rfl
      have nested : (decl.modify change (first :: more)).nested = decl.nested.map changed := rfl
      rw [TypeDecl.at?_cons, nested, isChanged, Option.bind_some]
      by_cases isFirst : inside.name = first
      · rw [show changed inside = inside.modify change more from if_pos isFirst]
        exact ih rest inside target there
      · rw [show changed inside = inside from if_neg isFirst]
        exact ⟨target, there, rfl⟩

variable {model next : Model}

/-- **A change of one type takes no type away.** -/
theorem persists_modifyType (retains : ∀ decl, Retains decl (change decl)) (path : TypePath) :
    Persists model (model.modifyType path change) := by
  intro other decl found
  let changed (unit : CompilationUnit) : CompilationUnit :=
    if Model.holds path unit then { unit with type := unit.type.modify change path.inner } else unit
  have kept (unit : CompilationUnit) :
      Model.holds other (changed unit) = Model.holds other unit := by
    by_cases isChanged : Model.holds path unit = true
    · rw [show changed unit = { unit with type := unit.type.modify change path.inner } from
        if_pos isChanged]
      unfold Model.holds
      rw [modify_name retains]
    · rw [show changed unit = unit from if_neg isChanged]
  obtain ⟨unit, isUnit, there⟩ := Option.bind_eq_some_iff.mp found
  have later : (model.modifyType path change).type? other =
    (changed unit).type.at? other.inner := by
    unfold Model.type?
    rw [show (model.modifyType path change).units = model.units.map changed from rfl,
      find?_map_of_kept kept, isUnit]
    rfl
  rw [later]
  by_cases isChanged : Model.holds path unit = true
  · rw [show changed unit = { unit with type := unit.type.modify change path.inner } from
      if_pos isChanged]
    exact persistsIn_modify retains path.inner other.inner unit.type decl there
  · rw [show changed unit = unit from if_neg isChanged]
    exact ⟨decl, there, rfl⟩

/-- A change that leaves the name, the kind and the nested types. -/
theorem persists_modifyMembers (path : TypePath) (name : ∀ decl, (change decl).name = decl.name)
    (kind : ∀ decl, (change decl).kind = decl.kind)
    (nested : ∀ decl, (change decl).nested = decl.nested) :
    Persists model (model.modifyType path change) := by
  refine persists_modifyType (fun decl => ⟨name decl, kind decl, fun _ _ found => ?_⟩) path
  rw [nested]
  exact found

theorem persists_modifyMethod (path : MethodPath) (update : Method → Method) :
    Persists model (model.modifyMethod path update) :=
  persists_modifyMembers path.type (fun _ => rfl) (fun _ => rfl) fun _ => rfl

theorem persists_modifyAnnotations (update : List Annotation → List Annotation) (site : Site) :
    Persists model (model.modifyAnnotations update site) := by
  cases site with
  | type path => exact persists_modifyMembers path (fun _ => rfl) (fun _ => rfl) fun _ => rfl
  | method path => exact persists_modifyMethod path _
  | parameter path => exact persists_modifyMethod path.method _

theorem persists_define {package name : String} {kind : Kind}
    (defined : model.define package name kind = .ok next) : Persists model next := by
  intro path decl found
  obtain ⟨unit, isUnit, there⟩ := Option.bind_eq_some_iff.mp found
  refine ⟨decl, ?_, rfl⟩
  obtain ⟨-, rfl⟩ := Model.define_eq_ok_iff.mp defined
  unfold Model.type?
  rw [List.find?_append, isUnit]
  exact there

theorem persists_nest {path : TypePath} {name : String} {kind : Kind}
    (nested : model.nest path name kind = .ok next) : Persists model next := by
  have retains (decl : TypeDecl) : Retains decl (withNested decl { name, kind }) := by
    refine ⟨rfl, rfl, fun other inner found => ?_⟩
    unfold withNested
    rw [List.find?_append, found]
    rfl
  obtain ⟨-, rfl⟩ := Model.nest_eq_ok_iff.mp nested
  exact persists_modifyType retains path

theorem persists_addConstant {path : TypePath} {name literal : String}
    (added : model.addConstant path name literal = .ok next) : Persists model next := by
  obtain ⟨_, -, -, -, rfl⟩ := Model.addConstant_eq_ok_iff.mp added
  exact persists_modifyMembers path (fun _ => rfl) (fun _ => rfl) fun _ => rfl

/-- **An operation takes no type away.** -/
theorem Operation.persists {operation : Operation} (performed : operation.result model = .ok next) :
    Persists model next := by
  cases operation with
  | define package name kind => exact persists_define performed
  | nest owner name kind => exact persists_nest performed
  | addMethod owner name returnType =>
    cases performed
    exact persists_modifyMembers owner (fun _ => rfl) (fun _ => rfl) fun _ => rfl
  | addParameter method type name =>
    obtain ⟨⟨place, model⟩, added, same⟩ := map_eq_ok_iff.mp performed
    cases same
    obtain ⟨_, -, -, -, -, rfl⟩ := Model.addParameter_eq_ok_iff.mp added
    exact persists_modifyMethod method _
  | addConstant owner name literal => exact persists_addConstant performed
  | annotate site type =>
    cases performed
    exact persists_modifyAnnotations _ site
  | setElement site index name value =>
    cases performed
    exact persists_modifyAnnotations _ site
  | describeType path change =>
    cases performed
    exact persists_modifyMembers path (fun _ => rfl) (fun _ => rfl) fun _ => rfl
  | describeMethod method change =>
    cases performed
    exact persists_modifyMethod method _

/-! ### What steps do -/

/-- What a step does to a session, whether it ends with a result or fails. -/
def Along {α : Type} (rel : Session → Session → Prop) (step : Build α) : Prop :=
  ∀ session, rel session (step.run session).2

namespace Along

variable {α β : Type} {rel : Session → Session → Prop}

protected theorem mono {wider : Session → Session → Prop} {step : Build α} (along : Along rel step)
    (implies : ∀ session later, rel session later → wider session later) : Along wider step :=
  fun session => implies session _ (along session)

/-- What holds after a step that ends with a result. -/
protected theorem leads {step : Build α} {before after : Session → Prop} (along : Along rel step)
    (implies : ∀ session later, rel session later → before session → after later) :
    Leads before step fun _ => after := by
  intro session result final start ran
  have moved := along session
  rw [ran] at moved
  exact implies session final moved start

/-- A step that looks at the session first. -/
protected theorem get_bind {next : Session → Build β}
    (each : ∀ seen, rel seen ((next seen).run seen).2) : Along rel (get >>= next) :=
  each

protected theorem modify {update : Session → Session}
    (holds : ∀ session, rel session (update session)) : Along rel (modify update : Build Unit) :=
  holds

variable [IsPreorder Session rel]

protected theorem pure (value : α) : Along rel (pure value : Build α) := fun session => refl session

protected theorem throw (failure : Failure) : Along rel (throw failure : Build α) :=
  fun session => refl session

/-- **One step after another**, where there is a second one. -/
protected theorem bind {step : Build α} {next : α → Build β} (first : Along rel step)
    (second : ∀ value, Along rel (next value)) : Along rel (step >>= next) := by
  intro session
  have before := first session
  cases ran : step.run session with
  | mk outcome middle =>
    rw [ran] at before
    cases outcome with
    | error failure =>
      rw [run_bind_error next ran]
      exact before
    | ok value =>
      rw [run_bind_ok next ran]
      exact Trans.trans before (second value middle)

/-- **A walk**, as far as it goes. -/
protected theorem forM {round : α → Build Unit} (each : ∀ item, Along rel (round item))
    (items : List α) : Along rel (forM items round) := by
  induction items with
  | nil => exact Along.pure ()
  | cons item rest ih => exact (each item).bind fun _ => ih

/-- A change of the model that may be refused. -/
protected theorem attempt {step : Model → Except Fault (α × Model)}
    (holds : ∀ session value model, step session.model = .ok (value, model) →
      rel session { session with model }) : Along rel (Build.attempt step) := by
  intro session
  rw [run_attempt]
  cases stepped : step session.model with
  | error fault => exact refl session
  | ok outcome => exact holds session outcome.1 outcome.2 stepped

end Along

/-- The types stay, and the same enums are remembered. -/
structure Continues (session later : Session) : Prop where
  model : Persists session.model later.model
  enums : later.enums = session.enums

instance : IsPreorder Session Continues where
  refl session := ⟨.refl session.model, rfl⟩
  trans _ _ _ first second := ⟨first.model.trans second.model, second.enums.trans first.enums⟩

theorem change_continues {update : Model → Model}
    (persists : ∀ model, Persists model (update model)) : Along Continues (Build.change update) :=
  fun session => ⟨persists session.model, rfl⟩

theorem attempt_continues {α : Type} {step : Model → Except Fault (α × Model)}
    (persists : ∀ model value next, step model = .ok (value, next) → Persists model next) :
    Along Continues (Build.attempt step) :=
  Along.attempt fun session value next stepped => ⟨persists session.model value next stepped, rfl⟩

theorem annotate_continues (site : Site) (type : TypeRef)
    (elements : List (String × ElementValue)) :
    Along Continues (Build.annotate site type elements) :=
  change_continues fun _ => persists_modifyAnnotations _ site

theorem describeType_continues (path : TypePath) (change : DocComment → DocComment) :
    Along Continues (Build.change fun model => model.modifyTypeDoc path change) :=
  change_continues fun _ =>
    persists_modifyMembers path (fun _ => rfl) (fun _ => rfl) fun _ => rfl

theorem describeMethod_continues (path : MethodPath) (change : DocComment → DocComment) :
    Along Continues (Build.change fun model => model.modifyMethodDoc path change) :=
  change_continues fun _ => persists_modifyMethod path _

theorem report_continues (level : Level) (message : String) :
    Along Continues (Build.report level message) :=
  fun session => ⟨.refl session.model, rfl⟩

/-- A change of the model that may be refused, with a result that is known before. -/
theorem attempt_map_continues {α : Type} {step : Model → Except Fault Model} {value : α}
    (persists : ∀ model next, step model = .ok next → Persists model next) :
    Along Continues (Build.attempt fun model => (step model).map fun next => (value, next)) :=
  attempt_continues fun model _ _ mapped => by
    obtain ⟨next, isNext, pair⟩ := map_eq_ok_iff.mp mapped
    cases pair
    exact persists model _ isNext

theorem define_continues (package name : String) (kind : Kind) :
    Along Continues (Build.define package name kind) :=
  attempt_map_continues fun _ _ => persists_define

theorem nest_continues (owner : TypePath) (name : String) (kind : Kind) :
    Along Continues (Build.nest owner name kind) :=
  attempt_map_continues fun _ _ => persists_nest

/-! ### Declarations -/

theorem createMethod_continues (owner : TypePath) (name : String) (returnType : TypeRef) :
    Along Continues (createMethod owner name returnType) := by
  refine Along.get_bind fun seen => ?_
  dsimp only
  split
  · exact ⟨persists_modifyMembers owner (fun _ => rfl) (fun _ => rfl) fun _ => rfl, rfl⟩
  · exact Along.throw _ seen

theorem perform_continues (operation : Operation) : Along Continues operation.perform := by
  intro session
  rw [run_perform]
  cases performed : operation.result session.model with
  | ok next => exact ⟨operation.persists performed, rfl⟩
  | error fault => exact refl session

/-! ### Enums -/

/-- The path leads to an enum of the given name that is nested in a type of the given qualified
name. -/
def StandsAt (model : Model) (owner name : String) (path : TypePath) : Prop :=
  (∃ around : TypePath, around.qualifiedName = owner ∧ path = around.nested name) ∧
    ∃ decl, model.type? path = some decl ∧ decl.kind = .enum

theorem StandsAt.persist {owner name : String} {path : TypePath}
    (stands : StandsAt model owner name path) (persists : Persists model next) :
    StandsAt next owner name path := by
  obtain ⟨nested, decl, found, kind⟩ := stands
  obtain ⟨after, isAfter, same⟩ := persists path decl found
  exact ⟨nested, after, isAfter, same.trans kind⟩

/-- Every enum that the session remembers with literals is declared as one. -/
def EnumsStand (session : Session) : Prop :=
  ∀ known ∈ session.enums, known.literals ≠ [] →
    StandsAt session.model known.owner known.name known.path

/-- What stood before stands still. -/
def Keeps (session later : Session) : Prop := EnumsStand session → EnumsStand later

instance : IsPreorder Session Keeps where
  refl _ stands := stands
  trans _ _ _ first second stands := second (first stands)

theorem Continues.keeps {session later : Session} (continues : Continues session later) :
    Keeps session later := by
  intro stands known member literals
  rw [continues.enums] at member
  exact (stands known member literals).persist continues.model

theorem Along.keeps {α : Type} {step : Build α} (along : Along Continues step) :
    Along Keeps step :=
  along.mono fun _ _ continues => continues.keeps

/-- Adds the constant of a literal. -/
def addLiteral (path : TypePath) (literal : String) : Build Unit :=
  Build.attempt fun model =>
    (model.addConstant path (constantName literal) literal).map fun model => ((), model)

/-- Declares an enum with its constants. -/
def declareEnum (owner : TypePath) (name : String) (literals : List String) : Build TypePath := do
  let path ← Build.nest owner name .enum
  forM literals (addLiteral path)
  return path

/-- Remembers an enum. -/
def rememberEnum (owner : TypePath) (name : String) (literals : List String) (path : TypePath) :
    Build TypePath := do
  modify fun session =>
    { session with enums := session.enums ++ [⟨owner.qualifiedName, name, literals, path⟩] }
  return path

section Enums

variable (owner path : TypePath) (name : String) (literals : List String)

/-- **An enum that is asked for is one that is remembered, or it is declared and remembered.** -/
theorem createEnum_run (session : Session) :
    (∃ known ∈ session.enums, known.owner = owner.qualifiedName ∧ known.name = name ∧
      ((known.literals = literals ∧
          (createEnum owner name literals).run session = (.ok known.path, session)) ∨
        ∃ failure, (createEnum owner name literals).run session = (.error failure, session))) ∨
    (createEnum owner name literals).run session =
      (declareEnum owner name literals >>= rememberEnum owner name literals).run session := by
  have looked : (get : Build Session).run session = (.ok session, session) := rfl
  unfold createEnum
  rw [run_bind_ok _ looked]
  dsimp only
  split
  · rename_i known found
    have isAsked := List.find?_some found
    rw [Bool.and_eq_true, beq_iff_eq, beq_iff_eq] at isAsked
    refine .inl ⟨known, List.mem_of_find?_eq_some found, isAsked.1, isAsked.2, ?_⟩
    split
    · rename_i same
      exact .inl ⟨same, rfl⟩
    · exact .inr ⟨_, rfl⟩
  · refine .inr ?_
    unfold declareEnum
    rw [bind_assoc]
    simp only [bind_assoc, pure_bind, loop_eq_forM]
    rfl

theorem addLiteral_continues (literal : String) : Along Continues (addLiteral path literal) :=
  attempt_map_continues fun _ _ => persists_addConstant

theorem declareEnum_continues : Along Continues (declareEnum owner name literals) :=
  (nest_continues owner name .enum).bind fun path =>
    (Along.forM (addLiteral_continues path) literals).bind fun _ => Along.pure path

/-- **An enum that is declared with literals stands.** -/
theorem declareEnum_leads (some : literals ≠ []) :
    Leads (fun _ => True) (declareEnum owner name literals)
      fun path session => StandsAt session.model owner.qualifiedName name path := by
  let stands (path : TypePath) (session : Session) : Prop :=
    StandsAt session.model owner.qualifiedName name path
  have nested : Leads (fun _ => True) (Build.nest owner name .enum)
      fun path _ => path = owner.nested name := by
    exact Leads.attempt_map fun _ _ _ _ => rfl
  refine nested.bind fun path => ?_
  cases literals with
  | nil => exact absurd rfl some
  | cons literal rest =>
    have first : Leads (fun _ => path = owner.nested name) (addLiteral path literal)
        fun _ => stands path := by
      refine Leads.attempt_map fun session next isPath added => ?_
      obtain ⟨decl, found, isEnum, -, -⟩ := Model.addConstant_eq_ok_iff.mp added
      have here : StandsAt session.model owner.qualifiedName name path :=
        ⟨⟨owner, rfl, isPath⟩, decl, found, isEnum⟩
      exact here.persist (persists_addConstant added)
    have others : Leads (stands path) (forM rest (addLiteral path)) fun _ => stands path :=
      (Along.forM (addLiteral_continues path) rest).leads
        fun _ _ continues there => there.persist continues.model
    rw [List.forM_cons]
    exact (first.bind fun _ => others).bind fun _ => Leads.pure fun _ there => there

/-- **What is asked for keeps what stands.** -/
theorem createEnum_keeps : Along Keeps (createEnum owner name literals) := by
  intro session stands
  rcases createEnum_run owner name literals session with
    ⟨known, -, -, -, ⟨-, ran⟩ | ⟨failure, ran⟩⟩ | ran
  · rw [ran]
    exact stands
  · rw [ran]
    exact stands
  · have kept := (declareEnum_continues owner name literals session).keeps stands
    rw [ran]
    cases declared : (declareEnum owner name literals).run session with
    | mk outcome middle =>
      rw [declared] at kept
      cases outcome with
      | error failure =>
        rw [run_bind_error _ declared]
        exact kept
      | ok path =>
        rw [run_bind_ok _ declared]
        intro known member some
        rcases List.mem_append.mp member with old | new
        · exact kept known old some
        · cases List.mem_singleton.mp new
          exact declareEnum_leads owner name literals some session path middle trivial declared

/-- **An enum that is returned stands.** -/
theorem createEnum_stands (some : literals ≠ []) :
    Leads EnumsStand (createEnum owner name literals)
      fun path session => StandsAt session.model owner.qualifiedName name path := by
  intro session path final stands returned
  rcases createEnum_run owner name literals session with
    ⟨known, member, owned, named, ⟨same, ran⟩ | ⟨failure, ran⟩⟩ | ran
  · cases returned.symm.trans ran
    have there := stands known member (same ▸ some)
    rwa [owned, named] at there
  · cases returned.symm.trans ran
  · obtain ⟨other, middle, declared, remembered⟩ := run_bind_eq_ok.mp (ran.symm.trans returned)
    cases remembered
    exact declareEnum_leads owner name literals some session path middle trivial declared

end Enums

/-! ### Building -/

/-- **No step of building takes away what stands**, also where it fails. -/
theorem stepwise_keeps : Stepwise (Along Keeps) where
  pure := Along.pure
  bind := Along.bind
  get_bind each := Along.get_bind fun seen => each seen seen
  refuse _ := Along.throw _
  define _ _ _ := (define_continues _ _ _).keeps
  createMethod _ _ _ := (createMethod_continues _ _ _).keeps
  annotate _ _ _ := (annotate_continues _ _ _).keeps
  describeType _ _ := (describeType_continues _ _).keeps
  describeMethod _ _ := (describeMethod_continues _ _).keeps
  debug _ := (report_continues _ _).keeps
  noteVerb _ _ := fun _ stands => stands
  enter _ := fun _ stands => stands

theorem call_keeps (call : Call) : Along Keeps call.perform := by
  cases call with
  | interface name => exact (stepwise_keeps.createInterface name).bind fun _ => Along.pure _
  | method owner name returnType =>
    exact (createMethod_continues owner name returnType).keeps.bind fun _ => Along.pure _
  | enum owner name literals =>
    exact (createEnum_keeps owner name literals).bind fun _ => Along.pure _
  | verb word path => exact (stepwise_keeps.annotateWord word path).bind fun _ => Along.pure _

theorem inferType_keeps (p : Raml.Parameter) (name : String) (owner : Option TypePath) :
    Along Keeps (inferType p name owner) :=
  stepwise_keeps.inferType (fun _ => (report_continues _ _).keeps) createEnum_keeps p name owner

theorem addParameter_keeps (owner : TypePath) (method : MethodPath) (methodName : String)
    (location : Location) (key : String) (p : Raml.Parameter) :
    Along Keeps (addParameter owner method methodName location key p) := by
  have add (method : MethodPath) (type : TypeRef) (name : String) : Along Keeps
      (Build.attempt fun model => model.addParameter method type name) :=
    (attempt_continues fun _ _ _ isAdded => by
      obtain ⟨_, -, -, -, -, rfl⟩ := Model.addParameter_eq_ok_iff.mp isAdded
      exact persists_modifyMethod method _).keeps
  exact stepwise_keeps.addParameter (fun _ => (report_continues _ _).keeps) createEnum_keeps add
    (fun _ => Along.throw _) owner method methodName location key p

/-! ### Sessions that come about -/

/-- A step that changes a session. -/
inductive Move where
  | call (call : Call)
  | operation (operation : Operation)
  | annotate (site : Site) (type : TypeRef) (elements : List (String × ElementValue))
  | enter (interface : Option TypePath)
  | report (level : Level) (message : String)
  | infer (p : Raml.Parameter) (name : String) (owner : Option TypePath)
  | constrain (p : Raml.Parameter) (site : Site)
  | parameter (owner : TypePath) (method : MethodPath) (methodName : String) (location : Location)
    (key : String) (p : Raml.Parameter)
  | emptyMethod (owner : TypePath) (interfacePath : String) (action : Raml.Action)
  | method (owner : TypePath) (interfacePath : String) (resource : Raml.Resource)
    (action : Raml.Action)
  | emptyInterface (resource : Raml.Resource)
  | interface (resource : Raml.Resource)

/-- Carries out a step. -/
def Move.perform : Move → Build Unit
  | .call made => discard made.perform
  | .operation done => done.perform
  | .annotate site type elements => Build.annotate site type elements
  | .enter current => modify fun session => { session with current }
  | .report level message => Build.report level message
  | .infer p name owner => discard <| inferType p name owner
  | .constrain p site => annotateConstraints p site
  | .parameter owner place methodName location key p =>
    addParameter owner place methodName location key p
  | .emptyMethod owner path action => discard <| openMethod owner path action
  | .method owner path resource action => addMethod owner path resource action
  | .emptyInterface resource => discard <| openInterface resource
  | .interface resource => buildInterface resource

/-- A session under a configuration after some steps, whether they failed or not. -/
inductive Arises (configuration : Configuration) : Session → Prop
  | start {session : Session} (started : Session.start configuration = .ok session) :
    Arises configuration session
  | move {session : Session} (arises : Arises configuration session) (move : Move) :
    Arises configuration (move.perform.run session).2

/-- **A step keeps what stands**, also where it fails. -/
theorem perform_keeps (move : Move) : Along Keeps move.perform := by
  cases move with
  | call call => exact (call_keeps call).bind fun _ => Along.pure ()
  | operation operation => exact (perform_continues operation).keeps
  | annotate site type elements => exact (annotate_continues site type elements).keeps
  | enter interface => exact fun session stands => stands
  | report level message => exact (report_continues level message).keeps
  | infer p name owner => exact (inferType_keeps p name owner).bind fun _ => Along.pure ()
  | constrain p site => exact stepwise_keeps.annotateConstraints (fun _ => Along.throw _) p site
  | parameter owner method methodName location key p =>
    exact addParameter_keeps owner method methodName location key p
  | emptyMethod owner path action =>
    exact (stepwise_keeps.openMethod owner path action).bind fun _ => Along.pure ()
  | method owner path resource action =>
    exact stepwise_keeps.addMethod addParameter_keeps owner path resource action
  | emptyInterface resource =>
    exact (stepwise_keeps.openInterface resource).bind fun _ => Along.pure ()
  | interface resource => exact stepwise_keeps.buildInterface addParameter_keeps resource

/-- **Every enum that a session remembers with literals is declared as one**, whatever steps it came
about by. -/
theorem Arises.stands {configuration : Configuration} {session : Session}
    (arises : Arises configuration session) : EnumsStand session := by
  induction arises with
  | start started =>
    unfold Session.start at started
    split at started
    · cases started
    · cases started
      exact fun _ member => absurd member List.not_mem_nil
  | move _ move ih => exact perform_keeps move _ ih

/-! ### Building a description -/

section Building

variable {configuration : Configuration} {α : Type} {step : Build α}

theorem Arises.leads {step : Build Unit} (move : Move) (same : move.perform = step) :
    Leads (Arises configuration) step fun _ => Arises configuration := by
  intro session result final arises ran
  have moved := arises.move move
  rw [same, ran] at moved
  exact moved

/-- A step whose result is not needed. -/
theorem Arises.leads_discard (move : Move) (same : move.perform = discard step) :
    Leads (Arises configuration) step fun _ => Arises configuration := by
  intro session result final arises ran
  have discarded : (discard step).run session = (.ok (), final) :=
    run_bind_ok (fun _ => pure ()) ran
  exact Arises.leads move same session () final arises discarded

theorem openInterface_arises (resource : Raml.Resource) :
    Leads (Arises configuration) (openInterface resource) fun _ => Arises configuration :=
  Arises.leads_discard (.emptyInterface resource) rfl

theorem openMethod_arises (owner : TypePath) (path : String) (action : Raml.Action) :
    Leads (Arises configuration) (openMethod owner path action) fun _ => Arises configuration :=
  Arises.leads_discard (.emptyMethod owner path action) rfl

theorem methodRound_arises (owner : TypePath) (path : String)
    (entry : Raml.Resource × Raml.Action) :
    Leads (Arises configuration) (methodRound owner path entry) fun _ => Arises configuration :=
  Arises.leads (.method owner path entry.1 entry.2) rfl

theorem parameterRound_arises (owner : TypePath) (method : MethodPath) (methodName : String)
    (entry : Location × String × Raml.Parameter) :
    Leads (Arises configuration) (parameterRound owner method methodName entry)
      fun _ => Arises configuration :=
  Arises.leads (.parameter owner method methodName entry.1 entry.2.1 entry.2.2) rfl

/-- **Every parameter of a description is declared in a session that comes about.** -/
theorem ComesToParameter.arises {description : Raml.Description} {p : Raml.Parameter}
    {session : Session} (based : configuration.basePackage.isEmpty = false)
    (comes : ComesToParameter configuration description p session) :
    ∃ owner method methodName location key declared before, Arises configuration before ∧
      (declareParameter owner method methodName location key p).run before =
        (.ok declared, session) := by
  cases comes with
  | intro interface opened inInterface openedMethod inMethod isDeclared =>
    have start : Arises configuration { configuration } := by
      refine .start ?_
      unfold Session.start
      rw [based]
      rfl
    have first := interface.keeps (fun resource => Arises.leads (.interface resource) rfl) start
    have second := openInterface_arises _ _ _ _ first opened
    have third := inInterface.keeps (methodRound_arises _ _) second
    have fourth := openMethod_arises _ _ _ _ _ _ third openedMethod
    have fifth := inMethod.keeps (parameterRound_arises _ _ _) fourth
    exact ⟨_, _, _, _, _, _, _, fifth, isDeclared⟩

end Building

end RamlInterfaces.Generation
