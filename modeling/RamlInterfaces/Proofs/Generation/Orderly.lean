/-
**Orderly models.**

What is declared in a model is looked up by its name: a top-level type in the model, a nested type
in the one around it, a parameter in its method, a constant in its enum.  A model is orderly if each
of these tables has at most one entry for a name, in every type at every depth.

* `TypeDecl.All`: a property of a type and of all types nested in it;
* `OrderlyMethod`, `OrderlyType`, `Model.Orderly`: methods, types and models with such tables;
* `TypeDecl.All.modify`, `Model.Orderly.modifyType`: **a change of one type that keeps it orderly
  keeps the model orderly**;
* `Model.Orderly.define`, `Model.Orderly.nest` and so on: **each change of a model keeps it
  orderly**.
-/

import RamlInterfaces.Proofs.Generation.Operations

namespace RamlInterfaces.Java

/-! ### Types at every depth -/

/-- A property of a type and of all types nested in it. -/
inductive TypeDecl.All (holds : TypeDecl → Prop) : TypeDecl → Prop where
  | intro {decl : TypeDecl} (here : holds decl) (inside : ∀ inner ∈ decl.nested, All holds inner) :
    All holds decl

namespace TypeDecl.All

variable {holds : TypeDecl → Prop} {decl : TypeDecl}

theorem here (all : decl.All holds) : holds decl := by
  cases all with
  | intro here _ => exact here

theorem inside (all : decl.All holds) : ∀ inner ∈ decl.nested, inner.All holds := by
  cases all with
  | intro _ inside => exact inside

theorem mono {weaker : TypeDecl → Prop} (implies : ∀ decl, holds decl → weaker decl)
    (all : decl.All holds) : decl.All weaker := by
  induction all with
  | intro here _ ih => exact .intro (implies _ here) ih

/-- What holds of every type holds at every path. -/
theorem at? {path : List String} {target : TypeDecl} (all : decl.All holds)
    (found : decl.at? path = some target) : target.All holds := by
  induction path generalizing decl with
  | nil =>
    cases found
    exact all
  | cons name rest ih =>
    rw [at?_cons, Option.bind_eq_some_iff] at found
    obtain ⟨inner, isInner, there⟩ := found
    exact ih (all.inside inner (List.mem_of_find?_eq_some isInner)) there

end TypeDecl.All

/-- A method whose parameters have names, and no two of them one name. -/
structure OrderlyMethod (method : Method) : Prop where
  named : ∀ parameter ∈ method.parameters, parameter.name ≠ ""
  distinct : (method.parameters.map (·.name)).Nodup

/-- A type with a name of the given form, whose nested types, parameters and constants are kept by
distinct names. -/
structure OrderlyType (legal : String → Prop) (decl : TypeDecl) : Prop where
  named : legal decl.name
  nested : (decl.nested.map (·.name)).Nodup
  other : decl.name ∉ decl.nested.map (·.name)
  methods : ∀ method ∈ decl.methods, OrderlyMethod method
  constants : (decl.constants.map (·.name)).Nodup
  enum : decl.constants ≠ [] → decl.kind = .enum

/-- A model whose top-level types are kept by distinct qualified names, and whose types are all
orderly. -/
structure Model.Orderly (legal : String → Prop) (model : Model) : Prop where
  registry : (model.units.map (·.qualifiedName)).Nodup
  types : ∀ unit ∈ model.units, unit.type.All (OrderlyType legal)

variable {legal : String → Prop}

theorem orderly_empty : Model.Orderly legal {} :=
  ⟨List.nodup_nil, fun _ member => absurd member List.not_mem_nil⟩

/-- A type without members is orderly. -/
theorem orderly_new {name : String} (isLegal : legal name) (kind : Kind) :
    TypeDecl.All (OrderlyType legal) { name, kind } := by
  refine .intro ?_ fun _ member => absurd member List.not_mem_nil
  exact ⟨isLegal, List.nodup_nil, List.not_mem_nil, fun _ member => absurd member List.not_mem_nil,
    List.nodup_nil, fun some => absurd rfl some⟩

/-! ### A change of one type -/

/-- What takes the place of an orderly type: it is orderly and has the name, and what is nested in
it was nested before or is orderly all through. -/
structure Replaces (legal : String → Prop) (decl later : TypeDecl) : Prop where
  orderly : OrderlyType legal later
  name : later.name = decl.name
  nested : ∀ inner ∈ later.nested, inner ∈ decl.nested ∨ inner.All (OrderlyType legal)

/-- **A change at a path in a type keeps it orderly**, if what it changes there stays so. -/
theorem TypeDecl.All.modify {change : TypeDecl → TypeDecl} {path : List String} {decl : TypeDecl}
    (all : decl.All (OrderlyType legal))
    (keeps : ∀ target, decl.at? path = some target → OrderlyType legal target →
      Replaces legal target (change target)) :
    (decl.modify change path).All (OrderlyType legal) ∧
      (decl.modify change path).name = decl.name := by
  induction path generalizing decl with
  | nil =>
    have replaces := keeps decl rfl all.here
    refine ⟨.intro replaces.orderly fun inner member => ?_, replaces.name⟩
    rcases replaces.nested inner member with old | new
    · exact all.inside inner old
    · exact new
  | cons name rest ih =>
    let changed (inner : TypeDecl) : TypeDecl :=
      if inner.name = name then inner.modify change rest else inner
    -- the type of that name is the one that the path leads into
    have each (inner : TypeDecl) (member : inner ∈ decl.nested) :
        (changed inner).All (OrderlyType legal) ∧ (changed inner).name = inner.name := by
      by_cases named : inner.name = name
      · have found : decl.at? (name :: rest) = inner.at? rest := by
          rw [← named, TypeDecl.at?_cons, (find?_key_iff all.here.nested).mpr ⟨member, rfl⟩,
            Option.bind_some]
        unfold changed
        rw [if_pos named]
        exact ih (all.inside inner member) fun target there => keeps target (found.trans there)
      · unfold changed
        rw [if_neg named]
        exact ⟨all.inside inner member, rfl⟩
    have names : (decl.nested.map changed).map (·.name) = decl.nested.map (·.name) := by
      rw [List.map_map]
      exact List.map_congr_left fun inner member => (each inner member).2
    refine ⟨.intro ?_ fun inner member => ?_, rfl⟩
    · have here := all.here
      exact { named := here.named, nested := names.symm ▸ here.nested,
              other := names.symm ▸ here.other, methods := here.methods,
              constants := here.constants, enum := here.enum }
    · obtain ⟨old, isOld, rfl⟩ := List.mem_map.mp member
      exact (each old isOld).1

namespace Model.Orderly

variable {model : Model} {path : TypePath}

/-- The unit that a path leads into is the only one. -/
theorem find?_holds (orderly : model.Orderly legal) {unit : CompilationUnit}
    (member : unit ∈ model.units) (holds : Model.holds path unit = true) :
    model.units.find? (Model.holds path) = some unit := by
  cases found : model.units.find? (Model.holds path) with
  | none => exact absurd holds (List.find?_eq_none.mp found unit member)
  | some other =>
    obtain ⟨package, name⟩ := Generation.holds_iff.mp holds
    obtain ⟨otherPackage, otherName⟩ := Generation.holds_iff.mp (List.find?_some found)
    have same : other.qualifiedName = unit.qualifiedName := by
      unfold CompilationUnit.qualifiedName CompilationUnit.path
      rw [package, name, otherPackage, otherName]
    rw [List.inj_on_of_nodup_map orderly.registry (List.mem_of_find?_eq_some found) member same]

/-- The types that a path leads to are those in its unit. -/
theorem type?_eq (orderly : model.Orderly legal) {unit : CompilationUnit}
    (member : unit ∈ model.units) (holds : Model.holds path unit = true) :
    model.type? path = unit.type.at? path.inner := by
  unfold Model.type?
  rw [orderly.find?_holds member holds]
  rfl

/-- Every type at a path is orderly. -/
theorem type? (orderly : model.Orderly legal) {target : TypeDecl}
    (found : model.type? path = some target) : target.All (OrderlyType legal) := by
  obtain ⟨unit, isUnit, there⟩ := Option.bind_eq_some_iff.mp found
  exact (orderly.types unit (List.mem_of_find?_eq_some isUnit)).at? there

/-- **A change of one type that keeps it orderly keeps the model orderly.** -/
theorem modifyType (orderly : model.Orderly legal) {change : TypeDecl → TypeDecl}
    (keeps : ∀ target, model.type? path = some target → OrderlyType legal target →
      Replaces legal target (change target)) : (model.modifyType path change).Orderly legal := by
  let changed (unit : CompilationUnit) : CompilationUnit :=
    if Model.holds path unit then { unit with type := unit.type.modify change path.inner } else unit
  have each (unit : CompilationUnit) (member : unit ∈ model.units) :
      (changed unit).type.All (OrderlyType legal) ∧
        (changed unit).qualifiedName = unit.qualifiedName := by
    unfold changed
    split
    · rename_i holds
      obtain ⟨all, name⟩ := (orderly.types unit member).modify fun target there =>
        keeps target ((orderly.type?_eq member holds).trans there)
      exact ⟨all, congrArg (TypePath.qualify unit.package) name⟩
    · exact ⟨orderly.types unit member, rfl⟩
  refine ⟨?_, fun unit member => ?_⟩
  · have names : (model.units.map changed).map (·.qualifiedName) =
        model.units.map (·.qualifiedName) := by
      rw [List.map_map]
      exact List.map_congr_left fun unit member => (each unit member).2
    exact names.symm ▸ orderly.registry
  · obtain ⟨old, isOld, rfl⟩ := List.mem_map.mp member
    exact (each old isOld).1

end Model.Orderly

/-! ### Each change of a model -/

variable {model next : Model} {path : TypePath} {decl : TypeDecl}

/-- A type with other annotations, another comment and orderly methods takes its place. -/
theorem OrderlyType.replaces (orderly : OrderlyType legal decl) (annotations : List Annotation)
    (doc : DocComment) {methods : List Method} (kept : ∀ method ∈ methods, OrderlyMethod method) :
    Replaces legal decl { decl with annotations, doc, methods } where
  orderly := { orderly with methods := kept }
  name := rfl
  nested := fun _ member => .inl member

/-- The name of a type at a path is the last of the path. -/
theorem name_of_at? {path : List String} {target : TypeDecl} (found : decl.at? path = some target) :
    target.name = path.getLast?.getD decl.name := by
  induction path generalizing decl with
  | nil =>
    cases found
    rfl
  | cons name rest ih =>
    rw [TypeDecl.at?_cons, Option.bind_eq_some_iff] at found
    obtain ⟨inner, isInner, there⟩ := found
    have named : inner.name = name := by
      simpa using List.find?_some isInner
    rw [ih there, named, List.getLast?_cons]
    cases rest.getLast? <;> rfl

theorem name_of_type? {target : TypeDecl} (found : model.type? path = some target) :
    target.name = path.name := by
  obtain ⟨unit, isUnit, there⟩ := Option.bind_eq_some_iff.mp found
  rw [name_of_at? there, (Generation.holds_iff.mp (List.find?_some isUnit)).2]
  rfl

/-- A change of one item that keeps what is looked at keeps it for all items. -/
theorem map_modify_of_kept {α β : Type} {view : α → β} {change : α → α}
    (kept : ∀ item, view (change item) = view item) {items : List α} {index : Nat} :
    (items.modify index change).map view = items.map view := by
  induction items generalizing index with
  | nil => rw [List.modify_nil]
  | cons first rest ih =>
    cases index with
    | zero => rw [List.modify_zero_cons, List.map_cons, List.map_cons, kept]
    | succ index => rw [List.modify_succ_cons, List.map_cons, List.map_cons, ih]

namespace Model.Orderly

theorem define (orderly : model.Orderly legal) {package name : String} (isLegal : legal name)
    {kind : Kind} (defined : model.define package name kind = .ok next) : next.Orderly legal := by
  obtain ⟨fresh, rfl⟩ := define_eq_ok_iff.mp defined
  refine ⟨Generation.nodup_map_concat_iff.mpr ⟨orderly.registry, fresh⟩, ?_⟩
  exact List.forall_mem_append.mpr
    ⟨orderly.types, List.forall_mem_singleton.mpr (orderly_new isLegal kind)⟩

theorem nest (orderly : model.Orderly legal) {name : String} (isLegal : legal name) {kind : Kind}
    (nested : model.nest path name kind = .ok next) : next.Orderly legal := by
  obtain ⟨free, rfl⟩ := nest_eq_ok_iff.mp nested
  refine orderly.modifyType fun target found here => ⟨?_, rfl, ?_⟩
  · have other : target.name ≠ name := by
      rw [name_of_type? found]
      exact free.1.symm
    let added : TypeDecl := { name, kind }
    have names : target.name ∉ (target.nested ++ [added]).map (·.name) := by
      rw [List.map_append]
      exact List.not_mem_append here.other (mt List.mem_singleton.mp other)
    exact { here with
      nested := Generation.nodup_map_concat_iff.mpr ⟨here.nested, free.2 target found⟩
      other := names }
  · exact List.forall_mem_append.mpr ⟨fun inner member => .inl member,
      List.forall_mem_singleton.mpr (.inr (orderly_new isLegal kind))⟩

theorem addMethod (orderly : model.Orderly legal) (path : TypePath) (name : String)
    (returnType : TypeRef) : (model.addMethod path name returnType).2.Orderly legal := by
  refine orderly.modifyType fun target _ here => here.replaces target.annotations target.doc ?_
  refine List.forall_mem_append.mpr ⟨here.methods, List.forall_mem_singleton.mpr ?_⟩
  exact ⟨fun _ member => absurd member List.not_mem_nil, List.nodup_nil⟩

theorem addConstant (orderly : model.Orderly legal) {name literal : String}
    (added : model.addConstant path name literal = .ok next) : next.Orderly legal := by
  obtain ⟨decl, isDecl, isEnum, fresh, rfl⟩ := addConstant_eq_ok_iff.mp added
  refine orderly.modifyType fun target found here => ⟨?_, rfl, fun _ member => .inl member⟩
  obtain rfl := Option.some.inj (isDecl.symm.trans found)
  exact { here with
    constants := Generation.nodup_map_concat_iff.mpr ⟨here.constants, fresh⟩
    enum := fun _ => isEnum }

/-- **A change of one method that keeps it orderly keeps the model orderly.** -/
theorem modifyMethod (orderly : model.Orderly legal) {path : MethodPath} {change : Method → Method}
    (keeps : ∀ method, model.method? path = some method → OrderlyMethod method →
      OrderlyMethod (change method)) : (model.modifyMethod path change).Orderly legal := by
  refine orderly.modifyType fun target found here =>
    here.replaces target.annotations target.doc fun method member => ?_
  obtain ⟨index, inside, rfl⟩ := List.mem_iff_getElem.mp member
  rw [List.getElem_modify]
  rw [List.length_modify] at inside
  have kept := here.methods _ (List.getElem_mem inside)
  split
  · rename_i same
    have isMethod : model.method? path = some target.methods[index] := by
      unfold Model.method?
      rw [found, Option.bind_some, same]
      exact List.getElem?_eq_getElem inside
    exact keeps _ isMethod kept
  · exact kept

theorem addParameter (orderly : model.Orderly legal) {path : MethodPath} {type : TypeRef}
    {name : String} {place : ParameterPath}
    (added : model.addParameter path type name = .ok (place, next)) : next.Orderly legal := by
  obtain ⟨method, isMethod, isNamed, fresh, -, rfl⟩ := addParameter_eq_ok_iff.mp added
  refine orderly.modifyMethod fun other found here => ?_
  obtain rfl := Option.some.inj (isMethod.symm.trans found)
  refine ⟨?_, Generation.nodup_map_concat_iff.mpr ⟨here.distinct, fresh⟩⟩
  exact List.forall_mem_append.mpr ⟨here.named, List.forall_mem_singleton.mpr isNamed⟩

/-- Annotations are changed apart from everything else. -/
theorem modifyAnnotations (orderly : model.Orderly legal)
    (change : List Annotation → List Annotation) (site : Site) :
    (model.modifyAnnotations change site).Orderly legal := by
  cases site with
  | type path =>
    exact orderly.modifyType fun target _ here =>
      here.replaces (change target.annotations) target.doc here.methods
  | method path => exact orderly.modifyMethod fun method _ here => ⟨here.named, here.distinct⟩
  | parameter path =>
    refine orderly.modifyMethod fun method _ here => ?_
    let marked (parameter : Parameter) : Parameter :=
      { parameter with annotations := change parameter.annotations }
    have names : (method.parameters.modify path.index marked).map (·.name) =
        method.parameters.map (·.name) :=
      map_modify_of_kept fun parameter => show (marked parameter).name = parameter.name from rfl
    refine ⟨fun parameter member => ?_, names.symm ▸ here.distinct⟩
    rcases Generation.mem_modify member with old | ⟨old, isOld, rfl⟩
    · exact here.named parameter old
    · exact here.named old isOld

theorem modifyTypeDoc (orderly : model.Orderly legal) (path : TypePath)
    (change : DocComment → DocComment) : (model.modifyTypeDoc path change).Orderly legal :=
  orderly.modifyType fun target _ here =>
    here.replaces target.annotations (change target.doc) here.methods

theorem modifyMethodDoc (orderly : model.Orderly legal) (path : MethodPath)
    (change : DocComment → DocComment) : (model.modifyMethodDoc path change).Orderly legal :=
  orderly.modifyMethod fun _ _ here => ⟨here.named, here.distinct⟩

end Model.Orderly

end RamlInterfaces.Java
