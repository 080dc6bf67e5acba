/-
**What a model of Java types finds, and what it refuses.**

Types are looked up by their names.  A declaration is refused with a fault that tells why, or it
comes last among those of its kind and nothing else in the model is changed.

* `find?_key_iff`, `TypeDecl.at?_cons`, `Model.type?_nested`: what is kept under distinct names, and
  types inside types;
* `define_eq_ok_iff`, `define_eq_error_iff`: a top-level type is refused for its qualified name;
* `MayNest`, `nest_eq_ok_iff`, `nest_eq_error_iff`: a nested type is refused for its name;
* `addParameter_eq_ok_iff`, `addParameter_eq_error_iff`: so is a parameter, and one without a name;
* `addConstant_eq_ok_iff`, `addConstant_eq_error_iff`: so is a constant, and one of what is no enum.
-/

import Mathlib.Data.List.Nodup
import RamlInterfaces.Java.Model
import RamlInterfaces.Proofs.Except

namespace RamlInterfaces.Java

/-! ### Keys -/

section Keys

variable {α : Type} {items : List α} {key : α → String} {wanted : String} {item : α}

/-- One of several items has a key if that is among their keys. -/
theorem any_key_iff :
    (items.any fun item => key item == wanted) = true ↔ wanted ∈ items.map key := by
  rw [List.any_eq_true, List.mem_map]
  exact exists_congr fun _ => and_congr_right fun _ => beq_iff_eq

/-- **What is kept under distinct keys is found under its own.** -/
theorem find?_key_iff (distinct : (items.map key).Nodup) :
    items.find? (key · == wanted) = some item ↔ item ∈ items ∧ key item = wanted := by
  constructor
  · intro found
    exact ⟨List.mem_of_find?_eq_some found, by simpa using List.find?_some found⟩
  · rintro ⟨member, rfl⟩
    cases found : items.find? (key · == key item) with
    | none => exact absurd (beq_self_eq_true _) (List.find?_eq_none.mp found item member)
    | some other =>
      have same : key other = key item := by simpa using List.find?_some found
      rw [List.inj_on_of_nodup_map distinct (List.mem_of_find?_eq_some found) member same]

/-- What comes last is found under its key if that is new. -/
theorem find?_concat_key (fresh : key item ∉ items.map key) :
    (items ++ [item]).find? (key · == key item) = some item := by
  have none : items.find? (key · == key item) = none := by
    refine List.find?_eq_none.mpr fun other member same => fresh ?_
    exact List.mem_map.mpr ⟨other, member, beq_iff_eq.mp same⟩
  rw [List.find?_append, none, Option.none_or]
  exact List.find?_cons_of_pos (beq_self_eq_true _)

end Keys

/-! ### Types inside types -/

theorem TypeDecl.at?_cons (decl : TypeDecl) (name : String) (rest : List String) :
    decl.at? (name :: rest) =
      (decl.nested.find? (·.name == name)).bind fun inner => inner.at? rest := by
  rw [TypeDecl.at?]
  cases decl.nested.find? (·.name == name) <;> rfl

/-- The type at a longer path is looked up in that at the shorter one. -/
theorem TypeDecl.at?_concat (decl : TypeDecl) (path : List String) (name : String) :
    decl.at? (path ++ [name]) =
      (decl.at? path).bind fun target => target.nested.find? (·.name == name) := by
  induction path generalizing decl with
  | nil =>
    rw [List.nil_append, at?_cons]
    exact Option.bind_fun_some _
  | cons first rest ih =>
    rw [List.cons_append, at?_cons, at?_cons, Option.bind_assoc]
    exact Option.bind_congr fun inner _ => ih inner

namespace Model

variable {model next : Model} {fault : Fault}

theorem type?_nested (model : Model) (path : TypePath) (name : String) :
    model.type? (path.nested name) =
      (model.type? path).bind fun target => target.nested.find? (·.name == name) := by
  have holds : Model.holds (path.nested name) = Model.holds path := rfl
  unfold Model.type?
  rw [holds, Option.bind_assoc]
  exact Option.bind_congr fun unit _ => unit.type.at?_concat path.inner name

/-! ### Types -/

section Types

variable {package name : String} {path : TypePath} {kind : Kind}

/-- **A top-level type is declared unless its qualified name is taken.** -/
theorem define_eq_ok_iff : model.define package name kind = .ok next ↔
    CompilationUnit.qualifiedName ⟨package, { name, kind }⟩ ∉ model.units.map (·.qualifiedName) ∧
      next = { units := model.units ++ [⟨package, { name, kind }⟩] } := by
  unfold define
  dsimp only
  rw [guarded_eq_ok_iff, any_key_iff, Except.ok.injEq, eq_comm (b := next)]

theorem define_eq_error_iff : model.define package name kind = .error fault ↔
    CompilationUnit.qualifiedName ⟨package, { name, kind }⟩ ∈ model.units.map (·.qualifiedName) ∧
      fault = .typeDefined (CompilationUnit.qualifiedName ⟨package, { name, kind }⟩) := by
  unfold define
  dsimp only
  rw [guarded_eq_error_iff, any_key_iff]
  exact or_iff_left fun passed => nomatch passed.2

/-- A type of the name can be nested in the type at a path: that has another name, and so have those
nested in it. -/
def MayNest (model : Model) (path : TypePath) (name : String) : Prop :=
  name ≠ path.name ∧ ∀ decl, model.type? path = some decl → name ∉ decl.nested.map (·.name)

theorem mayNest_iff_of_type? {decl : TypeDecl} (found : model.type? path = some decl) :
    model.MayNest path name ↔ name ≠ path.name ∧ name ∉ decl.nested.map (·.name) := by
  unfold MayNest
  simp only [found, Option.some.injEq, forall_eq']

/-- What is tested before a type is nested. -/
theorem mayNest_iff : model.MayNest path name ↔
    ¬ ((match model.type? path with
      | some decl => decl.nested.any fun inner => inner.name == name
      | none => false) || name == path.name) = true := by
  rw [Bool.or_eq_true, beq_iff_eq, not_or, and_comm]
  cases found : model.type? path with
  | none =>
    unfold MayNest
    simp [found]
  | some decl => rw [mayNest_iff_of_type? found, any_key_iff]

/-- **A type is nested unless its name is taken there.** -/
theorem nest_eq_ok_iff : model.nest path name kind = .ok next ↔
    model.MayNest path name ∧ next = model.modifyType path fun decl =>
      { decl with nested := decl.nested ++ [{ name, kind }] } := by
  refine guarded_eq_ok_iff.trans (and_congr mayNest_iff.symm ?_)
  rw [Except.ok.injEq, eq_comm]

theorem nest_eq_error_iff : model.nest path name kind = .error fault ↔
    ¬ model.MayNest path name ∧ fault = .typeDefined (path.qualifiedName ++ "." ++ name) := by
  rw [mayNest_iff, not_not]
  exact guarded_eq_error_iff.trans (or_iff_left fun passed => nomatch passed.2)

end Types

/-! ### Parameters and constants -/

section Parameters

variable {path : MethodPath} {type : TypeRef} {name : String} {place : ParameterPath}

/-- **A parameter is declared if it has a name that is new in its method.** -/
theorem addParameter_eq_ok_iff : model.addParameter path type name = .ok (place, next) ↔
    ∃ method, model.method? path = some method ∧
      name ≠ "" ∧ name ∉ method.parameters.map (·.name) ∧
        place = ⟨path, method.parameters.length⟩ ∧
          next = model.modifyMethod path fun method =>
            { method with parameters := method.parameters ++ [{ name, type }] } := by
  unfold addParameter
  cases model.method? path with
  | none => exact iff_of_false (fun same => nomatch same) fun ⟨_, same, _⟩ => nomatch same
  | some method =>
    simp only [Option.some.injEq, exists_eq_left']
    rw [guarded_eq_ok_iff, guarded_eq_ok_iff, any_key_iff, String.isEmpty_iff, Except.ok.injEq,
      Prod.mk.injEq, eq_comm (b := place), eq_comm (b := next)]

theorem addParameter_eq_error_iff : model.addParameter path type name = .error fault ↔
    (model.method? path = none ∧ fault = .parameterUnnamed "") ∨
      ∃ method, model.method? path = some method ∧
        ((name = "" ∧ fault = .parameterUnnamed method.name) ∨
          (name ≠ "" ∧ name ∈ method.parameters.map (·.name) ∧
            fault = .parameterDefined name method.name)) := by
  unfold addParameter
  cases model.method? path with
  | none => simp [eq_comm]
  | some method =>
    simp only [Option.some.injEq, exists_eq_left', reduceCtorEq, false_and, false_or]
    rw [guarded_eq_error_iff, guarded_eq_error_iff, any_key_iff, String.isEmpty_iff]
    exact or_congr_right (and_congr_right fun _ => or_iff_left fun passed => nomatch passed.2)

end Parameters

section Constants

variable {path : TypePath} {name literal : String}

/-- **A constant is declared if its type is an enum and its name is new there.** -/
theorem addConstant_eq_ok_iff : model.addConstant path name literal = .ok next ↔
    ∃ decl, model.type? path = some decl ∧
      decl.kind = .enum ∧ name ∉ decl.constants.map (·.name) ∧
        next = model.modifyType path fun decl =>
          { decl with constants := decl.constants ++ [⟨name, literal⟩] } := by
  unfold addConstant
  cases model.type? path with
  | none => exact iff_of_false (fun same => nomatch same) fun ⟨_, same, _⟩ => nomatch same
  | some decl =>
    simp only [Option.some.injEq, exists_eq_left']
    rw [guarded_eq_ok_iff, guarded_eq_ok_iff, any_key_iff, not_not, Except.ok.injEq,
      eq_comm (b := next)]

theorem addConstant_eq_error_iff : model.addConstant path name literal = .error fault ↔
    ((∀ decl, model.type? path = some decl → decl.kind ≠ .enum) ∧
      fault = .notEnum path.qualifiedName) ∨
    ∃ decl, model.type? path = some decl ∧ decl.kind = .enum ∧
      name ∈ decl.constants.map (·.name) ∧ fault = .constantDefined name path.qualifiedName := by
  unfold addConstant
  cases model.type? path with
  | none => simp [eq_comm]
  | some decl =>
    simp only [Option.some.injEq, exists_eq_left', forall_eq']
    rw [guarded_eq_error_iff, guarded_eq_error_iff, any_key_iff, not_not]
    exact or_congr_right (and_congr_right fun _ => or_iff_left fun passed => nomatch passed.2)

end Constants

end Model

end RamlInterfaces.Java
