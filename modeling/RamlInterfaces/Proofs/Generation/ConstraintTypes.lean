/-
**The types that constraints are put on.**

The type of a parameter and its constraints are made from the same facets by two tables of their
own.  They agree: a constraint stands only on a type whose values it can constrain.

* `plainType`, `inferType_cases`: what a type is made from;
* `Constraint.Suits`, `suits_of_mem`: the types that a constraint is for;
* `Agrees`, `inferType_agrees`: **the type of a parameter agrees with its constraints**, in every
  session that comes about.
-/

import RamlInterfaces.Proofs.Generation.Contexts
import RamlInterfaces.Proofs.Generation.IntegerLimits

namespace RamlInterfaces.Generation

open Java
open Settings (Configuration)

variable {p : Raml.Parameter}

/-! ### Types -/

/-- The type of a single value of the declared kind. -/
def kindType (p : Raml.Parameter) : TypeRef := (scalarType? p).getD (.named "java.lang.Object")

/-- The type of a parameter without enum values. -/
def plainType (p : Raml.Parameter) : TypeRef :=
  if p.repeated then .narrow "java.util.List" [kindType p] else kindType p

theorem hasEnum_eq_true_iff : hasEnum p = true ↔
    ∃ first rest, p.enumValues = some (first :: rest) := by
  unfold hasEnum
  cases p.enumValues with
  | none => simp
  | some values => cases values <;> simp

/-- The type of the kind of a parameter is the one that it has for a single value. -/
theorem scalarType_eq {session next : Session} {type : TypeRef}
    (ran : (scalarType p).run session = (.ok type, next)) : type = kindType p := by
  unfold scalarType at ran
  unfold kindType
  split at ran
  · rename_i known found
    rw [found]
    cases ran
    rfl
  · rename_i unknown
    rw [unknown]
    cases ran
    rfl

/-- **The type of a parameter** is an enum of its values, or is made from its kind. -/
theorem inferType_cases {name : String} {owner : Option TypePath} {session next : Session}
    {type : TypeRef} (inferred : (inferType p name owner).run session = (.ok type, next)) :
    (∃ literals around path, hasEnum p = true ∧ literals ≠ [] ∧
        owner.or session.current = some around ∧ type = .declared path ∧
        (createEnum around (typeName name) literals).run session = (.ok path, next)) ∨
      hasEnum p = false ∧ type = plainType p := by
  have looked : (get : Build Session).run session = (.ok session, session) := rfl
  unfold inferType at inferred
  split at inferred
  · rename_i first rest values
    rw [run_bind_ok _ looked] at inferred
    split at inferred
    · rename_i around isAround
      obtain ⟨path, middle, created, returned⟩ := run_bind_eq_ok.mp inferred
      cases returned
      exact .inl ⟨first :: rest, around, path, hasEnum_eq_true_iff.mpr ⟨first, rest, values⟩,
        List.cons_ne_nil first rest, isAround, rfl, created⟩
    · cases inferred
  · rename_i noValues
    obtain ⟨kind, middle, scalar, returned⟩ := run_bind_eq_ok.mp inferred
    cases returned
    refine .inr ⟨Bool.eq_false_iff.mpr fun hasValues => ?_, ?_⟩
    · obtain ⟨first, rest, values⟩ := hasEnum_eq_true_iff.mp hasValues
      exact noValues first rest values
    · rw [scalarType_eq scalar]
      rfl

/-! ### Constraints and types -/

/-- The constraint is one on the values of the type. -/
def Constraint.Suits : Constraint → TypeRef → Prop
  | .notNull, _ => True
  | .size _ _, type | .pattern _, type => type = .named "java.lang.String"
  | .min _, type | .max _, type => type = .primitive .long ∨ type = .named "java.lang.Long"
  | .decimalMin _, type | .decimalMax _, type =>
    type = .primitive .double ∨ type = .named "java.lang.Double"

/-- A primitive type that stands for a kind, or the class that holds it. -/
theorem primitiveOrBoxed_eq (p : Raml.Parameter) (type : Primitive) :
    primitiveOrBoxed p type = .primitive type ∨
      primitiveOrBoxed p type = (TypeRef.primitive type).boxed :=
  ite_eq_or_eq _ _ _

/-- A constraint that a limit implies is one on a type that constraints of its kind are for. -/
theorem suits_of_mem_limits {α : Type} {lower upper : α → Constraint} {least greatest : Option α}
    {c : Constraint} {type : TypeRef}
    (member : c ∈ (least.map lower).toList ++ (greatest.map upper).toList)
    (low : ∀ bound, (lower bound).Suits type) (high : ∀ bound, (upper bound).Suits type) :
    c.Suits type := by
  rcases List.mem_append.mp member with isLeast | isGreatest
  · obtain ⟨bound, -, rfl⟩ := Option.map_eq_some_iff.mp (Option.mem_toList.mp isLeast)
    exact low bound
  · obtain ⟨bound, -, rfl⟩ := Option.map_eq_some_iff.mp (Option.mem_toList.mp isGreatest)
    exact high bound

/-- The constraints of a kind are constraints on the type of that kind. -/
theorem suits_kindType {c : Constraint} (member : c ∈ kindConstraints p) :
    c.Suits (kindType p) := by
  have text (isText : scalarType? p = some stringClass) (member : c ∈ textConstraints p) :
      c.Suits (kindType p) := by
    have isString : kindType p = .named "java.lang.String" := by
      unfold kindType
      rw [isText]
      rfl
    unfold textConstraints at member
    rcases List.mem_append.mp member with length | shape
    · split at length
      · cases List.mem_singleton.mp length
        exact isString
      · cases length
    · split at shape
      · split at shape
        · cases shape
        · cases List.mem_singleton.mp shape
          exact isString
      · cases shape
  unfold kindConstraints at member
  split at member
  · rename_i undeclared
    exact text (by simp [scalarType?, undeclared]) member
  · rename_i declared
    exact text (by simp [scalarType?, declared]) member
  · rename_i declared
    have isInteger : kindType p = primitiveOrBoxed p .long := by
      unfold kindType scalarType?
      rw [declared]
      rfl
    have suits := primitiveOrBoxed_eq p .long
    rw [← isInteger] at suits
    exact suits_of_mem_limits member (fun _ => suits) fun _ => suits
  · rename_i declared
    have isNumber : kindType p = primitiveOrBoxed p .double := by
      unfold kindType scalarType?
      rw [declared]
      rfl
    have suits := primitiveOrBoxed_eq p .double
    rw [← isNumber] at suits
    exact suits_of_mem_limits member (fun _ => suits) fun _ => suits
  · cases member

/-- The values of an enum and of a list have no constraints. -/
theorem eq_notNull_of_mem {c : Constraint} (member : c ∈ constraints p)
    (several : (hasEnum p || p.repeated) = true) : c = .notNull := by
  unfold constraints at member
  rw [if_pos several, List.append_nil] at member
  split at member
  · exact List.mem_singleton.mp member
  · cases member

/-- **The constraints of a parameter without enum values are constraints on its type.** -/
theorem suits_of_mem {c : Constraint} (member : c ∈ constraints p) (noEnum : hasEnum p = false) :
    c.Suits (plainType p) := by
  cases repeated : p.repeated with
  | true =>
    rw [eq_notNull_of_mem member (by rw [repeated, Bool.or_true])]
    trivial
  | false =>
    have single : plainType p = kindType p := by
      unfold plainType
      rw [repeated]
      rfl
    unfold constraints at member
    rw [noEnum, repeated] at member
    rw [single]
    rcases List.mem_append.mp member with required | ofKind
    · split at required
      · rw [List.mem_singleton.mp required]
        trivial
      · cases required
    · exact suits_kindType ofKind

/-! ### Primitive types -/

/-- The type of a kind is a class, or a primitive type that a class may stand for. -/
theorem kindType_cases (p : Raml.Parameter) : (∃ name, kindType p = .named name) ∨
    ∃ type, type ≠ .void ∧ kindType p = primitiveOrBoxed p type := by
  unfold kindType scalarType?
  split
  · exact .inl ⟨_, rfl⟩
  · exact .inl ⟨_, rfl⟩
  · exact .inr ⟨.boolean, by decide, rfl⟩
  · exact .inr ⟨.long, by decide, rfl⟩
  · exact .inr ⟨.double, by decide, rfl⟩
  · exact .inl ⟨_, rfl⟩
  · exact .inl ⟨_, rfl⟩
  · exact .inl ⟨_, rfl⟩

theorem isPrimitive_boxed {type : Primitive} (value : type ≠ .void) :
    (TypeRef.primitive type).boxed.isPrimitive = false := by
  cases type with
  | void => exact absurd rfl value
  | _ => rfl

/-- The type of a kind is primitive only where the parameter always has one value. -/
theorem usesPrimitive_of_isPrimitive (primitive : (kindType p).isPrimitive = true) :
    usesPrimitive p = true := by
  rcases kindType_cases p with ⟨name, isClass⟩ | ⟨type, value, same⟩
  · rw [isClass] at primitive
    cases primitive
  · rw [same] at primitive
    unfold primitiveOrBoxed at primitive
    split at primitive
    · assumption
    · rw [isPrimitive_boxed value] at primitive
      cases primitive

/-- The class that holds the type of a kind is a class. -/
theorem isPrimitive_boxed_kindType (p : Raml.Parameter) :
    (kindType p).boxed.isPrimitive = false := by
  rcases kindType_cases p with ⟨name, isClass⟩ | ⟨type, value, same⟩
  · rw [isClass]
    rfl
  · rw [same]
    rcases primitiveOrBoxed_eq p type with isPrimitive | isBoxed
    · rw [isPrimitive]
      exact isPrimitive_boxed value
    · rw [isBoxed]
      cases type <;> first | exact absurd rfl value | rfl

/-- **The type of a parameter is primitive** only where that is not repeated and always has a
value. -/
theorem single_of_isPrimitive (primitive : (plainType p).isPrimitive = true) :
    p.repeated = false ∧ (p.required = true ∨ hasText p.default = true) := by
  unfold plainType at primitive
  split at primitive
  · cases primitive
  · have uses := usesPrimitive_of_isPrimitive primitive
    unfold usesPrimitive at uses
    rw [Bool.and_eq_true, Bool.not_eq_true', Bool.or_eq_true] at uses
    exact uses

/-! ### Agreement -/

/-- Among the annotations is one for a constraint of the given simple name. -/
def HasMark (marks : List Annotation) (name : String) : Prop :=
  ∃ mark ∈ marks, mark.type = .named ("javax.validation.constraints." ++ name)

/-- The annotations only say that there is a value. -/
def OnlyNotNull (marks : List Annotation) : Prop :=
  ∀ mark ∈ marks, mark.type = .named "javax.validation.constraints.NotNull"

/-- The type of a parameter agrees with the annotations for its constraints; an enum is one of the
model, nested under the given name. -/
structure Agrees (p : Raml.Parameter) (around : Option TypePath) (name : String) (model : Model)
    (type : TypeRef) (marks : List Annotation) : Prop where
  text : HasMark marks "Size" ∨ HasMark marks "Pattern" → type = .named "java.lang.String"
  integer : HasMark marks "Min" ∨ HasMark marks "Max" →
    type = .primitive .long ∨ type = .named "java.lang.Long"
  number : HasMark marks "DecimalMin" ∨ HasMark marks "DecimalMax" →
    type = .primitive .double ∨ type = .named "java.lang.Double"
  enum : hasEnum p = true → OnlyNotNull marks ∧ ∃ owner path, around = some owner ∧
    type = .declared path ∧ StandsAt model owner.qualifiedName name path
  list : hasEnum p = false → p.repeated = true → OnlyNotNull marks ∧ ∃ argument,
    type = .outside "java.util.List" [argument] ∧ argument.isPrimitive = false
  primitive : type.isPrimitive = true →
    p.repeated = false ∧ (p.required = true ∨ hasText p.default = true)

theorem exists_of_hasMark {all : List Constraint} {name : String}
    (marked : HasMark (emitted all) name) : ∃ c ∈ all, c.simpleName = name := by
  obtain ⟨mark, member, type⟩ := marked
  obtain ⟨c, isConstraint, rfl⟩ := exists_of_mem_emitted member
  exact ⟨c, isConstraint, constraintMark_type_iff.mp type⟩

theorem onlyNotNull_emitted (several : (hasEnum p || p.repeated) = true) :
    OnlyNotNull (emitted (constraints p)) := by
  intro mark member
  obtain ⟨c, isConstraint, rfl⟩ := exists_of_mem_emitted member
  rw [eq_notNull_of_mem isConstraint several]
  rfl

/-- Constraints on the values of a type are put on that type only. -/
theorem suits_marks {type : TypeRef} {all : List Constraint} (suits : ∀ c ∈ all, c.Suits type) :
    (HasMark (emitted all) "Size" ∨ HasMark (emitted all) "Pattern" →
        type = .named "java.lang.String") ∧
      (HasMark (emitted all) "Min" ∨ HasMark (emitted all) "Max" →
        type = .primitive .long ∨ type = .named "java.lang.Long") ∧
      (HasMark (emitted all) "DecimalMin" ∨ HasMark (emitted all) "DecimalMax" →
        type = .primitive .double ∨ type = .named "java.lang.Double") := by
  have each (name : String) (marked : HasMark (emitted all) name) :
      ∃ c : Constraint, c.simpleName = name ∧ c.Suits type := by
    obtain ⟨c, member, named⟩ := exists_of_hasMark marked
    exact ⟨c, named, suits c member⟩
  refine ⟨?_, ?_, ?_⟩
  all_goals
    rintro (marked | marked)
    all_goals
      obtain ⟨c, named, isSuited⟩ := each _ marked
      cases c <;> first | exact isSuited | exact absurd named (by simp [Constraint.simpleName])

/-- **The type of a parameter agrees with its constraints**, in every session that comes about. -/
theorem inferType_agrees {configuration : Configuration} {session next : Session}
    (arises : Arises configuration session) {name : String} {owner : Option TypePath}
    {type : TypeRef} (inferred : (inferType p name owner).run session = (.ok type, next)) :
    (∀ site before, ((annotateConstraints p site).run before).2 =
        before.annotated site (emitted (constraints p))) ∧
      Agrees p (owner.or session.current) (typeName name) next.model type
        (emitted (constraints p)) := by
  refine ⟨fun site before => congrArg Prod.snd (annotateConstraints_run p site before), ?_⟩
  rcases inferType_cases inferred with
    ⟨literals, around, path, isEnum, some, isAround, rfl, created⟩ | ⟨noEnum, rfl⟩
  · have several : (hasEnum p || p.repeated) = true := by rw [isEnum, Bool.true_or]
    have suits : ∀ c ∈ constraints p, c.Suits (.declared path) := by
      intro c member
      rw [eq_notNull_of_mem member several]
      trivial
    obtain ⟨text, integer, number⟩ := suits_marks suits
    have stands := createEnum_stands around (typeName name) literals some session path next
      arises.stands created
    exact {
      text, integer, number
      enum := fun _ => ⟨onlyNotNull_emitted several, around, path, isAround, rfl, stands⟩
      list := fun noEnum => by
        rw [isEnum] at noEnum
        cases noEnum
      primitive := fun primitive => by cases primitive }
  · obtain ⟨text, integer, number⟩ := suits_marks fun c member => suits_of_mem member noEnum
    exact {
      text, integer, number
      enum := fun isEnum => by
        rw [noEnum] at isEnum
        cases isEnum
      list := fun _ repeated => by
        refine ⟨onlyNotNull_emitted (by rw [repeated, Bool.or_true]), (kindType p).boxed, ?_,
          isPrimitive_boxed_kindType p⟩
        exact if_pos repeated
      primitive := single_of_isPrimitive }

/-- A parameter with values to choose from. -/
def sortOrder : Raml.Parameter where
  enumValues := some ["up", "down"]
  required := true
  repeated := true
  minLength := some 2

/-- The steps of a session that remembers the enum of the parameter. -/
def sortMoves : List Move :=
  [.call (.interface "Users"), .infer sortOrder "order" (some (interfaceOf "api" "Users"))]

theorem inferType_agrees_sortOrder : ∃ session type next,
    Arises { basePackage := "api" } session ∧ session.enums.length = 1 ∧
      (inferType sortOrder "order" (some (interfaceOf "api" "Users"))).run session =
        (.ok type, next) ∧
      Agrees sortOrder (some (interfaceOf "api" "Users")) "Order" next.model type
        (emitted (constraints sortOrder)) := by
  let start : Session := { configuration := { basePackage := "api" } }
  let final := sortMoves.foldl (fun session move => (move.perform.run session).2) start
  have arises : Arises { basePackage := "api" } final := ((Arises.start rfl).move _).move _
  have inferred : ((inferType sortOrder "order" (some (interfaceOf "api" "Users"))).run
      final).1.isOk = true := by
    decide +kernel
  cases ran : (inferType sortOrder "order" (some (interfaceOf "api" "Users"))).run final with
  | mk outcome next =>
    rw [ran] at inferred
    cases outcome with
    | error failure => cases inferred
    | ok type =>
      refine ⟨final, type, next, arises, by decide +kernel, ran, ?_⟩
      have named : typeName "order" = "Order" := by decide +kernel
      exact named ▸ (inferType_agrees arises ran).2

end RamlInterfaces.Generation
