/-
**Enums of an interface.**

The parameters of an interface ask for enums.  The first that asks for a name declares the enum, and
each later one must ask for the same literals.

* `Request`, `enumsOf`: what is asked for, and the enums that are declared for that;
* `Admits`: an enum can be asked for after others;
* `createEnum_decides`: **an enum is there exactly when it can be asked for**.
-/

import RamlInterfaces.Proofs.Generation.Filling

namespace RamlInterfaces.Generation

open Java
open Settings (Configuration)

/-! ### Requests -/

/-- An enum of a name with literals is asked for. -/
structure Request where
  name : String
  literals : List String
deriving DecidableEq, Repr

/-- The enum of a name with literals. -/
def enumDecl (name : String) (literals : List String) : TypeDecl where
  name := name
  kind := .enum
  constants := literals.map fun literal => ⟨constantName literal, literal⟩

/-- The enums after one more was asked for. -/
def askFor (nested : List TypeDecl) (request : Request) : List TypeDecl :=
  if (nested.find? (·.name == request.name)).isSome then nested
  else nested ++ [enumDecl request.name request.literals]

/-- The enums that are declared for what is asked for. -/
def enumsOf (requests : List Request) : List TypeDecl := requests.foldl askFor []

/-- An enum can be asked for after others: it was asked for with the same literals, or its name is
not that of the interface and its constants have distinct names. -/
def Admits (owner : String) (asked : List Request) (request : Request) : Prop :=
  match asked.find? (·.name == request.name) with
  | some known => known.literals = request.literals
  | none => request.name ≠ owner ∧ (request.literals.map constantName).Nodup

theorem enumsOf_concat (asked : List Request) (request : Request) :
    enumsOf (asked ++ [request]) = askFor (enumsOf asked) request := by
  unfold enumsOf
  rw [List.foldl_append]
  rfl

theorem find?_askFor {nested : List TypeDecl} {request : Request} {name : String} :
    (askFor nested request).find? (·.name == name) =
      (nested.find? (·.name == name)).or
        (([request].find? (·.name == name)).map fun known =>
          enumDecl known.name known.literals) := by
  unfold askFor
  by_cases same : request.name = name
  · cases found : nested.find? (·.name == name) with
    | some inner => simp [same, found]
    | none => simp [same, found, List.find?_append, enumDecl]
  · have other : (request.name == name) = false := beq_false_of_ne same
    split
    · simp [other]
    · simp [other, List.find?_append, enumDecl]

/-- **The enum of a name is the one that was asked for first.** -/
theorem find?_enumsOf (asked : List Request) (name : String) :
    (enumsOf asked).find? (·.name == name) =
      (asked.find? (·.name == name)).map fun known => enumDecl known.name known.literals := by
  have further (nested : List TypeDecl) : (asked.foldl askFor nested).find? (·.name == name) =
      (nested.find? (·.name == name)).or
        ((asked.find? (·.name == name)).map fun known => enumDecl known.name known.literals) := by
    induction asked generalizing nested with
    | nil => simp
    | cons request rest ih =>
      rw [List.foldl_cons, ih, find?_askFor, Option.or_assoc]
      congr 1
      cases same : request.name == name with
      | true => simp [same]
      | false => simp [same]
  exact (further []).trans (Option.none_or)

/-- The literals of an enum are those that were asked for. -/
theorem literals_enumDecl (name : String) (literals : List String) :
    (enumDecl name literals).constants.map (·.literal) = literals := by
  unfold enumDecl
  rw [List.map_map]
  exact List.map_id _

/-! ### Enums in a session -/

variable {configuration : Configuration} {done : List Outline} {outline : Outline}

/-- The outline with the enums that are declared for what is asked for. -/
def Outline.withEnums (outline : Outline) (asked : List Request) : Outline :=
  { outline with nested := enumsOf asked }

theorem interfaceOf_injective {base name other : String}
    (same : (interfaceOf base name).qualifiedName = (interfaceOf base other).qualifiedName) :
    name = other :=
  qualify_injective same

/-- **The enum that a session remembers for a name** is the one in the last interface. -/
theorem find?_enums (base : String) (distinct : ((done ++ [outline]).map (·.name)).Nodup)
    (name : String) :
    ((done ++ [outline]).flatMap (Outline.enums base)).find? (fun known =>
        known.owner == (interfaceOf base outline.name).qualifiedName && known.name == name) =
      (outline.nested.find? (·.name == name)).map (knownEnum base outline.name) := by
  rw [List.flatMap_append, List.find?_append, List.flatMap_singleton]
  have elsewhere : (done.flatMap (Outline.enums base)).find? (fun known =>
      known.owner == (interfaceOf base outline.name).qualifiedName && known.name == name) =
        none := by
    refine List.find?_eq_none.mpr fun known member isAsked => ?_
    obtain ⟨other, isDone, isKnown⟩ := List.mem_flatMap.mp member
    obtain ⟨inner, _, rfl⟩ := List.mem_map.mp isKnown
    have sameOwner := interfaceOf_injective (beq_iff_eq.mp (Bool.and_eq_true _ _ ▸ isAsked).1)
    refine (nodup_map_concat_iff.mp distinct).2 ?_
    rw [← sameOwner]
    exact List.mem_map_of_mem isDone
  rw [elsewhere, Option.none_or]
  unfold Outline.enums
  rw [List.find?_map]
  congr 2
  funext inner
  show (_ == _ && inner.name == name) = (inner.name == name)
  rw [knownEnum, beq_self_eq_true, Bool.true_and]

/-- The enum that a session remembers for a name is the one that was asked for first. -/
theorem Reached.find?_asked {asked : List Request} {session : Session}
    (holds : Reached configuration (done ++ [outline.withEnums asked]) session) (name : String) :
    session.enums.find? (fun known => known.owner ==
        (interfaceOf configuration.basePackage outline.name).qualifiedName && known.name == name) =
      ((asked.find? (·.name == name)).map fun known => enumDecl known.name known.literals).map
        (knownEnum configuration.basePackage outline.name) := by
  have declared : (outline.withEnums asked).nested.find? (·.name == name) =
      (asked.find? (·.name == name)).map fun known => enumDecl known.name known.literals :=
    find?_enumsOf asked name
  rw [← declared, holds.enums]
  exact find?_enums configuration.basePackage holds.outlined.distinct name

/-- A session that declares a type in its last interface and does not remember it yet. -/
def Declaring (configuration : Configuration) (done : List Outline) (outline : Outline)
    (inner : TypeDecl) (session : Session) : Prop :=
  Holds configuration ((done ++ [outline]).flatMap (Outline.enums configuration.basePackage))
    (verbNames session) (done ++ [outline.addNested inner]) session

section Declaration

variable {name : String} (fresh : name ∉ outline.nested.map (·.name))

include fresh

/-- An enum of a new name is nested in the last interface, unless that has the name itself. -/
theorem nestEnum_decides : Decides (Reached configuration (done ++ [outline]))
    (Build.nest (interfaceOf configuration.basePackage outline.name) name .enum)
    (name ≠ outline.name) fun path session =>
      path = (interfaceOf configuration.basePackage outline.name).nested name ∧
        Declaring configuration done outline (enumDecl name []) session := by
  refine Decides.attempt fun session holds => Settles.map ?_
  refine ((holds.outlined.nest name .enum).mono fun next _ outlined => ⟨rfl, ?_⟩).congr ?_
  · exact and_iff_right fresh
  · exact Holds.change holds outlined

/-- Constants are added to an enum if they have distinct names. -/
theorem addConstants_decides (literals : List String) :
    Decides (Declaring configuration done outline (enumDecl name []))
      (forM literals fun literal => Build.attempt fun model =>
        (model.addConstant ((interfaceOf configuration.basePackage outline.name).nested name)
          (constantName literal) literal).map fun model => ((), model))
      (literals.map constantName).Nodup
      fun _ => Declaring configuration done outline (enumDecl name literals) := by
  let path := (interfaceOf configuration.basePackage outline.name).nested name
  have round (before : List String) (literal : String) :
      Decides (Declaring configuration done outline (enumDecl name before))
        (Build.attempt fun model =>
          (model.addConstant path (constantName literal) literal).map fun model => ((), model))
        (constantName literal ∉ before.map constantName)
        fun _ => Declaring configuration done outline (enumDecl name (before ++ [literal])) := by
    refine Decides.attempt fun session holds => Settles.map ?_
    have names : (enumDecl name before).constants.map (·.name) = before.map constantName := by
      unfold enumDecl
      rw [List.map_map]
      rfl
    have added := holds.outlined.addConstant fresh rfl (constantName literal) literal
    rw [names] at added
    refine added.mono fun next _ outlined => Holds.change holds ?_
    unfold enumDecl
    rw [List.map_append]
    exact outlined
  have distinct : (([] : List String).map constantName).Nodup := List.nodup_nil
  exact (Decides.forM round [] literals).congr (throughout_notMem_iff distinct)

end Declaration

/-- The enum is remembered. -/
theorem Declaring.remember {name : String} {literals : List String} {session : Session}
    (holds : Declaring configuration done outline (enumDecl name literals) session) :
    Reached configuration (done ++ [outline.addNested (enumDecl name literals)]) { session with
      enums := session.enums ++ [⟨
        (interfaceOf configuration.basePackage outline.name).qualifiedName,
        name, literals, (interfaceOf configuration.basePackage outline.name).nested name⟩] } := by
  let base := configuration.basePackage
  have entry : knownEnum base outline.name (enumDecl name literals) =
      ⟨(interfaceOf base outline.name).qualifiedName, name, literals,
        (interfaceOf base outline.name).nested name⟩ := by
    unfold knownEnum
    rw [literals_enumDecl]
    rfl
  have split : (outline.addNested (enumDecl name literals)).enums base =
      outline.enums base ++ [knownEnum base outline.name (enumDecl name literals)] :=
    List.map_append
  refine ⟨holds.settings, ?_, holds.verbs, holds.outlined⟩
  rw [holds.enums, List.flatMap_append, List.flatMap_append, List.flatMap_singleton,
    List.flatMap_singleton, split, entry, List.append_assoc]

/-- Nothing is declared for an enum that was asked for before. -/
theorem withEnums_concat_of_some (outline : Outline) {asked : List Request}
    {request known : Request}
    (found : asked.find? (·.name == request.name) = some known) :
    outline.withEnums (asked ++ [request]) = outline.withEnums asked := by
  have isThere : ((enumsOf asked).find? (·.name == request.name)).isSome = true := by
    rw [find?_enumsOf, found]
    rfl
  unfold Outline.withEnums
  rw [enumsOf_concat, askFor, if_pos isThere]

/-- An enum that was not asked for before is declared. -/
theorem withEnums_concat_of_none (outline : Outline) {asked : List Request} {request : Request}
    (none : asked.find? (·.name == request.name) = none) :
    request.name ∉ (outline.withEnums asked).nested.map (·.name) ∧
      outline.withEnums (asked ++ [request]) =
        (outline.withEnums asked).addNested (enumDecl request.name request.literals) := by
  have absent : (enumsOf asked).find? (·.name == request.name) = Option.none := by
    rw [find?_enumsOf, none]
    rfl
  constructor
  · intro member
    obtain ⟨inner, isNested, same⟩ := List.mem_map.mp member
    exact List.find?_eq_none.mp absent inner isNested (beq_iff_eq.mpr same)
  · have isNew : ¬ ((enumsOf asked).find? (·.name == request.name)).isSome = true := by
      rw [absent]
      exact Bool.false_ne_true
    unfold Outline.withEnums
    rw [enumsOf_concat, askFor, if_neg isNew]
    rfl

/-- **An enum is there exactly when it can be asked for.** -/
theorem createEnum_decides (asked : List Request) (request : Request) :
    Decides (Reached configuration (done ++ [outline.withEnums asked]))
      (createEnum (interfaceOf configuration.basePackage outline.name) request.name
        request.literals) (Admits outline.name asked request)
      fun _ => Reached configuration (done ++ [outline.withEnums (asked ++ [request])]) := by
  refine Decides.get_bind fun seen holds => ?_
  dsimp only
  rw [holds.find?_asked]
  unfold Admits
  cases found : asked.find? (·.name == request.name) with
  | some known =>
    have literals := literals_enumDecl known.name known.literals
    show Decides _ (if (enumDecl known.name known.literals).constants.map (·.literal) =
      request.literals then _ else _) _ _
    rw [literals, withEnums_concat_of_some outline found]
    split
    · rename_i isSame
      refine Decides.congr (Decides.pure fun session isSeen => ?_) (iff_true_intro isSame).symm
      rw [isSeen]
      exact holds
    · rename_i isOther
      exact (Decides.throw (.inl ⟨_, rfl, rfl⟩)).congr (iff_false_intro isOther).symm
  | none =>
    obtain ⟨fresh, later⟩ := withEnums_concat_of_none outline found
    let owner := interfaceOf configuration.basePackage outline.name
    have noted : Decides
        (Declaring configuration done (outline.withEnums asked)
          (enumDecl request.name request.literals))
        (modify fun session : Session => { session with enums := session.enums ++
          [⟨owner.qualifiedName, request.name, request.literals, owner.nested request.name⟩] }) True
        fun _ => Reached configuration (done ++ [outline.withEnums (asked ++ [request])]) := by
      rw [later]
      exact Decides.modify fun _ holds => holds.remember
    refine ((nestEnum_decides fresh).start holds).bind fun path => Decides.assuming fun isPath => ?_
    rw [isPath, loop_eq_forM]
    refine (addConstants_decides fresh request.literals).close fun _ => ?_
    exact noted.andThen fun _ => Decides.pure fun _ holds => holds

/-! ### Types of parameters -/

/-- The enum that a parameter under the name of its variable asks for. -/
def requestsOf (name : String) (p : Raml.Parameter) : List Request :=
  match p.enumValues with
  | some (first :: rest) => [⟨typeName name, first :: rest⟩]
  | _ => []

/-- A parameter without values to choose from asks for no enum. -/
theorem requestsOf_of_plain {p : Raml.Parameter}
    (plain : ∀ first rest, p.enumValues = some (first :: rest) → False) (name : String) :
    requestsOf name p = [] := by
  unfold requestsOf
  split
  · rename_i first rest values
    exact (plain first rest values).elim
  · rfl

/-- **A parameter has a type exactly when its enum can be asked for.** -/
theorem inferType_decides (outline : Outline) (asked : List Request) (p : Raml.Parameter)
    (name : String) :
    Decides (Reached configuration (done ++ [outline.withEnums asked]))
      (inferType p name (some (interfaceOf configuration.basePackage outline.name)))
      (Throughout (Admits outline.name) asked (requestsOf name p))
      fun _ => Reached configuration
        (done ++ [outline.withEnums (asked ++ requestsOf name p)]) := by
  unfold inferType
  split
  · rename_i first rest values
    have requests : requestsOf name p = [⟨typeName name, first :: rest⟩] := by
      unfold requestsOf
      rw [values]
    rw [requests]
    refine Decides.congr (Decides.get_bind fun seen holds => ?_) throughout_singleton_iff.symm
    refine ((createEnum_decides asked ⟨typeName name, first :: rest⟩).start holds).close fun _ => ?_
    exact Decides.pure fun _ holds => holds
  · rename_i plain
    rw [requestsOf_of_plain plain, List.append_nil]
    have scalar : Decides (Reached configuration (done ++ [outline.withEnums asked]))
        (scalarType p) True fun _ => Reached configuration (done ++ [outline.withEnums asked]) := by
      unfold scalarType
      split
      · exact Decides.pure fun _ holds => holds
      · exact (report_decides _ _).andThen fun _ => Decides.pure fun _ holds => holds
    exact scalar.andThen fun type => Decides.pure fun _ holds => holds

end RamlInterfaces.Generation
