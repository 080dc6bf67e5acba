/-
**The qualified names of a model.**

A model keeps its top-level types by their qualified names, and every type the types nested in it by
their simple names.  Each of these tables is kept free of duplicates, but no table has the qualified
names of all types: a package may be named like a type, and then a type of that package like one
that is nested there.

* `nameParts`, `qualifiedName_eq_iff`: the parts of a qualified name between its dots;
* `mem_modelPaths_iff`, `nodup_modelPaths_of_orderly`: **every type has a path of its own**;
* `exists_clash`: **two types of one qualified name make a nested type one of that of a top-level
  type**;
* `performInOrder_qualifiedNames`: **which names a model that is reached keeps apart**;
* `performInOrder_clashes`: names that it does not.
-/

import RamlInterfaces.Proofs.Generation.Legality
import RamlInterfaces.Proofs.Generation.ModelOperations

namespace RamlInterfaces.Generation

open Java
open Settings (Configuration)

/-! ### Parts of a qualified name -/

/-- The parts of a package between its dots; the nameless package has none. -/
def packageParts (package : String) : List (List Char) :=
  if package.isEmpty then [] else Text.pieces '.' package.toList

/-- The parts of a package, and the names of a type and of the types around it. -/
def nameParts (path : TypePath) : List (List Char) := packageParts path.package ++ path.names

/-- No name of the path has a dot. -/
def SimplePath (path : TypePath) : Prop :=
  ∀ name ∈ path.outermost :: path.inner, '.' ∉ name.toList

theorem eq_of_pieces {name other : String}
    (same : Text.pieces '.' name.toList = Text.pieces '.' other.toList) : name = other := by
  apply String.toList_injective
  rw [← Text.join_pieces '.' name.toList, same, Text.join_pieces]

theorem packageParts_injective {package other : String}
    (same : packageParts package = packageParts other) : package = other := by
  unfold packageParts at same
  split at same <;> split at same
  · rename_i none otherNone
    rw [String.isEmpty_iff.mp none, String.isEmpty_iff.mp otherNone]
  · exact absurd same.symm (Text.pieces_ne_nil _ _)
  · exact absurd same (Text.pieces_ne_nil _ _)
  · exact eq_of_pieces same

theorem pieces_eq_nameParts {path : TypePath} (simple : SimplePath path) :
    Text.pieces '.' path.qualifiedName.toList = nameParts path := by
  unfold nameParts packageParts
  split
  · rename_i nameless
    exact pieces_qualifiedName_nameless nameless simple
  · rename_i based
    exact pieces_qualifiedName (Bool.eq_false_iff.mpr based) simple

/-- **Paths have one qualified name if and only if it has the same parts in both.** -/
theorem qualifiedName_eq_iff {path other : TypePath} (simple : SimplePath path)
    (otherSimple : SimplePath other) :
    path.qualifiedName = other.qualifiedName ↔ nameParts path = nameParts other := by
  rw [← pieces_eq_nameParts simple, ← pieces_eq_nameParts otherSimple]
  exact ⟨fun same => by rw [same], eq_of_pieces⟩

/-! ### Paths of types -/

/-- The path of a type some names further in. -/
def furtherIn (path : TypePath) (inner : List String) : TypePath :=
  { path with inner := path.inner ++ inner }

theorem furtherIn_nil (path : TypePath) : furtherIn path [] = path := by
  unfold furtherIn
  rw [List.append_nil]

theorem furtherIn_nested (path : TypePath) (name : String) (inner : List String) :
    furtherIn (path.nested name) inner = furtherIn path (name :: inner) := by
  unfold furtherIn TypePath.nested
  rw [List.append_assoc]
  rfl

theorem typePaths_eq_cons (path : TypePath) (decl : TypeDecl) :
    typePaths path decl =
      path :: decl.nested.flatMap fun inner => typePaths (path.nested inner.name) inner := by
  have nested (decls : List TypeDecl) : typePaths.nestedPaths path decls =
      decls.flatMap fun inner => typePaths (path.nested inner.name) inner := by
    induction decls with
    | nil => rfl
    | cons first rest ih => rw [typePaths.nestedPaths, ih, List.flatMap_cons]
  obtain ⟨name, kind, annotations, doc, methods, inner, constants⟩ := decl
  rw [typePaths, nested]

variable {legal : String → Prop} {decl : TypeDecl} {model : Model} {path : TypePath}

/-- **The paths of a type and of those nested in it** are those that lead to types. -/
theorem mem_typePaths_iff (all : decl.All (OrderlyType legal)) {top : TypePath} :
    path ∈ typePaths top decl ↔
      ∃ inner target, decl.at? inner = some target ∧ path = furtherIn top inner := by
  induction all generalizing top with
  | @intro decl here inside ih =>
    rw [typePaths_eq_cons, List.mem_cons, List.mem_flatMap]
    constructor
    · rintro (rfl | ⟨inner, member, deeper⟩)
      · exact ⟨[], decl, rfl, (furtherIn_nil path).symm⟩
      · obtain ⟨names, target, found, rfl⟩ := (ih inner member).mp deeper
        refine ⟨inner.name :: names, target, ?_, furtherIn_nested _ _ _⟩
        rw [TypeDecl.at?_cons, (find?_key_iff here.nested).mpr ⟨member, rfl⟩]
        exact found
    · rintro ⟨inner, target, found, rfl⟩
      cases inner with
      | nil => exact .inl (furtherIn_nil top)
      | cons name names =>
        rw [TypeDecl.at?_cons, Option.bind_eq_some_iff] at found
        obtain ⟨inner, isInner, there⟩ := found
        obtain ⟨member, named⟩ := (find?_key_iff here.nested).mp isInner
        refine .inr ⟨inner, member, (ih inner member).mpr ⟨names, target, there, ?_⟩⟩
        rw [furtherIn_nested, named]

/-- No two types in one have one path. -/
theorem nodup_typePaths (all : decl.All (OrderlyType legal)) (top : TypePath) :
    (typePaths top decl).Nodup := by
  induction all generalizing top with
  | @intro decl here inside ih =>
    have start {inner : TypeDecl} {path : TypePath} (member : inner ∈ decl.nested)
        (deeper : path ∈ typePaths (top.nested inner.name) inner) :
        ∃ names, path.inner = top.inner ++ inner.name :: names := by
      obtain ⟨names, _, _, rfl⟩ := (mem_typePaths_iff (inside inner member)).mp deeper
      exact ⟨names, congrArg TypePath.inner (furtherIn_nested top inner.name names)⟩
    rw [typePaths_eq_cons, List.nodup_cons]
    refine ⟨fun member => ?_, List.nodup_flatMap.mpr ⟨fun inner member => ih inner member _, ?_⟩⟩
    · obtain ⟨inner, isInner, deeper⟩ := List.mem_flatMap.mp member
      obtain ⟨names, same⟩ := start isInner deeper
      exact absurd (List.append_right_eq_self.mp same.symm) (List.cons_ne_nil _ _)
    · have distinct : decl.nested.Pairwise fun inner other => inner.name ≠ other.name :=
        List.pairwise_map.mp here.nested
      refine distinct.imp_of_mem fun isInner isOther different path first second => ?_
      obtain ⟨names, same⟩ := start isInner first
      obtain ⟨others, otherSame⟩ := start isOther second
      rw [same] at otherSame
      exact different (List.cons.inj (List.append_cancel_left otherSame)).1

/-- **The paths of a model** are those that lead to types. -/
theorem mem_modelPaths_iff (orderly : model.Orderly legal) :
    path ∈ modelPaths model ↔ ∃ target, model.type? path = some target := by
  unfold modelPaths
  rw [List.mem_flatMap]
  constructor
  · rintro ⟨unit, member, inside⟩
    obtain ⟨inner, target, found, rfl⟩ := (mem_typePaths_iff (orderly.types unit member)).mp inside
    refine ⟨target, ?_⟩
    rw [orderly.type?_eq member (holds_iff.mpr ⟨rfl, rfl⟩)]
    exact found
  · rintro ⟨target, found⟩
    obtain ⟨unit, isUnit, there⟩ := Option.bind_eq_some_iff.mp found
    have member := List.mem_of_find?_eq_some isUnit
    obtain ⟨package, name⟩ := holds_iff.mp (List.find?_some isUnit)
    refine ⟨unit, member, (mem_typePaths_iff (orderly.types unit member)).mpr ?_⟩
    refine ⟨path.inner, target, there, ?_⟩
    unfold furtherIn CompilationUnit.path
    rw [package, name]
    rfl

/-- **No two types of a model have one path.** -/
theorem nodup_modelPaths_of_orderly (orderly : model.Orderly legal) : (modelPaths model).Nodup := by
  have apart : model.units.Pairwise fun unit other => unit.qualifiedName ≠ other.qualifiedName :=
    List.pairwise_map.mp orderly.registry
  refine List.nodup_flatMap.mpr
    ⟨fun unit member => nodup_typePaths (orderly.types unit member) _, ?_⟩
  refine apart.imp_of_mem fun {unit other} isUnit isOther different path first second => ?_
  obtain ⟨inner, _, _, rfl⟩ := (mem_typePaths_iff (orderly.types unit isUnit)).mp first
  obtain ⟨others, _, _, same⟩ := (mem_typePaths_iff (orderly.types other isOther)).mp second
  have package : unit.package = other.package := congrArg TypePath.package same
  have name : unit.type.name = other.type.name := congrArg TypePath.outermost same
  refine different ?_
  unfold CompilationUnit.qualifiedName CompilationUnit.path
  rw [package, name]

/-! ### Names on the way to a type -/

/-- The names on the way to a type have the given form, and no two of them that follow each other
are one name. -/
theorem names_of_at? (all : decl.All (OrderlyType legal)) {inner : List String} {target : TypeDecl}
    (found : decl.at? inner = some target) :
    (∀ name ∈ decl.name :: inner, legal name) ∧ (decl.name :: inner).IsChain (· ≠ ·) := by
  induction inner generalizing decl with
  | nil => exact ⟨List.forall_mem_singleton.mpr all.here.named, .singleton _⟩
  | cons name rest ih =>
    rw [TypeDecl.at?_cons, Option.bind_eq_some_iff] at found
    obtain ⟨inner, isInner, there⟩ := found
    obtain ⟨member, named⟩ := (find?_key_iff all.here.nested).mp isInner
    obtain ⟨legals, chain⟩ := ih (all.inside inner member) there
    rw [named] at legals chain
    have other : decl.name ≠ name := by
      rintro same
      rw [← named] at same
      exact all.here.other (same ▸ List.mem_map_of_mem member)
    exact ⟨List.forall_mem_cons.mpr ⟨all.here.named, legals⟩, .cons_cons other chain⟩

theorem names_of_type? (orderly : model.Orderly legal) {target : TypeDecl}
    (found : model.type? path = some target) :
    (∀ name ∈ path.outermost :: path.inner, legal name) ∧
      (path.outermost :: path.inner).IsChain (· ≠ ·) := by
  obtain ⟨unit, isUnit, there⟩ := Option.bind_eq_some_iff.mp found
  rw [← (holds_iff.mp (List.find?_some isUnit)).2]
  exact names_of_at? (orderly.types unit (List.mem_of_find?_eq_some isUnit)) there

/-- Around a type there are types. -/
theorem exists_type?_around {inner : List String} {target : TypeDecl}
    (found : model.type? (furtherIn path inner) = some target) :
    ∃ around, model.type? path = some around := by
  induction inner using List.reverseRecOn generalizing target with
  | nil =>
    rw [furtherIn_nil] at found
    exact ⟨target, found⟩
  | append_singleton inner name ih =>
    have last : furtherIn path (inner ++ [name]) = (furtherIn path inner).nested name := by
      unfold furtherIn TypePath.nested
      rw [List.append_assoc]
    rw [last, Model.type?_nested] at found
    obtain ⟨around, isAround, _⟩ := Option.bind_eq_some_iff.mp found
    exact ih isAround

/-- Around every type there is a top-level type. -/
theorem exists_unit {target : TypeDecl} (found : model.type? path = some target) :
    ∃ unit ∈ model.units, unit.path = ⟨path.package, path.outermost, []⟩ := by
  obtain ⟨unit, isUnit, _⟩ := Option.bind_eq_some_iff.mp found
  obtain ⟨package, name⟩ := holds_iff.mp (List.find?_some isUnit)
  refine ⟨unit, List.mem_of_find?_eq_some isUnit, ?_⟩
  unfold CompilationUnit.path
  rw [package, name]

/-! ### Types of one qualified name -/

/-- A nested type has the qualified name of a top-level type. -/
def Clashes (model : Model) : Prop :=
  ∃ unit ∈ model.units, ∃ path ∈ modelPaths model, path.inner ≠ [] ∧
    path.qualifiedName = unit.qualifiedName

/-- A package that is named like a type brings a top-level type the name of a nested one. -/
theorem clashes_of_names (orderly : model.Orderly ('.' ∉ ·.toList)) {other : TypePath}
    (isPath : path ∈ modelPaths model) (isOther : other ∈ modelPaths model)
    {first : List Char} {middle : List (List Char)}
    (packages : packageParts other.package = packageParts path.package ++ first :: middle)
    (names : path.names = first :: middle ++ other.names) : Clashes model := by
  obtain ⟨target, found⟩ := (mem_modelPaths_iff orderly).mp isPath
  obtain ⟨otherTarget, otherFound⟩ := (mem_modelPaths_iff orderly).mp isOther
  obtain ⟨unit, isUnit, unitPath⟩ := exists_unit otherFound
  obtain ⟨outermost, inner⟩ := List.cons.inj names
  -- the type around `path` that is named like the top-level type around `other`
  let above := path.inner.take (middle.length + 1)
  let around : TypePath := ⟨path.package, path.outermost, above⟩
  have aboveNames : above.map String.toList = middle ++ [other.outermost.toList] := by
    have cut : path.inner.map String.toList =
        (middle ++ [other.outermost.toList]) ++ other.inner.map String.toList := by
      rw [List.append_assoc]
      exact inner
    unfold above
    rw [List.map_take, cut]
    exact List.take_left' (by rw [List.length_append, List.length_singleton])
  have isFurther : path = furtherIn around (path.inner.drop (middle.length + 1)) := by
    unfold furtherIn around above
    rw [List.take_append_drop]
  rw [isFurther] at found
  obtain ⟨aroundTarget, aroundFound⟩ := exists_type?_around found
  obtain ⟨unitTarget, unitFound⟩ :
      ∃ target, model.type? ⟨other.package, other.outermost, []⟩ = some target :=
    exists_type?_around
      (show model.type? (furtherIn ⟨other.package, other.outermost, []⟩ other.inner) = _ from
        otherFound)
  have sameParts : nameParts around = nameParts ⟨other.package, other.outermost, []⟩ := by
    show packageParts path.package ++ path.outermost.toList :: above.map String.toList =
      packageParts other.package ++ [other.outermost.toList]
    rw [packages, aboveNames, outermost, List.append_assoc, List.cons_append]
  refine ⟨unit, isUnit, around, (mem_modelPaths_iff orderly).mpr ⟨_, aroundFound⟩, ?_, ?_⟩
  · intro none
    have empty := aboveNames
    rw [show above = [] from none] at empty
    exact absurd empty.symm (List.append_ne_nil_of_right_ne_nil _ (List.cons_ne_nil _ _))
  · unfold CompilationUnit.qualifiedName
    rw [unitPath]
    exact (qualifiedName_eq_iff (names_of_type? orderly aroundFound).1
      (names_of_type? orderly unitFound).1).mpr sameParts

/-- **Two types of one qualified name make a nested type one of that of a top-level type.** -/
theorem exists_clash (orderly : model.Orderly ('.' ∉ ·.toList)) {other : TypePath}
    (isPath : path ∈ modelPaths model) (isOther : other ∈ modelPaths model)
    (same : path.qualifiedName = other.qualifiedName) (different : path ≠ other) :
    Clashes model := by
  obtain ⟨_, found⟩ := (mem_modelPaths_iff orderly).mp isPath
  obtain ⟨_, otherFound⟩ := (mem_modelPaths_iff orderly).mp isOther
  have parts : nameParts path = nameParts other :=
    (qualifiedName_eq_iff (names_of_type? orderly found).1
      (names_of_type? orderly otherFound).1).mp same
  rcases List.append_eq_append_iff.mp parts with
    ⟨middle, packages, names⟩ | ⟨middle, packages, names⟩
  · cases middle with
    | nil =>
      rw [List.append_nil] at packages
      exact absurd (eq_of_names (packageParts_injective packages.symm) names) different
    | cons first middle => exact clashes_of_names orderly isPath isOther packages names
  · cases middle with
    | nil =>
      rw [List.append_nil] at packages
      exact absurd (eq_of_names (packageParts_injective packages) names.symm) different
    | cons first middle => exact clashes_of_names orderly isOther isPath packages names

/-- **The types of a model have distinct qualified names unless a nested type has that of a
top-level type.** -/
theorem nodup_qualifiedName_iff (orderly : model.Orderly ('.' ∉ ·.toList)) :
    ((modelPaths model).map (·.qualifiedName)).Nodup ↔ ¬ Clashes model := by
  constructor
  · rintro distinct ⟨unit, isUnit, path, isPath, nested, same⟩
    have isTop : unit.path ∈ modelPaths model := by
      refine List.mem_flatMap.mpr ⟨unit, isUnit, ?_⟩
      rw [typePaths_eq_cons]
      exact List.mem_cons_self
    rw [List.inj_on_of_nodup_map distinct isPath isTop same] at nested
    exact nested rfl
  · intro apart
    refine (nodup_modelPaths_of_orderly orderly).map_on fun path isPath other isOther same => ?_
    exact Classical.byContradiction fun different =>
      apart (exists_clash orderly isPath isOther same different)

/-! ### Models that are reached -/

/-- **Which names a model that is reached keeps apart**, whatever operations were carried out and
whichever of them were refused.  Its types have distinct qualified names unless a nested type has
that of a top-level type, and no nested type has the name of the type right around it. -/
theorem performInOrder_qualifiedNames (configuration : Configuration) {operations : List Operation}
    (simple : ∀ operation ∈ operations, ∀ name, operation.typeName? = some name →
      '.' ∉ name.toList) :
    let model := (performInOrder operations { configuration }).model
    (modelPaths model).Nodup ∧
      (((modelPaths model).map (·.qualifiedName)).Nodup ↔
        ∀ unit ∈ model.units, ∀ path ∈ modelPaths model, path.inner ≠ [] →
          path.qualifiedName ≠ unit.qualifiedName) ∧
      ∀ path ∈ modelPaths model, (path.outermost :: path.inner).IsChain (· ≠ ·) := by
  intro model
  have orderly : model.Orderly ('.' ∉ ·.toList) := orderly_performInOrder simple configuration
  refine ⟨nodup_modelPaths_of_orderly orderly, ?_, fun path isPath => ?_⟩
  · rw [nodup_qualifiedName_iff orderly]
    simp only [Clashes, not_exists, not_and, ne_eq]
  · obtain ⟨target, found⟩ := (mem_modelPaths_iff orderly).mp isPath
    exact (names_of_type? orderly found).2

/-- Types of one name at different depths, and an operation that is refused. -/
def nestedOperations : List Operation :=
  [.define "a" "A" .interface, .nest ⟨"a", "A", []⟩ "B" .enum, .nest ⟨"a", "A", []⟩ "B" .enum,
    .nest ⟨"a", "A", ["B"]⟩ "A" .interface, .define "a.b" "B" .interface]

theorem qualifiedNames_nestedOperations :
    (∀ operation ∈ nestedOperations, ∀ name, operation.typeName? = some name →
      '.' ∉ name.toList) ∧
    let model := (performInOrder nestedOperations { configuration := { basePackage := "a" } }).model
    ((modelPaths model).Nodup ∧
      (((modelPaths model).map (·.qualifiedName)).Nodup ↔
        ∀ unit ∈ model.units, ∀ path ∈ modelPaths model, path.inner ≠ [] →
          path.qualifiedName ≠ unit.qualifiedName) ∧
      ∀ path ∈ modelPaths model, (path.outermost :: path.inner).IsChain (· ≠ ·)) ∧
    (modelPaths model).map (·.qualifiedName) = ["a.A", "a.A.B", "a.A.B.A", "a.b.B"] := by
  have simple : ∀ operation ∈ nestedOperations, ∀ name, operation.typeName? = some name →
      '.' ∉ name.toList := by
    simp [nestedOperations, Operation.typeName?]
  refine ⟨simple, performInOrder_qualifiedNames _ simple, ?_⟩
  decide +kernel

/-- Operations that are not refused, the last of which declares a type in a package that is named
like a type. -/
def clashingOperations : List Operation :=
  [.define "a" "B" .interface, .nest ⟨"a", "B", []⟩ "C" .interface,
    .nest ⟨"a", "B", ["C"]⟩ "B" .interface, .define "a.B" "C" .interface]

/-- **Two types may have one qualified name, and a nested type may have the name of a type further
out.** -/
theorem performInOrder_clashes :
    let model :=
      (performInOrder clashingOperations { configuration := { basePackage := "a" } }).model
    (modelPaths model).map (·.qualifiedName) = ["a.B", "a.B.C", "a.B.C.B", "a.B.C"] ∧
      ¬ ((modelPaths model).map (·.qualifiedName)).Nodup ∧
      ¬ ∀ path ∈ modelPaths model, path.inner ≠ [] →
        path.name ∉ (path.outermost :: path.inner).dropLast := by
  decide +kernel

end RamlInterfaces.Generation
