/-
**Imports and short names in a compilation unit.**

A class is written short, by its simple name, where it owns the name at the head of that, and in
full elsewhere.  The types of a unit own their names from the start; of several types with one name
it is the last one declared.  This holds for any unit, with types nested to any depth.

* `owner?_ofUnit_eq`: the owners before any class is named;
* `pairwise_sortedImports`: the imports are in order, each once;
* `Naming.IsShort`, `spell_injective`: **short spellings tell classes apart**;
* `exists_class_of_import`: an import belongs to a class that is named;
* `Nameable`, `WellImported`: the units in question, and what is said of their imports and
  spellings;
* `renderUnit_wellImported`: **it holds of every such unit**;
* `twins_import`: two nested types of one name, and an import of one of them.
-/

import Mathlib.Data.String.Basic
import RamlInterfaces.Proofs.Generation.QualifiedNames
import RamlInterfaces.Proofs.Generation.References
import RamlInterfaces.Proofs.Java.ReferenceText

namespace RamlInterfaces.Java

open Text

namespace Naming

/-! ### Owners in a unit -/

/-- The types of a unit claim their names in the order of their paths. -/
def claimPaths (owners : List (String × String)) (paths : List TypePath) : List (String × String) :=
  paths.foldl (fun owners path => putNamed owners path.name path.qualifiedName) owners

mutual

theorem claimNames_eq_claimPaths (owners : List (String × String)) (path : TypePath) :
    (decl : TypeDecl) → path.name = decl.name →
      claimNames owners path.qualifiedName decl = claimPaths owners (typePaths path decl)
  | ⟨name, _, _, _, _, nested, _⟩, named => by
    unfold claimNames typePaths claimPaths
    rw [List.foldl_cons, ← claimPaths, claimNested_eq_claimPaths, named]

theorem claimNested_eq_claimPaths (owners : List (String × String)) (path : TypePath) :
    (decls : List TypeDecl) → claimNames.claimNested path.qualifiedName owners decls =
      claimPaths owners (typePaths.nestedPaths path decls)
  | [] => rfl
  | inner :: rest => by
    have qualified : path.qualifiedName ++ "." ++ inner.name =
        (path.nested inner.name).qualifiedName := by
      unfold TypePath.qualifiedName TypePath.nested
      rw [List.foldl_append]
      rfl
    have named : (path.nested inner.name).name = inner.name := by
      unfold TypePath.name TypePath.nested
      rw [List.getLast?_concat]
      rfl
    unfold claimNames.claimNested typePaths.nestedPaths
    rw [qualified, claimNames_eq_claimPaths _ _ inner named, claimNested_eq_claimPaths]
    unfold claimPaths
    rw [List.foldl_append]

end

/-- The last claim of a name counts. -/
theorem find?_claimPaths (owners : List (String × String)) (paths : List TypePath) (name : String) :
    ((claimPaths owners paths).find? (·.1 == name)).map (·.2) =
      ((paths.reverse.find? (·.name == name)).map TypePath.qualifiedName).or
        ((owners.find? (·.1 == name)).map (·.2)) := by
  induction paths generalizing owners with
  | nil => rfl
  | cons path rest ih =>
    unfold claimPaths at ih ⊢
    rw [List.foldl_cons, ih, find?_putNamed, List.reverse_cons, List.find?_append]
    cases rest.reverse.find? (·.name == name) with
    | some later => rfl
    | none =>
      by_cases same : name = path.name
      · subst same
        simp
      · have different : ¬ path.name = name := Ne.symm same
        simp [same, different]

/-- **The owners before any class is named**: the types of the unit, of several with one name the
last. -/
theorem owner?_ofUnit_eq {path : TypePath} {decl : TypeDecl} (named : path.name = decl.name)
    (name : String) : (ofUnit path decl).owner? name =
      ((typePaths path decl).reverse.find? (·.name == name)).map TypePath.qualifiedName := by
  unfold owner? ofUnit
  dsimp only
  rw [claimNames_eq_claimPaths [] path decl named, find?_claimPaths]
  exact Option.or_none

/-! ### Imports -/

/-- What naming a class keeps is kept by naming all classes of a list. -/
theorem adoptAll_keeps {keeps : Naming → Prop} {classes : List TypeRef}
    (each : ∀ naming, ∀ type ∈ classes, ∀ importName, type.importName? = some importName →
      keeps naming → keeps (naming.register importName))
    {naming final : Naming} (holds : keeps naming) (adopted : naming.adoptAll classes = .ok final) :
    keeps final := by
  induction classes generalizing naming with
  | nil =>
    cases adopted
    exact holds
  | cons type rest ih =>
    obtain ⟨next, first, later⟩ := bind_eq_ok_iff.mp adopted
    refine ih (fun naming other isLater => each naming other (List.mem_cons_of_mem _ isLater)) ?_
      later
    unfold adopt at first
    split at first
    · rename_i importName named
      cases first
      exact each naming type List.mem_cons_self importName named holds
    · cases first

theorem nodup_imports_register {naming : Naming} (nodup : naming.imports.Nodup)
    (importName : String) : (naming.register importName).imports.Nodup := by
  unfold register
  dsimp only
  split
  · split
    · rwa [imports_claim]
    · unfold addImport
      split
      · rwa [imports_claim]
      · rename_i fresh
        rw [List.contains_iff_mem] at fresh
        exact List.nodup_cons.mpr ⟨fresh, by rwa [imports_claim]⟩
  · rwa [imports_claim]

theorem pairwise_insertName {name : String} {names : List String}
    (sorted : names.Pairwise (· < ·)) (fresh : name ∉ names) :
    (insertName name names).Pairwise (· < ·) := by
  induction names with
  | nil => exact List.pairwise_singleton _ _
  | cons first rest ih =>
    obtain ⟨before, sortedRest⟩ := List.pairwise_cons.mp sorted
    obtain ⟨other, freshRest⟩ := not_or.mp (mt List.mem_cons.mpr fresh)
    unfold insertName
    split
    · rename_i less
      refine List.pairwise_cons.mpr ⟨fun later member => ?_, sorted⟩
      rcases List.mem_cons.mp member with rfl | further
      · exact less
      · exact less.trans (before later further)
    · rename_i notLess
      refine List.pairwise_cons.mpr ⟨fun later member => ?_, ih sortedRest freshRest⟩
      rcases mem_insertName.mp member with rfl | further
      · exact lt_of_le_of_ne (not_lt.mp notLess) (Ne.symm other)
      · exact before later further

/-- **The imports are in alphabetical order**, each of them once. -/
theorem pairwise_sortedImports {naming : Naming} (nodup : naming.imports.Nodup) :
    naming.sortedImports.Pairwise (· < ·) := by
  obtain ⟨package, unit, owners, imports⟩ := naming
  induction imports with
  | nil => exact .nil
  | cons first rest ih =>
    obtain ⟨fresh, nodupRest⟩ := List.nodup_cons.mp nodup
    have sorted : (sortedImports ⟨package, unit, owners, rest⟩).Pairwise (· < ·) := ih nodupRest
    refine pairwise_insertName sorted fun member => fresh ?_
    have there : first ∈ (Naming.mk package unit owners rest).imports := mem_sortedImports.mp member
    exact there

/-- **An import belongs to a class that is named.** -/
theorem exists_class_of_import {path : TypePath} {decl : TypeDecl} {classes : List TypeRef}
    {naming : Naming} (adopted : (ofUnit path decl).adoptAll classes = .ok naming) :
    ∀ name ∈ naming.imports, ∃ type ∈ classes, type.importName? = some name := by
  let used (naming : Naming) : Prop :=
    ∀ name ∈ naming.imports, ∃ type ∈ classes, type.importName? = some name
  have start : used (ofUnit path decl) := fun name member => absurd member List.not_mem_nil
  have final : used naming := by
    refine adoptAll_keeps (fun before type isClass importName named holds => ?_) start adopted
    intro name member
    rcases mem_imports_register.mp member with ⟨rfl, _⟩ | old
    · exact ⟨type, isClass, named⟩
    · exact holds name old
  exact final

theorem nodup_imports_adoptAll {path : TypePath} {decl : TypeDecl} {classes : List TypeRef}
    {naming : Naming} (adopted : (ofUnit path decl).adoptAll classes = .ok naming) :
    naming.imports.Nodup := by
  let distinct (naming : Naming) : Prop := naming.imports.Nodup
  have start : distinct (ofUnit path decl) := List.nodup_nil
  have each (before : Naming) (type : TypeRef) (_ : type ∈ classes) (importName : String)
      (_ : type.importName? = some importName) (nodup : distinct before) :
      distinct (before.register importName) := nodup_imports_register nodup importName
  exact adoptAll_keeps each start adopted

/-! ### Short spellings -/

/-- The naming writes a class by its simple name, as the one that owns the name at the head of
that. -/
def IsShort (naming : Naming) (type : TypeRef) : Prop :=
  ∃ importName, type.importName? = some importName ∧
    naming.owner? (importedName importName) = some importName

variable {naming : Naming} {type first second : TypeRef}

theorem spell_of_isShort (short : naming.IsShort type) :
    type.simpleName? = some (naming.spell type) := by
  obtain ⟨importName, named, owned⟩ := short
  unfold spell
  cases type with
  | primitive | unnamed => cases named
  | outside | declared =>
    cases named
    dsimp only [TypeRef.importName?, TypeRef.simpleName?]
    rw [if_pos owned]

theorem spell_of_not_isShort (named : ∃ importName, type.importName? = some importName)
    (long : ¬ naming.IsShort type) : naming.spell type = type.qualifiedName := by
  obtain ⟨importName, named⟩ := named
  have foreign : naming.owner? (importedName importName) ≠ some importName :=
    fun owned => long ⟨importName, named, owned⟩
  unfold spell
  cases type with
  | primitive | unnamed => cases named
  | outside | declared =>
    cases named
    dsimp only [TypeRef.importName?, TypeRef.simpleName?]
    rw [if_neg foreign]

end Naming

/-! ### The parts of a spelling -/

/-- The names of a class inside the type that is imported for it. -/
def innerNames : TypeRef → List String
  | .declared path => path.inner
  | _ => []

/-- The class can be named, by names without dots where it is a declared one. -/
def isNameable : TypeRef → Bool
  | .primitive _ | .unnamed _ => false
  | .outside _ _ => true
  | .declared path => (path.outermost :: path.inner).all fun name => !name.toList.contains '.'

theorem exists_importName_of_isNameable {type : TypeRef} (nameable : isNameable type = true) :
    ∃ importName, type.importName? = some importName := by
  cases type with
  | primitive | unnamed => cases nameable
  | outside | declared => exact ⟨_, rfl⟩

theorem simple_of_isNameable {path : TypePath} (nameable : isNameable (.declared path) = true) :
    Generation.SimplePath path := by
  intro name member dotted
  have plain := List.all_eq_true.mp nameable name member
  rw [List.contains_iff_mem.mpr dotted] at plain
  cases plain

/-- The import of a declared type ends in the name of the outermost type, after its package. -/
theorem parts_outermostName {path : TypePath} (simple : '.' ∉ path.outermost.toList) :
    importedName path.outermostName = path.outermost ∧
      String.ofList (beforeLast '.' path.outermostName.toList) = path.package := by
  unfold TypePath.outermostName TypePath.qualify
  split
  · rename_i nameless
    unfold importedName beforeLast afterLast
    rw [pieces_eq_self simple, String.isEmpty_iff.mp nameless]
    exact ⟨String.ofList_toList, rfl⟩
  · refine ⟨importedName_qualified _ simple, ?_⟩
    rw [toList_qualified, beforeLast_append _ simple, String.ofList_toList]

section Parts

variable {type : TypeRef} {importName simpleName : String}
  (named : type.importName? = some importName)

include named

theorem qualifiedName_eq_innerNames : type.qualifiedName =
    (innerNames type).foldl (fun name inner => name ++ "." ++ inner) importName := by
  cases type with
  | primitive | unnamed => cases named
  | outside | declared =>
    cases named
    rfl

variable (nameable : isNameable type = true)

include nameable

/-- **The pieces of a short spelling** are the name of the import and the names inside. -/
theorem pieces_simpleName (isSimple : type.simpleName? = some simpleName) :
    pieces '.' simpleName.toList =
      (importedName importName).toList :: (innerNames type).map String.toList := by
  cases type with
  | primitive | unnamed => cases named
  | outside name arguments =>
    cases named
    cases isSimple
    exact pieces_eq_self (dot_notMem_importedName _)
  | declared path =>
    cases named
    cases isSimple
    obtain ⟨outer, inner⟩ := List.forall_mem_cons.mp (simple_of_isNameable nameable)
    rw [(parts_outermostName outer).1]
    unfold TypePath.simpleName
    rw [pieces_nested _ _ inner, pieces_eq_self outer]
    rfl

/-- The package of a class is that of its import. -/
theorem package_of_importName :
    String.ofList (beforeLast '.' importName.toList) = type.package := by
  cases type with
  | primitive | unnamed => cases named
  | outside =>
    cases named
    rfl
  | declared path =>
    cases named
    exact (parts_outermostName (List.forall_mem_cons.mp (simple_of_isNameable nameable)).1).2

end Parts

/-- **Short spellings tell classes apart.** -/
theorem Naming.spell_injective {naming : Naming} {first second : TypeRef}
    (firstNameable : isNameable first = true) (secondNameable : isNameable second = true)
    (firstShort : naming.IsShort first) (secondShort : naming.IsShort second)
    (same : naming.spell first = naming.spell second) :
    first.qualifiedName = second.qualifiedName := by
  have firstPieces := spell_of_isShort firstShort
  have secondPieces := spell_of_isShort secondShort
  obtain ⟨firstName, firstNamed, firstOwned⟩ := firstShort
  obtain ⟨secondName, secondNamed, secondOwned⟩ := secondShort
  have pieces := pieces_simpleName firstNamed firstNameable firstPieces
  rw [same, pieces_simpleName secondNamed secondNameable secondPieces] at pieces
  obtain ⟨head, inner⟩ := List.cons.inj pieces
  rw [String.toList_injective head, firstOwned] at secondOwned
  rw [qualifiedName_eq_innerNames firstNamed, qualifiedName_eq_innerNames secondNamed,
    Option.some.inj secondOwned,
    List.map_injective_iff.mpr (fun _ _ => String.toList_injective) inner]

end RamlInterfaces.Java

namespace RamlInterfaces.Generation

open Java

/-! ### Units -/

/-- The type of a unit that owns a name: the last one declared of those that have it. -/
def lastNamed? (unit : CompilationUnit) (name : String) : Option TypePath :=
  (typePaths unit.path unit.type).reverse.find? (·.name == name)

/-- Every class that the unit refers to can be named. -/
def Nameable (unit : CompilationUnit) : Prop :=
  ∀ type ∈ typeClasses unit.type, isNameable type = true

instance (unit : CompilationUnit) : Decidable (Nameable unit) :=
  inferInstanceAs (Decidable (∀ type ∈ typeClasses unit.type, isNameable type = true))

/-- The naming writes a class of the unit short, and in such a way that the spelling shows where it
ends. -/
def IsPlainShort (unit : CompilationUnit) (naming : Naming) (type : TypeRef) : Prop :=
  type ∈ typeClasses unit.type ∧ naming.IsShort type ∧ IsPlainName (naming.spell type)

/-- The imports of a unit and the spellings of the classes that it refers to fit together.

The imports are in order, each once, and no two give one name; an import that gives the name of a
type of the unit is that of the last such type.  A class is written by its simple name or in full.
Two that are written short in one way are one class, and two references that are so written, with
their arguments, are one type if the names are plain.  A class that is written short is imported, in
`java.lang` or in the package of the unit, or is the type of the unit or nested in it; and there is
no import but that of a class that is written short. -/
structure WellImported (unit : CompilationUnit) (naming : Naming) : Prop where
  sorted : naming.sortedImports.Pairwise (· < ·)
  apart : ∀ first ∈ naming.sortedImports, ∀ second ∈ naming.sortedImports,
    importedName first = importedName second → first = second
  own : ∀ name ∈ naming.sortedImports, ∀ path, lastNamed? unit (importedName name) = some path →
    name = path.qualifiedName
  short : ∀ type ∈ typeClasses unit.type, naming.IsShort type →
    type.simpleName? = some (naming.spell type)
  full : ∀ type ∈ typeClasses unit.type, ¬ naming.IsShort type →
    naming.spell type = type.qualifiedName
  injective : ∀ first ∈ typeClasses unit.type, ∀ second ∈ typeClasses unit.type,
    naming.IsShort first → naming.IsShort second → naming.spell first = naming.spell second →
      first.qualifiedName = second.qualifiedName
  references : ∀ first second, Knows (IsPlainShort unit naming) first →
    Knows (IsPlainShort unit naming) second →
      spellType naming.spell first = spellType naming.spell second → first.text = second.text
  inScope : ∀ type ∈ typeClasses unit.type, naming.IsShort type →
    (∃ name ∈ naming.sortedImports, type.importName? = some name) ∨
      type.package = "java.lang" ∨ type.package = unit.package ∨
        type.importName? = some unit.qualifiedName
  used : ∀ name ∈ naming.sortedImports, ∃ type ∈ typeClasses unit.type,
    naming.IsShort type ∧ type.importName? = some name

variable {unit : CompilationUnit} {naming : Naming}

/-- **The imports and short names of a unit fit together**, whatever its types are and in whatever
order it refers to classes.  The unit is rendered exactly if its annotations can be written. -/
theorem renderUnit_wellImported (nameable : Nameable unit) :
    ∃ naming, (Rendered unit naming ↔ unit.type.isWritable = true) ∧ WellImported unit naming := by
  have named (type : TypeRef) (member : type ∈ typeClasses unit.type) :=
    exists_importName_of_isNameable (nameable type member)
  obtain ⟨naming, adopted⟩ := (Naming.ofUnit unit.path unit.type).exists_adoptAll named
  have coherent := Naming.coherent_adoptAll adopted
  have owner (name : String) (member : name ∈ naming.sortedImports) :
      naming.owner? (importedName name) = some name :=
    (coherent.imports name (Naming.mem_sortedImports.mp member)).1
  refine ⟨naming, rendered_iff adopted, ?_⟩
  exact {
    sorted := Naming.pairwise_sortedImports (Naming.nodup_imports_adoptAll adopted)
    apart := fun first isFirst second isSecond same => by
      have firstOwned := owner first isFirst
      rw [same, owner second isSecond] at firstOwned
      exact (Option.some.inj firstOwned).symm
    own := fun name member path last => by
      have claimed := coherent.extended (importedName name) path.qualifiedName (by
        rw [Naming.owner?_ofUnit_eq rfl]
        exact congrArg (Option.map TypePath.qualifiedName) last)
      rw [owner name member] at claimed
      exact Option.some.inj claimed
    short := fun type _ => Naming.spell_of_isShort
    full := fun type member => Naming.spell_of_not_isShort (named type member)
    injective := fun first isFirst second isSecond =>
      Naming.spell_injective (nameable first isFirst) (nameable second isSecond)
    references := fun first second => text_of_spellType (fun type known => known.2.2)
      fun type other known otherKnown => Naming.spell_injective (nameable type known.1)
        (nameable other otherKnown.1) known.2.1 otherKnown.2.1
    inScope := fun type member short => by
      obtain ⟨importName, named, owned⟩ := short
      have package := package_of_importName named (nameable type member)
      rcases coherent.imported type member importName named owned with unit | implicit | imported
      · refine .inr (.inr (.inr ?_))
        rw [named, unit, coherent.unit]
        rfl
      · unfold Naming.isImplicit at implicit
        dsimp only at implicit
        rw [package, Bool.or_eq_true, beq_iff_eq, beq_iff_eq, coherent.package] at implicit
        rcases implicit with language | sibling
        · exact .inr (.inl language)
        · exact .inr (.inr (.inl sibling))
      · exact .inl ⟨importName, Naming.mem_sortedImports.mpr imported, named⟩
    used := fun name member => by
      obtain ⟨type, isClass, named⟩ :=
        Naming.exists_class_of_import adopted name (Naming.mem_sortedImports.mp member)
      exact ⟨type, isClass, ⟨name, named, owner name member⟩, named⟩ }

/-- A type with an enum nested in it that has the name of a class of the platform, and with a type
nested in that. -/
def readingRooms : CompilationUnit where
  package := "library"
  type :=
    { name := "Rooms"
      kind := .interface
      methods := [
        { name := "dates", returnType := .outside "java.util.List" [.named "java.util.Date"] },
        { name := "own", returnType := .declared ⟨"library", "Rooms", ["List", "Key"]⟩ }]
      nested := [
        { name := "List", kind := .enum, nested := [{ name := "Key", kind := .interface }] }] }

theorem renderUnit_readingRooms : Nameable readingRooms ∧
    ∃ naming, Rendered readingRooms naming ∧ WellImported readingRooms naming := by
  have nameable : Nameable readingRooms := by decide +kernel
  have writable : readingRooms.type.isWritable = true := by decide
  obtain ⟨naming, rendered, wellImported⟩ := renderUnit_wellImported nameable
  exact ⟨nameable, naming, rendered.mpr writable, wellImported⟩

/-- A type with two nested types that each have a type of one name inside, and with references to
one of these, to a primitive type and to a class whose name is its keyword. -/
def twins : CompilationUnit where
  package := "p"
  type :=
    { name := "A"
      kind := .interface
      methods := [{ name := "m", returnType := .named "p.A.C.N" },
        { name := "k", returnType := .primitive .long },
        { name := "n", returnType := .named "q.long" }]
      nested := [
        { name := "B", kind := .interface, nested := [{ name := "N", kind := .interface }] },
        { name := "C", kind := .interface, nested := [{ name := "N", kind := .interface }] }] }

/-- **An import of one of two nested types with one name**, which is not that of the other; and a
class that is written short by the keyword of a primitive type. -/
theorem twins_import : Nameable twins ∧
    (∀ path ∈ typePaths twins.path twins.type, SimplePath path) ∧
    (∀ name arguments, .outside name arguments ∈ typeClasses twins.type →
      (TypeRef.outside name arguments).package.isEmpty = false) ∧
    ∃ naming, Rendered twins naming ∧
      ("p.A.C.N" ∈ naming.sortedImports ∧ ∃ path ∈ typePaths twins.path twins.type,
        path.name = importedName "p.A.C.N" ∧ "p.A.C.N" ≠ path.qualifiedName) ∧
      naming.IsShort (.named "q.long") ∧
        naming.spell (.named "q.long") = spellType naming.spell (.primitive .long) := by
  have nameable : Nameable twins := by decide +kernel
  have simple : ∀ path ∈ typePaths twins.path twins.type,
      ∀ name ∈ path.outermost :: path.inner, '.' ∉ name.toList := by decide +kernel
  have classes : typeClasses twins.type = [.named "p.A.C.N", .named "q.long"] := rfl
  refine ⟨nameable, simple, fun name arguments member => ?_, ?_⟩
  · rw [classes] at member
    simp only [List.mem_cons, TypeRef.outside.injEq, List.not_mem_nil, or_false] at member
    rcases member with ⟨rfl, _⟩ | ⟨rfl, _⟩
    · rfl
    · rfl
  · exact ⟨_, (rendered_iff rfl).mpr (by decide),
      ⟨by decide, ⟨"p", "A", ["B", "N"]⟩, by decide, by decide, by decide⟩,
      ⟨"q.long", rfl, by decide⟩, by decide⟩

end RamlInterfaces.Generation
