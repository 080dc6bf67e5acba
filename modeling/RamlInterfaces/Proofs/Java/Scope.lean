/-
**What a name in a compilation unit denotes.**

Java looks a name up among the types of the unit, then among its imports, then among the other types
of the package, and then in `java.lang`.  A name with its package denotes itself.

* `Scope.resolve`: the qualified name of the type that a name denotes;
* `find?_inner`, `find?_nested`, `find?_other`, `find?_qualified`: which names denote types of a
  unit;
* `resolve_own`, `resolve_imported`, `resolve_qualified`, `resolve_foreign`: the rules.
-/

import RamlInterfaces.Java.Naming
import RamlInterfaces.Proofs.Text.Runs

namespace RamlInterfaces.Java

open Text

/-- The path of a type and those of all types nested in it. -/
def typePaths : TypePath → TypeDecl → List TypePath
  | path, ⟨_, _, _, _, _, nested, _⟩ => path :: nestedPaths path nested
where
  /-- The paths of the types nested in the type at a path. -/
  nestedPaths : TypePath → List TypeDecl → List TypePath
    | _, [] => []
    | path, inner :: rest => typePaths (path.nested inner.name) inner ++ nestedPaths path rest

/-- The names of a type and of the types around it, outermost first. -/
def TypePath.names (path : TypePath) : List (List Char) :=
  (path.outermost :: path.inner).map String.toList

/-- The name, which may have dots, denotes the type at the path where that is in scope: it gives the
last of its names. -/
def denotes (written : String) (path : TypePath) : Bool :=
  (pieces '.' written.toList).isSuffixOf path.names

/-- What is in scope in a compilation unit. -/
structure Scope where
  path : TypePath
  type : TypeDecl
  imports : List String
  siblings : List String

/-- The qualified name of the type that a name denotes in a compilation unit. -/
def Scope.resolve (scope : Scope) (written : String) : String :=
  match (typePaths scope.path scope.type).find? (denotes written) with
  | some path => path.qualifiedName
  | none =>
    match scope.imports.find? fun name => importedName name == written with
    | some name => name
    | none =>
      if '.' ∈ written.toList then written
      else if written ∈ scope.siblings then TypePath.qualify scope.path.package written
      else "java.lang." ++ written

/-! ### Types of the unit -/

section Own

variable {path : TypePath} {decl : TypeDecl} {written : String}

/-- The paths in a unit with types nested in its own only. -/
theorem typePaths_eq (shallow : ∀ inner ∈ decl.nested, inner.nested = []) :
    typePaths path decl = path :: decl.nested.map fun inner => path.nested inner.name := by
  have nested (decls : List TypeDecl) (shallow : ∀ inner ∈ decls, inner.nested = []) :
      typePaths.nestedPaths path decls = decls.map fun inner => path.nested inner.name := by
    induction decls with
    | nil => rfl
    | cons inner rest ih =>
      obtain ⟨name, kind, annotations, doc, methods, below, constants⟩ := inner
      obtain rfl : below = [] := shallow _ List.mem_cons_self
      have further := fun other member => shallow other (List.mem_cons_of_mem _ member)
      rw [typePaths.nestedPaths, ih further]
      rfl
  obtain ⟨name, kind, annotations, doc, methods, inner, constants⟩ := decl
  rw [typePaths, nested inner shallow]

/-- A name without dots denotes the types of that name. -/
theorem denotes_simple {other : TypePath} (simple : '.' ∉ written.toList)
    {before : List (List Char)} {last : String} (names : other.names = before ++ [last.toList]) :
    denotes written other = true ↔ written = last := by
  rw [denotes, pieces_eq_self simple, List.isSuffixOf_iff_suffix, names]
  constructor
  · rintro ⟨init, same⟩
    exact String.toList_injective (List.cons.inj (List.append_inj_right' same rfl)).1
  · rintro rfl
    exact List.suffix_append _ _

variable (top : path.inner = []) (shallow : ∀ inner ∈ decl.nested, inner.nested = [])

include top

theorem names_top : path.names = [] ++ [path.outermost.toList] := by
  rw [TypePath.names, top]
  rfl

theorem names_nested (name : String) :
    (path.nested name).names = [path.outermost.toList] ++ [name.toList] := by
  rw [TypePath.names, TypePath.nested, top]
  rfl

include shallow

/-- A name of three pieces or more denotes no type of the unit. -/
theorem find?_qualified (long : 3 ≤ (pieces '.' written.toList).length) :
    (typePaths path decl).find? (denotes written) = none := by
  have none {other : TypePath} (short : other.names.length ≤ 2) :
      ¬ denotes written other = true := by
    rw [denotes, List.isSuffixOf_iff_suffix]
    intro found
    have := found.length_le
    omega
  rw [typePaths_eq shallow, List.find?_eq_none]
  intro other member
  rcases List.mem_cons.mp member with rfl | nested
  · exact none (by rw [names_top top]; simp)
  · obtain ⟨inner, _, rfl⟩ := List.mem_map.mp nested
    exact none (by rw [names_nested top]; simp)

/-- A name without dots that no type of the unit has denotes none of them. -/
theorem find?_other (simple : '.' ∉ written.toList) (other : written ≠ path.outermost)
    (foreign : written ∉ decl.nested.map (·.name)) :
    (typePaths path decl).find? (denotes written) = none := by
  rw [typePaths_eq shallow, List.find?_eq_none]
  intro found member
  rcases List.mem_cons.mp member with rfl | nested
  · rw [denotes_simple simple (names_top top)]
    exact other
  · obtain ⟨inner, isInner, rfl⟩ := List.mem_map.mp nested
    rw [denotes_simple simple (names_nested top inner.name)]
    rintro rfl
    exact foreign (List.mem_map_of_mem isInner)

omit top in
/-- A name that denotes the nested types of one name, and not the type around them, denotes the
first of these. -/
theorem find?_of_denotes {name : String} (notOuter : ¬ denotes written path = true)
    (only : ∀ other, denotes written (path.nested other) = true ↔ other = name)
    (member : name ∈ decl.nested.map (·.name)) :
    (typePaths path decl).find? (denotes written) = some (path.nested name) := by
  rw [typePaths_eq shallow, List.find?_cons_of_neg notOuter, List.find?_map]
  cases found : decl.nested.find? (denotes written ∘ fun inner => path.nested inner.name) with
  | none =>
    obtain ⟨inner, isInner, rfl⟩ := List.mem_map.mp member
    exact absurd ((only inner.name).mpr rfl) (List.find?_eq_none.mp found inner isInner)
  | some inner =>
    have here := List.find?_some found
    rw [Option.map_some, (only inner.name).mp here]

/-- The name of a nested type denotes it. -/
theorem find?_inner {name : String} (simple : '.' ∉ name.toList) (other : name ≠ path.outermost)
    (member : name ∈ decl.nested.map (·.name)) :
    (typePaths path decl).find? (denotes name) = some (path.nested name) := by
  refine find?_of_denotes shallow ?_ (fun inner => ?_) member
  · rw [denotes_simple simple (names_top top)]
    exact other
  · rw [denotes_simple simple (names_nested top inner)]
    exact eq_comm

/-- So does its name with that of the unit. -/
theorem find?_nested {name : String} (simple : '.' ∉ name.toList)
    (outer : '.' ∉ path.outermost.toList) (member : name ∈ decl.nested.map (·.name)) :
    (typePaths path decl).find? (denotes (path.outermost ++ "." ++ name)) =
      some (path.nested name) := by
  have cut : pieces '.' (path.outermost ++ "." ++ name).toList =
      [path.outermost.toList, name.toList] := by
    rw [String.toList_append, String.toList_append, List.append_assoc]
    show pieces '.' (path.outermost.toList ++ '.' :: name.toList) = _
    rw [pieces_append, pieces_eq_self outer, pieces_eq_self simple]
    rfl
  refine find?_of_denotes shallow ?_ (fun inner => ?_) member
  · rw [denotes, cut, names_top top, List.isSuffixOf_iff_suffix]
    intro found
    exact absurd found.length_le (by simp)
  · rw [denotes, cut, names_nested top, List.isSuffixOf_iff_suffix]
    constructor
    · intro found
      have same := found.eq_of_length rfl
      exact String.toList_injective (List.cons.inj (List.cons.inj same).2).1.symm
    · rintro rfl
      exact List.suffix_rfl

end Own

/-! ### The rules -/

/-- The name that an import gives holds no dot. -/
theorem dot_notMem_importedName (name : String) : '.' ∉ (importedName name).toList := by
  unfold importedName
  rw [String.toList_ofList]
  exact notMem_afterLast '.' name.toList

section Rules

variable {scope : Scope} {written : String}

theorem resolve_own {path : TypePath}
    (found : (typePaths scope.path scope.type).find? (denotes written) = some path) :
    scope.resolve written = path.qualifiedName := by
  unfold Scope.resolve
  rw [found]

variable (foreign : (typePaths scope.path scope.type).find? (denotes written) = none)

include foreign

/-- An import gives a name to one type if no other has that name. -/
theorem resolve_imported {name : String} (imported : name ∈ scope.imports)
    (same : importedName name = written)
    (only : ∀ other ∈ scope.imports, importedName other = written → other = name) :
    scope.resolve written = name := by
  unfold Scope.resolve
  rw [foreign]
  dsimp only
  cases found : scope.imports.find? fun name => importedName name == written with
  | none =>
    have missing := List.find?_eq_none.mp found name imported
    rw [same, beq_self_eq_true] at missing
    exact (missing rfl).elim
  | some other =>
    have here := List.find?_some found
    rw [beq_iff_eq] at here
    exact only other (List.mem_of_find?_eq_some found) here

/-- Where no import has the name, a name with its package denotes itself, and a simple one a type of
the package or else of `java.lang`. -/
theorem resolve_foreign (notImported : ∀ other ∈ scope.imports, importedName other ≠ written) :
    scope.resolve written =
      if '.' ∈ written.toList then written
      else if written ∈ scope.siblings then TypePath.qualify scope.path.package written
      else "java.lang." ++ written := by
  have none : (scope.imports.find? fun name => importedName name == written) = none := by
    rw [List.find?_eq_none]
    intro other member same
    rw [beq_iff_eq] at same
    exact notImported other member same
  unfold Scope.resolve
  rw [foreign, none]

theorem resolve_qualified (dotted : '.' ∈ written.toList) : scope.resolve written = written := by
  rw [resolve_foreign foreign, if_pos dotted]
  rintro other - rfl
  exact dot_notMem_importedName other dotted

end Rules

end RamlInterfaces.Java
