/-
**What the spelling of a class denotes.**

The naming that the classes of a unit leave spells each of them by its simple name or in full, and
lists the imports.  Resolved by the rules of Java, a spelling denotes its class, except where a
simple name of `java.lang` meets a type of the package.

* `pieces_qualifiedName`: the pieces of a qualified name;
* `Naming.scope`: what is in scope in the unit that a naming belongs to;
* `resolve_spell_nested`, `resolve_inner`: spellings and names of nested types;
* `TopLevel`: a class that no other type is around;
* `resolve_spell_iff`: **which spellings of such classes denote them**.
-/

import RamlInterfaces.Proofs.Java.Imports
import RamlInterfaces.Proofs.Java.Scope

namespace RamlInterfaces.Java

open Text

/-! ### Qualified names -/

section Qualified

variable (package : String) {name : String} (simple : '.' ∉ name.toList)

theorem toList_qualified (name : String) :
    (package ++ "." ++ name).toList = package.toList ++ '.' :: name.toList := by
  rw [String.toList_append, String.toList_append, List.append_assoc]
  rfl

theorem dot_mem_qualified (name : String) : '.' ∈ (package ++ "." ++ name).toList := by
  rw [toList_qualified]
  exact List.mem_append_right _ List.mem_cons_self

include simple

theorem pieces_qualified : pieces '.' (package ++ "." ++ name).toList =
    pieces '.' package.toList ++ [name.toList] := by
  rw [toList_qualified, pieces_append, pieces_eq_self simple]

theorem importedName_qualified : importedName (package ++ "." ++ name) = name := by
  rw [importedName, toList_qualified, afterLast_append _ simple, String.ofList_toList]

theorem isImplicit_qualified (naming : Naming) :
    naming.isImplicit (package ++ "." ++ name) =
      (package == "java.lang" || package == naming.package) := by
  unfold Naming.isImplicit
  rw [toList_qualified, beforeLast_append _ simple, String.ofList_toList]

/-- A qualified name gives its package. -/
theorem package_eq_of_qualified {package other last : String} (lastSimple : '.' ∉ last.toList)
    (same : package ++ "." ++ name = other ++ "." ++ last) : package = other := by
  have cut := congrArg (fun name => beforeLast '.' name.toList) same
  simp only [toList_qualified, beforeLast_append _ simple, beforeLast_append _ lastSimple] at cut
  exact String.toList_injective cut

omit simple in
/-- The pieces of a name with more names behind it. -/
theorem pieces_nested (start : String) (names : List String)
    (simple : ∀ name ∈ names, '.' ∉ name.toList) :
    pieces '.' (names.foldl (fun name inner => name ++ "." ++ inner) start).toList =
      pieces '.' start.toList ++ names.map String.toList := by
  induction names generalizing start with
  | nil => simp
  | cons first rest ih =>
    obtain ⟨here, below⟩ := List.forall_mem_cons.mp simple
    rw [List.foldl_cons, ih _ below, pieces_qualified start here]
    simp

omit simple in
/-- **The pieces of a qualified name** are those of the package, and the names. -/
theorem pieces_qualifiedName {path : TypePath} (based : path.package.isEmpty = false)
    (simple : ∀ name ∈ path.outermost :: path.inner, '.' ∉ name.toList) :
    pieces '.' path.qualifiedName.toList = pieces '.' path.package.toList ++ path.names := by
  obtain ⟨outer, inner⟩ := List.forall_mem_cons.mp simple
  have outermost : path.outermostName = path.package ++ "." ++ path.outermost := by
    rw [TypePath.outermostName, TypePath.qualify, based]
    rfl
  unfold TypePath.qualifiedName
  rw [pieces_nested _ _ inner, outermost, pieces_qualified _ outer, List.append_assoc]
  rfl

omit simple in
/-- The pieces of a qualified name in the nameless package are the names. -/
theorem pieces_qualifiedName_nameless {path : TypePath} (nameless : path.package.isEmpty = true)
    (simple : ∀ name ∈ path.outermost :: path.inner, '.' ∉ name.toList) :
    pieces '.' path.qualifiedName.toList = path.names := by
  obtain ⟨outer, inner⟩ := List.forall_mem_cons.mp simple
  have outermost : path.outermostName = path.outermost := by
    rw [TypePath.outermostName, TypePath.qualify, nameless]
    rfl
  unfold TypePath.qualifiedName
  rw [pieces_nested _ _ inner, outermost, pieces_eq_self outer]
  rfl

end Qualified

namespace Naming

/-! ### Namings of a unit -/

/-- Classes that have names are all named. -/
theorem exists_adoptAll (naming : Naming) {classes : List TypeRef}
    (named : ∀ type ∈ classes, ∃ importName, type.importName? = some importName) :
    ∃ final, naming.adoptAll classes = .ok final := by
  induction classes generalizing naming with
  | nil => exact ⟨naming, rfl⟩
  | cons type rest ih =>
    obtain ⟨importName, isName⟩ := named type List.mem_cons_self
    obtain ⟨final, adopted⟩ := ih (naming.register importName) fun other member =>
      named other (List.mem_cons_of_mem _ member)
    refine ⟨final, ?_⟩
    rw [adoptAll, List.foldlM_cons, adopt, isName]
    exact adopted

theorem mem_sortedImports {naming : Naming} {importName : String} :
    importName ∈ naming.sortedImports ↔ importName ∈ naming.imports := by
  unfold sortedImports
  induction naming.imports with
  | nil => exact Iff.rfl
  | cons first rest ih => rw [List.foldr_cons, mem_insertName, ih, List.mem_cons]

/-- What is in scope in the unit of a type, with its imports and the types of its package. -/
def scope (naming : Naming) (path : TypePath) (decl : TypeDecl) (siblings : List String) : Scope :=
  ⟨path, decl, naming.sortedImports, siblings⟩

end Naming

open Naming

/-! ### Names of a unit -/

/-- A top-level type in a package with a name: its names hold no dot, and no type is nested in those
nested in it. -/
structure Shallow (path : TypePath) (decl : TypeDecl) : Prop where
  top : path.inner = []
  own : path.outermost = decl.name
  package : path.package.isEmpty = false
  simple : '.' ∉ decl.name.toList
  nested : ∀ inner ∈ decl.nested,
    '.' ∉ inner.name.toList ∧ inner.name ≠ decl.name ∧ inner.nested = []

section Unit

variable {path : TypePath} {decl : TypeDecl} {naming : Naming} {classes : List TypeRef}
  {siblings : List String} (shallow : Shallow path decl)

include shallow

theorem Shallow.below : ∀ inner ∈ decl.nested, inner.nested = [] :=
  fun inner member => (shallow.nested inner member).2.2

theorem Shallow.outermostName : path.outermostName = path.package ++ "." ++ decl.name := by
  rw [TypePath.outermostName, TypePath.qualify, shallow.package, shallow.own]
  rfl

theorem Shallow.qualifiedName : path.qualifiedName = path.package ++ "." ++ decl.name := by
  rw [TypePath.qualifiedName, shallow.top, shallow.outermostName]
  rfl

/-- The simple names without an owner before any class is named. -/
theorem owner?_ofUnit_eq_none_iff {name : String} : (ofUnit path decl).owner? name = none ↔
    name ≠ decl.name ∧ name ∉ decl.nested.map (·.name) := by
  rw [owner?_ofUnit shallow.below]
  by_cases nested : name ∈ decl.nested.map (·.name)
  · simp [nested]
  · rw [if_neg nested]
    by_cases same : name = decl.name
    · simp [same]
    · simp [nested, same]

/-- The owners before any class is named are in the package of the unit or in the unit. -/
theorem owner?_ofUnit_ne {package name : String} (simple : '.' ∉ name.toList)
    (abroad : package ≠ path.package) (outside : package ≠ path.qualifiedName) (other : String) :
    (ofUnit path decl).owner? other ≠ some (package ++ "." ++ name) := by
  rw [owner?_ofUnit shallow.below]
  intro owned
  split at owned
  · rename_i nested
    obtain ⟨inner, member, rfl⟩ := List.mem_map.mp nested
    have same := Option.some.inj owned
    exact outside (package_eq_of_qualified (shallow.nested inner member).1 simple same).symm
  · split at owned
    · have same := Option.some.inj owned
      rw [shallow.qualifiedName] at same
      exact abroad (package_eq_of_qualified shallow.simple simple same).symm
    · cases owned

/-- The name of a nested type denotes it. -/
theorem resolve_inner {inner : TypeDecl} (member : inner ∈ decl.nested) :
    (naming.scope path decl siblings).resolve inner.name =
      (path.nested inner.name).qualifiedName := by
  obtain ⟨simple, other, _⟩ := shallow.nested inner member
  rw [← shallow.own] at other
  exact resolve_own (find?_inner shallow.top shallow.below simple other
    (List.mem_map_of_mem member))

/-- **The spelling of a nested type denotes it.** -/
theorem resolve_spell_nested (coherent : Coherent path decl classes naming) {name : String}
    (member : name ∈ decl.nested.map (·.name)) :
    (naming.scope path decl siblings).resolve (naming.spell (.declared (path.nested name))) =
      (path.nested name).qualifiedName := by
  obtain ⟨inner, isInner, rfl⟩ := List.mem_map.mp member
  have notNested : decl.name ∉ decl.nested.map (·.name) := by
    intro nested
    obtain ⟨other, isOther, same⟩ := List.mem_map.mp nested
    exact (shallow.nested other isOther).2.1 same
  have owned : naming.owner? (importedName path.outermostName) = some path.outermostName := by
    refine coherent.extended _ _ ?_
    rw [shallow.outermostName, importedName_qualified _ shallow.simple, owner?_ofUnit shallow.below,
      if_neg notNested, if_pos rfl, shallow.qualifiedName]
  have written : naming.spell (.declared (path.nested inner.name)) =
      path.outermost ++ "." ++ inner.name := by
    show (if naming.owner? (importedName path.outermostName) = some path.outermostName then
      (path.nested inner.name).simpleName else _) = _
    rw [if_pos owned, TypePath.simpleName, TypePath.nested, shallow.top]
    rfl
  rw [written]
  refine resolve_own (find?_nested shallow.top shallow.below (shallow.nested inner isInner).1 ?_
    member)
  rw [shallow.own]
  exact shallow.simple

end Unit

/-! ### Classes from outside the unit -/

/-- A class that no other type is around, by its package and its name. -/
structure TopLevel (type : TypeRef) (package name : String) : Prop where
  importName : type.importName? = some (package ++ "." ++ name)
  simpleName : type.simpleName? = some name
  qualifiedName : type.qualifiedName = package ++ "." ++ name
  simple : '.' ∉ name.toList

section Outside

variable {path : TypePath} {decl : TypeDecl} {naming : Naming} {classes : List TypeRef}
  {siblings : List String} {type : TypeRef} {package name : String}
  (shallow : Shallow path decl) (coherent : Coherent path decl classes naming)
  (topLevel : TopLevel type package name) (member : type ∈ classes)
  (abroad : package ≠ path.package) (outside : package ≠ path.qualifiedName)

include topLevel in
/-- A class is spelled by its name if it owns that, else in full. -/
theorem spell_topLevel : naming.spell type =
    if naming.owner? name = some (package ++ "." ++ name) then name
    else package ++ "." ++ name := by
  unfold Naming.spell
  rw [topLevel.importName, topLevel.simpleName, topLevel.qualifiedName]
  show (if naming.owner? (importedName (package ++ "." ++ name)) = _ then _ else _) = _
  rw [importedName_qualified package topLevel.simple]

include shallow coherent topLevel member abroad in
/-- A class that owns its name is imported, unless it is in `java.lang`. -/
theorem mem_sortedImports_of_owned
    (owned : naming.owner? name = some (package ++ "." ++ name)) (foreign : package ≠ "java.lang") :
    package ++ "." ++ name ∈ naming.sortedImports := by
  have known := importedName_qualified package topLevel.simple
  rcases coherent.imported type member _ topLevel.importName (known.symm ▸ owned) with
    same | implicit | imported
  · rw [coherent.unit, shallow.qualifiedName] at same
    exact absurd (package_eq_of_qualified topLevel.simple shallow.simple same) abroad
  · rw [isImplicit_qualified package topLevel.simple, Bool.or_eq_true, beq_iff_eq, beq_iff_eq,
      coherent.package] at implicit
    exact absurd implicit (not_or.mpr ⟨foreign, abroad⟩)
  · exact mem_sortedImports.mpr imported

include shallow coherent topLevel in
/-- The name of a class of `java.lang` that owns it denotes it, unless a type of the package has
that name. -/
theorem resolve_implicit_iff (abroad : package ≠ path.package) (implicit : package = "java.lang")
    (owned : naming.owner? name = some (package ++ "." ++ name))
    (unknown : (typePaths path decl).find? (denotes name) = none) :
    (naming.scope path decl siblings).resolve name = package ++ "." ++ name ↔ name ∉ siblings := by
  have notImported : ∀ other ∈ naming.sortedImports, importedName other ≠ name := by
    intro other imported same
    obtain ⟨isOwner, hidden⟩ := coherent.imports other (mem_sortedImports.mp imported)
    rw [same, owned] at isOwner
    cases isOwner
    rw [isImplicit_qualified package topLevel.simple, implicit] at hidden
    cases hidden
  have resolved : (naming.scope path decl siblings).resolve name =
      if '.' ∈ name.toList then name
      else if name ∈ siblings then TypePath.qualify path.package name
      else "java.lang." ++ name := resolve_foreign unknown notImported
  rw [resolved, if_neg topLevel.simple]
  by_cases sibling : name ∈ siblings
  · refine iff_of_false ?_ (not_not_intro sibling)
    rw [if_pos sibling, TypePath.qualify, shallow.package]
    intro same
    exact abroad (package_eq_of_qualified topLevel.simple topLevel.simple same).symm
  · refine iff_of_true ?_ sibling
    rw [if_neg sibling, implicit]
    rfl

include shallow coherent topLevel member abroad outside in
/-- **The spelling of a class denotes it**, unless it is the simple name of a class of `java.lang`
that a type of the package has too. -/
theorem resolve_spell_iff (deep : '.' ∈ package.toList) :
    (naming.scope path decl siblings).resolve (naming.spell type) = package ++ "." ++ name ↔
      ¬ (package = "java.lang" ∧ naming.owner? name = some (package ++ "." ++ name) ∧
        name ∈ siblings) := by
  rw [spell_topLevel topLevel]
  by_cases owned : naming.owner? name = some (package ++ "." ++ name)
  · rw [if_pos owned]
    have free : (ofUnit path decl).owner? name = none := by
      cases first : (ofUnit path decl).owner? name with
      | none => rfl
      | some owner =>
        have same := (coherent.extended name owner first).symm.trans owned
        rw [same] at first
        exact absurd first (owner?_ofUnit_ne shallow topLevel.simple abroad outside name)
    obtain ⟨notOwn, notNested⟩ := (owner?_ofUnit_eq_none_iff shallow).mp free
    have unknown := find?_other shallow.top shallow.below topLevel.simple (shallow.own ▸ notOwn)
      notNested
    by_cases implicit : package = "java.lang"
    · rw [resolve_implicit_iff shallow coherent topLevel abroad implicit owned unknown]
      simp [implicit, owned]
    · refine iff_of_true ?_ fun shadowed => implicit shadowed.1
      have imported := mem_sortedImports_of_owned shallow coherent topLevel member abroad owned
        implicit
      refine resolve_imported unknown imported (importedName_qualified _ topLevel.simple) ?_
      intro other isImport same
      obtain ⟨isOwner, _⟩ := coherent.imports other (mem_sortedImports.mp isImport)
      rw [same, owned] at isOwner
      exact (Option.some.inj isOwner).symm
  · rw [if_neg owned]
    refine iff_of_true ?_ fun shadowed => owned shadowed.2.1
    refine resolve_qualified (find?_qualified shallow.top shallow.below ?_)
      (dot_mem_qualified package name)
    rw [pieces_qualified package topLevel.simple, List.length_append]
    obtain ⟨left, right, cut⟩ := List.append_of_mem deep
    rw [cut, pieces_append, List.length_append]
    have first := List.length_pos_iff.mpr (pieces_ne_nil '.' left)
    have second := List.length_pos_iff.mpr (pieces_ne_nil '.' right)
    show 3 ≤ _ + 1
    omega

end Outside

end RamlInterfaces.Java
