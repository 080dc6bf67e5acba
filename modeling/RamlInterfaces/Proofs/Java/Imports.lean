/-
**Owners of simple names, and imports.**

When all classes of a unit are named, each simple name in use has one owner: a type of the unit, or
the first class of that name.  Exactly the owners that no rule brings into scope are imported.

* `owner?_register`, `owner?_ofUnit`: the owners after a class is named, and before any is;
* `Coherent`: what holds of a naming after classes of a unit are named;
* `coherent_adoptAll`: **it holds indeed**.
-/

import RamlInterfaces.Proofs.Java.Spelling

namespace RamlInterfaces.Java

namespace Naming

/-! ### Owners -/

/-- The value under a name after one is put there. -/
theorem find?_putNamed {α : Type} (entries : List (String × α)) (name other : String) (value : α) :
    ((putNamed entries name value).find? (·.1 == other)).map (·.2) =
      if other = name then some value else (entries.find? (·.1 == other)).map (·.2) := by
  induction entries with
  | nil =>
    by_cases same : other = name
    · simp [putNamed, same]
    · simp [putNamed, same, Ne.symm same]
  | cons entry rest ih =>
    obtain ⟨first, old⟩ := entry
    unfold putNamed
    by_cases here : first = name
    · rw [if_pos here]
      by_cases same : other = name
      · simp [here, same]
      · have different : ¬ name = other := Ne.symm same
        simp [here, same, different]
    · rw [if_neg here]
      by_cases asked : first = other
      · have different : ¬ other = name := asked ▸ here
        simp [asked, different]
      · rw [List.find?_cons_of_neg (by simpa using asked), ih,
          List.find?_cons_of_neg (by simpa using asked)]

/-- The owners in a unit before any class is named: its own type and those nested in it. -/
theorem owner?_ofUnit {path : TypePath} {decl : TypeDecl}
    (shallow : ∀ inner ∈ decl.nested, inner.nested = []) (name : String) :
    (ofUnit path decl).owner? name =
      if name ∈ decl.nested.map (·.name) then some (path.qualifiedName ++ "." ++ name)
      else if name = decl.name then some path.qualifiedName else none := by
  have nested (decls : List TypeDecl) (shallow : ∀ inner ∈ decls, inner.nested = [])
      (owners : List (String × String)) :
      ((claimNames.claimNested path.qualifiedName owners decls).find? (·.1 == name)).map (·.2) =
        if name ∈ decls.map (·.name) then some (path.qualifiedName ++ "." ++ name)
        else (owners.find? (·.1 == name)).map (·.2) := by
    induction decls generalizing owners with
    | nil => simp [claimNames.claimNested]
    | cons inner rest ih =>
      obtain ⟨first, kind, annotations, doc, methods, below, constants⟩ := inner
      obtain rfl : below = [] := shallow _ List.mem_cons_self
      have further := fun other member => shallow other (List.mem_cons_of_mem _ member)
      rw [claimNames.claimNested, ih further, claimNames, claimNames.claimNested, find?_putNamed,
        List.map_cons]
      by_cases later : name ∈ rest.map (·.name)
      · rw [if_pos later, if_pos (List.mem_cons_of_mem _ later)]
      · rw [if_neg later]
        by_cases same : name = first
        · rw [if_pos same, if_pos (by simp [same]), same]
        · have neither : name ∉ first :: rest.map (·.name) := by simp [same, later]
          rw [if_neg same, if_neg neither]
  obtain ⟨own, kind, annotations, doc, methods, inner, constants⟩ := decl
  unfold owner? ofUnit
  rw [claimNames, nested inner shallow, find?_putNamed]
  rfl

/-- The owners after a name is claimed. -/
theorem owner?_claim_eq (naming : Naming) (name importName other : String) :
    (naming.claim name importName).owner? other =
      if other = name then some ((naming.owner? name).getD importName)
      else naming.owner? other := by
  by_cases same : other = name
  · rw [if_pos same, same, owner?_claim]
  · rw [if_neg same]
    unfold claim
    split
    · rfl
    · unfold owner?
      have different : ¬ name = other := Ne.symm same
      simp [List.find?_append, different]

/-! ### Namings of a unit -/

@[simp] theorem package_claim (naming : Naming) (name importName : String) :
    (naming.claim name importName).package = naming.package := by
  unfold claim
  split <;> rfl

@[simp] theorem unit_claim (naming : Naming) (name importName : String) :
    (naming.claim name importName).unit = naming.unit := by
  unfold claim
  split <;> rfl

@[simp] theorem imports_claim (naming : Naming) (name importName : String) :
    (naming.claim name importName).imports = naming.imports := by
  unfold claim
  split <;> rfl

theorem mem_imports_addImport {naming : Naming} {importName other : String} :
    other ∈ (naming.addImport importName).imports ↔
      other = importName ∨ other ∈ naming.imports := by
  unfold addImport
  split
  · rename_i there
    rw [List.contains_iff_mem] at there
    constructor
    · exact .inr
    · rintro (rfl | member)
      · exact there
      · exact member
  · exact List.mem_cons

@[simp] theorem package_register (naming : Naming) (importName : String) :
    (naming.register importName).package = naming.package := by
  unfold register addImport
  dsimp only
  split
  · split
    · simp
    · split <;> simp
  · simp

@[simp] theorem unit_register (naming : Naming) (importName : String) :
    (naming.register importName).unit = naming.unit := by
  unfold register addImport
  dsimp only
  split
  · split
    · simp
    · split <;> simp
  · simp

@[simp] theorem isImplicit_register (naming : Naming) (importName other : String) :
    (naming.register importName).isImplicit other = naming.isImplicit other := by
  unfold isImplicit
  rw [package_register]

/-- A class that is named is imported if it owns its simple name and no rule brings it into
scope. -/
theorem mem_imports_register {naming : Naming} {importName other : String} :
    other ∈ (naming.register importName).imports ↔
      (other = importName ∧
        (naming.register importName).owner? (importedName importName) = some importName ∧
        importName ≠ naming.unit ∧ naming.isImplicit importName = false) ∨
          other ∈ naming.imports := by
  rw [owner?_register]
  have implicit : (naming.claim (importedName importName) importName).isImplicit importName =
      naming.isImplicit importName := by
    unfold isImplicit
    rw [package_claim]
  unfold register
  dsimp only
  rw [unit_claim, implicit]
  split
  · rename_i owned
    split
    · rename_i quiet
      rw [Bool.or_eq_true, decide_eq_true_eq] at quiet
      rw [imports_claim]
      constructor
      · exact .inr
      · rintro (⟨_, _, loud, hidden⟩ | member)
        · rcases quiet with same | seen
          · exact absurd same loud
          · rw [seen] at hidden
            cases hidden
        · exact member
    · rename_i loud
      rw [Bool.or_eq_true, decide_eq_true_eq, not_or, Bool.not_eq_true] at loud
      rw [mem_imports_addImport, imports_claim]
      simp [owned, loud]
  · rename_i other
    rw [imports_claim]
    simp [other]

/-- A naming after the given classes of a unit are named. -/
structure Coherent (path : TypePath) (decl : TypeDecl) (classes : List TypeRef)
    (naming : Naming) : Prop where
  package : naming.package = path.package
  unit : naming.unit = path.qualifiedName
  extended : (ofUnit path decl).Extends naming
  source : ∀ name owner, naming.owner? name = some owner →
    (ofUnit path decl).owner? name = some owner ∨
      ∃ type ∈ classes, type.importName? = some owner ∧ importedName owner = name
  owned : ∀ type ∈ classes, ∀ importName, type.importName? = some importName →
    ∃ owner, naming.owner? (importedName importName) = some owner
  imports : ∀ importName ∈ naming.imports,
    naming.owner? (importedName importName) = some importName ∧
      naming.isImplicit importName = false
  imported : ∀ type ∈ classes, ∀ importName, type.importName? = some importName →
    naming.owner? (importedName importName) = some importName →
      importName = naming.unit ∨ naming.isImplicit importName = true ∨
        importName ∈ naming.imports

variable {path : TypePath} {decl : TypeDecl} {naming next : Naming}

theorem coherent_ofUnit (path : TypePath) (decl : TypeDecl) :
    Coherent path decl [] (ofUnit path decl) where
  package := rfl
  unit := rfl
  extended := .refl _
  source := fun _ _ owned => .inl owned
  owned := fun _ member => absurd member List.not_mem_nil
  imports := fun _ member => absurd member List.not_mem_nil
  imported := fun _ member => absurd member List.not_mem_nil

/-- Naming one more class. -/
theorem Coherent.adopt {classes : List TypeRef} (coherent : Coherent path decl classes naming)
    {type : TypeRef} (adopted : naming.adopt type = .ok next) :
    Coherent path decl (classes ++ [type]) next := by
  have grown := extends_adopt adopted
  unfold Naming.adopt at adopted
  cases named : type.importName? with
  | none => rw [named] at adopted; cases adopted
  | some importName =>
    rw [named] at adopted
    cases adopted
    have owner (name : String) := owner?_claim_eq naming (importedName importName) importName name
    exact {
      package := by rw [package_register, coherent.package]
      unit := by rw [unit_register, coherent.unit]
      extended := coherent.extended.trans grown
      source := fun name found owned => by
        have before (was : naming.owner? name = some found) :
            (ofUnit path decl).owner? name = some found ∨ ∃ other ∈ classes ++ [type],
              other.importName? = some found ∧ importedName found = name := by
          rcases coherent.source name found was with own | ⟨other, member, isFound, same⟩
          · exact .inl own
          · exact .inr ⟨other, List.mem_append_left _ member, isFound, same⟩
        rw [owner?_register, owner name] at owned
        split at owned
        · rename_i same
          cases was : naming.owner? (importedName importName) with
          | none =>
            rw [was] at owned
            cases owned
            exact .inr ⟨type, List.mem_append_right _ List.mem_cons_self, named, same.symm⟩
          | some first =>
            rw [was] at owned
            cases owned
            exact before (same ▸ was)
        · exact before owned
      owned := fun other member otherName isName => by
        rcases List.mem_append.mp member with old | new
        · obtain ⟨first, owned⟩ := coherent.owned other old otherName isName
          exact ⟨first, grown _ _ owned⟩
        · rw [List.mem_singleton.mp new, named] at isName
          cases isName
          exact ⟨_, (owner?_register _ _ _).trans (owner?_claim _ _ _)⟩
      imports := fun other member => by
        rw [isImplicit_register]
        rcases mem_imports_register.mp member with ⟨rfl, owned, _, hidden⟩ | old
        · exact ⟨owned, hidden⟩
        · obtain ⟨owned, hidden⟩ := coherent.imports other old
          exact ⟨grown _ _ owned, hidden⟩
      imported := fun other member otherName isName owned => by
        rw [unit_register, isImplicit_register, mem_imports_register]
        rcases List.mem_append.mp member with old | new
        · obtain ⟨first, was⟩ := coherent.owned other old otherName isName
          have same : first = otherName := Option.some.inj ((grown _ _ was).symm.trans owned)
          rw [same] at was
          rcases coherent.imported other old otherName isName was with unit | implicit | imported
          · exact .inl unit
          · exact .inr (.inl implicit)
          · exact .inr (.inr (.inr imported))
        · rw [List.mem_singleton.mp new, named] at isName
          cases isName
          by_cases unit : importName = naming.unit
          · exact .inl unit
          · cases implicit : naming.isImplicit importName with
            | true => exact .inr (.inl rfl)
            | false => exact .inr (.inr (.inl ⟨rfl, owned, unit, rfl⟩)) }

/-- **The naming of a unit is coherent with the classes that were named.** -/
theorem coherent_adoptAll {classes : List TypeRef}
    (adopted : (ofUnit path decl).adoptAll classes = .ok naming) :
    Coherent path decl classes naming := by
  have all {done rest : List TypeRef} {first : Naming} (coherent : Coherent path decl done first)
      (adopted : first.adoptAll rest = .ok naming) :
      Coherent path decl (done ++ rest) naming := by
    induction rest generalizing done first with
    | nil =>
      cases adopted
      rw [List.append_nil]
      exact coherent
    | cons type rest ih =>
      rw [adoptAll, List.foldlM_cons] at adopted
      cases stepped : first.adopt type with
      | error fault => rw [stepped] at adopted; cases adopted
      | ok next =>
        rw [stepped] at adopted
        have later := ih (coherent.adopt stepped) adopted
        rwa [List.append_assoc] at later
  exact all (coherent_ofUnit path decl) adopted

end Naming

end RamlInterfaces.Java
