/-
**How a compilation unit spells types.**

Rendering names types one after the other, and what is written for one depends on the types named
before it.  An owner of a simple name stays its owner, though, so the naming at the end spells every
type as it was written.

* `TypeRef.classes`: the classes that a type names, in order;
* `Naming.register`: the naming after a class is named; `Naming.adopt` refuses a class without a
  name;
* `Naming.spell`: what a naming writes for a class;
* `Spells`: **a step names the given classes, and its result follows from how the final naming, or
  any later one, spells them**, if what it holds can be written; closed under `pure`, bind and
  `mapM`;
* `nameType_spells`: naming a type is such a step.
-/

import RamlInterfaces.Java.Naming
import RamlInterfaces.Proofs.Except

namespace RamlInterfaces.Java

/-- The classes that a type names, each one before its arguments. -/
def TypeRef.classes : TypeRef → List TypeRef
  | .primitive _ => []
  | .outside name arguments => .outside name arguments :: classesOf arguments
  | .declared path => [.declared path]
  | .unnamed text => [.unnamed text]
where
  /-- The classes that types name one after the other. -/
  classesOf : List TypeRef → List TypeRef
    | [] => []
    | type :: rest => classes type ++ classesOf rest

/-- The text of a type whose classes are spelled as given. -/
def spellType (spell : TypeRef → String) : TypeRef → String
  | .primitive type => type.keyword
  | .outside name [] => spell (.outside name [])
  | .outside name (first :: rest) =>
    spell (.outside name (first :: rest)) ++ "<" ++
      ", ".intercalate (spellType spell first :: spellTypes spell rest) ++ ">"
  | .declared path => spell (.declared path)
  | .unnamed text => spell (.unnamed text)
where
  /-- The texts of types one after the other. -/
  spellTypes (spell : TypeRef → String) : List TypeRef → List String
    | [] => []
    | type :: rest => spellType spell type :: spellTypes spell rest

namespace Naming

/-- The naming after a class is named: its simple name has an owner, and the class is imported where
it is that owner and no rule brings it into scope. -/
def register (naming : Naming) (importName : String) : Naming :=
  let claimed := naming.claim (importedName importName) importName
  if claimed.owner? (importedName importName) = some importName then
    if importName = claimed.unit || claimed.isImplicit importName then claimed
    else claimed.addImport importName
  else claimed

/-- The naming after a class is named; a class without a name is refused. -/
def adopt (naming : Naming) (type : TypeRef) : Except Failure Naming :=
  match type.importName? with
  | some importName => .ok (naming.register importName)
  | none => .error (.model (.unnameable type.text))

/-- The naming after classes are named one after the other. -/
def adoptAll (naming : Naming) (classes : List TypeRef) : Except Failure Naming :=
  classes.foldlM adopt naming

theorem adoptAll_singleton (naming : Naming) (type : TypeRef) :
    naming.adoptAll [type] = naming.adopt type := by
  unfold adoptAll
  rw [List.foldlM_cons]
  exact bind_pure _

/-- What a naming writes for a class: its simple name if the class owns that, else its name with the
package. -/
def spell (naming : Naming) (type : TypeRef) : String :=
  match type.importName?, type.simpleName? with
  | some importName, some simpleName =>
    if naming.owner? (importedName importName) = some importName then simpleName
    else type.qualifiedName
  | _, _ => type.text

/-- Every owner of a simple name is its owner in the later naming as well. -/
def Extends (naming later : Naming) : Prop :=
  ∀ name owner, naming.owner? name = some owner → later.owner? name = some owner

theorem Extends.refl (naming : Naming) : naming.Extends naming := fun _ _ owned => owned

theorem Extends.trans {first second third : Naming} (before : first.Extends second)
    (after : second.Extends third) : first.Extends third :=
  fun name owner owned => after name owner (before name owner owned)

/-! ### Claims -/

/-- A name that is claimed has an owner afterwards: the one before, or else the claimant. -/
theorem owner?_claim (naming : Naming) (name importName : String) :
    (naming.claim name importName).owner? name =
      some ((naming.owner? name).getD importName) := by
  unfold claim owner?
  cases found : naming.owners.find? (·.1 == name) with
  | none =>
    have free : naming.owners.any (·.1 == name) = false := by
      rw [List.any_eq_false]
      exact List.find?_eq_none.mp found
    simp [free, List.find?_append, found]
  | some entry =>
    have taken : naming.owners.any (·.1 == name) = true :=
      List.any_eq_true.mpr ⟨entry, List.mem_of_find?_eq_some found,
        by simpa using List.find?_some found⟩
    simp [taken, found]

theorem extends_claim (naming : Naming) (name importName : String) :
    naming.Extends (naming.claim name importName) := by
  intro other owner owned
  unfold claim
  split
  · exact owned
  · unfold owner? at owned ⊢
    obtain ⟨entry, found, rfl⟩ := Option.map_eq_some_iff.mp owned
    simp [List.find?_append, found]

@[simp] theorem owner?_addImport (naming : Naming) (importName name : String) :
    (naming.addImport importName).owner? name = naming.owner? name := by
  unfold addImport
  split <;> rfl

@[simp] theorem owner?_register (naming : Naming) (importName name : String) :
    (naming.register importName).owner? name =
      (naming.claim (importedName importName) importName).owner? name := by
  unfold register
  dsimp only
  split
  · split
    · rfl
    · exact owner?_addImport _ _ _
  · rfl

theorem extends_register (naming : Naming) (importName : String) :
    naming.Extends (naming.register importName) := by
  intro name owner owned
  rw [owner?_register]
  exact extends_claim naming _ _ name owner owned

theorem extends_adopt {naming next : Naming} {type : TypeRef}
    (admitted : naming.adopt type = .ok next) : naming.Extends next := by
  unfold adopt at admitted
  split at admitted
  · cases admitted
    exact extends_register _ _
  · cases admitted

/-- Naming further classes takes no simple name from its owner. -/
theorem extends_adoptAll {naming final : Naming} {classes : List TypeRef}
    (admitted : naming.adoptAll classes = .ok final) : naming.Extends final := by
  induction classes generalizing naming with
  | nil =>
    cases admitted
    exact .refl _
  | cons type rest ih =>
    rw [adoptAll, List.foldlM_cons] at admitted
    cases first : naming.adopt type with
    | error fault => rw [first] at admitted; cases admitted
    | ok next =>
      rw [first] at admitted
      exact (extends_adopt first).trans (ih admitted)

theorem adoptAll_append (naming : Naming) (classes others : List TypeRef) :
    naming.adoptAll (classes ++ others) =
      naming.adoptAll classes >>= fun next => next.adoptAll others := by
  unfold adoptAll
  rw [List.foldlM_append]

/-- **A class that was named is spelled alike ever after.** -/
theorem spell_of_extends {naming next later : Naming} {type : TypeRef}
    (admitted : naming.adopt type = .ok next) (grown : next.Extends later) :
    later.spell type = next.spell type := by
  unfold adopt at admitted
  unfold spell
  cases named : type.importName? with
  | none => rfl
  | some importName =>
    rw [named] at admitted
    cases admitted
    have owned := owner?_claim naming (importedName importName) importName
    rw [← owner?_register] at owned
    cases type.simpleName? with
    | none => rfl
    | some simpleName =>
      dsimp only
      rw [grown _ _ owned, owned]

end Naming

/-- The types nested in a type claim their names one after the other. -/
theorem claimNested_eq (name : String) (owners : List (String × String)) (decls : List TypeDecl) :
    claimNames.claimNested name owners decls =
      decls.foldl (fun owners inner => claimNames owners (name ++ "." ++ inner.name) inner)
        owners := by
  induction decls generalizing owners with
  | nil => rfl
  | cons inner rest ih => rw [claimNames.claimNested, ih, List.foldl_cons]

/-! ### Steps that name classes -/

/-- The step comes to an end exactly where what it holds can be written and the classes can be named
one after the other.  Its result is then the one that follows from how the naming after it, or any
later one, spells classes. -/
structure Spells {α : Type} (step : Namer α) (writable : Prop) (classes : List TypeRef)
    (result : (TypeRef → String) → α) : Prop where
  run_eq_ok_iff : ∀ (naming final : Naming) (value : α), step.run naming = .ok (value, final) ↔
    writable ∧ naming.adoptAll classes = .ok final ∧ value = result final.spell
  stable : ∀ {naming final later : Naming}, naming.adoptAll classes = .ok final →
    final.Extends later → result later.spell = result final.spell

namespace Spells

variable {α β : Type} {step : Namer α} {writable further : Prop} {classes others : List TypeRef}
  {result : (TypeRef → String) → α}

/-- The condition in other words. -/
theorem of_iff (spelled : Spells step writable classes result) (same : writable ↔ further) :
    Spells step further classes result :=
  ⟨fun naming final value => (spelled.run_eq_ok_iff naming final value).trans
    (and_congr_left' same),
    spelled.stable⟩

protected theorem pure (value : α) : Spells (pure value) True [] fun _ => value where
  run_eq_ok_iff naming final other := by
    constructor
    · intro ran
      cases ran
      exact ⟨trivial, rfl, rfl⟩
    · rintro ⟨-, adopted, rfl⟩
      cases adopted
      rfl
  stable _ _ := rfl

/-- What is written names no class. -/
protected theorem written (value? : Option α) (fallback : α) :
    Spells (written value? : Namer α) (value?.isSome = true) [] fun _ => value?.getD fallback where
  run_eq_ok_iff naming final other := by
    cases value? with
    | none =>
      constructor
      · intro ran
        cases ran
      · rintro ⟨isSome, -⟩
        cases isSome
    | some value =>
      constructor
      · intro ran
        cases ran
        exact ⟨rfl, rfl, rfl⟩
      · rintro ⟨-, adopted, rfl⟩
        cases adopted
        rfl
  stable _ _ := rfl

/-- **One step after another**: the second may use the value of the first. -/
protected theorem bind {next : α → Namer β} {following : α → (TypeRef → String) → β}
    (first : Spells step writable classes result)
    (second : ∀ value, Spells (next value) further others (following value)) :
    Spells (step >>= next) (writable ∧ further) (classes ++ others) fun spell =>
      following (result spell) spell where
  run_eq_ok_iff naming final value := by
    rw [StateT.run_bind, bind_eq_ok_iff, Naming.adoptAll_append, bind_eq_ok_iff]
    constructor
    · rintro ⟨⟨between, middle⟩, ran, ranOn⟩
      obtain ⟨isWritable, adopted, rfl⟩ := (first.run_eq_ok_iff _ _ _).mp ran
      obtain ⟨isFurther, adoptedOn, rfl⟩ := ((second _).run_eq_ok_iff _ _ _).mp ranOn
      refine ⟨⟨isWritable, isFurther⟩, ⟨middle, adopted, adoptedOn⟩, ?_⟩
      rw [first.stable adopted (Naming.extends_adoptAll adoptedOn)]
    · rintro ⟨⟨isWritable, isFurther⟩, ⟨middle, adopted, adoptedOn⟩, rfl⟩
      refine ⟨(result middle.spell, middle), (first.run_eq_ok_iff _ _ _).mpr
        ⟨isWritable, adopted, rfl⟩, ((second _).run_eq_ok_iff _ _ _).mpr
        ⟨isFurther, adoptedOn, ?_⟩⟩
      rw [first.stable adopted (Naming.extends_adoptAll adoptedOn)]
  stable {naming final later} adopted grown := by
    rw [Naming.adoptAll_append, bind_eq_ok_iff] at adopted
    obtain ⟨middle, before, after⟩ := adopted
    have start := Naming.extends_adoptAll after
    rw [first.stable before (start.trans grown), ← first.stable before start,
      (second _).stable after grown]

/-- A step whose result is a function of the value before. -/
protected theorem map (spelled : Spells step writable classes result) (change : α → β) :
    Spells (step >>= fun value => pure (change value)) writable classes fun spell =>
      change (result spell) := by
  have both := spelled.bind fun value => Spells.pure (change value)
  rw [List.append_nil] at both
  exact both.of_iff (and_iff_left trivial)

/-- The same step for each item of a list. -/
protected theorem mapM {step : α → Namer β} {writable : α → Prop} {classes : α → List TypeRef}
    {result : (TypeRef → String) → α → β}
    (each : ∀ item, Spells (step item) (writable item) (classes item) fun spell =>
      result spell item) (items : List α) :
    Spells (items.mapM step) (∀ item ∈ items, writable item) (items.flatMap classes) fun spell =>
      items.map (result spell) := by
  induction items with
  | nil => exact (Spells.pure []).of_iff (by simp)
  | cons item rest ih =>
    rw [List.mapM_cons, List.flatMap_cons]
    exact ((each item).bind fun first => ih.map (first :: ·)).of_iff List.forall_mem_cons.symm

end Spells

/-! ### Types -/

/-- Naming a class adopts it and gives its spelling. -/
theorem nameClass_run (type : TypeRef) (naming : Naming) (isClass : type.isPrimitive = false) :
    (nameClass type).run naming =
      (naming.adopt type).map fun next => (next.spell type, next) := by
  have named {importName simpleName : String} (hasImport : type.importName? = some importName)
      (hasName : type.simpleName? = some simpleName) : (nameClass type).run naming =
        (naming.adopt type).map fun next => (next.spell type, next) := by
    unfold Naming.adopt Naming.spell nameClass
    rw [hasImport, hasName]
    simp only [Except.map, Naming.owner?_register, StateT.run_bind, StateT.run_modify,
      StateT.run_get, pure_bind]
    unfold Naming.register
    generalize naming.claim (importedName importName) importName = claimed
    by_cases owned : claimed.owner? (importedName importName) = some importName
    · by_cases quiet : (decide (importName = claimed.unit) ||
          claimed.isImplicit importName) = true
      · rw [if_pos owned, if_pos owned, if_pos owned, if_pos quiet, if_pos quiet]
        rfl
      · rw [if_pos owned, if_pos owned, if_pos owned, if_neg quiet, if_neg quiet]
        rfl
    · rw [if_neg owned, if_neg owned, if_neg owned]
      rfl
  cases type with
  | primitive type => cases isClass
  | unnamed text => rfl
  | outside name arguments => exact named rfl rfl
  | declared path => exact named rfl rfl

theorem nameClass_spells (type : TypeRef) (isClass : type.isPrimitive = false) :
    Spells (nameClass type) True [type] fun spell => spell type where
  run_eq_ok_iff naming final value := by
    rw [nameClass_run type naming isClass, Naming.adoptAll_singleton]
    cases admitted : naming.adopt type with
    | error failure =>
      constructor
      · intro ran
        cases ran
      · rintro ⟨-, adopted, -⟩
        cases adopted
    | ok next =>
      constructor
      · intro ran
        cases ran
        exact ⟨trivial, rfl, rfl⟩
      · rintro ⟨-, adopted, rfl⟩
        cases adopted
        rfl
  stable adopted grown := by
    rw [Naming.adoptAll_singleton] at adopted
    exact Naming.spell_of_extends adopted grown

mutual

/-- **Naming a type names its classes, and the text follows from their spellings.** -/
theorem nameType_spells : (type : TypeRef) →
    Spells (nameType type) True type.classes fun spell => spellType spell type
  | .primitive type => Spells.pure type.keyword
  | .declared path => nameClass_spells (.declared path) rfl
  | .unnamed text => nameClass_spells (.unnamed text) rfl
  | .outside name [] => (nameClass_spells (.outside name []) rfl).map id
  | .outside name (first :: rest) => by
    have all := (nameClass_spells (.outside name (first :: rest)) rfl).bind fun base =>
      (nameType_spells first).bind fun spelled =>
        (nameTypes_spells rest).map fun others =>
          base ++ "<" ++ ", ".intercalate (spelled :: others) ++ ">"
    exact all.of_iff (by simp)

theorem nameTypes_spells : (types : List TypeRef) →
    Spells (nameType.nameTypes types) True (TypeRef.classes.classesOf types) fun spell =>
      spellType.spellTypes spell types
  | [] => Spells.pure []
  | type :: rest => by
    have all := (nameType_spells type).bind fun spelled =>
      (nameTypes_spells rest).map fun others => spelled :: others
    exact all.of_iff (by simp)

end

end RamlInterfaces.Java
