/-
**Chains of resource types.**

A resource refers to a type, whose body may refer to a type itself, and so on.  The chain is
followed until a body refers to no type, and a resource whose chain comes back to a type is refused.

* `FillingFails`, `templateBody_error`: how the filling of a body fails;
* `RefersToType`, `Follows`: what a node refers to, and the chain of types from it;
* `Halts`, `ChainEnds`: how a chain ends;
* `mergeType_chainEnds_iff`: **a node is merged with its chain of types exactly as the chain ends**;
* `mergeType_circular_iff`, `applyType_circular_iff`: **a resource is refused as circular exactly
  when its chain of types comes back to one of them**.
-/

import RamlInterfaces.Proofs.Raml.Application

namespace RamlInterfaces.Raml

/-! ### Bodies that cannot be filled -/

/-- The filling of a body fails so: an argument is missing or cannot be written, a transform is not
known, or the body has no end. -/
inductive FillingFails : Failure → Prop where
  | argument (name : String) : FillingFails (.raml (.missingArgument name))
  | transform (word : String) : FillingFails (.raml (.unknownTransform word))
  | unwritable : FillingFails (.defect .tooManyDigits)
  | endless : FillingFails (.defect .nestedTooDeeply)

variable {arguments : Entries} {failure : Failure}

theorem Blames.fillingFails {p : Placeholder} (blames : Blames arguments p failure) :
    FillingFails failure := by
  cases blames with
  | argument => exact .argument _
  | unwritable => exact .unwritable
  | transform => exact .transform _

theorem templateBody_error {template : Entries}
    (failed : templateBody template arguments = .error failure) : FillingFails failure := by
  rcases templateBody_eq_error_iff.mp failed with ⟨-, rfl⟩ | ⟨-, refused⟩
  · exact .endless
  · obtain ⟨_, -, blames⟩ := substitute_eq_error_iff.mp refused
    exact blames.fillingFails

/-! ### Chains of types -/

/-- The name of the template that a reference denotes. -/
def referenceName? (reference : Value) : Option String :=
  (Reference.ofValue? reference).map Reference.name

theorem referenceName?_of_some {reference : Value} {denoted : Reference}
    (isReference : Reference.ofValue? reference = some denoted) :
    referenceName? reference = some denoted.name := by
  unfold referenceName?
  rw [isReference]
  rfl

/-- A node refers to a type, with the given arguments for it. -/
def RefersToType (node : Entries) (reference : Reference) : Prop :=
  (node.get "type").isNull = false ∧ Reference.ofValue? (node.get "type") = some reference

/-- The type that a node refers to gives it a body. -/
def GivesBody (types arguments node : Entries) (reference : Reference) (body : Entries) : Prop :=
  RefersToType node reference ∧ ∃ template,
    types.find? (.text reference.name) = some (.map template) ∧
    templateBody template (arguments.putAll reference.arguments) = .ok body

/-- The chain of types from a node leads through types of the given names to a body. -/
inductive Follows (types arguments : Entries) : Entries → List String → Entries → Prop where
  | start (node : Entries) : Follows types arguments node [] node
  | next {node body last : Entries} {reference : Reference} {names : List String}
    (given : GivesBody types arguments node reference body)
    (further : Follows types arguments body names last) :
    Follows types arguments node (reference.name :: names) last

/-- The chain of types from a node comes back to a type: it leads through the given names, all
different, to a body that refers to one of these or of those seen before. -/
def ComesBack (types arguments node : Entries) (seen names : List String) (name : String) : Prop :=
  ∃ last reference, Follows types arguments node names last ∧ RefersToType last reference ∧
    reference.name = name ∧ (seen ++ names).Nodup ∧ name ∈ seen ++ names

variable {types node body last : Entries} {seen names cycle : List String} {name : String}
  {reference : Reference}

theorem RefersToType.unique {other : Reference} (refers : RefersToType node reference)
    (again : RefersToType node other) : reference = other :=
  Option.some.inj (refers.2.symm.trans again.2)

theorem GivesBody.unique {further : Reference} {other : Entries}
    (given : GivesBody types arguments node reference body)
    (again : GivesBody types arguments node further other) :
    reference = further ∧ body = other := by
  obtain ⟨refers, _, found, filled⟩ := given
  obtain ⟨same, _, isTemplate, isBody⟩ := again
  cases refers.unique same
  cases found.symm.trans isTemplate
  exact ⟨rfl, Except.ok.inj (filled.symm.trans isBody)⟩

/-! ### Ends of a chain -/

/-- How a chain halts at a body when types of the given names were applied on the way: the body
refers to no type, to one by something that cannot be written, to one of these, to one that is not
declared as a mapping, or to one that cannot be filled. -/
inductive Halts (types arguments : Entries) (visited : List String) (last : Entries) :
    Except Failure Unit → Prop where
  | finished (untyped : (last.get "type").isNull = true) :
    Halts types arguments visited last (.ok ())
  | unwritable (typed : (last.get "type").isNull = false)
    (noText : Reference.ofValue? (last.get "type") = none) :
    Halts types arguments visited last (.error (.defect .tooManyDigits))
  | circular {reference : Reference} (refers : RefersToType last reference)
    (known : reference.name ∈ visited) :
    Halts types arguments visited last
      (.error (.raml (.circularTypes (visited ++ [reference.name]))))
  | undeclared {reference : Reference} (refers : RefersToType last reference)
    (fresh : reference.name ∉ visited)
    (missing : ∀ template, types.find? (.text reference.name) ≠ some (.map template)) :
    Halts types arguments visited last (.error (.raml (.undeclared .resourceType reference.name)))
  | unfilled {reference : Reference} {template : Entries} {failure : Failure}
    (refers : RefersToType last reference) (fresh : reference.name ∉ visited)
    (found : types.find? (.text reference.name) = some (.map template))
    (failed : templateBody template (arguments.putAll reference.arguments) = .error failure) :
    Halts types arguments visited last (.error failure)

/-- The chain of types from a node leads, through types that are all different and none of those
seen, to where it halts in the given way. -/
def ChainEnds (types arguments node : Entries) (seen : List String)
    (outcome : Except Failure Unit) : Prop :=
  ∃ names last, Follows types arguments node names last ∧ (seen ++ names).Nodup ∧
    Halts types arguments (seen ++ names) last outcome

variable {outcome other : Except Failure Unit}

/-- A chain does not halt where a type that was not applied gives a body. -/
theorem Halts.not_gives (halts : Halts types arguments seen node outcome)
    (fresh : reference.name ∉ seen) : ¬ GivesBody types arguments node reference body := by
  rintro ⟨refers, template, found, filled⟩
  cases halts with
  | finished untyped => cases untyped.symm.trans refers.1
  | unwritable _ noText => cases noText.symm.trans refers.2
  | circular other known =>
    cases refers.unique other
    exact fresh known
  | undeclared other _ missing =>
    cases refers.unique other
    exact missing template found
  | unfilled other _ isTemplate failed =>
    cases refers.unique other
    cases found.symm.trans isTemplate
    cases failed.symm.trans filled

/-- Where a body refers to a type, the reference decides how the chain halts. -/
theorem Halts.of_refersToType (halts : Halts types arguments seen node outcome)
    (refers : RefersToType node reference) :
    reference.name ∈ seen ∧
        outcome = .error (.raml (.circularTypes (seen ++ [reference.name]))) ∨
      reference.name ∉ seen ∧
          (∀ template, types.find? (.text reference.name) ≠ some (.map template)) ∧
          outcome = .error (.raml (.undeclared .resourceType reference.name)) ∨
        reference.name ∉ seen ∧ ∃ template failure,
          types.find? (.text reference.name) = some (.map template) ∧
          templateBody template (arguments.putAll reference.arguments) = .error failure ∧
          outcome = .error failure := by
  cases halts with
  | finished untyped => cases untyped.symm.trans refers.1
  | unwritable _ noText => cases noText.symm.trans refers.2
  | circular other known =>
    cases refers.unique other
    exact .inl ⟨known, rfl⟩
  | undeclared other fresh missing =>
    cases refers.unique other
    exact .inr (.inl ⟨fresh, missing, rfl⟩)
  | unfilled other fresh found failed =>
    cases refers.unique other
    exact .inr (.inr ⟨fresh, _, _, found, failed, rfl⟩)

theorem Halts.unique (halts : Halts types arguments seen node outcome)
    (again : Halts types arguments seen node other) : outcome = other := by
  cases halts with
  | finished untyped =>
    cases again with
    | finished => rfl
    | unwritable typed => cases untyped.symm.trans typed
    | circular refers | undeclared refers | unfilled refers => cases untyped.symm.trans refers.1
  | unwritable typed noText =>
    cases again with
    | finished untyped => cases untyped.symm.trans typed
    | unwritable => rfl
    | circular refers | undeclared refers | unfilled refers => cases noText.symm.trans refers.2
  | circular refers known =>
    rcases again.of_refersToType refers with ⟨-, same⟩ | ⟨fresh, -⟩ | ⟨fresh, -⟩
    · exact same.symm
    · exact absurd known fresh
    · exact absurd known fresh
  | undeclared refers fresh missing =>
    rcases again.of_refersToType refers with ⟨known, -⟩ | ⟨-, -, same⟩ | ⟨-, _, _, found, -⟩
    · exact absurd known fresh
    · exact same.symm
    · exact absurd found (missing _)
  | unfilled refers fresh found failed =>
    rcases again.of_refersToType refers with
      ⟨known, -⟩ | ⟨-, missing, -⟩ | ⟨-, _, _, further, refused, same⟩
    · exact absurd known fresh
    · exact absurd found (missing _)
    · cases found.symm.trans further
      cases failed.symm.trans refused
      exact same.symm

/-- A chain that halts at its node ends so. -/
theorem chainEnds_iff_of_halts (distinct : seen.Nodup)
    (halts : Halts types arguments seen node outcome) :
    ChainEnds types arguments node seen other ↔ outcome = other := by
  constructor
  · rintro ⟨names, last, follows, apart, again⟩
    cases follows with
    | start =>
      rw [List.append_nil] at again
      exact halts.unique again
    | @next _ _ _ reference _ given =>
      have fresh (isSeen : reference.name ∈ seen) : False :=
        (List.nodup_append.mp apart).2.2 _ isSeen _ List.mem_cons_self rfl
      exact absurd given (halts.not_gives fresh)
  · rintro rfl
    refine ⟨[], node, .start node, ?_, ?_⟩
    · rwa [List.append_nil]
    · rwa [List.append_nil]

/-- A chain ends as it does from the body of its first type on, if that was not seen. -/
theorem chainEnds_iff_of_gives (fresh : reference.name ∉ seen)
    (given : GivesBody types arguments node reference body) :
    ChainEnds types arguments node seen outcome ↔
      ChainEnds types arguments body (seen ++ [reference.name]) outcome := by
  constructor
  · rintro ⟨names, last, follows, distinct, halts⟩
    cases follows with
    | start =>
      rw [List.append_nil] at halts
      exact absurd given (halts.not_gives fresh)
    | next again further =>
      obtain ⟨rfl, rfl⟩ := given.unique again
      rw [List.append_cons] at distinct halts
      exact ⟨_, last, further, distinct, halts⟩
  · rintro ⟨names, last, follows, distinct, halts⟩
    rw [← List.append_cons] at distinct halts
    exact ⟨_, last, .next given follows, distinct, halts⟩

theorem nodup_concat (distinct : seen.Nodup) (fresh : name ∉ seen) : (seen ++ [name]).Nodup := by
  refine List.nodup_append.mpr ⟨distinct, List.nodup_cons.mpr ⟨List.not_mem_nil, .nil⟩,
    fun a isSeen b isName => ?_⟩
  rintro rfl
  exact fresh (List.mem_singleton.mp isName ▸ isSeen)

/-- **A node is merged with its chain of types exactly as the chain ends.** -/
theorem mergeType_chainEnds_iff (typed : (node.get "type").isNull = false) (distinct : seen.Nodup) :
    (mergeType types arguments node seen).map (fun _ => ()) = outcome ↔
      ChainEnds types arguments node seen outcome := by
  have not_mem {seen : List String} {name : String} (fresh : ¬ seen.contains name = true) :
      name ∉ seen := fun member => fresh (List.contains_iff_mem.mpr member)
  fun_induction mergeType types arguments node seen with
  | case1 node seen noText =>
    exact (chainEnds_iff_of_halts distinct (.unwritable typed noText)).symm
  | case2 node seen reference isReference known =>
    refine (chainEnds_iff_of_halts distinct (.circular ⟨typed, isReference⟩ ?_)).symm
    exact List.contains_iff_mem.mp known
  | case3 node seen reference isReference fresh template found failure refused =>
    refine (chainEnds_iff_of_halts distinct (.unfilled ⟨typed, isReference⟩ ?_ found refused)).symm
    exact not_mem fresh
  | case4 node seen reference isReference fresh template found body filled untyped =>
    have later := nodup_concat distinct (not_mem fresh)
    rw [chainEnds_iff_of_gives (not_mem fresh) ⟨⟨typed, isReference⟩, template, found, filled⟩]
    exact (chainEnds_iff_of_halts later (.finished untyped)).symm
  | case5 node seen reference isReference fresh template found body filled isTyped failure refused
      ih =>
    have inner := ih (Bool.eq_false_iff.mpr isTyped) (nodup_concat distinct (not_mem fresh))
    rw [refused] at inner
    refine inner.trans (chainEnds_iff_of_gives (not_mem fresh) ?_).symm
    exact ⟨⟨typed, isReference⟩, template, found, filled⟩
  | case6 node seen reference isReference fresh template found body filled isTyped resolved merged
      ih =>
    have inner := ih (Bool.eq_false_iff.mpr isTyped) (nodup_concat distinct (not_mem fresh))
    rw [merged] at inner
    refine inner.trans (chainEnds_iff_of_gives (not_mem fresh) ?_).symm
    exact ⟨⟨typed, isReference⟩, template, found, filled⟩
  | case7 node seen reference isReference fresh missing =>
    refine (chainEnds_iff_of_halts distinct (.undeclared ⟨typed, isReference⟩ ?_ missing)).symm
    exact not_mem fresh

theorem mergeType_error_iff (typed : (node.get "type").isNull = false) (distinct : seen.Nodup) :
    mergeType types arguments node seen = .error failure ↔
      ChainEnds types arguments node seen (.error failure) := by
  rw [← mergeType_chainEnds_iff typed distinct]
  cases mergeType types arguments node seen <;> simp [Except.map]

/-- **A chain of types is refused as circular exactly when it comes back to one of its types**, and
then the names up to there are given. -/
theorem mergeType_circular_iff (typed : (node.get "type").isNull = false) (distinct : seen.Nodup) :
    mergeType types arguments node seen = .error (.raml (.circularTypes cycle)) ↔
      ∃ names name, ComesBack types arguments node seen names name ∧
        cycle = seen ++ names ++ [name] := by
  rw [mergeType_error_iff typed distinct]
  constructor
  · rintro ⟨names, last, follows, apart, halts⟩
    cases halts with
    | circular refers known =>
      exact ⟨names, _, ⟨last, _, follows, refers, rfl, apart, known⟩, rfl⟩
    | unfilled _ _ _ failed => cases templateBody_error failed
  · rintro ⟨names, _, ⟨last, reference, follows, refers, rfl, apart, known⟩, rfl⟩
    exact ⟨names, last, follows, apart, .circular refers known⟩

/-- A body from which a chain goes on or comes back refers to a type. -/
theorem ComesBack.typed (back : ComesBack types arguments node seen names name) :
    (node.get "type").isNull = false := by
  obtain ⟨_, _, follows, refers, -⟩ := back
  cases follows with
  | start => exact refers.1
  | next given => exact given.1.1

/-- **A resource is refused as circular exactly when its chain of types comes back** to one of
them. -/
theorem applyType_circular_iff {templates : Templates} :
    applyType templates arguments node = .error (.raml (.circularTypes cycle)) ↔
      ∃ names name, ComesBack templates.resourceTypes arguments node [] names name ∧
        cycle = names ++ [name] := by
  rw [applyType_eq_error_iff]
  constructor
  · rintro ⟨typed, circular⟩
    exact (mergeType_circular_iff typed .nil).mp circular
  · rintro ⟨names, name, back, same⟩
    exact ⟨back.typed, (mergeType_circular_iff back.typed .nil).mpr ⟨names, name, back, same⟩⟩

end RamlInterfaces.Raml
