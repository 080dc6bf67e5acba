/-
**What comes of a chain of resource types.**

Merging a node with its chain of types calls itself once for every type on the way.  No type is
applied twice, so there are at most as many calls as declared types, and one more for the reference
that ends the chain.  The reference at which it fails first decides how: one that cannot be written,
one that is not declared as a mapping, one that was applied already, or one whose body cannot be
filled.

* `mergeTypeCounted`: the merging, with the number of its calls;
* `mergeTypeCounted_snd_le`: one call more than the types that are not seen, at most;
* `Arrives`: the chain arrives at a reference, through types that are all different;
* `mergeType_outcome`: **the calls are bounded, and each failure comes exactly when the chain first
  arrives at its reason**;
* `mergeType_vastName`: a reference that cannot be written is not refused as unknown.
-/

import RamlInterfaces.Proofs.Raml.Inheritance

namespace RamlInterfaces.Raml

variable {types arguments node : Entries} {seen : List String}

/-! ### The number of calls -/

/-- A node with the content of its chain of resource types, as `mergeType` gives it, and the number
of calls that it takes. -/
def mergeTypeCounted (types arguments node : Entries) (seen : List String) :
    Except Failure Entries × Nat :=
  match Reference.ofValue? (node.get "type") with
  | none => (.error (.defect .tooManyDigits), 1)
  | some reference =>
    if _known : seen.contains reference.name = true then
      (.error (.raml (.circularTypes (seen ++ [reference.name]))), 1)
    else
      match _found : types.find? (.text reference.name) with
      | some (.map template) =>
        match templateBody template (arguments.putAll reference.arguments) with
        | .error failure => (.error failure, 1)
        | .ok body =>
          if (body.get "type").isNull then (.ok (mergeTypeBody (!seen.isEmpty) node body), 1)
          else
            let (inherited, calls) :=
              mergeTypeCounted types arguments body (seen ++ [reference.name])
            match inherited with
            | .error failure => (.error failure, 1 + calls)
            | .ok resolved => (.ok (mergeTypeBody (!seen.isEmpty) node resolved), 1 + calls)
      | _ => (.error (.raml (.undeclared .resourceType reference.name)), 1)
termination_by unseenCount types seen
decreasing_by exact unseenCount_lt (by assumption) (Bool.eq_false_iff.mpr (by assumption))

/-- Merging with a declared type that is not seen goes on with its body. -/
theorem mergeType_of_found {reference : Reference} {template : Entries}
    (isReference : Reference.ofValue? (node.get "type") = some reference)
    (fresh : ¬ seen.contains reference.name = true)
    (found : types.find? (.text reference.name) = some (.map template)) :
    mergeType types arguments node seen =
      match templateBody template (arguments.putAll reference.arguments) with
      | .error failure => .error failure
      | .ok body =>
        if (body.get "type").isNull then .ok (mergeTypeBody (!seen.isEmpty) node body)
        else
          match mergeType types arguments body (seen ++ [reference.name]) with
          | .error failure => .error failure
          | .ok resolved => .ok (mergeTypeBody (!seen.isEmpty) node resolved) := by
  rw [mergeType, isReference]
  dsimp only
  rw [dif_neg fresh]
  split
  · rename_i isFound
    cases found.symm.trans isFound
    rfl
  · rename_i missing
    exact absurd found (missing template)

/-- **The counted merging gives what merging gives.** -/
theorem mergeTypeCounted_fst :
    (mergeTypeCounted types arguments node seen).1 = mergeType types arguments node seen := by
  fun_induction mergeTypeCounted types arguments node seen with
  | case1 node seen noText => rw [mergeType, noText]
  | case2 node seen reference isReference known =>
    rw [mergeType, isReference]
    dsimp only
    rw [dif_pos known]
  | case3 node seen reference isReference fresh template found failure refused =>
    rw [mergeType_of_found isReference fresh found, refused]
  | case4 node seen reference isReference fresh template found body filled untyped =>
    rw [mergeType_of_found isReference fresh found, filled]
    exact (if_pos untyped).symm
  | case5 node seen reference isReference fresh template found body filled isTyped calls failure
      merged ih =>
    rw [merged] at ih
    rw [mergeType_of_found isReference fresh found, filled]
    dsimp only
    rw [if_neg isTyped, ← ih]
  | case6 node seen reference isReference fresh template found body filled isTyped calls resolved
      merged ih =>
    rw [merged] at ih
    rw [mergeType_of_found isReference fresh found, filled]
    dsimp only
    rw [if_neg isTyped, ← ih]
  | case7 node seen reference isReference fresh missing =>
    rw [mergeType, isReference]
    dsimp only
    rw [dif_neg fresh]
    split
    · rename_i found
      exact absurd found (missing _)
    · rfl

/-- **There is one call more than types that are not seen, at most**: every further call is for a
body of a type that was not seen before. -/
theorem mergeTypeCounted_snd_le :
    (mergeTypeCounted types arguments node seen).2 ≤ 1 + unseenCount types seen := by
  fun_induction mergeTypeCounted types arguments node seen with
  | case5 node seen reference isReference fresh template found body filled isTyped calls failure
      merged ih =>
    have fewer := unseenCount_lt found (Bool.eq_false_iff.mpr fresh)
    rw [merged] at ih
    omega
  | case6 node seen reference isReference fresh template found body filled isTyped calls resolved
      merged ih =>
    have fewer := unseenCount_lt found (Bool.eq_false_iff.mpr fresh)
    rw [merged] at ih
    omega
  | case1 | case2 | case3 | case4 | case7 => exact Nat.le_add_right 1 _

/-! ### What the chain arrives at -/

/-- The chain of types from a node arrives at a body that refers to a type, through types of the
given names, which are all different. -/
def Arrives (types arguments node : Entries) (names : List String) (last : Entries) : Prop :=
  Follows types arguments node names last ∧ names.Nodup ∧ (last.get "type").isNull = false

/-- The chain arrives at a reference that cannot be written. -/
def ReachesUnnamed (types arguments node : Entries) : Prop :=
  ∃ names last, Arrives types arguments node names last ∧
    Reference.ofValue? (last.get "type") = none

/-- The chain arrives at a name that is not declared as a mapping. -/
def ReachesUnknown (types arguments node : Entries) (name : String) : Prop :=
  ∃ names last reference, Arrives types arguments node names last ∧
    Reference.ofValue? (last.get "type") = some reference ∧ name = reference.name ∧
    ∀ template, types.find? (.text name) ≠ some (.map template)

/-- The chain arrives at a name that it has been at; `cycle` are its names up to there. -/
def ReachesVisited (types arguments node : Entries) (cycle : List String) : Prop :=
  ∃ names last reference, Arrives types arguments node names last ∧
    Reference.ofValue? (last.get "type") = some reference ∧ reference.name ∈ names ∧
    cycle = names ++ [reference.name]

/-- The chain arrives at a type that it has not been at and whose body cannot be filled. -/
def ReachesUnfilled (types arguments node : Entries) (failure : Failure) : Prop :=
  ∃ names last reference template, Arrives types arguments node names last ∧
    Reference.ofValue? (last.get "type") = some reference ∧ reference.name ∉ names ∧
    types.find? (.text reference.name) = some (.map template) ∧
    templateBody template (arguments.putAll reference.arguments) = .error failure

variable {names : List String} {last : Entries} {name : String} {cycle : List String}
  {failure : Failure}

/-- What is declared as no mapping was not applied. -/
theorem Follows.not_mem_of_missing (follows : Follows types arguments node names last)
    (missing : ∀ template, types.find? (.text name) ≠ some (.map template)) : name ∉ names := by
  induction follows with
  | start => exact List.not_mem_nil
  | next given _ ih =>
    obtain ⟨_, template, found, _⟩ := given
    rw [List.mem_cons, not_or]
    refine ⟨?_, ih⟩
    rintro rfl
    exact missing template found

section Outcome

variable (typed : (node.get "type").isNull = false)

include typed

/-- A type is refused as unknown exactly when the chain arrives at it. -/
theorem mergeType_undeclared_iff :
    mergeType types arguments node [] = .error (.raml (.undeclared .resourceType name)) ↔
      ReachesUnknown types arguments node name := by
  rw [mergeType_error_iff typed .nil]
  constructor
  · rintro ⟨names, last, follows, apart, halts⟩
    cases halts with
    | undeclared refers _ missing =>
      exact ⟨names, last, _, ⟨follows, apart, refers.1⟩, refers.2, rfl, missing⟩
    | unfilled _ _ _ failed => cases templateBody_error failed
  · rintro ⟨names, last, reference, ⟨follows, apart, typed⟩, isReference, rfl, missing⟩
    exact ⟨names, last, follows, apart,
      .undeclared ⟨typed, isReference⟩ (follows.not_mem_of_missing missing) missing⟩

/-- A chain is refused as circular exactly when it arrives where it has been. -/
theorem mergeType_circular_iff_visited :
    mergeType types arguments node [] = .error (.raml (.circularTypes cycle)) ↔
      ReachesVisited types arguments node cycle := by
  rw [mergeType_circular_iff typed .nil]
  constructor
  · rintro ⟨names, _, ⟨last, reference, follows, refers, rfl, apart, known⟩, rfl⟩
    exact ⟨names, last, reference, ⟨follows, apart, refers.1⟩, refers.2, known, rfl⟩
  · rintro ⟨names, last, reference, ⟨follows, apart, typed⟩, isReference, known, rfl⟩
    exact ⟨names, _, ⟨last, reference, follows, ⟨typed, isReference⟩, rfl, apart, known⟩, rfl⟩

/-- Merging fails as filling does exactly when the chain arrives at a type that cannot be filled, or
at a reference that cannot be written. -/
theorem mergeType_unfilled_iff :
    mergeType types arguments node [] = .error failure ∧ FillingFails failure ↔
      ReachesUnfilled types arguments node failure ∨
        ReachesUnnamed types arguments node ∧ failure = .defect .tooManyDigits := by
  rw [mergeType_error_iff typed .nil]
  constructor
  · rintro ⟨⟨names, last, follows, apart, halts⟩, filling⟩
    cases halts with
    | circular | undeclared => cases filling
    | unwritable typed noText => exact .inr ⟨⟨names, last, ⟨follows, apart, typed⟩, noText⟩, rfl⟩
    | unfilled refers fresh found failed =>
      exact .inl ⟨names, last, _, _, ⟨follows, apart, refers.1⟩, refers.2, fresh, found, failed⟩
  · rintro (⟨names, last, reference, template, ⟨follows, apart, typed⟩, isReference, fresh, found,
      failed⟩ | ⟨⟨names, last, ⟨follows, apart, typed⟩, noText⟩, rfl⟩)
    · refine ⟨⟨names, last, follows, apart, ?_⟩, templateBody_error failed⟩
      exact .unfilled ⟨typed, isReference⟩ fresh found failed
    · exact ⟨⟨names, last, follows, apart, .unwritable typed noText⟩, .unwritable⟩

/-- Merging succeeds unless the chain arrives at something that makes it fail. -/
theorem mergeType_ok_iff :
    (∃ resolved, mergeType types arguments node [] = .ok resolved) ↔
      (∀ name, ¬ ReachesUnknown types arguments node name) ∧
      (∀ cycle, ¬ ReachesVisited types arguments node cycle) ∧
      (∀ failure, ¬ ReachesUnfilled types arguments node failure) ∧
      ¬ ReachesUnnamed types arguments node := by
  have kinds (failure : Failure) :
      mergeType types arguments node [] = .error failure ∧ FillingFails failure ↔ _ :=
    mergeType_unfilled_iff typed
  simp only [← mergeType_undeclared_iff typed, ← mergeType_circular_iff_visited typed]
  cases merged : mergeType types arguments node [] with
  | ok resolved =>
    have none {failure : Failure} (kind : ReachesUnfilled types arguments node failure ∨
        ReachesUnnamed types arguments node ∧ failure = .defect .tooManyDigits) : False := by
      cases merged.symm.trans ((kinds failure).mpr kind).1
    exact iff_of_true ⟨resolved, rfl⟩ ⟨fun _ same => (by cases same),
      fun _ same => (by cases same), fun failure unfilled => none (.inl unfilled),
      fun unnamed => none (.inr ⟨unnamed, rfl⟩)⟩
  | error failure =>
    refine iff_of_false (fun ⟨_, same⟩ => by cases same) fun ⟨known, fresh, filled, named⟩ => ?_
    obtain ⟨_, _, _, _, halts⟩ := (mergeType_error_iff typed .nil).mp merged
    have reaches (filling : FillingFails failure) : False := by
      rcases (kinds failure).mp ⟨merged, filling⟩ with unfilled | ⟨unnamed, -⟩
      · exact filled failure unfilled
      · exact named unnamed
    cases halts with
    | circular => exact fresh _ rfl
    | undeclared => exact known _ rfl
    | unwritable => exact reaches .unwritable
    | unfilled _ _ _ failed => exact reaches (templateBody_error failed)

end Outcome

/-- **What comes of a chain of types, and after how many calls.**  There is at most one call more
than there are declared types.  A type is unknown, a circle is refused with its names in order, or a
body cannot be filled exactly when the chain first arrives at such a reference.  A reference that
cannot be written fails as such an argument does; and if the chain arrives at none of these, merging
succeeds. -/
theorem mergeType_outcome (typed : (node.get "type").isNull = false) :
    ((mergeTypeCounted types arguments node []).1 = mergeType types arguments node [] ∧
      (mergeTypeCounted types arguments node []).2 ≤ types.length + 1) ∧
    (∀ name, mergeType types arguments node [] =
      .error (.raml (.undeclared .resourceType name)) ↔ ReachesUnknown types arguments node name) ∧
    (∀ cycle, mergeType types arguments node [] = .error (.raml (.circularTypes cycle)) ↔
      ReachesVisited types arguments node cycle) ∧
    (∀ failure, mergeType types arguments node [] = .error failure ∧ FillingFails failure ↔
      ReachesUnfilled types arguments node failure ∨
        ReachesUnnamed types arguments node ∧ failure = .defect .tooManyDigits) ∧
    ((∃ resolved, mergeType types arguments node [] = .ok resolved) ↔
      (∀ name, ¬ ReachesUnknown types arguments node name) ∧
      (∀ cycle, ¬ ReachesVisited types arguments node cycle) ∧
      (∀ failure, ¬ ReachesUnfilled types arguments node failure) ∧
      ¬ ReachesUnnamed types arguments node) := by
  refine ⟨⟨mergeTypeCounted_fst, ?_⟩, fun _ => mergeType_undeclared_iff typed,
    fun _ => mergeType_circular_iff_visited typed, fun _ => mergeType_unfilled_iff typed,
    mergeType_ok_iff typed⟩
  have few : unseenCount types [] ≤ types.length := List.countP_le_length
  have calls : (mergeTypeCounted types arguments node []).2 ≤ 1 + unseenCount types [] :=
    mergeTypeCounted_snd_le
  omega

/-- The body of a type that refers to one that is wrapped. -/
def pagedBody : Entries :=
  [(.text "type", .map [(.text "wrapped", .map [(.text "inner", .text "paged")])])]

/-- Two types, of which the first inherits the type that its argument names. -/
def wrappedTypes : Entries :=
  [(.text "wrapped", .map [(.text "type", .text "<<inner>>")]), (.text "paged", .map pagedBody)]

/-- A chain that comes back by way of an argument. -/
theorem mergeType_outcome_wrapped :
    mergeType wrappedTypes [] [(.text "type", .text "paged")] [] =
      .error (.raml (.circularTypes ["paged", "wrapped", "paged"])) ∧
    (mergeTypeCounted wrappedTypes [] [(.text "type", .text "paged")] []).2 ≤ 3 := by
  have typed : (Entries.get [(.text "type", .text "paged")] "type").isNull = false := rfl
  obtain ⟨⟨-, calls⟩, -, circular, -⟩ := @mergeType_outcome wrappedTypes [] _ typed
  refine ⟨(circular _).mpr ?_, calls⟩
  have paged : GivesBody wrappedTypes [] [(.text "type", .text "paged")] ⟨"paged", []⟩ pagedBody :=
    ⟨⟨rfl, rfl⟩, _, rfl, rfl⟩
  have wrapped : GivesBody wrappedTypes [] pagedBody ⟨"wrapped", [(.text "inner", .text "paged")]⟩
      [(.text "type", .text "paged")] := ⟨⟨rfl, rfl⟩, _, rfl, rfl⟩
  exact ⟨["paged", "wrapped"], _, _, ⟨.next paged (.next wrapped (.start _)), by decide, rfl⟩, rfl,
    by decide, rfl⟩

/-- A type that inherits one that it refers to by an integer. -/
def numberedTypes (n : Int) : Entries :=
  [(.text "a", .map [(.text "type", .scalar (.int n))])]

theorem mergeType_numberedTypes {n : Int} (noText : (Scalar.int n).toText? = none) :
    mergeType (numberedTypes n) [] [(.text "type", .text "a")] [] =
      .error (.defect .tooManyDigits) := by
  have typed : (Entries.get [(.text "type", .text "a")] "type").isNull = false := rfl
  refine ((mergeType_unfilled_iff typed).mpr ?_).1
  have given : GivesBody (numberedTypes n) [] [(.text "type", .text "a")] ⟨"a", []⟩
      [(.text "type", .scalar (.int n))] := ⟨⟨rfl, rfl⟩, _, rfl, rfl⟩
  exact .inr ⟨⟨["a"], _, ⟨.next given (.start _), by decide, rfl⟩,
    Option.map_eq_none_iff.mpr noText⟩, rfl⟩

/-- **A reference that cannot be written is not refused as unknown**, although `a` is the only type
that is declared. -/
theorem mergeType_vastName : (numberedTypes Number.vast).map (·.1) = [.text "a"] ∧
    mergeType (numberedTypes Number.vast) [] [(.text "type", .text "a")] [] =
      .error (.defect .tooManyDigits) :=
  ⟨rfl, mergeType_numberedTypes toText?_vast⟩

end RamlInterfaces.Raml
