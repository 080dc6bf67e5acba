/-
**The bodies on a chain of resource types.**

The content of a chain of types is merged from its end: the body of the last type into the one
before it, and so on up to the node.  What that does to the keys of the node can be told for the
chain as a whole: methods come in the order in which they are first declared, and a member of a type
that is optional adds no key to a resource.

* `TypeChain`, `gatherTypes`: the bodies on a chain, and a node with all of them;
* `applyType_eq_gatherTypes`: **a resource is gathered from the bodies on its chain**;
* `keys_mergeTypeEntry`: what merging one member does to the keys;
* `methodsOf_gatherTypes`: **the methods of a resource come in the order of its chain**;
* `mem_keys_of_optional`: **an optional key of a resource is its own**.
-/

import Mathlib.Data.List.Induction
import RamlInterfaces.Proofs.Raml.Offers

namespace RamlInterfaces.Raml

variable {types arguments node body resolved merged : Entries} {bodies : List Entries}
  {seen : List String} {key : Scalar} {value : Value} {derived : Bool}

/-! ### Chains -/

/-- The chain of types from a node has the given bodies: its type gives it the first one, the type
of this one the next, and the last one has no type. -/
inductive TypeChain (types arguments : Entries) : Entries → List Entries → Prop where
  | last {node : Entries} (untyped : (node.get "type").isNull = true) :
    TypeChain types arguments node []
  | next {node body : Entries} {reference : Reference} {rest : List Entries}
    (given : GivesBody types arguments node reference body)
    (further : TypeChain types arguments body rest) :
    TypeChain types arguments node (body :: rest)

/-- A node with the bodies on its chain of types, merged from the last one on; `derived` says that
it is itself a type. -/
def gatherTypes (derived : Bool) (node : Entries) : List Entries → Entries
  | [] => node
  | body :: rest => mergeTypeBody derived node (gatherTypes true body rest)

/-- A node with a type is gathered from the bodies on its chain. -/
theorem mergeType_eq_gatherTypes (typed : (node.get "type").isNull = false)
    (done : mergeType types arguments node seen = .ok resolved) :
    ∃ bodies, TypeChain types arguments node bodies ∧
      resolved = gatherTypes (!seen.isEmpty) node bodies := by
  fun_induction mergeType types arguments node seen generalizing resolved with
  | case1 => cases done
  | case2 => cases done
  | case3 => cases done
  | case4 node seen reference isReference fresh template found body filled =>
    rename_i untyped
    cases done
    have given : GivesBody types arguments node reference body :=
      ⟨⟨typed, isReference⟩, template, found, filled⟩
    exact ⟨[body], .next given (.last untyped), rfl⟩
  | case5 => cases done
  | case6 node seen reference isReference fresh template found body filled isTyped
    inherited walked =>
    rename_i ih
    cases done
    have given : GivesBody types arguments node reference body :=
      ⟨⟨typed, isReference⟩, template, found, filled⟩
    obtain ⟨rest, chain, rfl⟩ := ih (Bool.eq_false_iff.mpr isTyped) walked
    have isDerived : (!(seen ++ [reference.name]).isEmpty) = true := by
      rw [List.isEmpty_eq_false_iff.mpr (List.append_ne_nil_of_right_ne_nil _ (by simp))]
      rfl
    refine ⟨body :: rest, .next given chain, ?_⟩
    rw [isDerived]
    rfl
  | case7 => cases done

/-- **A resource is gathered from the bodies on its chain of types.** -/
theorem applyType_eq_gatherTypes {templates : Templates}
    (done : applyType templates arguments node = .ok resolved) :
    ∃ bodies, TypeChain templates.resourceTypes arguments node bodies ∧
      resolved = gatherTypes false node bodies := by
  rcases applyType_eq_ok_iff.mp done with ⟨untyped, rfl⟩ | ⟨typed, merged⟩
  · exact ⟨[], .last untyped, rfl⟩
  · exact mergeType_eq_gatherTypes typed merged

/-! ### Keys -/

/-- Merging a member of a type leaves the keys as they are, unless it comes to stand at the end:
then there was no such member, and where it is optional not the one that is not, either. -/
theorem keys_mergeTypeEntry (derived : Bool) (merged : Entries) (key : Scalar) (value : Value) :
    ((mergeTypeEntry derived merged key value).map Prod.fst = merged.map Prod.fst ∧
        (optionalKey? key = none → merged.has key = true)) ∨
      mergeTypeEntry derived merged key value = merged ++ [(key, value)] ∧
        merged.find? key = none ∧ ∀ plain, optionalKey? key = some plain →
          derived = true ∧ merged.find? (.text plain) = none := by
  have marked {plain : String} (optional : optionalKey? key = some plain)
      (required : optionalKey? key = none) : merged.has key = true := by
    rw [required] at optional
    cases optional
  have taken := takesTypeEntry derived merged key value
  generalize mergeTypeEntry derived merged key value = result at taken ⊢
  cases taken with
  | intoPlain optional found => exact .inl ⟨Entries.keys_put_of_found found, marked optional⟩
  | intoOptional optional _ found => exact .inl ⟨Entries.keys_put_of_found found, marked optional⟩
  | offered optional absent missing isDerived =>
    refine .inr ⟨Entries.put_of_missing missing, missing, fun name same => ?_⟩
    cases optional.symm.trans same
    exact ⟨isDerived, absent⟩
  | dropped optional => exact .inl ⟨rfl, marked optional⟩
  | into _ found =>
    exact .inl ⟨Entries.keys_put_of_found found, fun _ => Option.isSome_of_eq_some found⟩
  | new required missing =>
    refine .inr ⟨Entries.put_of_missing missing, missing, fun name same => ?_⟩
    cases required.symm.trans same

/-- A property of entries that merging single members keeps, merging a body does. -/
theorem mergeTypeBody_keeps {keeps : Entries → Prop} (derived : Bool) (body : Entries)
    (start : keeps (node.filter fun entry => !isTypeKey entry.1))
    (step : ∀ merged, ∀ entry ∈ body, keeps merged →
      keeps (mergeTypeEntry derived merged entry.1 entry.2)) :
    keeps (mergeTypeBody derived node body) := by
  unfold mergeTypeBody
  refine List.foldlRecOn _ _ start fun merged isMerged entry member => ?_
  exact step merged entry (List.mem_filter.mp member).1 isMerged

/-- **An optional key of a resource is its own.** -/
theorem mem_keys_of_optional (bodies : List Entries)
    (member : key ∈ (gatherTypes false node bodies).map Prod.fst)
    (optional : (optionalKey? key).isSome = true) : key ∈ node.map Prod.fst := by
  cases bodies with
  | nil => exact member
  | cons body rest =>
    revert member
    refine @mergeTypeBody_keeps _ (fun merged => key ∈ merged.map Prod.fst → _) false _
      (fun member => ?_) fun merged entry _ isOwn member => ?_
    · exact List.map_subset _ List.filter_sublist.subset member
    · rcases keys_mergeTypeEntry false merged entry.1 entry.2 with ⟨same, -⟩ | ⟨same, -, marked⟩
      · rw [same] at member
        exact isOwn member
      · rw [same, List.map_append, List.mem_append, List.map_singleton,
          List.mem_singleton] at member
        rcases member with earlier | rfl
        · exact isOwn earlier
        · obtain ⟨plain, isOptional⟩ := Option.isSome_iff_exists.mp optional
          cases (marked plain isOptional).1

/-! ### Methods -/

/-- The verbs of the methods among the entries, in order. -/
def methodsOf (entries : Entries) : List Verb := (entries.map Prod.fst).filterMap verbKey?

/-- The verbs listed, with further ones where they are not yet listed. -/
def followedBy (listed further : List Verb) : List Verb :=
  further.foldl (fun sofar verb => if verb ∈ sofar then sofar else sofar ++ [verb]) listed

variable {verb : Verb}

theorem mem_methodsOf_iff : verb ∈ methodsOf merged ↔ merged.has (.text verb.word) = true := by
  unfold methodsOf
  rw [List.mem_filterMap]
  constructor
  · rintro ⟨key, member, isVerb⟩
    unfold Entries.has
    rw [← find?_of_string? (verbKey?_eq_some_iff.mp isVerb), Option.isSome_iff_ne_none]
    intro missing
    obtain ⟨entry, isEntry, rfl⟩ := List.mem_map.mp member
    have unlike := Entries.alike_eq_false_of_missing missing entry isEntry
    rw [Scalar.alike_refl] at unlike
    cases unlike
  · intro has
    obtain ⟨value, found⟩ := Option.isSome_iff_exists.mp has
    obtain ⟨entry, isEntry, same, -⟩ := Entries.exists_of_find? found
    refine ⟨entry.1, List.mem_map_of_mem isEntry, ?_⟩
    exact verbKey?_eq_some_iff.mpr (Scalar.string?_of_alike_text same)

theorem followedBy_concat (listed further : List Verb) (verb : Verb) :
    followedBy listed (further ++ [verb]) = if verb ∈ followedBy listed further then
      followedBy listed further else followedBy listed further ++ [verb] := by
  unfold followedBy
  rw [List.foldl_append]
  rfl

theorem mem_followedBy_iff (listed further : List Verb) :
    verb ∈ followedBy listed further ↔ verb ∈ listed ∨ verb ∈ further := by
  induction further using List.reverseRecOn with
  | nil => simp [followedBy]
  | append_singleton further last ih =>
    rw [followedBy_concat]
    split
    · rename_i there
      rw [ih, List.mem_append, List.mem_singleton]
      refine ⟨fun known => known.imp_right .inl, ?_⟩
      rintro (known | known | rfl)
      · exact .inl known
      · exact .inr known
      · exact ih.mp there
    · rw [List.mem_append, ih, List.mem_append, or_assoc]

theorem followedBy_append (listed further more : List Verb) :
    followedBy listed (further ++ more) = followedBy (followedBy listed further) more :=
  List.foldl_append

/-- What is skipped in further verbs would be skipped after other verbs as well. -/
theorem followedBy_followedBy (listed further more : List Verb) :
    followedBy listed (followedBy further more) = followedBy listed (further ++ more) := by
  induction more using List.reverseRecOn with
  | nil => rw [List.append_nil]; rfl
  | append_singleton more last ih =>
    rw [followedBy_concat, ← List.append_assoc, followedBy_concat]
    split
    · rename_i there
      have known := (mem_followedBy_iff further more).mp there
      rw [if_pos ((mem_followedBy_iff _ _).mpr (.inr (List.mem_append.mpr known))), ih]
    · rw [followedBy_concat, ih]

theorem optionalKey?_of_verbKey? (isVerb : verbKey? key = some verb) :
    optionalKey? key = none := by
  have same : key.string? = (Scalar.text verb.word).string? := verbKey?_eq_some_iff.mp isVerb
  rw [optionalKey?_of_string? same]
  cases verb <;> decide

/-- A member of a type adds its verb if it is a method that is not there. -/
theorem methodsOf_mergeTypeEntry (derived : Bool) (merged : Entries) (key : Scalar)
    (value : Value) : methodsOf (mergeTypeEntry derived merged key value) =
      followedBy (methodsOf merged) (verbKey? key).toList := by
  have has_iff {verb : Verb} (isVerb : verbKey? key = some verb) : verb ∈ methodsOf merged ↔
      merged.has key = true := by
    unfold Entries.has
    rw [find?_of_string? (verbKey?_eq_some_iff.mp isVerb)]
    exact mem_methodsOf_iff
  rcases keys_mergeTypeEntry derived merged key value with ⟨same, has⟩ | ⟨same, missing, -⟩
  · have unchanged : methodsOf (mergeTypeEntry derived merged key value) = methodsOf merged :=
      congrArg (List.filterMap verbKey?) same
    rw [unchanged]
    cases isVerb : verbKey? key with
    | none => rfl
    | some verb =>
      exact (if_pos ((has_iff isVerb).mpr (has (optionalKey?_of_verbKey? isVerb)))).symm
  · have longer : methodsOf (mergeTypeEntry derived merged key value) =
        methodsOf merged ++ (verbKey? key).toList := by
      rw [same]
      unfold methodsOf
      rw [List.map_append, List.filterMap_append, List.map_singleton]
      cases isVerb : verbKey? key <;> simp [isVerb]
    rw [longer]
    cases isVerb : verbKey? key with
    | none => exact List.append_nil _
    | some verb =>
      refine (if_neg fun there => ?_).symm
      have has := (has_iff isVerb).mp there
      unfold Entries.has at has
      rw [missing] at has
      cases has

theorem methodsOf_untyped (entries : Entries) :
    methodsOf (entries.filter fun entry => !isTypeKey entry.1) = methodsOf entries := by
  unfold methodsOf
  rw [List.filterMap_map, List.filterMap_map, List.filterMap_filter]
  congr 1
  funext entry
  by_cases isType : isTypeKey entry.1 = true
  · have none : verbKey? entry.1 = none := by
      unfold verbKey?
      rw [isTypeKey_iff.mp isType]
      rfl
    simp [isType, none]
  · simp [isType]

/-- **The methods of a node with the body of a type**: its own, then those that the body adds. -/
theorem methodsOf_mergeTypeBody (derived : Bool) (node body : Entries) :
    methodsOf (mergeTypeBody derived node body) =
      followedBy (methodsOf node) (methodsOf body) := by
  have walk (further merged : Entries) : methodsOf (further.foldl
      (fun merged entry => mergeTypeEntry derived merged entry.1 entry.2) merged) =
        followedBy (methodsOf merged) (methodsOf further) := by
    induction further generalizing merged with
    | nil => rfl
    | cons entry rest ih =>
      have split : methodsOf (entry :: rest) = (verbKey? entry.1).toList ++ methodsOf rest := by
        unfold methodsOf
        rw [List.map_cons, List.filterMap_cons]
        cases verbKey? entry.1 <;> rfl
      rw [List.foldl_cons, ih, methodsOf_mergeTypeEntry, split, followedBy_append]
  unfold mergeTypeBody
  rw [walk, methodsOf_untyped, methodsOf_untyped]

/-- **The methods of a resource come in the order of its chain**: those of the node, then those of
the first body that are not among them, and so on. -/
theorem methodsOf_gatherTypes (derived : Bool) (node : Entries) (bodies : List Entries) :
    methodsOf (gatherTypes derived node bodies) =
      followedBy (methodsOf node) (bodies.flatMap methodsOf) := by
  induction bodies generalizing derived node with
  | nil => rfl
  | cons body rest ih =>
    unfold gatherTypes
    rw [methodsOf_mergeTypeBody, ih, followedBy_followedBy, List.flatMap_cons]

end RamlInterfaces.Raml
