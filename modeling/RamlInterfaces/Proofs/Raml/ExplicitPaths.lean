/-
**The explicit values of a document, path by path.**

The application of templates leaves the entries of a document where they are, and those that declare
no resource as they are.  Inside a resource, every path that does not go through a reference to a
resource type leads to what it led to before.

* `plainResource_of_problems`: a resource without problems is plain;
* `LeadsToResource`, `GoesThroughType`: the paths to resources and through their references to
  types;
* `KeepsExplicit`: **what a document keeps**, path by path;
* `applyTemplatesWithin_keepsExplicit`: **a document without problems keeps it** when its templates
  are applied.
-/

import Mathlib.Data.List.Forall2
import RamlInterfaces.Proofs.Raml.Explicit

namespace RamlInterfaces.Raml

variable {templates : Templates} {root resolved own : Entries} {key : Scalar} {path : List Scalar}
  {value : Value} {place : Place} {depth : Nat}

/-! ### Resources without problems -/

theorem method_of_problems {place : String}
    (valid : actionProblems templates place value = .ok []) :
    value = .null ∨ ∃ members, value = .map members := by
  cases value with
  | map members => exact .inr ⟨members, rfl⟩
  | scalar s =>
    cases s with
    | null => exact .inl rfl
    | _ => exact absurd valid (complain_ne_nil _ _)
  | _ => exact absurd valid (complain_ne_nil _ _)

mutual

/-- **A resource without problems is plain.** -/
theorem plainResource_of_problems (place : String) :
    (value : Value) → resourceProblems templates place value = .ok [] → PlainResource value
  | .map members, valid => by
    unfold resourceProblems at valid
    have plain := plainMembers_of_problems place members valid
    refine .mapping (fun key child found isVerb => ?_) fun key child found isPath => ?_
    · obtain ⟨entry, member, alike, rfl⟩ := Entries.exists_of_find? found
      rw [← verbKey?_of_alike alike] at isVerb
      exact (plain entry member).1 isVerb
    · obtain ⟨entry, member, alike, rfl⟩ := Entries.exists_of_find? found
      have isResource : isResourceKey entry.1 = true := by
        unfold isResourceKey
        rw [resourceKey?_of_alike alike]
        exact isPath
      exact (plain entry member).2 isResource
  | .scalar .null, _ => .nothing

theorem plainMembers_of_problems (place : String) : (members : List (Scalar × Value)) →
    resourceProblems.memberProblems templates place members = .ok [] →
      ∀ entry ∈ members,
        ((verbKey? entry.1).isSome = true →
          entry.2 = .null ∨ ∃ members, entry.2 = .map members) ∧
        (isResourceKey entry.1 = true → PlainResource entry.2)
  | [], _, _, member => absurd member List.not_mem_nil
  | (key, child) :: rest, valid, entry, member => by
    unfold resourceProblems.memberProblems at valid
    obtain ⟨here, further⟩ := Findings.append_eq_nil_iff.mp valid
    rcases List.mem_cons.mp member with rfl | inRest
    · cases named : resourceKey? key with
      | none =>
        rw [named] at here
        refine ⟨fun isVerb => ?_, fun isPath => ?_⟩
        · unfold resourceMemberProblems at here
          simp only [isVerb, if_true] at here
          obtain ⟨_, -, here⟩ := Findings.atKey_eq_nil_iff.mp here
          exact method_of_problems here
        · obtain ⟨relative, isPath⟩ := isResourceKey_iff.mp isPath
          cases named.symm.trans isPath
      | some relative =>
        rw [named] at here
        refine ⟨fun isVerb => ?_, fun _ => ?_⟩
        · rw [verbKey?_of_resourceKey? named] at isVerb
          cases isVerb
        · exact plainResource_of_problems (place ++ relative) child here
    · exact plainMembers_of_problems place rest further entry inRest

end

theorem plainResource_of_find? (valid : problems root = .ok [])
    (found : root.find? key = some value)
    (isPath : isResourceKey key = true) : PlainResource value := by
  obtain ⟨⟨first, child⟩, member, alike, same⟩ := Entries.exists_of_find? found
  cases same
  obtain ⟨relative, named⟩ := isResourceKey_iff.mp isPath
  rw [← resourceKey?_of_alike alike] at named
  obtain ⟨_, resources⟩ := Findings.append_eq_nil_iff.mp valid
  have here := Findings.inEach_eq_nil_iff.mp resources (first, child) member
  simp only [entryProblems, named] at here
  exact plainResource_of_problems relative child here

/-! ### Paths -/

/-- The path leads from the root to a resource: each of its keys declares one. -/
def LeadsToResource (path : List Scalar) : Prop :=
  path ≠ [] ∧ ∀ key ∈ path, isResourceKey key = true

/-- The path leads into a resource: its first key declares one. -/
def LeadsIntoResource (path : List Scalar) : Prop :=
  ∃ key rest, path = key :: rest ∧ isResourceKey key = true

/-- The path goes through the reference of a resource to its type. -/
def GoesThroughType (path : List Scalar) : Prop :=
  ∃ above key below, path = above ++ key :: below ∧ LeadsToResource above ∧ isTypeKey key = true

theorem LeadsToResource.leadsInto (leads : LeadsToResource path) : LeadsIntoResource path := by
  obtain ⟨nonempty, each⟩ := leads
  cases path with
  | nil => exact absurd rfl nonempty
  | cons key rest => exact ⟨key, rest, rfl, each key List.mem_cons_self⟩

/-- Below a place that is no resource there are no resources. -/
theorem along_ne_resource (other : place ≠ .resource) (path : List Scalar) :
    place.along path ≠ .resource := by
  induction path generalizing place with
  | nil => exact other
  | cons key rest ih => exact ih (below_ne_resource other key)

/-- What is reached from a resource is a resource exactly when each key declares one. -/
theorem along_eq_resource_iff :
    Place.resource.along path = .resource ↔ ∀ key ∈ path, isResourceKey key = true := by
  induction path with
  | nil => exact iff_of_true rfl fun key member => absurd member List.not_mem_nil
  | cons key rest ih =>
    rw [List.forall_mem_cons]
    by_cases isPath : isResourceKey key = true
    · have step : Place.resource.along (key :: rest) = Place.resource.along rest := by
        rw [Place.along, List.foldl_cons, (below_resource_of_isResourceKey isPath).1]
        rfl
      rw [step, ih]
      exact ⟨fun further => ⟨isPath, further⟩, fun both => both.2⟩
    · have content : Place.resource.below key ≠ .resource := by
        rw [below_resource_of_not_isResourceKey (Bool.eq_false_iff.mpr isPath)]
        exact below_content_ne key
      refine iff_of_false (along_ne_resource content rest) fun both => isPath both.1

/-- References to traits stand under the key of trait references. -/
theorem exists_traitsKey_of_along (references : Place.resource.along path = .references) :
    ∃ above key, path = above ++ [key] ∧ isTraitsKey key = true := by
  rcases List.eq_nil_or_concat path with rfl | ⟨above, key, rfl⟩
  · cases references
  · rw [List.concat_eq_append] at references ⊢
    refine ⟨above, key, rfl, ?_⟩
    rw [Place.along, List.foldl_concat] at references
    by_cases isTraits : isTraitsKey key = true
    · exact isTraits
    · exfalso
      unfold Place.below at references
      rw [if_neg isTraits] at references
      split at references <;> cases references

theorem loses_eq_true_iff {key : Scalar} :
    place.loses key = true ↔ place = .resource ∧ isTypeKey key = true := by
  unfold Place.loses
  rw [Bool.and_eq_true, beq_iff_eq]

/-- Below the first key, a path into a resource goes through no reference that is lost. -/
theorem loses_eq_false_of_not_goesThroughType {rest : List Scalar}
    (isPath : isResourceKey key = true) (through : ¬ GoesThroughType (key :: rest))
    {above below : List Scalar} {inner : Scalar} (split : rest = above ++ inner :: below) :
    (Place.resource.along above).loses inner = false := by
  refine Bool.eq_false_iff.mpr fun loses => through ?_
  obtain ⟨isResource, isType⟩ := loses_eq_true_iff.mp loses
  refine ⟨key :: above, inner, below, by rw [split]; rfl, ⟨List.cons_ne_nil _ _, ?_⟩, isType⟩
  exact List.forall_mem_cons.mpr ⟨isPath, along_eq_resource_iff.mp isResource⟩

/-- A key that refers to a type declares no resource. -/
theorem isResourceKey_eq_false_of_isTypeKey (isType : isTypeKey key = true) :
    isResourceKey key = false := by
  refine Bool.eq_false_iff.mpr fun isPath => ?_
  obtain ⟨relative, named⟩ := isResourceKey_iff.mp isPath
  obtain ⟨isName, slash⟩ := resourceKey?_eq_some_iff.mp named
  obtain rfl := Option.some.inj (isName.symm.trans (isTypeKey_iff.mp isType))
  cases slash

/-- The keys that refer to a type find the same. -/
theorem find?_of_isTypeKey {entries : Entries} (isType : isTypeKey key = true) :
    entries.find? key = entries.find? (.text "type") :=
  find?_of_string? (isTypeKey_iff.mp isType)

/-! ### Documents -/

theorem resolveEntry_other (named : resourceKey? key = none) :
    resolveEntry templates depth (key, value) = .ok (key, value) := by
  simp only [resolveEntry, named]
  rfl

theorem resolveEntry_key {entry result : Scalar × Value}
    (done : resolveEntry templates depth entry = .ok result) : result.1 = entry.1 := by
  obtain ⟨key, value⟩ := entry
  cases named : resourceKey? key with
  | none =>
    rw [resolveEntry_other named] at done
    cases done
    rfl
  | some relative =>
    rw [resolveEntry_resource named] at done
    obtain ⟨resolved, _, same⟩ := bind_eq_ok_iff.mp done
    cases same
    rfl

/-- **What a document has under a key** when its templates are applied: a resource resolved, and
anything else as it was. -/
theorem find?_of_applied (applied : applyTemplatesWithin depth root = .ok resolved) (key : Scalar) :
    root.find? key = none ∧ resolved.find? key = none ∨
      ∃ child result, root.find? key = some child ∧ resolved.find? key = some result ∧
        (resourceKey? key = none ∧ result = child ∨ ∃ relative, resourceKey? key = some relative ∧
          resolveResource (Templates.ofRoot root) depth "" relative child = .ok result) := by
  rcases Entries.find?_of_mapM (fun _ _ => resolveEntry_key) applied key with
    missing | ⟨first, child, result, alike, isChild, isResult, step⟩
  · exact .inl missing
  · refine .inr ⟨child, result, isChild, isResult, ?_⟩
    rw [← resourceKey?_of_alike alike]
    cases named : resourceKey? first with
    | none =>
      rw [resolveEntry_other named] at step
      cases step
      exact .inl ⟨rfl, rfl⟩
    | some relative =>
      rw [resolveEntry_resource named] at step
      obtain ⟨became, done, same⟩ := bind_eq_ok_iff.mp step
      cases same
      exact .inr ⟨relative, rfl, done⟩

/-- A resource of the root is kept when the templates of its document are applied. -/
theorem resource_survives (valid : problems root = .ok [])
    (applied : applyTemplatesWithin depth root = .ok resolved) (isPath : isResourceKey key = true)
    (found : root.find? key = some value) :
    ∃ result, resolved.find? key = some result ∧ Survives .resource value result := by
  obtain ⟨relative, named⟩ := isResourceKey_iff.mp isPath
  have plain := plainResource_of_find? valid found isPath
  rcases find?_of_applied applied key with ⟨missing, _⟩ | ⟨child, result, isChild, isResult, step⟩
  · cases missing.symm.trans found
  · cases isChild.symm.trans found
    rcases step with ⟨noResource, _⟩ | ⟨_, _, done⟩
    · cases noResource.symm.trans named
    · exact ⟨_, isResult, resolveResource_survives plain (Survives.refl (by decide) value) done⟩

/-- **What stands in a resource is kept at its path.** -/
theorem survives_at? (valid : problems root = .ok [])
    (applied : applyTemplatesWithin depth root = .ok resolved) (isPath : isResourceKey key = true)
    {rest : List Scalar} (through : ¬ GoesThroughType (key :: rest))
    (found : (Value.map root).at? (key :: rest) = some value) :
    ∃ kept, (Value.map resolved).at? (key :: rest) = some kept ∧
      Survives (Place.resource.along rest) value kept := by
  obtain ⟨entries, child, same, isChild, inside⟩ := Value.at?_cons_eq_some_iff.mp found
  cases same
  obtain ⟨result, isResult, survives⟩ := resource_survives valid applied isPath isChild
  obtain ⟨kept, isKept, survives⟩ := survives.at? inside fun above inner below split =>
    loses_eq_false_of_not_goesThroughType isPath through split
  exact ⟨kept, Value.at?_cons_eq_some_iff.mpr ⟨resolved, result, rfl, isResult, isKept⟩, survives⟩

/-- The document keeps what it declares itself when it becomes another one. -/
structure KeepsExplicit (root resolved : Entries) : Prop where
  /-- Every entry stays in its place, and only resources change. -/
  outside : List.Forall₂ (fun before after => after.1 = before.1 ∧
    (isResourceKey before.1 = false → after.2 = before.2)) root resolved
  /-- A value in a resource that is something and no mapping stands at its path, or is a list of
  trait references with further ones after it. -/
  value : ∀ path value, LeadsIntoResource path → ¬ GoesThroughType path →
    (Value.map root).at? path = some value → value.isNull = false → value.isMap = false →
      (Value.map resolved).at? path = some value ∨
        ∃ above key items further, path = above ++ [key] ∧ isTraitsKey key = true ∧
          value = .list items ∧ (Value.map resolved).at? path = some (.list (items ++ further))
  /-- A mapping in a resource stays a mapping and has its keys in their order. -/
  mapping : ∀ path own, LeadsIntoResource path → ¬ GoesThroughType path →
    (Value.map root).at? path = some (.map own) → ∃ entries,
      (Value.map resolved).at? path = some (.map entries) ∧
      (¬ LeadsToResource path → (own.map Prod.fst).Sublist (entries.map Prod.fst)) ∧
      ((own.map Prod.fst).filter fun key => !isTypeKey key).Sublist (entries.map Prod.fst)
  /-- A resource does not refer to a type any more. -/
  typeless : ∀ path key value, LeadsToResource path → isTypeKey key = true →
    (Value.map root).at? (path ++ [key]) = some value → value.isNull = false →
      (Value.map resolved).at? (path ++ [key]) = none

theorem forall₂_of_mapM {entries results : Entries}
    {step : Scalar × Value → Except Failure (Scalar × Value)}
    {relation : Scalar × Value → Scalar × Value → Prop}
    (each : ∀ entry result, step entry = .ok result → relation entry result)
    (done : entries.mapM step = .ok results) : List.Forall₂ relation entries results := by
  induction entries generalizing results with
  | nil =>
    cases done
    exact .nil
  | cons entry rest ih =>
    rw [List.mapM_cons] at done
    obtain ⟨result, here, done⟩ := bind_eq_ok_iff.mp done
    obtain ⟨others, further, same⟩ := bind_eq_ok_iff.mp done
    cases same
    exact .cons (each entry result here) (ih further)

/-- **A document without problems keeps what it declares itself when its templates are applied.** -/
theorem applyTemplatesWithin_keepsExplicit (valid : problems root = .ok [])
    (applied : applyTemplatesWithin depth root = .ok resolved) : KeepsExplicit root resolved where
  outside := by
    refine forall₂_of_mapM (fun (key, value) result done => ?_) applied
    refine ⟨resolveEntry_key done, fun noResource => ?_⟩
    have named : resourceKey? key = none :=
      Option.isNone_iff_eq_none.mp (Option.isSome_eq_false_iff.mp noResource)
    rw [resolveEntry_other named] at done
    cases done
    rfl
  value := by
    rintro _ value ⟨key, rest, rfl, isPath⟩ through found something plain
    obtain ⟨kept, isKept, survives⟩ := survives_at? valid applied isPath through found
    generalize isPlace : Place.resource.along rest = place at survives
    cases survives with
    | nothing => cases something
    | same => exact .inl isKept
    | mapping => cases plain
    | joined items further =>
      obtain ⟨above, inner, rfl, isTraits⟩ := exists_traitsKey_of_along isPlace
      exact .inr ⟨key :: above, inner, items, further, rfl, isTraits, rfl, isKept⟩
  mapping := by
    rintro _ own ⟨key, rest, rfl, isPath⟩ through found
    obtain ⟨kept, isKept, survives⟩ := survives_at? valid applied isPath through found
    generalize isPlace : Place.resource.along rest = place at survives
    cases survives with
    | same _ plain => cases plain
    | @mapping _ _ entries order =>
      refine ⟨entries, isKept, fun noResource => ?_, ?_⟩
      · have other : place ≠ .resource := by
          rintro rfl
          have each := along_eq_resource_iff.mp isPlace
          exact noResource ⟨List.cons_ne_nil _ _, List.forall_mem_cons.mpr ⟨isPath, each⟩⟩
        rw [lasting_of_ne_resource other] at order
        exact order
      · rw [keys_lasting] at order
        refine List.Sublist.trans (List.monotone_filter_right _ fun key noType => ?_) order
        rw [Bool.not_eq_true'] at noType ⊢
        rw [Place.loses, noType, Bool.and_false]
  typeless := by
    intro path key value leads isType found something
    have through : ¬ GoesThroughType path := by
      rintro ⟨above, inner, below, rfl, _, isInner⟩
      have isResource : isResourceKey inner = true :=
        leads.2 inner (List.mem_append.mpr (.inr List.mem_cons_self))
      rw [isResourceKey_eq_false_of_isTypeKey isInner] at isResource
      cases isResource
    obtain ⟨first, rest, rfl, isPath⟩ := leads.leadsInto
    rw [Value.at?_append, Option.bind_eq_some_iff] at found
    obtain ⟨resource, isResource, inside⟩ := found
    obtain ⟨own, child, rfl, isChild, same⟩ := Value.at?_cons_eq_some_iff.mp inside
    rw [Value.at?_nil, Option.some.injEq] at same
    subst same
    obtain ⟨kept, isKept, survives⟩ := survives_at? valid applied isPath through isResource
    have isPlace : Place.resource.along rest = .resource :=
      along_eq_resource_iff.mpr fun key member => leads.2 key (List.mem_cons_of_mem _ member)
    rw [isPlace] at survives
    rw [Value.at?_append, isKept, Option.bind_some]
    cases survives with
    | same _ plain => cases plain
    | @mapping _ _ entries _ typeless =>
      rw [find?_of_isTypeKey isType] at isChild
      have typed : (own.get "type").isNull = false := by
        unfold Entries.get
        rw [isChild]
        exact something
      have gone : Entries.find? entries key = none := by
        rw [find?_of_isTypeKey isType]
        exact typeless rfl typed
      show (Entries.find? entries key).bind _ = none
      rw [gone, Option.bind_none]

/-- A document with a resource of a type, whose method has a trait of its own. -/
def pagedUsers : Entries :=
  [(.text "title", .text "t"),
    (.text "resourceTypes", .list [.map [(.text "base", .map [
      (.text "description", .text "inherited"),
      (.text "get", .map [(.text "is", .list [.text "limited"])])])]]),
    (.text "traits", .list [.map [(.text "paged", .map [])], .map [(.text "limited", .map [])]]),
    (.text "/users", .map [(.text "type", .text "base"), (.text "description", .text "explicit"),
      (.text "get", .map [(.text "is", .list [.text "paged"])])])]

theorem keepsExplicit_pagedUsers : problems pagedUsers = .ok [] ∧ ∃ resolved,
    applyTemplatesWithin 1 pagedUsers = .ok resolved ∧ KeepsExplicit pagedUsers resolved := by
  have valid : problems pagedUsers = .ok [] := by decide +kernel
  have ends : (applyTemplatesWithin 1 pagedUsers).isOk = true := by decide +kernel
  cases applied : applyTemplatesWithin 1 pagedUsers with
  | error failure =>
    rw [applied] at ends
    cases ends
  | ok resolved => exact ⟨valid, resolved, rfl, applyTemplatesWithin_keepsExplicit valid applied⟩

end RamlInterfaces.Raml
