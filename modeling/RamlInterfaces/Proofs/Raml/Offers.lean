/-
**What a resource gathers from its types.**

The bodies of the types on a chain are merged into one another, and the result into the resource.  A
member of a type that is optional is merged into one that is there, stays optional in another type
and is left out of a resource without it; any other member is merged in as it is.

* `FitsStem`, `optionalName`: the members of a type that may come to stand under a name;
* `mergeTypeEntry_cases`: what becomes of one member;
* `Offers`, `mergeType_offers`: **a chain of types offers what each type on it does**;
* `applyType_fitsMember`, `applyType_holdsAt_left`, `applyType_holdsAt_right`: **a resource gathers
  what it and its types hold**.
-/

import RamlInterfaces.Proofs.Raml.Collection
import RamlInterfaces.Proofs.Raml.Inheritance
import RamlInterfaces.Proofs.Raml.Resolved

namespace RamlInterfaces.Raml

variable {fits holds : Value → Prop} {value child : Value} {entries : Entries} {name : String}
  {rest : List String} {key : Scalar}

/-! ### Members of resource types -/

/-- A member of a resource type fits along the rest of a path, if it may come to stand under its
first name: question marks at the end of a key mark it as optional. -/
def FitsStem (fits : Value → Prop) (name : String) (rest : List String) (key : Option String)
    (child : Value) : Prop := key.map stem = some (stem name) → FitsAlong fits rest child

/-- The name of an optional member. -/
def optionalName (name : String) : String := name ++ "?"

theorem toList_optionalName (name : String) :
    (optionalName name).toList = name.toList ++ ['?'] := String.toList_append

theorem stem_optionalName (name : String) : stem (optionalName name) = stem name :=
  stem_optional (toList_optionalName name)

theorem optionalKey?_of_string? {other : Scalar} (same : key.string? = other.string?) :
    optionalKey? key = optionalKey? other := by
  unfold optionalKey?
  rw [same]

theorem optionalKey?_optionalName (name : String) :
    optionalKey? (.text (optionalName name)) = some name := by
  unfold optionalKey?
  show (if (optionalName name).toList.getLast? = some '?' then
    some (String.ofList (optionalName name).toList.dropLast) else none) = some name
  rw [toList_optionalName, List.getLast?_concat, if_pos rfl, List.dropLast_concat,
    String.ofList_toList]

theorem optionalName_ne_type (name : String) : optionalName name ≠ "type" := by
  intro same
  have optional := optionalKey?_optionalName name
  rw [same] at optional
  cases optional

/-- An optional key and its name have the same stem. -/
theorem stem_of_optionalKey? {plain : String} (optional : optionalKey? key = some plain) :
    key.string?.map stem = some (stem plain) := by
  obtain ⟨name, named, marked⟩ := exists_of_optionalKey? optional
  rw [named, Option.map_some, stem_optional marked]

theorem FitsStem.member {other : String} {key : Option String} (same : stem other = stem name)
    (isMember : FitsStem fits name rest key child) : FitsMember fits other rest key child := by
  intro named
  refine isMember ?_
  rw [named, Option.map_some, same]

theorem everywhere_fitsMember {other : String} (same : stem other = stem name)
    (all : Everywhere (FitsStem fits name rest) entries) :
    Everywhere (FitsMember fits other rest) entries :=
  fun entry member => (all entry member).member same

theorem everywhere_fitsStem {other : String} (same : stem other = stem name)
    (all : Everywhere (FitsStem fits name rest) entries) :
    Everywhere (FitsStem fits other rest) entries := by
  intro entry member named
  rw [same] at named
  exact all entry member named

/-- A member of a resource type is left out, merged into the value under a key with the same stem,
or comes to stand at the end. -/
theorem mergeTypeEntry_cases (derived : Bool) (merged : Entries) (key : Scalar) (value : Value) :
    mergeTypeEntry derived merged key value = merged ∨
      (∃ other traits explicit, merged.find? other = some explicit ∧
        other.string?.map stem = key.string?.map stem ∧
        mergeTypeEntry derived merged key value = merged.put other (merge traits explicit value)) ∨
      merged.find? key = none ∧
        mergeTypeEntry derived merged key value = merged ++ [(key, value)] := by
  have taken := takesTypeEntry derived merged key value
  generalize mergeTypeEntry derived merged key value = result at taken ⊢
  cases taken with
  | intoPlain optional found =>
    have sameStem := stem_of_optionalKey? optional
    exact .inr (.inl ⟨.text _, false, _, found, sameStem.symm, rfl⟩)
  | intoOptional _ _ found => exact .inr (.inl ⟨key, false, _, found, rfl, rfl⟩)
  | into _ found => exact .inr (.inl ⟨key, _, _, found, rfl, rfl⟩)
  | offered _ _ missing => exact .inr (.inr ⟨missing, Entries.put_of_missing missing⟩)
  | new _ missing => exact .inr (.inr ⟨missing, Entries.put_of_missing missing⟩)
  | dropped => exact .inl rfl

namespace Collects

variable {derived : Bool} {merged node body : Entries} (collects : Collects fits holds)

include collects

theorem fitsMember_mergeTypeEntry (derived : Bool)
    (isMerged : Everywhere (FitsMember fits name rest) merged)
    (isMember : FitsStem fits name rest key.string? value) :
    Everywhere (FitsMember fits name rest) (mergeTypeEntry derived merged key value) := by
  rcases mergeTypeEntry_cases derived merged key value with same |
    ⟨other, traits, explicit, found, sameStem, same⟩ | ⟨missing, same⟩
  · rw [same]
    exact isMerged
  · rw [same]
    refine isMerged.put fun named => ?_
    refine collects.fitsAlong_merge (isMerged.find? found named) (isMember ?_)
    rw [← sameStem, named, Option.map_some]
  · rw [same]
    exact isMerged.append (isMember.member rfl)

/-- What a node holds it does after a member of a resource type is merged in. -/
theorem holdsAt_mergeTypeEntry (derived : Bool)
    (isMerged : Everywhere (FitsMember fits name rest) merged)
    (isMember : FitsStem fits name rest key.string? value)
    (holdsAt : HoldsAt holds (name :: rest) (.map merged)) :
    HoldsAt holds (name :: rest) (.map (mergeTypeEntry derived merged key value)) := by
  obtain ⟨child, isChild, holdsChild⟩ := holdsAt_map_iff.mp holdsAt
  rcases mergeTypeEntry_cases derived merged key value with same |
    ⟨other, traits, explicit, found, sameStem, same⟩ | ⟨missing, same⟩
  · rw [same]
    exact holdsAt
  · rw [same]
    rcases Entries.find?_put_of_found found (Raml.merge traits explicit value) (.text name) with
      unchanged | ⟨before, after, first, isOther, isName⟩
    · exact holdsAt_map_iff.mpr ⟨child, unchanged.trans isChild, holdsChild⟩
    · rw [isChild, Option.some.injEq] at before
      subst before
      have named : other.string? = some name :=
        (string?_of_alike isOther).symm.trans (Scalar.string?_of_alike_text isName)
      refine holdsAt_map_iff.mpr ⟨_, after, collects.holdsAt_merge_left ?_ ?_ holdsChild⟩
      · exact isMerged.find? found named
      · refine isMember ?_
        rw [← sameStem, named, Option.map_some]
  · rw [same]
    refine holdsAt_map_iff.mpr ⟨child, ?_, holdsChild⟩
    rw [Entries.find?_append, isChild]
    rfl

/-- A member of a resource type that is not optional is merged in under its name. -/
theorem holdsAt_mergeTypeEntry_plain (derived : Bool)
    (ends : endsInReferences (name == "is") rest = true) (plain : optionalKey? key = none)
    (named : key.string? = some name) (isMerged : Everywhere (FitsMember fits name rest) merged)
    (isMember : FitsStem fits name rest key.string? value) (holdsAt : HoldsAt holds rest value) :
    HoldsAt holds (name :: rest) (.map (mergeTypeEntry derived merged key value)) := by
  cases found : merged.find? key with
  | some explicit =>
    have same : mergeTypeEntry derived merged key value =
        merged.put key (Raml.merge (isTraitsKey key) explicit value) := by
      simp only [mergeTypeEntry, plain, found]
    refine holdsAt_map_iff.mpr ⟨Raml.merge (isTraitsKey key) explicit value, ?_, ?_⟩
    · rw [same, ← find?_of_string? named, Entries.find?_put_self]
    · rw [isTraitsKey_of_string? named]
      exact collects.holdsAt_merge_right ends (isMerged.find? found named)
        (isMember.member rfl named) holdsAt
  | none =>
    have same : mergeTypeEntry derived merged key value = merged.put key value := by
      simp only [mergeTypeEntry, plain, found]
    refine holdsAt_map_iff.mpr ⟨value, ?_, holdsAt⟩
    rw [same, ← find?_of_string? named, Entries.find?_put_self]

/-- An optional member of a resource type is merged into the one that is there. -/
theorem holdsAt_mergeTypeEntry_optional (derived : Bool) (other : name ≠ "is")
    (ends : endsInReferences (name == "is") rest = true) (optional : optionalKey? key = some name)
    (isMerged : Everywhere (FitsMember fits name rest) merged)
    (isMember : FitsStem fits name rest key.string? value) (holdsAt : HoldsAt holds rest value)
    (declared : merged.has (.text name) = true) :
    HoldsAt holds (name :: rest) (.map (mergeTypeEntry derived merged key value)) := by
  obtain ⟨explicit, found⟩ := Option.isSome_iff_exists.mp declared
  unfold mergeTypeEntry
  simp only [optional, found]
  refine holdsAt_map_iff.mpr ⟨_, Entries.find?_put_self _ _ _, ?_⟩
  have noReferences : (name == "is") = false := beq_eq_false_iff_ne.mpr other
  rw [noReferences] at ends
  exact collects.holdsAt_merge_right ends (isMerged.find? found rfl)
    (isMember (stem_of_optionalKey? optional)) holdsAt

/-- An optional member of a resource type stays optional in another type that has no such member. -/
theorem holdsAt_mergeTypeEntry_derived (other : name ≠ "is")
    (ends : endsInReferences (name == "is") rest = true)
    (named : key.string? = some (optionalName name))
    (isMerged : Everywhere (FitsMember fits (optionalName name) rest) merged)
    (isMember : FitsStem fits name rest key.string? value) (holdsAt : HoldsAt holds rest value)
    (missing : merged.has (.text name) = false) :
    HoldsAt holds (optionalName name :: rest) (.map (mergeTypeEntry true merged key value)) := by
  have optional : optionalKey? key = some name :=
    (optionalKey?_of_string? named).trans (optionalKey?_optionalName name)
  have noReferences : (name == "is") = false := beq_eq_false_iff_ne.mpr other
  rw [noReferences] at ends
  have absent : merged.find? (.text name) = none :=
    Option.not_isSome_iff_eq_none.mp (Bool.eq_false_iff.mp missing)
  cases found : merged.find? key with
  | some explicit =>
    have same : mergeTypeEntry true merged key value =
        merged.put key (Raml.merge false explicit value) := by
      simp only [mergeTypeEntry, optional, absent, found]
    refine holdsAt_map_iff.mpr ⟨Raml.merge false explicit value, ?_, ?_⟩
    · rw [same, ← find?_of_string? named, Entries.find?_put_self]
    · exact collects.holdsAt_merge_right ends (isMerged.find? found named)
        (isMember (stem_of_optionalKey? optional)) holdsAt
  | none =>
    have same : mergeTypeEntry true merged key value = merged.put key value := by
      simp only [mergeTypeEntry, optional, absent, found, if_true]
    refine holdsAt_map_iff.mpr ⟨value, ?_, holdsAt⟩
    rw [same, ← find?_of_string? named, Entries.find?_put_self]

/-! ### Bodies of resource types -/

theorem fitsMember_foldl {further : Entries} (derived : Bool)
    (isFurther : Everywhere (FitsStem fits name rest) further)
    (isMerged : Everywhere (FitsMember fits name rest) merged) :
    Everywhere (FitsMember fits name rest) (further.foldl
      (fun merged entry => mergeTypeEntry derived merged entry.1 entry.2) merged) := by
  induction further generalizing merged with
  | nil => exact isMerged
  | cons entry others ih =>
    have here := isFurther entry List.mem_cons_self
    refine ih (fun other member => isFurther other (List.mem_cons_of_mem _ member)) ?_
    exact collects.fitsMember_mergeTypeEntry derived isMerged here

theorem holdsAt_foldl {further : Entries}
    (isFurther : Everywhere (FitsStem fits name rest) further)
    (isMerged : Everywhere (FitsMember fits name rest) merged)
    (holdsAt : HoldsAt holds (name :: rest) (.map merged)) :
    HoldsAt holds (name :: rest) (.map (further.foldl
      (fun merged entry => mergeTypeEntry derived merged entry.1 entry.2) merged)) := by
  induction further generalizing merged with
  | nil => exact holdsAt
  | cons entry others ih =>
    have here := isFurther entry List.mem_cons_self
    refine ih (fun other member => isFurther other (List.mem_cons_of_mem _ member)) ?_ ?_
    · exact collects.fitsMember_mergeTypeEntry derived isMerged here
    · exact collects.holdsAt_mergeTypeEntry derived isMerged here holdsAt

omit collects in
theorem covers_foldl (derived : Bool) (further merged : Entries) : Covers merged (further.foldl
    (fun merged entry => mergeTypeEntry derived merged entry.1 entry.2) merged) := by
  induction further generalizing merged with
  | nil => exact Covers.refl merged
  | cons entry others ih =>
    exact (mergeTypeEntry_covers derived merged entry.1 entry.2).trans (ih _)

omit collects in
theorem has_of_covers (covers : Covers merged node) (declared : merged.has key = true) :
    node.has key = true := by
  obtain ⟨value, found⟩ := Option.isSome_iff_exists.mp declared
  obtain ⟨result, isResult, -⟩ := covers.each key value found
  exact Option.isSome_of_eq_some isResult

omit collects in
/-- What is held under a name other than that of the type stands in an entry that is merged in. -/
theorem exists_entry_of_holdsAt (noType : name ≠ "type")
    (holdsAt : HoldsAt holds (name :: rest) (.map body)) : ∃ key child,
      (key, child) ∈ body.filter (fun entry => !isTypeKey entry.1) ∧ key.string? = some name ∧
        HoldsAt holds rest child := by
  obtain ⟨child, found, isChild⟩ := holdsAt_map_iff.mp holdsAt
  obtain ⟨⟨key, _⟩, member, same, rfl⟩ := Entries.exists_of_find? found
  have named : key.string? = some name := Scalar.string?_of_alike_text same
  refine ⟨key, _, List.mem_filter.mpr ⟨member, ?_⟩, named, isChild⟩
  rw [Bool.not_eq_true', Bool.eq_false_iff]
  exact fun isType => noType (Option.some.inj (named.symm.trans (isTypeKey_iff.mp isType)))

omit collects in
theorem find?_untyped (noType : name ≠ "type") (entries : Entries) :
    Entries.find? (entries.filter fun entry => !isTypeKey entry.1) (.text name) =
      entries.find? (.text name) := by
  refine Entries.find?_filter fun entry _ same => ?_
  rw [Bool.not_eq_true', Bool.eq_false_iff]
  intro isType
  have named : entry.1.string? = some name := Scalar.string?_of_alike_text same
  exact noType (Option.some.inj (named.symm.trans (isTypeKey_iff.mp isType)))

theorem fitsMember_mergeTypeBody (derived : Bool)
    (isNode : Everywhere (FitsMember fits name rest) node)
    (isBody : Everywhere (FitsStem fits name rest) body) :
    Everywhere (FitsMember fits name rest) (mergeTypeBody derived node body) :=
  collects.fitsMember_foldl derived (isBody.filter _) (isNode.filter _)

/-- **What a node holds it does with the body of a resource type.** -/
theorem holdsAt_mergeTypeBody_left (derived : Bool) (noType : name ≠ "type")
    (isNode : Everywhere (FitsMember fits name rest) node)
    (isBody : Everywhere (FitsStem fits name rest) body)
    (holdsAt : HoldsAt holds (name :: rest) (.map node)) :
    HoldsAt holds (name :: rest) (.map (mergeTypeBody derived node body)) := by
  refine collects.holdsAt_foldl (isBody.filter _) (isNode.filter _) ?_
  obtain ⟨child, found, isChild⟩ := holdsAt_map_iff.mp holdsAt
  exact holdsAt_map_iff.mpr ⟨child, (find?_untyped noType node).trans found, isChild⟩

/-- What holds something when an entry of a body is merged in does so with the whole body, under one
of several names with the same stem. -/
theorem exists_holdsAt_mergeTypeBody {child : Value} (derived : Bool) (candidate : String → Prop)
    (sameStem : ∀ other, candidate other → stem other = stem name)
    (isNode : ∀ other, candidate other → Everywhere (FitsMember fits other rest) node)
    (isBody : Everywhere (FitsStem fits name rest) body)
    (member : (key, child) ∈ body.filter fun entry => !isTypeKey entry.1)
    (taken : ∀ stage, Covers (node.filter fun entry => !isTypeKey entry.1) stage →
      (∀ other, candidate other → Everywhere (FitsMember fits other rest) stage) →
        FitsStem fits name rest key.string? child → ∃ other, candidate other ∧
          HoldsAt holds (other :: rest) (.map (mergeTypeEntry derived stage key child))) :
    ∃ other, candidate other ∧
      HoldsAt holds (other :: rest) (.map (mergeTypeBody derived node body)) := by
  obtain ⟨before, after, split⟩ := List.append_of_mem member
  have all := isBody.filter fun entry => !isTypeKey entry.1
  unfold mergeTypeBody
  rw [split] at all ⊢
  rw [List.foldl_append, List.foldl_cons]
  have isBefore : Everywhere (FitsStem fits name rest) before :=
    fun entry member => all entry (List.mem_append_left _ member)
  have isAfter : Everywhere (FitsStem fits name rest) after := fun entry member =>
    all entry (List.mem_append_right _ (List.mem_cons_of_mem _ member))
  have here : FitsStem fits name rest key.string? child :=
    all (key, child) (List.mem_append_right _ List.mem_cons_self)
  have isStage (other : String) (isCandidate : candidate other) :=
    collects.fitsMember_foldl derived (everywhere_fitsStem (sameStem other isCandidate) isBefore)
      ((isNode other isCandidate).filter fun entry => !isTypeKey entry.1)
  obtain ⟨other, isCandidate, holdsAt⟩ := taken _ (covers_foldl derived before _) isStage here
  refine ⟨other, isCandidate, ?_⟩
  have same := sameStem other isCandidate
  refine collects.holdsAt_foldl (everywhere_fitsStem same isAfter) ?_ holdsAt
  refine collects.fitsMember_mergeTypeEntry derived (isStage other isCandidate) fun named => ?_
  rw [same] at named
  exact here named

/-- **What the body of a resource type holds, the node does with it**, unless the member is
optional. -/
theorem holdsAt_mergeTypeBody_right (derived : Bool) (noType : name ≠ "type")
    (ends : endsInReferences (name == "is") rest = true)
    (plain : optionalKey? (.text name) = none)
    (isNode : Everywhere (FitsMember fits name rest) node)
    (isBody : Everywhere (FitsStem fits name rest) body)
    (holdsAt : HoldsAt holds (name :: rest) (.map body)) :
    HoldsAt holds (name :: rest) (.map (mergeTypeBody derived node body)) := by
  obtain ⟨key, child, member, named, isChild⟩ := exists_entry_of_holdsAt noType holdsAt
  have isPlain : optionalKey? key = none := (optionalKey?_of_string? named).trans plain
  obtain ⟨_, rfl, result⟩ := collects.exists_holdsAt_mergeTypeBody derived
    (fun other => other = name) (fun _ => congrArg stem)
    (fun _ same => same ▸ isNode) isBody member fun stage _ isStage here => ⟨name, rfl,
      collects.holdsAt_mergeTypeEntry_plain derived ends isPlain named (isStage name rfl) here
        isChild⟩
  exact result

/-- **What the body of a resource type holds in an optional member, the node does with it**, if it
has the member. -/
theorem holdsAt_mergeTypeBody_optional (derived : Bool) (noType : name ≠ "type")
    (other : name ≠ "is") (ends : endsInReferences (name == "is") rest = true)
    (declared : node.has (.text name) = true)
    (isNode : Everywhere (FitsMember fits name rest) node)
    (isBody : Everywhere (FitsStem fits name rest) body)
    (holdsAt : HoldsAt holds (optionalName name :: rest) (.map body)) :
    HoldsAt holds (name :: rest) (.map (mergeTypeBody derived node body)) := by
  obtain ⟨key, child, member, named, isChild⟩ :=
    exists_entry_of_holdsAt (optionalName_ne_type name) holdsAt
  have optional : optionalKey? key = some name :=
    (optionalKey?_of_string? named).trans (optionalKey?_optionalName name)
  have remains (stage : Entries)
      (covers : Covers (node.filter fun entry => !isTypeKey entry.1) stage) :
      stage.has (.text name) = true := by
    refine has_of_covers covers ?_
    unfold Entries.has at declared ⊢
    rw [find?_untyped noType]
    exact declared
  obtain ⟨_, rfl, result⟩ := collects.exists_holdsAt_mergeTypeBody derived
    (fun other => other = name) (fun _ => congrArg stem)
    (fun _ same => same ▸ isNode) isBody member fun stage covers isStage here => ⟨name, rfl,
      collects.holdsAt_mergeTypeEntry_optional derived other ends optional (isStage name rfl) here
        isChild (remains stage covers)⟩
  exact result

/-- **What the body of a resource type holds in an optional member, another type does with it**,
there perhaps optional as well. -/
theorem holdsAt_mergeTypeBody_derived (other : name ≠ "is")
    (ends : endsInReferences (name == "is") rest = true)
    (isNode : Everywhere (FitsStem fits name rest) node)
    (isBody : Everywhere (FitsStem fits name rest) body)
    (holdsAt : HoldsAt holds (optionalName name :: rest) (.map body)) :
    HoldsAt holds (name :: rest) (.map (mergeTypeBody true node body)) ∨
      HoldsAt holds (optionalName name :: rest) (.map (mergeTypeBody true node body)) := by
  obtain ⟨key, child, member, named, isChild⟩ :=
    exists_entry_of_holdsAt (optionalName_ne_type name) holdsAt
  have optional : optionalKey? key = some name :=
    (optionalKey?_of_string? named).trans (optionalKey?_optionalName name)
  let candidate (other : String) : Prop := other = name ∨ other = optionalName name
  have sameStem (other : String) (isCandidate : candidate other) : stem other = stem name := by
    rcases isCandidate with rfl | rfl
    · rfl
    · exact stem_optionalName name
  obtain ⟨_, rfl | rfl, result⟩ := collects.exists_holdsAt_mergeTypeBody true candidate sameStem
    (fun other isCandidate => everywhere_fitsMember (sameStem other isCandidate) isNode) isBody
    member fun stage _ isStage here => by
      by_cases declared : stage.has (.text name) = true
      · exact ⟨name, .inl rfl, collects.holdsAt_mergeTypeEntry_optional true other ends optional
          (isStage name (.inl rfl)) here isChild declared⟩
      · exact ⟨optionalName name, .inr rfl, collects.holdsAt_mergeTypeEntry_derived other ends named
          (isStage _ (.inr rfl)) here isChild (Bool.eq_false_iff.mpr declared)⟩
  · exact .inl result
  · exact .inr result

end Collects

/-! ### Chains of resource types -/

/-- The entries hold something under the name, or, where optional members count, under the name of
the optional one. -/
def Offers (holds : Value → Prop) (optional : Bool) (name : String) (rest : List String)
    (entries : Entries) : Prop :=
  HoldsAt holds (name :: rest) (.map entries) ∨
    optional = true ∧ name ≠ "is" ∧ HoldsAt holds (optionalName name :: rest) (.map entries)

/-- What a type gives a node: its body, with the content of its own types if it has any. -/
def GivesContent (types arguments node : Entries) (reference : Reference) (body content : Entries) :
    Prop :=
  GivesBody types arguments node reference body ∧
    ((body.get "type").isNull = true ∧ content = body ∨ (body.get "type").isNull = false ∧
      mergeType types arguments body [reference.name] = .ok content)

/-- A resource without a type keeps its content, and another one takes what its type gives. -/
theorem applyType_cases {templates : Templates} {arguments declared resource : Entries}
    (typed : applyType templates arguments declared = .ok resource) :
    (declared.get "type").isNull = true ∧ resource = declared ∨
      ∃ reference body content,
        GivesContent templates.resourceTypes arguments declared reference body content ∧
          resource = mergeTypeBody false declared content := by
  refine (applyType_eq_ok_iff.mp typed).imp_right ?_
  rintro ⟨isTyped, merged⟩
  obtain ⟨reference, template, body, content, isReference, -, found, filled, inherited, rfl⟩ :=
    mergeType_eq_ok_iff.mp merged
  exact ⟨reference, body, content, ⟨⟨⟨isTyped, isReference⟩, template, found, filled⟩, inherited⟩,
    rfl⟩

/-- From a node without a type no chain leads on. -/
theorem Follows.of_untyped {types arguments node last : Entries} {names : List String}
    (follows : Follows types arguments node names last)
    (untyped : (node.get "type").isNull = true) : names = [] ∧ last = node := by
  cases follows with
  | start => exact ⟨rfl, rfl⟩
  | next given =>
    rw [given.1.1] at untyped
    cases untyped

namespace Collects

variable {optional : Bool} {types arguments node body last resolved content declared : Entries}
  {names seen : List String} {reference : Reference} (collects : Collects fits holds)

include collects

theorem mergeable_fitsStem : Mergeable (FitsStem fits name rest) where
  optional := fun key plain value optional isMember named => by
    refine isMember ?_
    rw [stem_of_optionalKey? optional]
    exact named
  merge := fun _ _ _ _ _ isExplicit isInherited named =>
    collects.fitsAlong_merge (isExplicit named) (isInherited named)

theorem offers_left (noType : name ≠ "type") (isNode : Everywhere (FitsStem fits name rest) node)
    (isBody : Everywhere (FitsStem fits name rest) body)
    (offers : Offers holds optional name rest node) :
    Offers holds optional name rest (mergeTypeBody true node body) := by
  rcases offers with holdsAt | ⟨isOptional, other, holdsAt⟩
  · exact .inl (collects.holdsAt_mergeTypeBody_left true noType (everywhere_fitsMember rfl isNode)
      isBody holdsAt)
  · refine .inr ⟨isOptional, other, ?_⟩
    exact collects.holdsAt_mergeTypeBody_left true (optionalName_ne_type name)
      (everywhere_fitsMember (stem_optionalName name) isNode)
      (everywhere_fitsStem (stem_optionalName name) isBody) holdsAt

theorem offers_right (noType : name ≠ "type") (plain : optionalKey? (.text name) = none)
    (ends : endsInReferences (name == "is") rest = true)
    (isNode : Everywhere (FitsStem fits name rest) node)
    (isBody : Everywhere (FitsStem fits name rest) body)
    (offers : Offers holds optional name rest body) :
    Offers holds optional name rest (mergeTypeBody true node body) := by
  rcases offers with holdsAt | ⟨isOptional, other, holdsAt⟩
  · exact .inl (collects.holdsAt_mergeTypeBody_right true noType ends plain
      (everywhere_fitsMember rfl isNode) isBody holdsAt)
  · rcases collects.holdsAt_mergeTypeBody_derived other ends isNode isBody holdsAt with
      here | there
    · exact .inl here
    · exact .inr ⟨isOptional, other, there⟩

/-- **A chain of types offers what each type on it does.** -/
theorem mergeType_offers (noType : name ≠ "type")
    (ends : endsInReferences (name == "is") rest = true) (typed : (node.get "type").isNull = false)
    (derived : seen ≠ []) (bodies : ∀ names last, Follows types arguments node names last →
      Everywhere (FitsStem fits name rest) last)
    (merged : mergeType types arguments node seen = .ok resolved) :
    Everywhere (FitsStem fits name rest) resolved ∧ (optionalKey? (.text name) = none →
      ∀ names last, Follows types arguments node names last →
        Offers holds optional name rest last → Offers holds optional name rest resolved) := by
  have isDerived {seen : List String} (derived : seen ≠ []) : (!seen.isEmpty) = true := by
    rw [List.isEmpty_eq_false_iff.mpr derived]
    rfl
  fun_induction mergeType types arguments node seen generalizing resolved with
  | case1 => cases merged
  | case2 => cases merged
  | case3 => cases merged
  | case4 node seen reference isReference fresh template found body filled =>
    rename_i untyped
    cases merged
    have given : GivesBody types arguments node reference body :=
      ⟨⟨typed, isReference⟩, template, found, filled⟩
    have isNode := bodies [] node (.start node)
    have isBody := bodies _ body (.next given (.start body))
    rw [isDerived derived]
    refine ⟨collects.mergeable_fitsStem.mergeTypeBody isNode isBody, ?_⟩
    intro plain names last follows offers
    cases follows with
    | start => exact collects.offers_left noType isNode isBody offers
    | next again further =>
      obtain ⟨-, rfl⟩ := given.unique again
      obtain ⟨-, rfl⟩ := further.of_untyped untyped
      exact collects.offers_right noType plain ends isNode isBody offers
  | case5 => cases merged
  | case6 node seen reference isReference fresh template found body filled isTyped inner walked =>
    rename_i ih
    cases merged
    have given : GivesBody types arguments node reference body :=
      ⟨⟨typed, isReference⟩, template, found, filled⟩
    have isNode := bodies [] node (.start node)
    obtain ⟨isInner, offered⟩ := ih (Bool.eq_false_iff.mpr isTyped)
      (List.append_ne_nil_of_right_ne_nil _ (List.cons_ne_nil _ _))
      (fun names last follows => bodies _ last (.next given follows)) walked
    rw [isDerived derived]
    refine ⟨collects.mergeable_fitsStem.mergeTypeBody isNode isInner, ?_⟩
    intro plain names last follows offers
    cases follows with
    | start => exact collects.offers_left noType isNode isInner offers
    | next again further =>
      obtain ⟨-, rfl⟩ := given.unique again
      exact collects.offers_right noType plain ends isNode isInner
        (offered plain _ last further offers)
  | case7 => cases merged

theorem givesContent_offers (optional : Bool) (noType : name ≠ "type")
    (ends : endsInReferences (name == "is") rest = true)
    (given : GivesContent types arguments node reference body content)
    (bodies : ∀ names last, Follows types arguments body names last →
      Everywhere (FitsStem fits name rest) last) :
    Everywhere (FitsStem fits name rest) content ∧ (optionalKey? (.text name) = none →
      ∀ names last, Follows types arguments body names last →
        Offers holds optional name rest last → Offers holds optional name rest content) := by
  rcases given.2 with ⟨untyped, rfl⟩ | ⟨isTyped, merged⟩
  · refine ⟨bodies [] content (.start content), fun _ names last follows offers => ?_⟩
    obtain ⟨-, rfl⟩ := follows.of_untyped untyped
    exact offers
  · exact collects.mergeType_offers noType ends isTyped (List.cons_ne_nil _ _) bodies merged

variable {templates : Templates} {resource : Entries}

/-- **A resource leads where its own content and that of its types do.** -/
theorem applyType_fitsMember (noType : name ≠ "type")
    (ends : endsInReferences (name == "is") rest = true)
    (isDeclared : Everywhere (FitsMember fits name rest) declared)
    (bodies : ∀ names last, names ≠ [] →
      Follows templates.resourceTypes arguments declared names last →
        Everywhere (FitsStem fits name rest) last)
    (typed : applyType templates arguments declared = .ok resource) :
    Everywhere (FitsMember fits name rest) resource := by
  rcases applyType_cases typed with ⟨-, rfl⟩ | ⟨_, body, content, given, rfl⟩
  · exact isDeclared
  · obtain ⟨isContent, -⟩ := collects.givesContent_offers false noType ends given
      fun names last follows => bodies _ last (List.cons_ne_nil _ _) (.next given.1 follows)
    exact collects.fitsMember_mergeTypeBody false isDeclared isContent

/-- **What a resource holds it does with the content of its types.** -/
theorem applyType_holdsAt_left (noType : name ≠ "type")
    (ends : endsInReferences (name == "is") rest = true)
    (isDeclared : Everywhere (FitsMember fits name rest) declared)
    (bodies : ∀ names last, names ≠ [] →
      Follows templates.resourceTypes arguments declared names last →
        Everywhere (FitsStem fits name rest) last)
    (typed : applyType templates arguments declared = .ok resource)
    (holdsAt : HoldsAt holds (name :: rest) (.map declared)) :
    HoldsAt holds (name :: rest) (.map resource) := by
  rcases applyType_cases typed with ⟨-, rfl⟩ | ⟨_, body, content, given, rfl⟩
  · exact holdsAt
  · obtain ⟨isContent, -⟩ := collects.givesContent_offers false noType ends given
      fun names last follows => bodies _ last (List.cons_ne_nil _ _) (.next given.1 follows)
    exact collects.holdsAt_mergeTypeBody_left false noType isDeclared isContent holdsAt

/-- **What a type of a resource offers, the resource holds**, if it has the member where this is
optional. -/
theorem applyType_holdsAt_right (noType : name ≠ "type")
    (ends : endsInReferences (name == "is") rest = true)
    (plain : optionalKey? (.text name) = none)
    (isDeclared : Everywhere (FitsMember fits name rest) declared)
    (bodies : ∀ names last, names ≠ [] →
      Follows templates.resourceTypes arguments declared names last →
        Everywhere (FitsStem fits name rest) last)
    (typed : applyType templates arguments declared = .ok resource) (applied : names ≠ [])
    (follows : Follows templates.resourceTypes arguments declared names last)
    (has : optional = true → declared.has (.text name) = true)
    (offers : Offers holds optional name rest last) :
    HoldsAt holds (name :: rest) (.map resource) := by
  cases follows with
  | start => exact absurd rfl applied
  | next again further =>
    rcases applyType_cases typed with ⟨untyped, -⟩ | ⟨_, body, content, given, rfl⟩
    · rw [again.1.1] at untyped
      cases untyped
    · obtain ⟨isContent, offered⟩ := collects.givesContent_offers optional noType ends given
        fun names last follows => bodies _ last (List.cons_ne_nil _ _) (.next given.1 follows)
      obtain ⟨-, rfl⟩ := given.1.unique again
      rcases offered plain _ last further offers with holdsAt | ⟨isOptional, other, holdsAt⟩
      · exact collects.holdsAt_mergeTypeBody_right false noType ends plain isDeclared isContent
          holdsAt
      · exact collects.holdsAt_mergeTypeBody_optional false noType other ends (has isOptional)
          isDeclared isContent holdsAt

end Collects

end RamlInterfaces.Raml
