/-
**The resource types that a node mentions.**

A node that stands for a resource refers to a resource type itself, and so do the resources below
it.  Merging mentions nothing new: a merged reference is one of either side, or two mappings merged
into one.

* `Mentions`: a node mentions a reference so many resources deep;
* `MentionsOnly`, `mentionsOnly_iff`: everything that a node mentions has a property;
* `MentionsOnly.merge`, `mergeable_fitsBelow`: **merging mentions nothing new**;
* `exists_bound`: a node mentions nothing beyond a certain depth.
-/

import RamlInterfaces.Proofs.Raml.Explicit
import RamlInterfaces.Proofs.Raml.Resolved

namespace RamlInterfaces.Raml

/-- A node mentions a reference to a resource type: as its own, or in a resource below it. -/
inductive Mentions : Value → Nat → Value → Prop where
  | own {value reference : Value} {entries : Entries} {key : Scalar}
    (content : contentEntries? value = some entries) (member : (key, reference) ∈ entries)
    (isType : isTypeKey key = true) (something : reference.isNull = false) :
    Mentions value 0 reference
  | within {value child reference : Value} {entries : Entries} {key : Scalar} {depth : Nat}
    (content : contentEntries? value = some entries) (member : (key, child) ∈ entries)
    (isPath : isResourceKey key = true) (deeper : Mentions child depth reference) :
    Mentions value (depth + 1) reference

/-- Every reference that the node mentions has a property, which may look at its depth. -/
def MentionsOnly (fits : Nat → Value → Prop) (value : Value) : Prop :=
  ∀ depth reference, Mentions value depth reference → fits depth reference

/-- Every reference that a member of a resource mentions has a property, if it is a resource. -/
def FitsBelow (fits : Nat → Value → Prop) (name : Option String) (value : Value) : Prop :=
  Role.of name = .resource → MentionsOnly (fun depth => fits (depth + 1)) value

/-- The member of a node is its reference to a type, with a property. -/
def FitsType (fits : Nat → Value → Prop) (name : Option String) (value : Value) : Prop :=
  name = some "type" → value.isNull = false → fits 0 value

/-- Two mappings with the property, merged into one, have it as well. -/
def ClosedUnderMerging (fits : Nat → Value → Prop) : Prop :=
  ∀ depth own entries, fits depth (.map own) → fits depth (.map entries) →
    fits depth (.map (mergeEntries own entries))

variable {fits : Nat → Value → Prop} {value reference : Value} {entries : Entries} {key : Scalar}

theorem isResourceKey_of_role (role : Role.of key.string? = .resource) :
    isResourceKey key = true := by
  cases named : key.string? with
  | none =>
    rw [named] at role
    cases role
  | some name =>
    rw [named] at role
    by_cases slash : (name.toList.head? == some '/') = true
    · have isPath := resourceKey?_eq_some_iff.mpr ⟨named, beq_iff_eq.mp slash⟩
      exact isResourceKey_iff.mpr ⟨name, isPath⟩
    · have other : Role.ofName name = .resource := role
      unfold Role.ofName at other
      rw [if_neg slash] at other
      split at other
      · cases other
      · split at other <;> cases other

theorem role_of_isResourceKey (isPath : isResourceKey key = true) :
    Role.of key.string? = .resource := by
  obtain ⟨relative, named⟩ := isResourceKey_iff.mp isPath
  exact role_of_resourceKey? named

/-- What a node mentions has a property exactly when what its entries mention has it. -/
theorem mentionsOnly_iff (content : contentEntries? value = some entries) :
    MentionsOnly fits value ↔
      Everywhere (FitsType fits) entries ∧ Everywhere (FitsBelow fits) entries := by
  constructor
  · intro all
    refine ⟨fun entry member named something => ?_,
      fun entry member role depth reference deeper => ?_⟩
    · exact all 0 _ (.own content member (isTypeKey_iff.mpr named) something)
    · exact all _ _ (.within content member (isResourceKey_of_role role) deeper)
  · rintro ⟨types, below⟩ depth reference mentions
    cases mentions with
    | own same member isType something =>
      rw [content, Option.some.injEq] at same
      subst same
      exact types _ member (isTypeKey_iff.mp isType) something
    | within same member isPath deeper =>
      rw [content, Option.some.injEq] at same
      subst same
      exact below _ member (role_of_isResourceKey isPath) _ _ deeper

/-- A value without entries mentions nothing. -/
theorem not_mentions_of_shapeless (missing : contentEntries? value = none) {depth : Nat} :
    ¬ Mentions value depth reference := by
  intro mentions
  cases mentions with
  | own content => cases missing.symm.trans content
  | within content => cases missing.symm.trans content

/-! ### Merging -/

theorem FitsType.merge (closed : ClosedUnderMerging fits) {name : Option String} {traits : Bool}
    (plain : name = some "type" → traits = false) {explicit inherited : Value}
    (isExplicit : FitsType fits name explicit) (isInherited : FitsType fits name inherited) :
    FitsType fits name (Raml.merge traits explicit inherited) := by
  intro named something
  let holds (merged : Value) : Prop := merged.isNull = false → fits 0 merged
  have keeps : holds (Raml.merge traits explicit inherited) := by
    refine merge_keeps (isExplicit named) (isInherited named) (fun own entries left right _ => ?_)
      fun joins => ?_
    · rw [left] at isExplicit
      rw [right] at isInherited
      exact closed 0 own entries (isExplicit named rfl) (isInherited named rfl)
    · rw [plain named] at joins
      cases joins
  exact keeps something

theorem ClosedUnderMerging.below (closed : ClosedUnderMerging fits) :
    ClosedUnderMerging fun depth => fits (depth + 1) := fun depth => closed (depth + 1)

mutual

/-- **Merging mentions nothing new.** -/
theorem MentionsOnly.merge {fits : Nat → Value → Prop} (closed : ClosedUnderMerging fits)
    {explicit : Value} (isExplicit : MentionsOnly fits explicit) :
    (inherited : Value) → MentionsOnly fits inherited →
      MentionsOnly fits (Raml.merge false explicit inherited)
  | .map further, isInherited => by
    refine merge_keeps isExplicit isInherited (fun own entries left right => ?_)
      fun joins => nomatch joins
    cases right
    rw [left, mentionsOnly_iff (contentEntries?_map own)] at isExplicit
    rw [mentionsOnly_iff (contentEntries?_map further)] at isInherited
    rw [mentionsOnly_iff (contentEntries?_map _)]
    refine ⟨isExplicit.1.mergeEntries isInherited.1 fun entry member explicit isType => ?_, ?_⟩
    · have plain (named : entry.1.string? = some "type") : isTraitsKey entry.1 = false :=
        isTraitsKey_of_string? named
      exact isType.merge closed plain (isInherited.1 entry member)
    · exact isExplicit.2.mergeEntries isInherited.2
        (FitsBelow.merge_each closed further isInherited.2)
  | .scalar s, isInherited => merge_keeps isExplicit isInherited (fun _ _ _ same => nomatch same)
      fun joins => nomatch joins
  | .list _, isInherited => merge_keeps isExplicit isInherited (fun _ _ _ same => nomatch same)
      fun joins => nomatch joins
  | .set _, isInherited => merge_keeps isExplicit isInherited (fun _ _ _ same => nomatch same)
      fun joins => nomatch joins
  | .pair _ _, isInherited => merge_keeps isExplicit isInherited (fun _ _ _ same => nomatch same)
      fun joins => nomatch joins

theorem FitsBelow.merge_each {fits : Nat → Value → Prop} (closed : ClosedUnderMerging fits) :
    (inherited : List (Scalar × Value)) → Everywhere (FitsBelow fits) inherited →
      ∀ entry ∈ inherited, ∀ explicit, FitsBelow fits entry.1.string? explicit →
        FitsBelow fits entry.1.string? (Raml.merge (isTraitsKey entry.1) explicit entry.2)
  | [], _, _, member => absurd member List.not_mem_nil
  | (key, value) :: rest, isInherited, entry, member => by
    intro explicit isExplicit
    rcases List.mem_cons.mp member with rfl | inRest
    · intro role
      have plain : isTraitsKey key = false := isTraitsKey_eq_false (by rw [role]; decide)
      rw [plain]
      exact MentionsOnly.merge closed.below (isExplicit role) value
        (isInherited (key, value) List.mem_cons_self role)
    · have further : Everywhere (FitsBelow fits) rest :=
        fun other member => isInherited other (List.mem_cons_of_mem _ member)
      exact FitsBelow.merge_each closed rest further entry inRest explicit isExplicit

end

/-- **The content of a chain of types mentions nothing new** below a resource. -/
theorem mergeable_fitsBelow (closed : ClosedUnderMerging fits) : Mergeable (FitsBelow fits) where
  optional := fun key plain value optional isBelow role =>
    isBelow ((role_of_optionalKey? optional).trans role)
  merge := fun name traits explicit inherited plain isExplicit isInherited role => by
    rw [plain (by rw [role]; decide)]
    exact (isExplicit role).merge closed.below inherited (isInherited role)

/-! ### The depth of a node -/

/-- What holds of each item up to some bound holds of all of them up to a common one. -/
theorem exists_bound_of_each {α : Type} (holds : Nat → α → Prop)
    (grows : ∀ less more item, less ≤ more → holds less item → holds more item) {items : List α}
    (each : ∀ item ∈ items, ∃ bound, holds bound item) :
    ∃ bound, ∀ item ∈ items, holds bound item := by
  induction items with
  | nil => exact ⟨0, fun item member => absurd member List.not_mem_nil⟩
  | cons first rest ih =>
    obtain ⟨here, isHere⟩ := each first List.mem_cons_self
    obtain ⟨further, isFurther⟩ := ih fun item member => each item (List.mem_cons_of_mem _ member)
    refine ⟨max here further, fun item member => ?_⟩
    rcases List.mem_cons.mp member with rfl | inRest
    · exact grows _ _ _ (Nat.le_max_left _ _) isHere
    · exact grows _ _ _ (Nat.le_max_right _ _) (isFurther item inRest)

/-- The value is a scalar, which has no entries, or smaller than the bound. -/
def IsSmaller (bound : Nat) (value : Value) : Prop :=
  (∃ s, value = .scalar s) ∨ sizeOf value < bound

theorem IsSmaller.mono {bound further : Nat} (smaller : IsSmaller bound value)
    (le : bound ≤ further) : IsSmaller further value :=
  smaller.imp_right fun less => Nat.lt_of_lt_of_le less le

/-- What stands in an item of two elements is smaller than the item. -/
theorem smaller_of_pairEntry {item child : Value} (pair : pairEntry? item = some (key, child)) :
    IsSmaller (sizeOf item) child := by
  unfold pairEntry? at pair
  split at pair
  · cases pair
    refine .inr ?_
    simp only [Value.list.sizeOf_spec, List.cons.sizeOf_spec]
    omega
  · cases pair
    refine .inr ?_
    simp only [Value.pair.sizeOf_spec]
    omega
  · cases pair
    exact .inl ⟨_, rfl⟩
  · cases pair
    exact .inl ⟨_, rfl⟩
  · cases pair
    exact .inl ⟨_, rfl⟩
  · split at pair
    · cases pair
      exact .inl ⟨_, rfl⟩
    · cases pair
  · cases pair

/-- What stands in items of two elements is smaller than what bounds the items. -/
theorem smaller_of_pairs {items : List Value} {written : Entries} {bound : Nat}
    (pairs : items.mapM pairEntry? = some written) (within : ∀ item ∈ items, sizeOf item ≤ bound) :
    Everywhere (fun _ => IsSmaller bound) written := by
  induction items generalizing written with
  | nil =>
    cases pairs
    exact Everywhere.nil
  | cons item rest ih =>
    rw [List.mapM_cons] at pairs
    obtain ⟨⟨key, child⟩, here, pairs⟩ := Option.bind_eq_some_iff.mp pairs
    obtain ⟨others, further, same⟩ := Option.bind_eq_some_iff.mp pairs
    cases same
    have first := (smaller_of_pairEntry here).mono (within item List.mem_cons_self)
    exact Everywhere.cons first
      (ih further fun other member => within other (List.mem_cons_of_mem _ member))

/-- **What stands in a node is smaller than the node.** -/
theorem smaller_of_contentEntries? {child : Value} (content : contentEntries? value = some entries)
    (member : (key, child) ∈ entries) : IsSmaller (sizeOf value) child := by
  have ofPairs (items : List Value) (within : ∀ item ∈ items, sizeOf item ≤ sizeOf value)
      (pairs : (items.mapM pairEntry?).map Entries.ofList = some entries) :
      IsSmaller (sizeOf value) child := by
    obtain ⟨written, walked, rfl⟩ := Option.map_eq_some_iff.mp pairs
    exact (smaller_of_pairs walked within).ofList _ member
  unfold contentEntries? at content
  split at content
  · cases content
    cases member
  · split at content
    · cases content
      refine .inr ?_
      have inEntries := List.sizeOf_lt_of_mem member
      simp only [Prod.mk.sizeOf_spec] at inEntries
      simp only [Value.map.sizeOf_spec]
      omega
    · rename_i items _
      refine ofPairs items (fun item isItem => ?_) content
      have inItems := List.sizeOf_lt_of_mem isItem
      simp only [Value.list.sizeOf_spec]
      omega
    · rename_i members _
      have pairs : (members.map Value.scalar).mapM pairEntry? =
          members.mapM fun member => pairEntry? (.scalar member) := List.mapM_map
      rw [← pairs] at content
      refine ofPairs (members.map .scalar) (fun item isItem => ?_) content
      obtain ⟨s, isMember, rfl⟩ := List.mem_map.mp isItem
      have inMembers := List.sizeOf_lt_of_mem isMember
      simp only [Value.set.sizeOf_spec, Value.scalar.sizeOf_spec]
      omega
    · rename_i first second _
      refine ofPairs [first, second] (fun item isItem => ?_) content
      simp only [List.mem_cons, List.not_mem_nil, or_false] at isItem
      rcases isItem with rfl | rfl
      · simp only [Value.pair.sizeOf_spec]
        omega
      · simp only [Value.pair.sizeOf_spec]
        omega
    · cases content

/-- A scalar has no entries. -/
theorem contentEntries?_scalar {s : Scalar} (content : contentEntries? (.scalar s) = some entries) :
    entries = [] := by
  unfold contentEntries? at content
  split at content
  · cases content
    rfl
  · cases content

/-- **Induction over the nodes below a node.** -/
theorem node_induction {holds : Value → Prop}
    (step : ∀ value, (∀ entries key child, contentEntries? value = some entries →
      (key, child) ∈ entries → holds child) → holds value) (value : Value) : holds value := by
  have ofScalar (s : Scalar) : holds (.scalar s) := by
    refine step _ fun entries key child content member => ?_
    rw [contentEntries?_scalar content] at member
    cases member
  generalize size : sizeOf value = bound
  induction bound using Nat.strongRecOn generalizing value with
  | ind bound ih =>
    refine step value fun entries key child content member => ?_
    rcases smaller_of_contentEntries? content member with ⟨s, rfl⟩ | smaller
    · exact ofScalar s
    · exact ih _ (size ▸ smaller) child rfl

/-- **A node mentions nothing beyond a certain depth.** -/
theorem exists_bound (value : Value) :
    ∃ bound, MentionsOnly (fun depth _ => depth < bound) value := by
  induction value using node_induction with
  | step value ih =>
    cases content : contentEntries? value with
    | none =>
      exact ⟨0, fun depth reference mentions =>
        absurd mentions (not_mentions_of_shapeless content)⟩
    | some entries =>
      let bounds (bound : Nat) (entry : Scalar × Value) : Prop :=
        MentionsOnly (fun depth _ => depth < bound) entry.2
      obtain ⟨bound, each⟩ := exists_bound_of_each bounds
        (fun less more entry le isBound depth reference mentions =>
          Nat.lt_of_lt_of_le (isBound depth reference mentions) le)
        fun entry member => ih entries entry.1 entry.2 content member
      refine ⟨bound + 1, (mentionsOnly_iff content).mpr ⟨fun _ _ _ _ => Nat.succ_pos _, ?_⟩⟩
      intro entry member _ depth reference mentions
      exact Nat.succ_lt_succ (each entry member depth reference mentions)

end RamlInterfaces.Raml
