/-
**What a node keeps when content is merged into it.**

A node into which content is merged keeps what it declares itself: its entries stay in their order
and their values stay what they are, but nothing declared takes any value, and a list of trait
references may become longer.  A resource loses its reference to a type on top of that.

* `Place`: what a value stands for, which says what may become of it;
* `Survives`: a value is kept in what became of it, all the way down;
* `Survives.trans`, `survives_merge`: **merging keeps the explicit side**, once or many times;
* `Survives.at?`: **what is kept stands at the path at which it stood**.
-/

import RamlInterfaces.Proofs.Raml.Merge
import RamlInterfaces.Proofs.Value.Entries
import RamlInterfaces.Raml.Application

namespace RamlInterfaces.Raml

/-! ### What a value stands for -/

/-- What a value stands for: a resource, the references of a node to traits, or anything else. -/
inductive Place where
  | resource
  | references
  | content
deriving DecidableEq

namespace Place

/-- What the value under a key stands for. -/
def below (place : Place) (key : Scalar) : Place :=
  if place = .resource ∧ isResourceKey key = true then .resource
  else if isTraitsKey key then .references
  else .content

/-- What the value at a path of keys stands for. -/
def along (place : Place) (path : List Scalar) : Place := path.foldl below place

/-- The key is one that a node loses: the reference of a resource to its type. -/
def loses (place : Place) (key : Scalar) : Bool := place == .resource && isTypeKey key

end Place

/-- The entries without those that a node in the place loses. -/
def lasting (place : Place) (entries : Entries) : Entries :=
  entries.filter fun entry => !place.loses entry.1

/-- A value is kept in what became of it: nothing declared may become anything, references may have
further ones after them, a mapping keeps its keys in their order, each with a value that is kept,
and everything else stays the same.  A resource loses its reference to a type. -/
inductive Survives : Place → Value → Value → Prop where
  | nothing (place : Place) (result : Value) : Survives place .null result
  | same (place : Place) {value : Value} (plain : value.isMap = false) :
    Survives place value value
  | joined (items further : List Value) :
    Survives .references (.list items) (.list (items ++ further))
  | mapping {place : Place} {own entries : Entries}
    (order : ((lasting place own).map Prod.fst).Sublist (entries.map Prod.fst))
    (typeless : place = .resource → (own.get "type").isNull = false →
      entries.find? (.text "type") = none)
    (there : ∀ key value, place.loses key = false → own.find? key = some value →
      (entries.find? key).isSome = true)
    (each : ∀ key value result, place.loses key = false → own.find? key = some value →
      entries.find? key = some result → Survives (place.below key) value result) :
    Survives place (.map own) (.map entries)

/-- The entries of one mapping are kept in another, where nothing is lost. -/
structure Covers (own entries : Entries) : Prop where
  order : (own.map Prod.fst).Sublist (entries.map Prod.fst)
  each : ∀ key value, own.find? key = some value → ∃ result, entries.find? key = some result ∧
    Survives (Place.content.below key) value result

variable {place : Place} {own entries further : Entries} {key : Scalar} {value result : Value}

theorem below_of_ne_resource (other : place ≠ .resource) (key : Scalar) :
    place.below key = if isTraitsKey key then .references else .content := by
  unfold Place.below
  rw [if_neg fun both => other both.1]

theorem below_ne_resource (other : place ≠ .resource) (key : Scalar) :
    place.below key ≠ .resource := by
  rw [below_of_ne_resource other]
  split <;> decide

/-- What stands in a mapping of content is no resource. -/
theorem below_content_ne (key : Scalar) : Place.content.below key ≠ .resource :=
  below_ne_resource (by decide) key

theorem loses_of_ne_resource (other : place ≠ .resource) (key : Scalar) :
    place.loses key = false := by
  cases place with
  | resource => exact absurd rfl other
  | references => rfl
  | content => rfl

theorem lasting_of_ne_resource (other : place ≠ .resource) (entries : Entries) :
    lasting place entries = entries := by
  refine List.filter_eq_self.mpr fun entry _ => ?_
  rw [loses_of_ne_resource other]
  rfl

/-- Outside resources a mapping is kept exactly when its entries are. -/
theorem survives_map_iff (other : place ≠ .resource) :
    Survives place (.map own) result ↔ ∃ entries, result = .map entries ∧ Covers own entries := by
  have samePlace (key : Scalar) : place.below key = Place.content.below key := by
    rw [below_of_ne_resource other, below_of_ne_resource (by decide)]
  constructor
  · intro survives
    cases survives with
    | same _ plain => cases plain
    | @mapping _ _ entries order _ there each =>
      rw [lasting_of_ne_resource other] at order
      refine ⟨entries, rfl, order, fun key value found => ?_⟩
      have kept := loses_of_ne_resource other key
      obtain ⟨result, isThere⟩ := Option.isSome_iff_exists.mp (there key value kept found)
      refine ⟨result, isThere, ?_⟩
      rw [← samePlace]
      exact each key value result kept found isThere
  · rintro ⟨entries, rfl, order, each⟩
    refine .mapping ?_ (fun isResource => absurd isResource other) (fun key value _ found => ?_)
      fun key value result _ found isThere => ?_
    · rw [lasting_of_ne_resource other]
      exact order
    · obtain ⟨result, isThere, _⟩ := each key value found
      rw [isThere]
      rfl
    · obtain ⟨same, isSame, survives⟩ := each key value found
      rw [isThere] at isSame
      cases isSame
      rw [samePlace]
      exact survives

/-- Every value is kept in itself. -/
theorem Survives.refl {place : Place} (other : place ≠ .resource) :
    (value : Value) → Survives place value value
  | .scalar _ => .same place rfl
  | .list _ => .same place rfl
  | .set _ => .same place rfl
  | .pair _ _ => .same place rfl
  | .map entries => by
    refine (survives_map_iff other).mpr ⟨entries, rfl, .refl _, fun key value found => ?_⟩
    have smaller : sizeOf value < sizeOf entries := Entries.sizeOf_lt_of_find? found
    exact ⟨value, found, Survives.refl (below_content_ne key) value⟩
termination_by value => sizeOf value

theorem Covers.refl (entries : Entries) : Covers entries entries where
  order := .refl _
  each := fun key value found => ⟨value, found, Survives.refl (below_content_ne key) value⟩

/-- What is kept twice is kept. -/
theorem Survives.trans {middle : Value} (other : place ≠ .resource)
    (first : Survives place value middle) (second : Survives place middle result) :
    Survives place value result := by
  induction first generalizing result with
  | nothing => exact .nothing _ _
  | same => exact second
  | joined items further =>
    cases second with
    | same => exact .joined items further
    | joined _ last =>
      rw [List.append_assoc]
      exact .joined items (further ++ last)
  | @mapping place own entries order _ there each ih =>
    obtain ⟨final, rfl, covers⟩ := (survives_map_iff other).mp second
    rw [lasting_of_ne_resource other] at order
    refine (survives_map_iff other).mpr ⟨final, rfl, order.trans covers.order, ?_⟩
    intro key value found
    have kept := loses_of_ne_resource other key
    obtain ⟨middle, isMiddle⟩ := Option.isSome_iff_exists.mp (there key value kept found)
    obtain ⟨result, isResult, further⟩ := covers.each key middle isMiddle
    refine ⟨result, isResult, ?_⟩
    rw [below_of_ne_resource (by decide), ← below_of_ne_resource other] at further ⊢
    exact ih key value middle kept found isMiddle (below_ne_resource other key) further

theorem Covers.trans {middle : Entries} (first : Covers own middle)
    (second : Covers middle entries) : Covers own entries where
  order := first.order.trans second.order
  each := fun key value found => by
    obtain ⟨middle, isMiddle, kept⟩ := first.each key value found
    obtain ⟨result, isResult, further⟩ := second.each key middle isMiddle
    exact ⟨result, isResult, kept.trans (below_content_ne key) further⟩

/-- Further entries at the end change nothing. -/
theorem Covers.append (entries further : Entries) : Covers entries (entries ++ further) where
  order := by
    rw [List.map_append]
    exact List.sublist_append_left _ _
  each := fun key value found => by
    refine ⟨value, ?_, Survives.refl (below_content_ne key) value⟩
    rw [Entries.find?_append, found]
    rfl

/-- Alike keys stand for the same. -/
theorem below_congr {first : Scalar} (isKey : first.alike key = true) :
    place.below first = place.below key := by
  unfold Place.below isResourceKey
  rw [resourceKey?_of_alike isKey, isTraitsKey_of_alike isKey]

/-- **A value that keeps the one in whose place it is put** keeps the entries. -/
theorem Covers.put {old : Value} (found : entries.find? key = some old)
    (kept : Survives (Place.content.below key) old value) :
    Covers entries (entries.put key value) where
  order := (Entries.keys_put_of_found found).symm ▸ .refl _
  each := fun wanted explicit isThere => by
    rcases Entries.find?_put_of_found found value wanted with
      same | ⟨was, is, first, isKey, isWanted⟩
    · exact ⟨explicit, same.trans isThere, Survives.refl (below_content_ne wanted) explicit⟩
    · rw [was, Option.some.injEq] at isThere
      subst isThere
      refine ⟨value, is, ?_⟩
      rw [← below_congr isWanted, below_congr isKey]
      exact kept

/-! ### Merging -/

/-- A scalar is kept unless it is nothing. -/
theorem survives_merge_scalar (place : Place) (traits : Bool) (s : Scalar) (inherited : Value) :
    Survives place (.scalar s) (merge traits (.scalar s) inherited) := by
  cases s with
  | null => exact .nothing place _
  | _ => cases inherited <;> exact .same place rfl

mutual

/-- **A value is kept when content is merged into it**; lists are joined in the place of references
only. -/
theorem survives_merge {place : Place} (other : place ≠ .resource) {traits : Bool}
    (references : traits = true → place = .references) (explicit : Value) :
    (inherited : Value) → Survives place explicit (merge traits explicit inherited)
  | .map entries => by
    cases explicit with
    | map own =>
      unfold merge
      exact (survives_map_iff other).mpr ⟨_, rfl, covers_mergeEntries own entries⟩
    | scalar s => exact survives_merge_scalar place traits s _
    | _ =>
      unfold merge
      exact .same place rfl
  | .list items => by
    cases explicit with
    | list own =>
      unfold merge
      cases traits with
      | false => exact .same place rfl
      | true =>
        rw [references rfl]
        exact .joined own _
    | scalar s => exact survives_merge_scalar place traits s _
    | _ =>
      unfold merge
      exact Survives.refl other _
  | .scalar _ | .set _ | .pair _ _ => by
    unfold merge
    split
    · exact .nothing place _
    · exact Survives.refl other _

/-- **The entries of a mapping are kept when entries are merged into them.** -/
theorem covers_mergeEntries (own : Entries) : (inherited : List (Scalar × Value)) →
    Covers own (mergeEntries own inherited)
  | [] => Covers.refl own
  | (key, value) :: rest => by
    unfold mergeEntries merge.mergeEntries
    cases found : own.find? key with
    | none => exact (Covers.append own _).trans (covers_mergeEntries _ rest)
    | some explicit =>
      have isReferences : isTraitsKey key = true → Place.content.below key = .references := by
        intro isTraits
        rw [below_of_ne_resource (by decide), if_pos isTraits]
      have kept := survives_merge (below_content_ne key) isReferences explicit value
      exact (Covers.put found kept).trans (covers_mergeEntries _ rest)

end

/-! ### What stands at a path -/

/-- **What is kept stands at the path at which it stood**, unless a resource loses it. -/
theorem Survives.at? {explicit : Value} {path : List Scalar}
    (survives : Survives place explicit result) (found : explicit.at? path = some value)
    (stays : ∀ above key below, path = above ++ key :: below →
      (place.along above).loses key = false) :
    ∃ kept, result.at? path = some kept ∧ Survives (place.along path) value kept := by
  induction path generalizing place explicit result with
  | nil =>
    rw [Value.at?_nil, Option.some.injEq] at found
    subst found
    exact ⟨result, Value.at?_nil result, survives⟩
  | cons key rest ih =>
    obtain ⟨own, child, rfl, isChild, inside⟩ := Value.at?_cons_eq_some_iff.mp found
    cases survives with
    | same _ plain => cases plain
    | @mapping _ _ entries _ _ there each =>
      have kept : place.loses key = false := stays [] key rest rfl
      obtain ⟨became, isThere⟩ := Option.isSome_iff_exists.mp (there key child kept isChild)
      have survives := each key child became kept isChild isThere
      obtain ⟨last, isLast, survives⟩ := ih survives inside fun above key' below same =>
        stays (key :: above) key' below (by rw [same]; rfl)
      exact ⟨last, Value.at?_cons_eq_some_iff.mpr ⟨entries, became, rfl, isThere, isLast⟩, survives⟩

end RamlInterfaces.Raml
