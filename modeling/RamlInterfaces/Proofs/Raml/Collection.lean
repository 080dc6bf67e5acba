/-
**What is gathered at a path from several sources.**

A value may be merged from several sources: what a document declares, and what types bring in.
Where all of them have mappings on the way to a path, what stands there is merged from what the
sources have there.  So if merging two values there takes what each of them holds, the result holds
it too.

* `Collects`: values that may be merged, and what the merged value holds of each;
* `FitsAlong`, `HoldsAt`: a value leads to such values along a path, and holds something there;
* `Collects.fitsAlong_merge`, `Collects.holdsAt_merge_left`, `Collects.holdsAt_merge_right`:
  **merging gathers what both sides hold at a path**.
-/

import RamlInterfaces.Proofs.Raml.Absorption
import RamlInterfaces.Proofs.Raml.Explicit

namespace RamlInterfaces.Raml

/-- Values that fit stay so when they are merged, and the merged value holds what the explicit one
holds; under the key of trait references, also what the inherited one holds. -/
structure Collects (fits holds : Value → Prop) : Prop where
  nothing : fits .null
  merge : ∀ traits explicit inherited, fits explicit → fits inherited →
    fits (merge traits explicit inherited)
  keeps : ∀ traits explicit inherited, fits explicit → fits inherited → holds explicit →
    holds (Raml.merge traits explicit inherited)
  takes : ∀ explicit inherited, fits explicit → fits inherited → holds inherited →
    holds (Raml.merge true explicit inherited)

/-- The value is nothing, or leads along the path through mappings to values that fit. -/
def FitsAlong (fits : Value → Prop) : List String → Value → Prop
  | [], value => fits value
  | name :: rest, value => value = .null ∨ ∃ entries, value = .map entries ∧
    Everywhere (fun key child => key = some name → FitsAlong fits rest child) entries

/-- A member of a mapping fits along the rest of a path, if it stands under its first name. -/
def FitsMember (fits : Value → Prop) (name : String) (rest : List String) (key : Option String)
    (child : Value) : Prop := key = some name → FitsAlong fits rest child

/-- The value holds something at the path. -/
def HoldsAt (holds : Value → Prop) (path : List String) (value : Value) : Prop :=
  ∃ inner, value.at? (path.map .text) = some inner ∧ holds inner

/-- The last name of the path is the key of trait references; `traits` says so of an empty path. -/
def endsInReferences (traits : Bool) : List String → Bool
  | [] => traits
  | name :: rest => endsInReferences (name == "is") rest

variable {fits holds : Value → Prop} {traits : Bool} {explicit inherited value child : Value}
  {own entries : Entries} {name : String} {rest path : List String} {key : Scalar}

theorem endsInReferences_concat (traits : Bool) (front : List String) :
    endsInReferences traits (front ++ ["is"]) = true := by
  induction front generalizing traits with
  | nil => rfl
  | cons name rest ih => exact ih (name == "is")

theorem fitsAlong_cons_iff : FitsAlong fits (name :: rest) value ↔ value = .null ∨
    ∃ entries, value = .map entries ∧ Everywhere (FitsMember fits name rest) entries := Iff.rfl

theorem fitsAlong_map_iff : FitsAlong fits (name :: rest) (.map entries) ↔
    Everywhere (FitsMember fits name rest) entries := by
  rw [fitsAlong_cons_iff]
  constructor
  · rintro (same | ⟨others, same, all⟩)
    · cases same
    · cases same
      exact all
  · exact fun all => .inr ⟨entries, rfl, all⟩

theorem holdsAt_map_iff : HoldsAt holds (name :: rest) (.map entries) ↔
    ∃ child, entries.find? (.text name) = some child ∧ HoldsAt holds rest child := by
  unfold HoldsAt
  constructor
  · rintro ⟨inner, found, isInner⟩
    obtain ⟨others, child, same, isChild, inside⟩ := Value.at?_cons_eq_some_iff.mp found
    cases same
    exact ⟨child, isChild, inner, inside, isInner⟩
  · rintro ⟨child, isChild, inner, inside, isInner⟩
    exact ⟨inner, Value.at?_cons_eq_some_iff.mpr ⟨entries, child, rfl, isChild, inside⟩, isInner⟩

theorem exists_map_of_holdsAt (holdsAt : HoldsAt holds (name :: rest) value) :
    ∃ entries, value = .map entries := by
  obtain ⟨inner, found, -⟩ := holdsAt
  obtain ⟨entries, -, same, -, -⟩ := Value.at?_cons_eq_some_iff.mp found
  exact ⟨entries, same⟩

namespace Collects

variable (collects : Collects fits holds)

include collects

/-- **What fits along a path does so after merging.** -/
theorem fitsAlong_merge (isExplicit : FitsAlong fits path explicit)
    (isInherited : FitsAlong fits path inherited) :
    FitsAlong fits path (Raml.merge traits explicit inherited) := by
  induction path generalizing traits explicit inherited with
  | nil => exact collects.merge traits explicit inherited isExplicit isInherited
  | cons name rest ih =>
    rcases isExplicit with rfl | ⟨own, rfl, isOwn⟩
    · rw [merge_null_left]
      exact isInherited
    rcases isInherited with rfl | ⟨entries, rfl, isFurther⟩
    · rw [merge_null_right]
      exact fitsAlong_map_iff.mpr isOwn
    · refine fitsAlong_map_iff.mpr (Everywhere.mergeEntries isOwn isFurther ?_)
      exact fun entry member explicit fits named => ih (fits named) (isFurther entry member named)

/-- What is found and holds something does so after entries are merged in. -/
theorem holdsAt_mergeEntries_of_found (isOwn : FitsAlong fits rest value)
    (isFurther : Everywhere (FitsMember fits name rest) entries)
    (kept : ∀ content, FitsAlong fits rest content → ∀ value, FitsAlong fits rest value →
      HoldsAt holds rest value → HoldsAt holds rest (Raml.merge (name == "is") value content))
    (found : own.find? (.text name) = some value) (holdsAt : HoldsAt holds rest value) :
    HoldsAt holds (name :: rest) (.map (mergeEntries own entries)) := by
  let good (value : Value) : Prop := FitsAlong fits rest value ∧ HoldsAt holds rest value
  have stays (other : Scalar) (content : Value) (member : (other, content) ∈ entries)
      (same : other.string? = some name) (value : Value) (isGood : good value) :
      good (Raml.merge (isTraitsKey (.text name)) value content) := by
    have isContent := isFurther _ member same
    rw [isTraitsKey_of_string? rfl]
    exact ⟨collects.fitsAlong_merge isGood.1 isContent,
      kept content isContent value isGood.1 isGood.2⟩
  obtain ⟨result, isResult, -, isThere⟩ := find?_mergeEntries stays found ⟨isOwn, holdsAt⟩
  exact holdsAt_map_iff.mpr ⟨result, isResult, isThere⟩

/-- What is found among the inherited entries and holds something does so after they are merged
in. -/
theorem holdsAt_mergeEntries_of_inherited (isOwn : Everywhere (FitsMember fits name rest) own)
    (isFurther : Everywhere (FitsMember fits name rest) entries)
    (kept : ∀ content, FitsAlong fits rest content → ∀ value, FitsAlong fits rest value →
      HoldsAt holds rest value → HoldsAt holds rest (Raml.merge (name == "is") value content))
    (taken : ∀ content, FitsAlong fits rest content → HoldsAt holds rest content →
      ∀ value, FitsAlong fits rest value →
        HoldsAt holds rest (Raml.merge (name == "is") value content))
    (found : entries.find? (.text name) = some child) (holdsAt : HoldsAt holds rest child) :
    HoldsAt holds (name :: rest) (.map (mergeEntries own entries)) := by
  induction entries generalizing own with
  | nil => cases found
  | cons entry further ih =>
    obtain ⟨key, content⟩ := entry
    have isContent : FitsMember fits name rest key.string? content :=
      isFurther (key, content) List.mem_cons_self
    have others : Everywhere (FitsMember fits name rest) further :=
      fun other member => isFurther other (List.mem_cons_of_mem _ member)
    rw [Entries.find?_cons] at found
    unfold mergeEntries merge.mergeEntries
    by_cases isName : key.alike (.text name) = true
    · rw [if_pos isName, Option.some.injEq] at found
      subst found
      have named : key.string? = some name := Scalar.string?_of_alike_text isName
      cases isOld : own.find? key with
      | none =>
        refine collects.holdsAt_mergeEntries_of_found (isContent named) others kept ?_ holdsAt
        rw [Entries.find?_append, ← find?_of_string? named, isOld, ← find?_of_string? named,
          Entries.find?_cons, if_pos (Scalar.alike_refl key)]
        rfl
      | some old =>
        have isFitting : FitsAlong fits rest old := isOwn.find? isOld named
        have merged := taken content (isContent named) holdsAt old isFitting
        rw [← isTraitsKey_of_string? named] at merged
        refine collects.holdsAt_mergeEntries_of_found ?_ others kept ?_ merged
        · exact collects.fitsAlong_merge isFitting (isContent named)
        · rw [← find?_of_string? named, Entries.find?_put_self]
    · rw [if_neg isName] at found
      cases isOld : own.find? key with
      | none => exact ih (isOwn.append isContent) others found
      | some old =>
        refine ih (isOwn.put fun named => ?_) others found
        exact collects.fitsAlong_merge (isOwn.find? isOld named) (isContent named)

/-- **What the explicit side holds at a path, the merged value does.** -/
theorem holdsAt_merge_left (isExplicit : FitsAlong fits path explicit)
    (isInherited : FitsAlong fits path inherited) (holdsAt : HoldsAt holds path explicit) :
    HoldsAt holds path (Raml.merge traits explicit inherited) := by
  induction path generalizing traits explicit inherited with
  | nil =>
    obtain ⟨inner, same, isInner⟩ := holdsAt
    rw [List.map_nil, Value.at?_nil, Option.some.injEq] at same
    subst same
    have kept := collects.keeps traits explicit inherited isExplicit isInherited isInner
    exact ⟨_, Value.at?_nil _, kept⟩
  | cons name rest ih =>
    rcases isExplicit with rfl | ⟨own, rfl, isOwn⟩
    · obtain ⟨entries, same⟩ := exists_map_of_holdsAt holdsAt
      cases same
    rcases isInherited with rfl | ⟨entries, rfl, isFurther⟩
    · rw [merge_null_right]
      exact holdsAt
    · obtain ⟨child, found, isChild⟩ := holdsAt_map_iff.mp holdsAt
      have isFitting : FitsAlong fits rest child := Everywhere.find? isOwn found rfl
      refine collects.holdsAt_mergeEntries_of_found isFitting isFurther ?_ found isChild
      exact fun content isContent value isValue holdsAt => ih isValue isContent holdsAt

/-- **What the inherited side holds at a path to trait references, the merged value does.** -/
theorem holdsAt_merge_right (ends : endsInReferences traits path = true)
    (isExplicit : FitsAlong fits path explicit) (isInherited : FitsAlong fits path inherited)
    (holdsAt : HoldsAt holds path inherited) :
    HoldsAt holds path (Raml.merge traits explicit inherited) := by
  induction path generalizing traits explicit inherited with
  | nil =>
    obtain ⟨inner, same, isInner⟩ := holdsAt
    rw [List.map_nil, Value.at?_nil, Option.some.injEq] at same
    subst same
    cases ends
    exact ⟨_, Value.at?_nil _, collects.takes explicit inherited isExplicit isInherited isInner⟩
  | cons name rest ih =>
    rcases isExplicit with rfl | ⟨own, rfl, isOwn⟩
    · rw [merge_null_left]
      exact holdsAt
    rcases isInherited with rfl | ⟨entries, rfl, isFurther⟩
    · obtain ⟨entries, same⟩ := exists_map_of_holdsAt holdsAt
      cases same
    · obtain ⟨child, found, isChild⟩ := holdsAt_map_iff.mp holdsAt
      refine collects.holdsAt_mergeEntries_of_inherited isOwn isFurther ?_ ?_ found isChild
      · exact fun content isContent value isValue holdsAt =>
          collects.holdsAt_merge_left isValue isContent holdsAt
      · exact fun content isContent holdsAt value isValue => ih ends isValue isContent holdsAt

end Collects

end RamlInterfaces.Raml
