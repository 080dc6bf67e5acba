/-
**What merging keeps.**

Merging takes every value from one of its two sides, or merges the two values under one key.  So a
property of the entries of both sides that merging single values keeps holds of all merged entries.

* `string?_of_alike`: alike keys are the same string, if they are strings at all;
* `resourceKey?_eq_some_iff`, `verbKey?_eq_some_iff`: what the keys of resources and methods are;
* `Everywhere`: a property of all entries, which may look at their keys as strings;
* `everywhere_namedTemplates`: what holds of a declaration holds of the templates in it;
* `merge_keeps`: what holds of both sides holds of a merged value, if lists and mappings keep it;
* `Everywhere.mergeEntries`: **a property of all entries is kept by merging**.
-/

import RamlInterfaces.Raml.Key
import RamlInterfaces.Raml.Merge
import RamlInterfaces.Raml.Template

namespace RamlInterfaces.Raml

/-- Alike scalars are the same string, if they are strings at all. -/
theorem string?_of_alike {first second : Scalar} (same : first.alike second = true) :
    first.string? = second.string? := by
  unfold Scalar.alike at same
  split at same
  · rename_i a b left right
    have none_of_quantity {s : Scalar} {count : Scalar.Quantity}
        (counts : s.quantity? = some count) : s.string? = none := by
      cases s <;> first | rfl | cases counts
    rw [none_of_quantity left, none_of_quantity right]
  · split at same
    · rename_i a b left right
      rw [left, right, beq_iff_eq.mp same]
    · rename_i left right
      rw [left, right]
    · cases same
  · cases same

section Keys

variable {key other : Scalar}

/-- **The key of a resource is its relative path**, which starts with a slash. -/
theorem resourceKey?_eq_some_iff {relative : String} : resourceKey? key = some relative ↔
    key.string? = some relative ∧ relative.toList.head? = some '/' := by
  unfold resourceKey?
  rw [Option.filter_eq_some_iff, beq_iff_eq]

theorem isResourceKey_iff :
    isResourceKey key = true ↔ ∃ relative, resourceKey? key = some relative :=
  Option.isSome_iff_exists

theorem isResourceKey_eq_false_iff : isResourceKey key = false ↔ resourceKey? key = none :=
  Option.isSome_eq_false_iff.trans Option.isNone_iff_eq_none

/-- **The key of a method is the word of its verb.** -/
theorem verbKey?_eq_some_iff {verb : Verb} :
    verbKey? key = some verb ↔ key.string? = some verb.word := by
  unfold verbKey?
  rw [Option.bind_eq_some_iff]
  constructor
  · rintro ⟨word, named, isWord⟩
    rw [named, Verb.ofWord?_eq_some_iff.mp isWord]
  · intro named
    exact ⟨verb.word, named, Verb.ofWord?_eq_some_iff.mpr rfl⟩

/-- The key of references to traits is one name. -/
theorem isTraitsKey_of_string? {name : String} (named : key.string? = some name) :
    isTraitsKey key = (name == "is") := by
  unfold isTraitsKey
  rw [named]
  rfl

theorem resourceKey?_of_alike (same : key.alike other = true) :
    resourceKey? key = resourceKey? other := by
  unfold resourceKey?
  rw [string?_of_alike same]

theorem verbKey?_of_alike (same : key.alike other = true) : verbKey? key = verbKey? other := by
  unfold verbKey?
  rw [string?_of_alike same]

theorem isTraitsKey_of_alike (same : key.alike other = true) :
    isTraitsKey key = isTraitsKey other := by
  unfold isTraitsKey
  rw [string?_of_alike same]

end Keys

/-- The property holds of all entries; it may look at the string that a key is. -/
def Everywhere (fits : Option String → Value → Prop) (entries : Entries) : Prop :=
  ∀ entry ∈ entries, fits entry.1.string? entry.2

namespace Everywhere

variable {fits : Option String → Value → Prop} {entries : Entries} {key : Scalar} {value : Value}

theorem nil : Everywhere fits [] := fun _ member => absurd member List.not_mem_nil

theorem cons (first : fits key.string? value) (rest : Everywhere fits entries) :
    Everywhere fits ((key, value) :: entries) := by
  intro entry member
  rcases List.mem_cons.mp member with rfl | further
  · exact first
  · exact rest entry further

theorem filter (all : Everywhere fits entries) (keep : Scalar × Value → Bool) :
    Everywhere fits (entries.filter keep) :=
  fun entry member => all entry (List.mem_filter.mp member).1

theorem find? (all : Everywhere fits entries) (found : entries.find? key = some value) :
    fits key.string? value := by
  obtain ⟨entry, member, same, rfl⟩ := Entries.exists_of_find? found
  rw [← string?_of_alike same]
  exact all entry member

/-- The value under a key that may be missing. -/
theorem get (all : Everywhere fits entries) {name : String} (missing : fits (some name) .null) :
    fits (some name) (entries.get name) := by
  unfold Entries.get
  cases found : entries.find? (.text name) with
  | none => exact missing
  | some value => exact all.find? found

theorem append (all : Everywhere fits entries) (last : fits key.string? value) :
    Everywhere fits (entries ++ [(key, value)]) := by
  intro entry member
  rcases List.mem_append.mp member with before | here
  · exact all entry before
  · rw [List.mem_singleton.mp here]
    exact last

theorem put (all : Everywhere fits entries) (here : fits key.string? value) :
    Everywhere fits (entries.put key value) := by
  induction entries with
  | nil => exact cons here nil
  | cons entry rest ih =>
    obtain ⟨first, old⟩ := entry
    have kept : Everywhere fits rest :=
      fun other member => all other (List.mem_cons_of_mem _ member)
    unfold Entries.put
    by_cases same : first.alike key = true
    · rw [if_pos same]
      refine cons ?_ kept
      rw [string?_of_alike same]
      exact here
    · rw [if_neg same]
      exact cons (all (first, old) List.mem_cons_self) (ih kept)

theorem putAll {further : Entries} (all : Everywhere fits entries)
    (isFurther : Everywhere fits further) : Everywhere fits (entries.putAll further) := by
  unfold Entries.putAll
  induction further generalizing entries with
  | nil => exact all
  | cons entry rest ih =>
    have here : Everywhere fits (entries.put entry.1 entry.2) :=
      all.put (isFurther entry List.mem_cons_self)
    exact ih here fun other member => isFurther other (List.mem_cons_of_mem _ member)

/-- The entries of a written sequence have a property that what is written has. -/
theorem ofList {written : List (Scalar × Value)} (all : Everywhere fits written) :
    Everywhere fits (Entries.ofList written) := by
  have walk (further : List (Scalar × Value)) (sofar : Entries)
      (isFurther : Everywhere fits further) (isSofar : Everywhere fits sofar) :
      Everywhere fits (further.foldl (fun sofar entry =>
        if entry.1.isNan then sofar ++ [entry] else sofar.put entry.1 entry.2) sofar) := by
    induction further generalizing sofar with
    | nil => exact isSofar
    | cons entry rest ih =>
      have here := isFurther entry List.mem_cons_self
      refine ih _ (fun other member => isFurther other (List.mem_cons_of_mem _ member)) ?_
      show Everywhere fits
        (if entry.1.isNan then sofar ++ [entry] else sofar.put entry.1 entry.2)
      split
      · exact isSofar.append here
      · exact isSofar.put here
  exact walk written [] all nil

end Everywhere

/-- What holds of a declaration, and of everything in what it holds of, holds of the templates that
it gives. -/
theorem everywhere_namedTemplates {holds : Value → Prop} {value : Value}
    (maps : ∀ entries, holds (.map entries) → Everywhere (fun _ => holds) entries)
    (lists : ∀ items, holds (.list items) → ∀ item ∈ items, holds item) (declared : holds value) :
    Everywhere (fun _ => holds) (namedTemplates value) := by
  cases value with
  | map entries => exact maps entries declared
  | list items =>
    have walk (found : Entries) (isFound : Everywhere (fun _ => holds) found)
        (each : ∀ item ∈ items, holds item) : Everywhere (fun _ => holds) (items.foldl
          (fun found item => found.putAll (item.entries?.getD [])) found) := by
      clear declared
      induction items generalizing found with
      | nil => exact isFound
      | cons item rest ih =>
        have here : Everywhere (fun _ => holds) (item.entries?.getD []) := by
          have isItem := each item List.mem_cons_self
          cases item with
          | map entries => exact maps entries isItem
          | _ => exact Everywhere.nil
        exact ih _ (isFound.putAll here) fun other member =>
          each other (List.mem_cons_of_mem _ member)
    exact walk [] Everywhere.nil (lists items declared)
  | _ => exact Everywhere.nil

/-- What holds of both sides holds of the merged value, if the merging of two mappings and the
joining of two lists keep it. -/
theorem merge_keeps {holds : Value → Prop} {traits : Bool} {explicit inherited : Value}
    (isExplicit : holds explicit) (isInherited : holds inherited)
    (maps : ∀ own entries, explicit = .map own → inherited = .map entries →
      holds (.map (mergeEntries own entries)))
    (lists : traits = true → ∀ own items, explicit = .list own → inherited = .list items →
      holds (.list (joinReferences own items))) : holds (merge traits explicit inherited) := by
  unfold merge
  split
  · rename_i entries
    split
    · exact isInherited
    · rename_i own
      exact maps own entries rfl rfl
    · exact isExplicit
  · rename_i items
    split
    · exact isInherited
    · rename_i own
      split
      · rename_i isTraits
        exact lists isTraits own items rfl rfl
      · exact isExplicit
    · exact isExplicit
  · split
    · exact isInherited
    · exact isExplicit

/-- **A property of all entries is kept by merging**, if the merging of the values under one key
keeps it. -/
theorem Everywhere.mergeEntries {fits : Option String → Value → Prop} {own inherited : Entries}
    (isOwn : Everywhere fits own) (isInherited : Everywhere fits inherited)
    (each : ∀ entry ∈ inherited, ∀ explicit, fits entry.1.string? explicit →
      fits entry.1.string? (merge (isTraitsKey entry.1) explicit entry.2)) :
    Everywhere fits (Raml.mergeEntries own inherited) := by
  induction inherited generalizing own with
  | nil => exact isOwn
  | cons entry rest ih =>
    obtain ⟨key, value⟩ := entry
    have here : fits key.string? value := isInherited (key, value) List.mem_cons_self
    have kept : Everywhere fits rest :=
      fun other member => isInherited other (List.mem_cons_of_mem _ member)
    have further := fun entry member => each entry (List.mem_cons_of_mem _ member)
    unfold Raml.mergeEntries merge.mergeEntries
    cases found : own.find? key with
    | none => exact ih (isOwn.append here) kept further
    | some explicit =>
      have merged := each (key, value) List.mem_cons_self explicit (isOwn.find? found)
      exact ih (isOwn.put merged) kept further

end RamlInterfaces.Raml
