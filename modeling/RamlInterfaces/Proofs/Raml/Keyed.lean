/-
**Mappings in which no key comes twice.**

A written mapping has a key once, save the number that is none, which is a key of its own each time.
Filling the placeholders of a template puts its entries together anew, so that keys which become
alike do not come twice either.

* `Distinct`, `Keyed`: no key of the entries, and of any mapping in a value, comes twice;
* `find?_of_mem`, `find?_put_other`, `alike_self`: an entry is found under its key, a value put
  under another key changes nothing, and a value is alike itself;
* `distinct_ofList`, `ofList_of_distinct`: entries that are put together have no key twice, and
  those that have none stay as they are;
* `DistinctButNan`, `distinctButNan_ofList`, `ofList_of_distinctButNan`: the same where the number
  that is none may come again;
* `keyed_substitute`: **a filled value has no key twice**;
* `keyed_templateBody`: **nor has the content of a template**.
-/

import Mathlib.Data.List.Induction
import RamlInterfaces.Proofs.Raml.Application
import RamlInterfaces.Proofs.Raml.Merge
import RamlInterfaces.Proofs.Value.Entries

namespace RamlInterfaces

namespace Value

/-- No mapping in the value has two keys that are alike. -/
def isKeyed : Value → Bool
  | .scalar _ | .set _ => true
  | .list items => allKeyed items
  | .map entries => entriesKeyed entries
  | .pair key value => isKeyed key && isKeyed value
where
  /-- No mapping in the values has two keys that are alike. -/
  allKeyed : List Value → Bool
    | [] => true
    | item :: rest => isKeyed item && allKeyed rest
  /-- No two keys of the entries are alike, and no mapping in their values has two such keys. -/
  entriesKeyed : List (Scalar × Value) → Bool
    | [] => true
    | entry :: rest =>
      rest.all (fun other => !entry.1.alike other.1) && isKeyed entry.2 && entriesKeyed rest

end Value

namespace Raml

variable {entries written : Entries} {key : Scalar} {value filled : Value} {arguments : Entries}

/-- No key of the entries comes twice. -/
def Distinct (entries : Entries) : Prop :=
  (entries.map Prod.fst).Pairwise fun first second => first.alike second = false

/-- No mapping in the value has a key twice. -/
abbrev Keyed (value : Value) : Prop := value.isKeyed = true

theorem keyed_list_iff {items : List Value} : Keyed (.list items) ↔ ∀ item ∈ items, Keyed item := by
  have each : Value.isKeyed.allKeyed items = true ↔ ∀ item ∈ items, Keyed item := by
    induction items with
    | nil => exact iff_of_true rfl fun item member => absurd member List.not_mem_nil
    | cons item rest ih =>
      unfold Value.isKeyed.allKeyed
      rw [Bool.and_eq_true, ih, List.forall_mem_cons]
  exact each

theorem keyed_map_iff :
    Keyed (.map entries) ↔ Distinct entries ∧ Everywhere (fun _ => Keyed) entries := by
  have each : Value.isKeyed.entriesKeyed entries = true ↔
      Distinct entries ∧ Everywhere (fun _ => Keyed) entries := by
    induction entries with
    | nil => exact iff_of_true rfl ⟨.nil, Everywhere.nil⟩
    | cons entry rest ih =>
      unfold Value.isKeyed.entriesKeyed Distinct
      rw [Bool.and_eq_true, Bool.and_eq_true, ih, List.map_cons, List.pairwise_cons,
        List.forall_mem_map, List.all_eq_true]
      simp only [Bool.not_eq_true']
      constructor
      · rintro ⟨⟨apart, here⟩, distinct, all⟩
        exact ⟨⟨apart, distinct⟩, Everywhere.cons here all⟩
      · rintro ⟨⟨apart, distinct⟩, all⟩
        exact ⟨⟨apart, all entry List.mem_cons_self⟩, distinct,
          fun other member => all other (List.mem_cons_of_mem _ member)⟩
  exact each

/-! ### Looking up -/

/-- An entry is found under its key where no key comes twice. -/
theorem find?_of_mem (distinct : Distinct entries) (member : (key, value) ∈ entries) :
    entries.find? key = some value := by
  induction entries with
  | nil => cases member
  | cons entry rest ih =>
    obtain ⟨first, here⟩ := entry
    obtain ⟨apart, others⟩ := List.pairwise_cons.mp distinct
    rw [Entries.find?_cons]
    rcases List.mem_cons.mp member with same | further
    · cases same
      rw [if_pos (Scalar.alike_refl key)]
    · have other : first.alike key = false := apart key (List.mem_map_of_mem further)
      rw [if_neg (Bool.eq_false_iff.mp other), ih others further]

/-- A value that is put under another key changes nothing. -/
theorem find?_put_other {name : String} (other : key.string? ≠ some name) (entries : Entries)
    (value : Value) :
    (entries.put key value).find? (.text name) = entries.find? (.text name) := by
  cases found : entries.find? key with
  | none =>
    have unlike : ¬ key.alike (.text name) = true :=
      fun same => other (Scalar.string?_of_alike_text same)
    rw [Entries.put_of_missing found, Entries.find?_append, Entries.find?_cons, if_neg unlike]
    exact Option.or_none
  | some old =>
    rcases Entries.find?_put_of_found found value (.text name) with
      same | ⟨-, -, first, isKey, isName⟩
    · exact same
    · have named := Scalar.string?_of_alike_text isName
      rw [string?_of_alike isKey] at named
      exact absurd named other

mutual

/-- **A value in which no key comes twice is alike itself.** -/
theorem alike_self : (value : Value) → Keyed value → value.alike value = true
  | .scalar s, _ => Scalar.alike_refl s
  | .list items, keyed => alikeLists_self items (keyed_list_iff.mp keyed)
  | .map entries, keyed => by
    obtain ⟨distinct, all⟩ := keyed_map_iff.mp keyed
    unfold Value.alike
    rw [beq_self_eq_true, Bool.true_and]
    refine alikeEntries_self entries entries all fun (key, value) member => ?_
    exact find?_of_mem distinct member
  | .set members, _ => by
    unfold Value.alike
    rw [beq_self_eq_true, Bool.true_and]
    exact List.all_eq_true.mpr fun member isMember =>
      List.any_eq_true.mpr ⟨member, isMember, Scalar.alike_refl member⟩
  | .pair key value, keyed => by
    obtain ⟨isKey, isValue⟩ := Bool.and_eq_true_iff.mp keyed
    exact Bool.and_eq_true_iff.mpr ⟨alike_self key isKey, alike_self value isValue⟩

theorem alikeLists_self : (items : List Value) → (∀ item ∈ items, Keyed item) →
    Value.alike.alikeLists items items = true
  | [], _ => rfl
  | item :: rest, each => by
    obtain ⟨here, further⟩ := List.forall_mem_cons.mp each
    exact Bool.and_eq_true_iff.mpr ⟨alike_self item here, alikeLists_self rest further⟩

theorem alikeEntries_self : (further : List (Scalar × Value)) → (entries : Entries) →
    Everywhere (fun _ => Keyed) further →
      (∀ entry ∈ further, entries.find? entry.1 = some entry.2) →
        Value.alike.alikeEntries further entries = true
  | [], _, _, _ => rfl
  | (key, value) :: rest, entries, all, found => by
    obtain ⟨here, others⟩ := List.forall_mem_cons.mp found
    unfold Value.alike.alikeEntries
    simp only [here]
    have isValue : Keyed value := all (key, value) List.mem_cons_self
    refine Bool.and_eq_true_iff.mpr ⟨alike_self value isValue, ?_⟩
    exact alikeEntries_self rest entries
      (fun other member => all other (List.mem_cons_of_mem _ member)) others

end

/-! ### Putting entries together -/

theorem eq_nan_of_isNan (isNan : key.isNan = true) : key = .float .nan := by
  unfold Scalar.isNan at isNan
  split at isNan
  · rfl
  · cases isNan

/-- Only the number that is none is alike it. -/
theorem isNan_of_alike {first : Scalar} (isNan : key.isNan = true)
    (same : first.alike key = true) : first.isNan = true := by
  cases eq_nan_of_isNan isNan
  have counts : first.quantity? = some (.other .nan) := by
    unfold Scalar.alike at same
    rw [show (Scalar.float .nan).quantity? = some (.other .nan) from rfl] at same
    cases count : first.quantity? with
    | some a =>
      rw [count] at same
      rw [beq_iff_eq.mp same]
    | none =>
      rw [count] at same
      cases same
  cases first with
  | float number =>
    simp only [Scalar.quantity?] at counts
    split at counts
    · cases counts
    · cases counts
      rfl
  | _ => cases counts

theorem distinct_concat_iff : Distinct (entries ++ [(key, value)]) ↔
    Distinct entries ∧ ∀ entry ∈ entries, entry.1.alike key = false := by
  unfold Distinct
  rw [List.map_append, List.map_singleton, List.pairwise_append]
  simp

/-- A value is put under the key that it is found under, or behind all others. -/
theorem keys_put (entries : Entries) (key : Scalar) (value : Value) :
    (entries.put key value).map Prod.fst = entries.map Prod.fst ∨
      entries.put key value = entries ++ [(key, value)] ∧
        ∀ entry ∈ entries, entry.1.alike key = false := by
  cases found : entries.find? key with
  | none => exact .inr ⟨Entries.put_of_missing found, Entries.alike_eq_false_of_missing found⟩
  | some old => exact .inl (Entries.keys_put_of_found found)

theorem Distinct.put (distinct : Distinct entries) (key : Scalar) (value : Value) :
    Distinct (entries.put key value) := by
  rcases keys_put entries key value with same | ⟨added, missing⟩
  · unfold Distinct
    rw [same]
    exact distinct
  · rw [added]
    exact distinct_concat_iff.mpr ⟨distinct, missing⟩

/-- One more entry that is put together with others. -/
theorem ofList_concat : Entries.ofList (written ++ [(key, value)]) =
    if key.isNan then Entries.ofList written ++ [(key, value)]
    else (Entries.ofList written).put key value := by
  unfold Entries.ofList
  rw [List.foldl_append]
  rfl

/-- Entries that are put together have no other keys. -/
theorem mem_keys_of_ofList {first : Scalar}
    (member : first ∈ (Entries.ofList written).map Prod.fst) : first ∈ written.map Prod.fst := by
  induction written using List.reverseRecOn with
  | nil => exact member
  | append_singleton written entry ih =>
    obtain ⟨key, value⟩ := entry
    rw [List.map_append, List.map_singleton, List.mem_append, List.mem_singleton]
    rw [ofList_concat] at member
    split at member
    · rw [List.map_append, List.map_singleton, List.mem_append, List.mem_singleton] at member
      exact member.imp_left ih
    · rcases keys_put (Entries.ofList written) key value with same | ⟨added, -⟩
      · rw [same] at member
        exact .inl (ih member)
      · rw [added, List.map_append, List.map_singleton, List.mem_append,
          List.mem_singleton] at member
        exact member.imp_left ih

/-- The number that is none comes at most once among the keys. -/
def NanOnce (entries : Entries) : Prop :=
  (entries.map fun entry => entry.1.isNan).Pairwise fun first second =>
    first = true → second = false

theorem Distinct.nanOnce (distinct : Distinct entries) : NanOnce entries := by
  refine List.pairwise_map.mpr ((List.pairwise_map.mp distinct).imp fun {first second} apart => ?_)
  refine fun isFirst => Bool.eq_false_iff.mpr fun isSecond => ?_
  rw [eq_nan_of_isNan isFirst, eq_nan_of_isNan isSecond, Scalar.alike_refl] at apart
  cases apart

theorem nanOnce_concat_iff : NanOnce (entries ++ [(key, value)]) ↔
    NanOnce entries ∧ ∀ entry ∈ entries, entry.1.isNan = true → key.isNan = false := by
  unfold NanOnce
  rw [List.map_append, List.map_singleton, List.pairwise_append]
  simp

/-- **Entries that are put together have no key twice**, if the number that is none comes at most
once. -/
theorem distinct_ofList (once : NanOnce written) : Distinct (Entries.ofList written) := by
  induction written using List.reverseRecOn with
  | nil => exact .nil
  | append_singleton written entry ih =>
    obtain ⟨key, value⟩ := entry
    obtain ⟨before, last⟩ := nanOnce_concat_iff.mp once
    rw [ofList_concat]
    by_cases isNan : key.isNan = true
    · rw [if_pos isNan]
      refine distinct_concat_iff.mpr ⟨ih before, fun entry member => ?_⟩
      refine Bool.eq_false_iff.mpr fun same => ?_
      obtain ⟨first, isFirst, isKey⟩ :=
        List.mem_map.mp (mem_keys_of_ofList (List.mem_map_of_mem member))
      rw [last first isFirst (isKey ▸ isNan_of_alike isNan same)] at isNan
      cases isNan
    · rw [if_neg isNan]
      exact (ih before).put key value

/-- No key of the entries comes twice but the number that is none. -/
def DistinctButNan (entries : Entries) : Prop :=
  (entries.map Prod.fst).Pairwise fun first second =>
    second.isNan = false → first.alike second = false

theorem Distinct.butNan (distinct : Distinct entries) : DistinctButNan entries := by
  refine List.Pairwise.imp ?_ distinct
  intro first second other _
  exact other

theorem distinctButNan_concat_iff : DistinctButNan (entries ++ [(key, value)]) ↔
    DistinctButNan entries ∧
      (key.isNan = false → ∀ entry ∈ entries, entry.1.alike key = false) := by
  unfold DistinctButNan
  rw [List.map_append, List.map_singleton, List.pairwise_append]
  simp only [List.pairwise_singleton, List.mem_singleton, forall_eq, List.forall_mem_map, true_and]
  exact and_congr_right fun _ => ⟨fun all plain entry member => all entry member plain,
    fun all entry member plain => all plain entry member⟩

/-- Entries that are put together have only that key more than once. -/
theorem distinctButNan_ofList (written : List (Scalar × Value)) :
    DistinctButNan (Entries.ofList written) := by
  induction written using List.reverseRecOn with
  | nil => exact .nil
  | append_singleton written entry ih =>
    obtain ⟨key, value⟩ := entry
    rw [ofList_concat]
    by_cases isNan : key.isNan = true
    · rw [if_pos isNan]
      exact distinctButNan_concat_iff.mpr
        ⟨ih, fun plain => absurd isNan (Bool.eq_false_iff.mp plain)⟩
    · rw [if_neg isNan]
      rcases keys_put (Entries.ofList written) key value with same | ⟨added, missing⟩
      · unfold DistinctButNan
        rw [same]
        exact ih
      · rw [added]
        exact distinctButNan_concat_iff.mpr ⟨ih, fun _ => missing⟩

/-- Such entries are put together as they stand. -/
theorem ofList_of_distinctButNan (distinct : DistinctButNan entries) :
    Entries.ofList entries = entries := by
  induction entries using List.reverseRecOn with
  | nil => rfl
  | append_singleton entries entry ih =>
    obtain ⟨key, value⟩ := entry
    obtain ⟨before, last⟩ := distinctButNan_concat_iff.mp distinct
    rw [ofList_concat, ih before]
    by_cases isNan : key.isNan = true
    · rw [if_pos isNan]
    · have missing := Entries.find?_eq_none (last (Bool.eq_false_iff.mpr isNan))
      rw [if_neg isNan, Entries.put_of_missing missing]

/-- Entries in which no key comes twice are put together as they stand. -/
theorem ofList_of_distinct (distinct : Distinct entries) : Entries.ofList entries = entries :=
  ofList_of_distinctButNan distinct.butNan

/-! ### Filled templates -/

/-- Filling leaves the number that is none, and makes it of nothing else. -/
theorem isNan_of_substituteScalar {s filled : Scalar}
    (done : substituteScalar arguments s = .ok filled) : filled.isNan = s.isNan := by
  have fills := fillsScalar arguments s
  rw [done] at fills
  cases fills with
  | kept => rfl
  | filled string =>
    cases s with
    | text | included => rfl
    | _ => cases string

mutual

/-- **A value in which no key comes twice has none after it is filled.** -/
theorem keyed_substitute : (value : Value) → {filled : Value} → Keyed value →
    substitute arguments value = .ok filled → Keyed filled
  | .scalar s, _, _, done => by
    obtain ⟨_, _, same⟩ := bind_eq_ok_iff.mp done
    cases same
    rfl
  | .list items, _, keyed, done => by
    obtain ⟨others, each, same⟩ := bind_eq_ok_iff.mp done
    cases same
    exact keyed_list_iff.mpr (keyed_substituteItems items (keyed_list_iff.mp keyed) each)
  | .map entries, _, keyed, done => by
    obtain ⟨others, each, same⟩ := bind_eq_ok_iff.mp done
    cases same
    obtain ⟨distinct, all⟩ := keyed_map_iff.mp keyed
    obtain ⟨keys, values⟩ := keyed_substituteEntries entries all each
    refine keyed_map_iff.mpr ⟨distinct_ofList ?_, values.ofList⟩
    unfold NanOnce
    rw [keys]
    exact distinct.nanOnce
  | .set members, _, _, done => by
    cases done
    rfl
  | .pair key value, _, keyed, done => by
    cases done
    exact keyed

theorem keyed_substituteItems : (items : List Value) → {others : List Value} →
    (∀ item ∈ items, Keyed item) → substitute.substituteItems arguments items = .ok others →
      ∀ item ∈ others, Keyed item
  | [], _, _, done => by
    cases done
    exact fun item member => absurd member List.not_mem_nil
  | item :: rest, _, each, done => by
    obtain ⟨first, others, here, further, rfl⟩ := substituteItems_cons_eq_ok_iff.mp done
    obtain ⟨isItem, isRest⟩ := List.forall_mem_cons.mp each
    exact List.forall_mem_cons.mpr
      ⟨keyed_substitute item isItem here, keyed_substituteItems rest isRest further⟩

theorem keyed_substituteEntries : (entries : List (Scalar × Value)) → {others : Entries} →
    Everywhere (fun _ => Keyed) entries →
      substitute.substituteEntries arguments entries = .ok others →
        others.map (fun entry => entry.1.isNan) = entries.map (fun entry => entry.1.isNan) ∧
          Everywhere (fun _ => Keyed) others
  | [], _, _, done => by
    cases done
    exact ⟨rfl, Everywhere.nil⟩
  | (key, value) :: rest, _, all, done => by
    obtain ⟨_, _, others, isKey, isValue, further, rfl⟩ := substituteEntries_cons_eq_ok_iff.mp done
    obtain ⟨here, others⟩ := List.forall_mem_cons.mp all
    obtain ⟨keys, values⟩ := keyed_substituteEntries rest others further
    refine ⟨?_, Everywhere.cons (keyed_substitute value here isValue) values⟩
    rw [List.map_cons, List.map_cons, keys, isNan_of_substituteScalar isKey]

end

/-- **The content of a template has no key twice.** -/
theorem keyed_templateBody {template body : Entries} (keyed : Keyed (.map template))
    (done : templateBody template arguments = .ok body) : Keyed (.map body) := by
  obtain ⟨distinct, all⟩ := keyed_map_iff.mp keyed
  have shortened : Keyed (.map ((template.erase (.text "usage")).erase (.text "displayName"))) := by
    refine keyed_map_iff.mpr ⟨?_, (all.filter _).filter _⟩
    exact distinct.sublist ((List.filter_sublist.trans List.filter_sublist).map _)
  exact keyed_substitute _ shortened (templateBody_eq_ok_iff.mp done).2

/-- The templates of a declaration have no key twice, if the declaration has none. -/
theorem keyed_namedTemplates (keyed : Keyed value) :
    Everywhere (fun _ => Keyed) (namedTemplates value) :=
  everywhere_namedTemplates (fun _ keyed => (keyed_map_iff.mp keyed).2)
    (fun _ => keyed_list_iff.mp) keyed

end Raml

end RamlInterfaces
