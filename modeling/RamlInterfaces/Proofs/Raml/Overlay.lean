/-
**Content from several sources.**

Content is merged from one source after the other, two values at a time.  What comes of all of them
can be said at once: the first value that is something wins; mappings are joined key by key, with
the keys in the order in which they first come; and lists of trait references are strung together.
Merging is not associative, since a mapping passes over what is no mapping: the values under a key
have to be taken from all mappings among the sources, also from those behind something else.

* `overlay`: what several values give together, said without merging two of them;
* `mergeEntries_eq`: what merging two mappings gives, entry by entry;
* `overlay_concat`: **a further value is merged into what the others give**;
* `foldl_merge_eq_overlay`: **values merged from left to right give their overlay**.
-/

import Mathlib.Data.List.Induction
import RamlInterfaces.Proofs.Raml.Absorption
import RamlInterfaces.Proofs.Value.Entries

namespace RamlInterfaces.Raml

/-! ### What several values give together -/

/-- The mappings among the values. -/
def mappings (values : List Value) : List Entries := values.filterMap Value.entries?

/-- The lists among the values. -/
def listings (values : List Value) : List (List Value) :=
  values.filterMap fun
    | .list items => some items
    | _ => none

/-- One of the keys is alike the given one. -/
def isKeyAmong (key : Scalar) (keys : List Scalar) : Bool := keys.any fun first => first.alike key

/-- The keys with further ones, each where it first comes. -/
def addKeys (keys further : List Scalar) : List Scalar :=
  further.foldl (fun sofar key => if isKeyAmong key sofar then sofar else sofar ++ [key]) keys

/-- The keys of the mappings in the order in which they first come. -/
def keysInOrder (sources : List Entries) : List Scalar :=
  sources.foldl (fun keys entries => addKeys keys (entries.map Prod.fst)) []

/-- The values that the mappings have under a key. -/
def valuesUnder (sources : List Entries) (key : Scalar) : List Value :=
  sources.filterMap fun entries => entries.find? key

/-- The items of the lists, without those that are there already when their list comes. -/
def stringTogether (lists : List (List Value)) : List Value :=
  lists.foldl (fun sofar items => sofar ++ items.filter fun item => !item.isAmong sofar) []

theorem sizeOf_valuesUnder (values : List Value) (key : Scalar) :
    sizeOf (valuesUnder (mappings values) key) ≤ sizeOf values ∧
      (values ≠ [] → sizeOf (valuesUnder (mappings values) key) < sizeOf values) := by
  induction values with
  | nil => exact ⟨Nat.le_refl _, fun nonempty => absurd rfl nonempty⟩
  | cons value rest ih =>
    have smaller : sizeOf (valuesUnder (mappings (value :: rest)) key) <
        sizeOf (value :: rest) := by
      rw [List.cons.sizeOf_spec]
      have others := ih.1
      cases value with
      | map entries =>
        show sizeOf (List.filterMap _ (entries :: mappings rest)) < _
        rw [List.filterMap_cons]
        cases found : Entries.find? entries key with
        | none => exact Nat.lt_of_le_of_lt others (by omega)
        | some inner =>
          have inside := Entries.sizeOf_lt_of_find? found
          have sum : sizeOf (inner :: valuesUnder (mappings rest) key) =
              1 + sizeOf inner + sizeOf (valuesUnder (mappings rest) key) := rfl
          rw [Value.map.sizeOf_spec]
          exact Nat.lt_of_le_of_lt (Nat.le_of_eq sum) (by omega)
      | _ => exact Nat.lt_of_le_of_lt others (by omega)
    exact ⟨Nat.le_of_lt smaller, fun _ => smaller⟩

/-- What the values give together: the first that is something, with what the later ones add to a
mapping, or to a list of trait references.  `traits` says that they stand under the key of these. -/
def overlay (traits : Bool) (values : List Value) : Value :=
  match _first : values.find? fun value => !value.isNull with
  | none => .null
  | some (.map _) =>
    .map ((keysInOrder (mappings values)).map fun key =>
      (key, overlay (isTraitsKey key) (valuesUnder (mappings values) key)))
  | some (.list items) => .list (if traits then stringTogether (listings values) else items)
  | some other => other
termination_by sizeOf values
decreasing_by
  refine (sizeOf_valuesUnder values key).2 fun nothing => ?_
  rw [nothing] at _first
  cases _first

/-- What the mappings give together, key by key. -/
def overlayEntries (sources : List Entries) : Entries :=
  (keysInOrder sources).map fun key => (key, overlay (isTraitsKey key) (valuesUnder sources key))

variable {values : List Value} {sources : List Entries} {entries own inherited : Entries}
  {key first : Scalar} {value : Value} {keys further : List Scalar}

section Overlay

variable (traits : Bool)

theorem overlay_of_nothing (nothing : values.find? (fun value => !value.isNull) = none) :
    overlay traits values = .null := by
  unfold overlay
  split <;> simp_all

theorem overlay_nil (traits : Bool) : overlay traits [] = .null := overlay_of_nothing traits rfl

theorem overlay_of_map (found : values.find? (fun value => !value.isNull) = some (.map entries)) :
    overlay traits values = .map (overlayEntries (mappings values)) := by
  unfold overlay
  split <;> simp_all [overlayEntries]

theorem overlay_of_list {items : List Value}
    (found : values.find? (fun value => !value.isNull) = some (.list items)) :
    overlay traits values = .list (if traits then stringTogether (listings values) else items) := by
  unfold overlay
  split <;> simp_all

theorem overlay_of_other (noMap : value.isMap = false) (noList : value.isList = false)
    (found : values.find? (fun value => !value.isNull) = some value) :
    overlay traits values = value := by
  unfold overlay
  split
  · simp_all
  · rename_i isFirst
    cases found.symm.trans isFirst
    cases noMap
  · rename_i isFirst
    cases found.symm.trans isFirst
    cases noList
  · simp_all

end Overlay

/-! ### Keys in order -/

theorem isKeyAmong_append : isKeyAmong key (keys ++ further) =
    (isKeyAmong key keys || isKeyAmong key further) := List.any_append

/-- Keys that are alike are among the same keys. -/
theorem isKeyAmong_of_alike (same : first.alike key = true) :
    isKeyAmong first keys = isKeyAmong key keys := by
  unfold isKeyAmong
  congr 1
  exact funext (Scalar.alike_congr same)

theorem addKeys_cons (keys : List Scalar) (key : Scalar) (further : List Scalar) :
    addKeys keys (key :: further) =
      addKeys (if isKeyAmong key keys then keys else keys ++ [key]) further := rfl

theorem isKeyAmong_addKeys (keys further : List Scalar) (key : Scalar) :
    isKeyAmong key (addKeys keys further) = (isKeyAmong key keys || isKeyAmong key further) := by
  induction further generalizing keys with
  | nil => exact (Bool.or_false _).symm
  | cons first rest ih =>
    have split : isKeyAmong key (first :: rest) = (first.alike key || isKeyAmong key rest) := rfl
    rw [addKeys_cons, ih, split, ← Bool.or_assoc]
    congr 1
    by_cases there : isKeyAmong first keys = true
    · rw [if_pos there]
      by_cases same : first.alike key = true
      · rw [← isKeyAmong_of_alike same, there]
        rfl
      · rw [Bool.eq_false_iff.mpr same, Bool.or_false]
    · rw [if_neg there, isKeyAmong_append]
      congr 1
      exact Bool.or_false _

/-- No key comes twice. -/
abbrev Apart (keys : List Scalar) : Prop :=
  keys.Pairwise fun first second => first.alike second = false

theorem apart_addKeys (apart : Apart keys) (further : List Scalar) :
    Apart (addKeys keys further) := by
  induction further generalizing keys with
  | nil => exact apart
  | cons first rest ih =>
    rw [addKeys_cons]
    by_cases there : isKeyAmong first keys = true
    · rw [if_pos there]
      exact ih apart
    · rw [if_neg there]
      refine ih (List.pairwise_append.mpr ⟨apart, List.pairwise_singleton _ _, ?_⟩)
      intro earlier member last isLast
      rw [List.mem_singleton.mp isLast]
      exact Bool.eq_false_iff.mpr fun same => there (List.any_eq_true.mpr ⟨earlier, member, same⟩)

/-- Of further keys in which none comes twice, those are added that are not there yet. -/
theorem addKeys_eq (apart : Apart further) (keys : List Scalar) :
    addKeys keys further = keys ++ further.filter fun key => !isKeyAmong key keys := by
  induction further generalizing keys with
  | nil => exact (List.append_nil keys).symm
  | cons first rest ih =>
    obtain ⟨here, others⟩ := List.pairwise_cons.mp apart
    rw [addKeys_cons, ih others]
    by_cases there : isKeyAmong first keys = true
    · rw [if_pos there, List.filter_cons_of_neg (by simp [there])]
    · rw [if_neg there, List.filter_cons_of_pos (by simp [there])]
      refine Eq.trans ?_ (List.append_cons keys first _).symm
      refine congrArg _ (List.filter_congr fun key member => ?_)
      have alone : isKeyAmong key [first] = false := by
        show (first.alike key || false) = false
        rw [here key member]
        rfl
      rw [isKeyAmong_append, alone, Bool.or_false]

theorem keysInOrder_concat (sources : List Entries) (entries : Entries) :
    keysInOrder (sources ++ [entries]) =
      addKeys (keysInOrder sources) (entries.map Prod.fst) := by
  unfold keysInOrder
  rw [List.foldl_append]
  rfl

theorem apart_keysInOrder (sources : List Entries) : Apart (keysInOrder sources) := by
  induction sources using List.reverseRecOn with
  | nil => exact .nil
  | append_singleton sources entries ih =>
    rw [keysInOrder_concat]
    exact apart_addKeys ih _

theorem has_eq_isKeyAmong (entries : Entries) (key : Scalar) :
    entries.has key = isKeyAmong key (entries.map Prod.fst) := by
  induction entries with
  | nil => rfl
  | cons entry rest ih =>
    obtain ⟨first, here⟩ := entry
    unfold Entries.has at ih ⊢
    rw [Entries.find?_cons]
    by_cases same : first.alike key = true
    · simp [same, isKeyAmong]
    · rw [if_neg same, ih]
      simp [same, isKeyAmong]

theorem valuesUnder_concat (sources : List Entries) (entries : Entries) (key : Scalar) :
    valuesUnder (sources ++ [entries]) key =
      valuesUnder sources key ++ (entries.find? key).toList := by
  unfold valuesUnder
  rw [List.filterMap_append]
  cases found : entries.find? key with
  | none => simp [found]
  | some value => simp [found]

/-- The mappings have no values under a key that is not among theirs. -/
theorem valuesUnder_eq_nil (missing : isKeyAmong key (keysInOrder sources) = false) :
    valuesUnder sources key = [] := by
  induction sources using List.reverseRecOn with
  | nil => rfl
  | append_singleton sources entries ih =>
    rw [keysInOrder_concat, isKeyAmong_addKeys, Bool.or_eq_false_iff] at missing
    rw [← has_eq_isKeyAmong] at missing
    rw [valuesUnder_concat, ih missing.1, Option.not_isSome_iff_eq_none.mp
      (Bool.eq_false_iff.mp missing.2)]
    rfl

/-! ### Merging two mappings -/

/-- An entry with what the inherited entries have under its key merged into it. -/
def mergeInto (inherited : Entries) (entry : Scalar × Value) : Scalar × Value :=
  match inherited.find? entry.1 with
  | some content => (entry.1, merge (isTraitsKey entry.1) entry.2 content)
  | none => entry

/-- In entries without a key twice, a value is put in the place of the one whose key is alike. -/
theorem put_eq_map (distinct : Distinct entries) (found : entries.has key = true) (value : Value) :
    entries.put key value =
      entries.map fun entry => if entry.1.alike key = true then (entry.1, value) else entry := by
  induction entries with
  | nil => cases found
  | cons entry rest ih =>
    obtain ⟨first, here⟩ := entry
    obtain ⟨apart, others⟩ := List.pairwise_cons.mp distinct
    rw [Entries.put_cons, List.map_cons]
    by_cases same : first.alike key = true
    · rw [if_pos same, if_pos same]
      refine congrArg _ ((List.map_id rest).symm.trans (List.map_congr_left fun other member => ?_))
      have different : ¬ other.1.alike key = true := by
        intro alike
        have back := Scalar.alike_trans same (Scalar.alike_symm alike)
        rw [apart other.1 (List.mem_map_of_mem member)] at back
        cases back
      rw [if_neg different]
      rfl
    · unfold Entries.has at found ih
      rw [Entries.find?_cons, if_neg same] at found
      rw [if_neg same, if_neg same, ih others found]

section Entry

variable {content : Value} {rest : Entries}

theorem mergeInto_cons_of_ne {entry : Scalar × Value} (different : ¬ key.alike entry.1 = true) :
    mergeInto ((key, content) :: rest) entry = mergeInto rest entry := by
  unfold mergeInto
  rw [Entries.find?_cons, if_neg different]

/-- Where no key comes twice, there is nothing more under the first one. -/
theorem find?_rest_eq_none (distinct : Distinct ((key, content) :: rest)) {other : Scalar}
    (same : other.alike key = true) : Entries.find? rest other = none := by
  obtain ⟨apart, -⟩ := List.pairwise_cons.mp distinct
  rw [Entries.find?_of_alike rest same]
  refine Entries.find?_eq_none fun entry member => Bool.eq_false_iff.mpr fun alike => ?_
  have back := Scalar.alike_symm alike
  rw [apart entry.1 (List.mem_map_of_mem member)] at back
  cases back

/-- The first inherited entry may be merged into its place before the others are. -/
theorem map_mergeInto_put (isOwn : Distinct own) (isInherited : Distinct ((key, content) :: rest))
    {explicit : Value} (found : own.find? key = some explicit) :
    (own.put key (merge (isTraitsKey key) explicit content)).map (mergeInto rest) =
      own.map (mergeInto ((key, content) :: rest)) := by
  rw [put_eq_map isOwn (Option.isSome_of_eq_some found), List.map_map]
  refine List.map_congr_left fun entry member => ?_
  obtain ⟨other, value⟩ := entry
  show mergeInto rest (if other.alike key = true then _ else _) = _
  by_cases same : other.alike key = true
  · have isExplicit : explicit = value := by
      rw [← Entries.find?_of_alike own same, find?_of_mem isOwn member] at found
      exact (Option.some.inj found).symm
    unfold mergeInto
    rw [if_pos same, Entries.find?_cons, if_pos (Scalar.alike_symm same)]
    simp only [find?_rest_eq_none isInherited same, isExplicit, isTraitsKey_of_alike same]
  · rw [if_neg same]
    exact (mergeInto_cons_of_ne fun alike => same (Scalar.alike_symm alike)).symm

/-- An inherited entry whose key is new takes nothing from the others, and the own entries nothing
from it. -/
theorem map_mergeInto_concat (isInherited : Distinct ((key, content) :: rest))
    (missing : own.find? key = none) : (own ++ [(key, content)]).map (mergeInto rest) =
      own.map (mergeInto ((key, content) :: rest)) ++ [(key, content)] := by
  have last : mergeInto rest (key, content) = (key, content) := by
    unfold mergeInto
    simp only [find?_rest_eq_none isInherited (Scalar.alike_refl key)]
  rw [List.map_append, List.map_singleton, last]
  congr 1
  refine List.map_congr_left fun entry member => (mergeInto_cons_of_ne fun alike => ?_).symm
  have same := Scalar.alike_symm alike
  rw [Entries.alike_eq_false_of_missing missing entry member] at same
  cases same

end Entry

/-- **Merging two mappings, entry by entry**: each own entry with what is inherited under its key,
and then the inherited ones under other keys. -/
theorem mergeEntries_eq (isOwn : Distinct own) (isInherited : Distinct inherited) :
    mergeEntries own inherited =
      own.map (mergeInto inherited) ++ inherited.filter fun entry => !own.has entry.1 := by
  induction inherited generalizing own with
  | nil =>
    show own = own.map (fun entry => entry) ++ []
    rw [List.map_id', List.append_nil]
  | cons entry rest ih =>
    obtain ⟨key, content⟩ := entry
    obtain ⟨apart, others⟩ := List.pairwise_cons.mp isInherited
    unfold mergeEntries merge.mergeEntries
    cases found : own.find? key with
    | some explicit =>
      have there : own.has key = true := Option.isSome_of_eq_some found
      have sameKeys : (own.put key (merge (isTraitsKey key) explicit content)).map Prod.fst =
          own.map Prod.fst := Entries.keys_put_of_found found
      have isPut : Distinct (own.put key (merge (isTraitsKey key) explicit content)) := by
        unfold Distinct
        rw [sameKeys]
        exact isOwn
      refine (ih isPut others).trans ?_
      rw [map_mergeInto_put isOwn isInherited found, List.filter_cons_of_neg (by simp [there])]
      refine congrArg _ (List.filter_congr fun entry _ => ?_)
      rw [has_eq_isKeyAmong, has_eq_isKeyAmong, sameKeys]
    | none =>
      have missing : own.has key = false := Option.isSome_eq_false_iff.mpr (by rw [found]; rfl)
      have isLonger : Distinct (own ++ [(key, content)]) :=
        distinct_concat_iff.mpr ⟨isOwn, Entries.alike_eq_false_of_missing found⟩
      refine (ih isLonger others).trans ?_
      rw [map_mergeInto_concat isInherited found, List.filter_cons_of_pos (by simp [missing]),
        List.append_assoc, List.singleton_append]
      refine congrArg _ (congrArg _ (List.filter_congr fun entry member => ?_))
      have other : isKeyAmong entry.1 [key] = false := by
        show (key.alike entry.1 || false) = false
        rw [apart entry.1 (List.mem_map_of_mem member)]
        rfl
      rw [has_eq_isKeyAmong, has_eq_isKeyAmong, List.map_append, isKeyAmong_append,
        List.map_singleton, other, Bool.or_false]

/-! ### One more value -/

theorem keys_overlayEntries (sources : List Entries) :
    (overlayEntries sources).map Prod.fst = keysInOrder sources := by
  unfold overlayEntries
  rw [List.map_map]
  exact List.map_id _

theorem distinct_overlayEntries (sources : List Entries) : Distinct (overlayEntries sources) := by
  unfold Distinct
  rw [keys_overlayEntries]
  exact apart_keysInOrder sources

/-- One more mapping is merged into what the others give, if so it is with every value in it. -/
theorem overlayEntries_concat (distinct : Distinct entries)
    (each : ∀ key content, (key, content) ∈ entries → ∀ traits values,
      overlay traits (values ++ [content]) = merge traits (overlay traits values) content) :
    overlayEntries (sources ++ [entries]) = mergeEntries (overlayEntries sources) entries := by
  rw [mergeEntries_eq (distinct_overlayEntries sources) distinct]
  unfold overlayEntries
  rw [keysInOrder_concat, addKeys_eq distinct, List.map_append, List.map_map]
  congr 1
  · refine List.map_congr_left fun key _ => ?_
    show (key, overlay (isTraitsKey key) (valuesUnder (sources ++ [entries]) key)) =
      mergeInto entries (key, overlay (isTraitsKey key) (valuesUnder sources key))
    unfold mergeInto
    rw [valuesUnder_concat]
    cases found : entries.find? key with
    | none => exact congrArg _ (congrArg _ (List.append_nil _))
    | some content =>
      obtain ⟨entry, member, -, same⟩ := Entries.exists_of_find? found
      exact congrArg _ (each entry.1 content (same ▸ member) (isTraitsKey key) _)
  · rw [List.filter_map, List.map_map]
    have fresh (entry : Scalar × Value) : (!(overlayEntries sources).has entry.1) =
        ((fun key => !isKeyAmong key (keysInOrder sources)) ∘ Prod.fst) entry := by
      rw [has_eq_isKeyAmong, keys_overlayEntries]
      rfl
    unfold overlayEntries at fresh
    rw [List.filter_congr fun entry _ => fresh entry]
    refine (List.map_congr_left fun entry member => ?_).trans (List.map_id _)
    obtain ⟨isEntry, isFresh⟩ := List.mem_filter.mp member
    obtain ⟨key, content⟩ := entry
    have nothing := valuesUnder_eq_nil ((Bool.not_eq_true' _).mp isFresh)
    show (key, overlay (isTraitsKey key) (valuesUnder (sources ++ [entries]) key)) = (key, content)
    rw [valuesUnder_concat, nothing, find?_of_mem distinct isEntry]
    have alone := each key content isEntry (isTraitsKey key) []
    rw [overlay_nil, merge_null_left] at alone
    exact congrArg _ alone

theorem mappings_concat (values : List Value) (value : Value) :
    mappings (values ++ [value]) = mappings values ++ mappings [value] := List.filterMap_append

theorem listings_concat (values : List Value) (value : Value) :
    listings (values ++ [value]) = listings values ++ listings [value] := List.filterMap_append

theorem stringTogether_concat (lists : List (List Value)) (items : List Value) :
    stringTogether (lists ++ [items]) = joinReferences (stringTogether lists) items := by
  unfold stringTogether
  rw [List.foldl_append]
  rfl

theorem mergeEntries_nil (distinct : Distinct entries) : mergeEntries [] entries = entries := by
  have none : Distinct [] := List.Pairwise.nil
  rw [mergeEntries_eq none distinct]
  exact List.filter_eq_self.mpr fun _ _ => rfl

theorem joinReferences_nil (items : List Value) : joinReferences [] items = items :=
  List.filter_eq_self.mpr fun _ _ => rfl

theorem map_or_not (value : Value) : (∃ entries, value = .map entries) ∨ value.isMap = false := by
  cases value with
  | map entries => exact .inl ⟨entries, rfl⟩
  | _ => exact .inr rfl

theorem list_or_not (value : Value) : (∃ items, value = .list items) ∨ value.isList = false := by
  cases value with
  | list items => exact .inl ⟨items, rfl⟩
  | _ => exact .inr rfl

theorem eq_null_of_isNull (nothing : value.isNull = true) : value = .null := by
  cases value with
  | scalar s =>
    cases s with
    | null => rfl
    | _ => cases nothing
  | _ => cases nothing

theorem mappings_singleton_of_not_map (noMap : value.isMap = false) : mappings [value] = [] := by
  cases value <;> first | rfl | cases noMap

theorem listings_singleton_of_not_list (noList : value.isList = false) : listings [value] = [] := by
  cases value <;> first | rfl | cases noList

/-- What is neither a mapping nor a list takes nothing, if it is something. -/
theorem merge_eq_left (something : value.isNull = false) (traits : Bool) {content : Value}
    (noMaps : value.isMap = true → content.isMap = false)
    (noLists : traits = true → value.isList = true → content.isList = false) :
    merge traits value content = value :=
  (Absorbs.other something noMaps noLists).merge_eq

/-- Among values that are nothing there are no mappings and no lists. -/
theorem nothing_among (nothing : values.find? (fun value => !value.isNull) = none) :
    mappings values = [] ∧ listings values = [] := by
  have each (value : Value) (member : value ∈ values) : value = .null :=
    eq_null_of_isNull (by simpa using List.find?_eq_none.mp nothing value member)
  refine ⟨List.filterMap_eq_nil_iff.mpr fun value member => ?_,
    List.filterMap_eq_nil_iff.mpr fun value member => ?_⟩
  · rw [each value member]
    rfl
  · rw [each value member]

section Further

variable {content : Value}
  (inside : ∀ entries, content = .map entries → ∀ sources,
    overlayEntries (sources ++ [entries]) = mergeEntries (overlayEntries sources) entries)

include inside

/-- A value is merged into nothing. -/
theorem overlay_concat_of_nothing (traits : Bool) (keyed : Keyed content)
    (nothing : values.find? (fun value => !value.isNull) = none) :
    overlay traits (values ++ [content]) = merge traits (overlay traits values) content := by
  obtain ⟨noMappings, noListings⟩ := nothing_among nothing
  rw [overlay_of_nothing traits nothing, merge_null_left]
  have next : (values ++ [content]).find? (fun value => !value.isNull) =
      [content].find? fun value => !value.isNull := by
    rw [List.find?_append, nothing, Option.none_or]
  rcases map_or_not content with ⟨entries, rfl⟩ | noMap
  · rw [overlay_of_map traits next, mappings_concat, noMappings]
    refine congrArg Value.map ((inside entries rfl []).trans ?_)
    exact mergeEntries_nil (keyed_map_iff.mp keyed).1
  rcases list_or_not content with ⟨items, rfl⟩ | noList
  · rw [overlay_of_list traits next, listings_concat, noListings]
    cases traits with
    | false => rfl
    | true => exact congrArg Value.list (joinReferences_nil items)
  · by_cases isNull : content.isNull = true
    · have nothing : [content].find? (fun value => !value.isNull) = none := by
        simp [isNull]
      rw [overlay_of_nothing traits (next.trans nothing)]
      exact (eq_null_of_isNull isNull).symm
    · exact overlay_of_other traits noMap noList (next.trans (by simp [isNull]))

/-- A value is merged into something. -/
theorem overlay_concat_of_something (traits : Bool) {first : Value}
    (found : values.find? (fun value => !value.isNull) = some first) :
    overlay traits (values ++ [content]) = merge traits (overlay traits values) content := by
  have something : first.isNull = false := by
    simpa using List.find?_some found
  have still : (values ++ [content]).find? (fun value => !value.isNull) = some first := by
    rw [List.find?_append, found]
    rfl
  rcases map_or_not first with ⟨own, rfl⟩ | noMap
  · rw [overlay_of_map traits found, overlay_of_map traits still, mappings_concat]
    rcases map_or_not content with ⟨entries, rfl⟩ | noMap
    · exact congrArg Value.map (inside entries rfl _)
    · rw [mappings_singleton_of_not_map noMap, List.append_nil]
      exact (merge_eq_left rfl traits (fun _ => noMap) fun _ isList => by cases isList).symm
  rcases list_or_not first with ⟨items, rfl⟩ | noList
  · rw [overlay_of_list traits found, overlay_of_list traits still, listings_concat]
    cases traits with
    | false =>
      exact (merge_eq_left rfl false (fun isMap => by cases isMap) fun is => by cases is).symm
    | true =>
      rcases list_or_not content with ⟨further, rfl⟩ | noList
      · exact congrArg Value.list (stringTogether_concat _ _)
      · rw [listings_singleton_of_not_list noList, List.append_nil]
        exact (merge_eq_left rfl true (fun isMap => by cases isMap) fun _ _ => noList).symm
  · rw [overlay_of_other traits noMap noList found, overlay_of_other traits noMap noList still]
    refine (merge_eq_left something traits (fun isMap => ?_) fun _ isList => ?_).symm
    · cases isMap.symm.trans noMap
    · cases isList.symm.trans noList

end Further

/-- **A further value in which no key comes twice is merged into what the others give.** -/
theorem overlay_concat (traits : Bool) (values : List Value) (content : Value)
    (keyed : Keyed content) :
    overlay traits (values ++ [content]) = merge traits (overlay traits values) content := by
  -- the induction is on the further value: under each key, one that it holds is merged in
  have inside (entries : Entries) (isContent : content = .map entries) (sources : List Entries) :
      overlayEntries (sources ++ [entries]) = mergeEntries (overlayEntries sources) entries := by
    rw [isContent] at keyed
    obtain ⟨distinct, all⟩ := keyed_map_iff.mp keyed
    refine overlayEntries_concat distinct fun key inner member traits values => ?_
    exact overlay_concat traits values inner (all (key, inner) member)
  cases found : values.find? fun value => !value.isNull with
  | none => exact overlay_concat_of_nothing inside traits keyed found
  | some first => exact overlay_concat_of_something inside traits found
termination_by sizeOf content
decreasing_by
  have inEntries := List.sizeOf_lt_of_mem member
  simp only [isContent, Prod.mk.sizeOf_spec, Value.map.sizeOf_spec] at inEntries ⊢
  omega

/-! ### From left to right -/

/-- A value without a key twice gives itself. -/
theorem overlay_alone (traits : Bool) (keyed : Keyed value) : overlay traits [value] = value := by
  refine (overlay_concat traits [] value keyed).trans ?_
  rw [overlay_nil, merge_null_left]

/-- **Values merged from left to right give their overlay**, mappings in particular, whatever stands
behind what in each of them. -/
theorem foldl_merge_eq_overlay (traits : Bool) (own : Value) (sources : List Value)
    (ownKeyed : Keyed own) (keyed : ∀ source ∈ sources, Keyed source) :
    sources.foldl (merge traits) own = overlay traits (own :: sources) := by
  induction sources using List.reverseRecOn with
  | nil => exact (overlay_alone traits ownKeyed).symm
  | append_singleton sources last ih =>
    have before := ih fun source member => keyed source (List.mem_append_left _ member)
    have isLast := keyed last (List.mem_append_right _ List.mem_cons_self)
    rw [List.foldl_append, before, ← List.cons_append, overlay_concat traits _ last isLast]
    rfl

/-- What is in two mappings is joined although a text stands between them, nothing lets everything
through, and references are strung together. -/
theorem foldl_merge_eq_overlay_mixed :
    Value.map [(.text "a", .map [(.text "x", .text "1"), (.text "y", .text "2")]),
      (.text "b", .text "own"), (.text "is", .list [.text "paged", .text "secured"]),
      (.text "c", .list [.text "kept"])] =
      overlay false
        [.map [(.text "a", .map [(.text "x", .text "1")]), (.text "b", .null),
          (.text "is", .list [.text "paged"])],
          .map [(.text "a", .text "between"), (.text "b", .text "own"),
            (.text "c", .list [.text "kept"])],
          .map [(.text "a", .map [(.text "x", .text "3"), (.text "y", .text "2")]),
            (.text "is", .list [.text "secured", .text "paged"]),
            (.text "c", .list [.text "lost"])]] :=
  foldl_merge_eq_overlay false
    (.map [(.text "a", .map [(.text "x", .text "1")]), (.text "b", .null),
      (.text "is", .list [.text "paged"])])
    [.map [(.text "a", .text "between"), (.text "b", .text "own"),
      (.text "c", .list [.text "kept"])],
      .map [(.text "a", .map [(.text "x", .text "3"), (.text "y", .text "2")]),
        (.text "is", .list [.text "secured", .text "paged"]),
        (.text "c", .list [.text "lost"])]] (by decide) (by decide)

end RamlInterfaces.Raml
