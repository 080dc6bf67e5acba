/-
**What a value has absorbed.**

A value has absorbed content when merging that content into it changes nothing.  So it is with
content that was merged into it before, whatever is merged into it later: what was missing is there,
and where the value went its own way nothing would be taken.

* `Absorbs`: a value has absorbed content, all the way down;
* `Absorbs.merge_eq`: merging absorbed content changes nothing;
* `Absorbs.merge`: **what is absorbed stays so**, whatever is merged later;
* `absorbs_merge`: **merged content is absorbed**, if no key in it comes twice.
-/

import RamlInterfaces.Proofs.Raml.Keyed

namespace RamlInterfaces.Raml

/-- The value has absorbed the content: there was none; the value is something and the two are not
both mappings, nor lists of references; it has all the references; or it has all the keys, each with
a value that has absorbed the content under it.  `traits` says that both stand under the key of
trait references. -/
inductive Absorbs : Bool → Value → Value → Prop where
  | nothing (traits : Bool) (value : Value) : Absorbs traits value .null
  | other {traits : Bool} {value content : Value} (something : value.isNull = false)
    (noMaps : value.isMap = true → content.isMap = false)
    (noLists : traits = true → value.isList = true → content.isList = false) :
    Absorbs traits value content
  | references {own items : List Value} (among : ∀ item ∈ items, item.isAmong own = true) :
    Absorbs true (.list own) (.list items)
  | mapping {traits : Bool} {own entries : Entries}
    (there : ∀ key content, (key, content) ∈ entries → (own.find? key).isSome = true)
    (each : ∀ key content value, (key, content) ∈ entries → own.find? key = some value →
      Absorbs (isTraitsKey key) value content) : Absorbs traits (.map own) (.map entries)

variable {traits : Bool} {value content further : Value} {own entries : Entries} {key : Scalar}

/-! ### Merging into something -/

theorem merge_null_left (traits : Bool) (content : Value) :
    merge traits .null content = content := by
  unfold merge
  split <;> rfl

theorem merge_null_right (traits : Bool) (value : Value) : merge traits value .null = value := by
  cases value with
  | scalar s => cases s <;> rfl
  | _ => rfl

/-- Something stays as it is when content is merged into it, unless both are mappings or lists of
references. -/
theorem merge_cases (something : value.isNull = false) (traits : Bool) (further : Value) :
    (merge traits value further = value ∧ (value.isMap = true → further.isMap = false) ∧
        (traits = true → value.isList = true → further.isList = false)) ∨
      (∃ own entries, value = .map own ∧ further = .map entries ∧
        merge traits value further = .map (mergeEntries own entries)) ∨
      traits = true ∧ ∃ own items, value = .list own ∧ further = .list items ∧
        merge traits value further = .list (joinReferences own items) := by
  unfold merge
  split
  · rename_i entries
    split
    · cases something
    · rename_i own
      exact .inr (.inl ⟨own, entries, rfl, rfl, rfl⟩)
    · rename_i noMap
      refine .inl ⟨rfl, fun map => ?_, fun _ _ => rfl⟩
      cases value with
      | map own => exact absurd rfl (noMap own)
      | _ => cases map
  · rename_i items
    split
    · cases something
    · rename_i own
      split
      · rename_i isTraits
        exact .inr (.inr ⟨isTraits, own, items, rfl, rfl, rfl⟩)
      · rename_i noTraits
        exact .inl ⟨rfl, fun _ => rfl, fun isTraits => absurd isTraits noTraits⟩
    · rename_i noList
      refine .inl ⟨rfl, fun _ => rfl, fun _ list => ?_⟩
      cases value with
      | list own => exact absurd rfl (noList own)
      | _ => cases list
  · rename_i noMap noList
    have kind : further.isMap = false ∧ further.isList = false := by
      cases further with
      | map entries => exact absurd rfl (noMap entries)
      | list items => exact absurd rfl (noList items)
      | _ => exact ⟨rfl, rfl⟩
    split
    · cases something
    · exact .inl ⟨rfl, fun _ => kind.1, fun _ _ => kind.2⟩

/-- Something stays something, a mapping or a list when content is merged into it. -/
theorem merge_kind (something : value.isNull = false) (traits : Bool) (further : Value) :
    (merge traits value further).isNull = false ∧
      (merge traits value further).isMap = value.isMap ∧
      (merge traits value further).isList = value.isList := by
  rcases merge_cases something traits further with ⟨same, -⟩ | ⟨_, _, rfl, -, same⟩ |
    ⟨-, _, _, rfl, -, same⟩
  · rw [same]
    exact ⟨something, rfl, rfl⟩
  · rw [same]
    exact ⟨rfl, rfl, rfl⟩
  · rw [same]
    exact ⟨rfl, rfl, rfl⟩

/-- References that are there already are not joined again. -/
theorem joinReferences_eq {own items : List Value}
    (among : ∀ item ∈ items, item.isAmong own = true) : joinReferences own items = own := by
  unfold joinReferences
  rw [List.filter_eq_nil_iff.mpr, List.append_nil]
  intro item member
  rw [among item member]
  exact Bool.false_ne_true

/-- **Merging absorbed content changes nothing.** -/
theorem Absorbs.merge_eq (absorbs : Absorbs traits value content) :
    Raml.merge traits value content = value := by
  induction absorbs with
  | nothing => exact merge_null_right _ _
  | @other traits value content something noMaps noLists =>
    rcases merge_cases something traits content with ⟨same, -⟩ | ⟨own, entries, rfl, rfl, -⟩ |
      ⟨isTraits, own, items, rfl, rfl, -⟩
    · exact same
    · cases noMaps rfl
    · cases noLists isTraits rfl
  | references among => exact congrArg Value.list (joinReferences_eq among)
  | @mapping traits own entries there each ih =>
    show Value.map (merge.mergeEntries own entries) = .map own
    congr 1
    clear each
    induction entries with
    | nil => rfl
    | cons entry rest further =>
      obtain ⟨key, content⟩ := entry
      obtain ⟨value, found⟩ := Option.isSome_iff_exists.mp (there key content List.mem_cons_self)
      have here := ih key content value List.mem_cons_self found
      unfold merge.mergeEntries
      simp only [found]
      rw [here, Entries.put_self found]
      exact further (fun key content member => there key content (List.mem_cons_of_mem _ member))
        fun key content value member => ih key content value (List.mem_cons_of_mem _ member)

/-! ### Merging further content -/

/-- **A value is found after entries are merged in**, with what is kept when the content under its
key is merged into it. -/
theorem find?_mergeEntries {holds : Value → Prop} {inherited : Entries}
    (kept : ∀ other content, (other, content) ∈ inherited → other.string? = key.string? →
      ∀ value, holds value → holds (merge (isTraitsKey key) value content))
    (found : own.find? key = some value) (isValue : holds value) :
    ∃ result, (mergeEntries own inherited).find? key = some result ∧ holds result := by
  induction inherited generalizing own value with
  | nil => exact ⟨value, found, isValue⟩
  | cons entry rest ih =>
    obtain ⟨other, content⟩ := entry
    have further := fun other content member => kept other content (List.mem_cons_of_mem _ member)
    unfold mergeEntries merge.mergeEntries
    cases isOther : own.find? other with
    | none =>
      refine ih further ?_ isValue
      rw [Entries.find?_append, found]
      rfl
    | some old =>
      rcases Entries.find?_put_of_found isOther (merge (isTraitsKey other) old content) key with
        same | ⟨before, after, first, isFirst, isKey⟩
      · exact ih further (same.trans found) isValue
      · rw [found, Option.some.injEq] at before
        subst before
        have sameKey : other.string? = key.string? :=
          (string?_of_alike isFirst).symm.trans (string?_of_alike isKey)
        rw [← isTraitsKey_of_alike isFirst, isTraitsKey_of_alike isKey] at after ⊢
        exact ih further after (kept other content List.mem_cons_self sameKey value isValue)

/-- A further reference is joined, or left out for one that is alike. -/
theorem mem_joinReferences_or_alike {items further : List Value} {item : Value}
    (member : item ∈ further) :
    item ∈ joinReferences items further ∨ ∃ other ∈ items, other.alike item = true := by
  by_cases among : item.isAmong items = true
  · exact .inr (List.any_eq_true.mp among)
  · refine .inl (List.mem_append_right _ ?_)
    rw [List.mem_filter, Bool.eq_false_iff.mpr among]
    exact ⟨member, rfl⟩

/-- References that are among some are among these and further ones. -/
theorem isAmong_joinReferences {item : Value} {items : List Value}
    (among : item.isAmong items = true) (further : List Value) :
    item.isAmong (joinReferences items further) = true := by
  unfold Value.isAmong joinReferences at *
  rw [List.any_append, among, Bool.true_or]

/-- **What is absorbed stays so**, whatever is merged later. -/
theorem Absorbs.merge {traits : Bool} {value content : Value}
    (absorbs : Absorbs traits value content) (further : Value) :
    Absorbs traits (Raml.merge traits value further) content := by
  cases absorbs with
  | nothing => exact .nothing _ _
  | other something noMaps noLists =>
    obtain ⟨isSomething, isMap, isList⟩ := merge_kind something traits further
    refine .other isSomething (fun map => ?_) fun isTraits list => ?_
    · exact noMaps (isMap.symm.trans map)
    · exact noLists isTraits (isList.symm.trans list)
  | @references own items among =>
    have something : (Value.list own).isNull = false := rfl
    rcases merge_cases something true further with ⟨same, -⟩ | ⟨_, _, same, -⟩ |
      ⟨-, others, items, same, -, joined⟩
    · rw [same]
      exact .references among
    · cases same
    · cases same
      rw [joined]
      exact .references fun item member => isAmong_joinReferences (among item member) items
  | @mapping _ own entries there each =>
    have something : (Value.map own).isNull = false := rfl
    rcases merge_cases something traits further with ⟨same, -⟩ |
      ⟨others, inherited, same, -, merged⟩ | ⟨-, _, _, same, -⟩
    · rw [same]
      exact .mapping there each
    · cases same
      rw [merged]
      have stays (key : Scalar) (content : Value) (member : (key, content) ∈ entries) :
          ∃ result, (mergeEntries own inherited).find? key = some result ∧
            Absorbs (isTraitsKey key) result content := by
        obtain ⟨value, found⟩ := Option.isSome_iff_exists.mp (there key content member)
        refine find?_mergeEntries (fun _ further _ _ value absorbs => ?_) found
          (each key content value member found)
        exact Absorbs.merge absorbs further
      refine .mapping (fun key content member => ?_) fun key content value member found => ?_
      · obtain ⟨result, isResult, -⟩ := stays key content member
        rw [isResult]
        rfl
      · obtain ⟨result, isResult, absorbs⟩ := stays key content member
        rw [found, Option.some.injEq] at isResult
        subst isResult
        exact absorbs
    · cases same
termination_by sizeOf content
decreasing_by
  have inEntries := List.sizeOf_lt_of_mem member
  simp only [Prod.mk.sizeOf_spec, Value.map.sizeOf_spec] at inEntries ⊢
  omega

/-! ### Merging content for the first time -/

/-- Two values that are not both mappings, nor both lists. -/
theorem absorbs_of_not_map (something : value.isNull = false) (noMap : content.isMap = false)
    (noList : content.isList = false) : Absorbs traits value content :=
  .other something (fun _ => noMap) fun _ _ => noList

/-- A mapping has absorbed content with all its entries. -/
theorem absorbs_map (there : ∀ key content, (key, content) ∈ entries →
    ∃ value, own.find? key = some value ∧ Absorbs (isTraitsKey key) value content) :
    Absorbs traits (.map own) (.map entries) := by
  refine .mapping (fun key content member => ?_) fun key content value member found => ?_
  · obtain ⟨value, found, -⟩ := there key content member
    rw [found]
    rfl
  · obtain ⟨result, isResult, absorbs⟩ := there key content member
    rw [found, Option.some.injEq] at isResult
    subst isResult
    exact absorbs

/-- A list has absorbed references that are among its own. -/
theorem absorbs_list {own items : List Value} (among : ∀ item ∈ items, item.isAmong own = true) :
    Absorbs traits (.list own) (.list items) := by
  cases traits with
  | true => exact .references among
  | false => exact .other rfl (fun map => nomatch map) fun isTraits => nomatch isTraits

theorem isAmong_self {items : List Value} (keyed : Keyed (.list items)) :
    ∀ item ∈ items, item.isAmong items = true := fun item member =>
  List.any_eq_true.mpr ⟨item, member, alike_self item (keyed_list_iff.mp keyed item member)⟩

/-- A value in which no key comes twice has absorbed itself. -/
theorem absorbs_self (traits : Bool) : (content : Value) → Keyed content →
    Absorbs traits content content
  | .map entries, keyed => by
    obtain ⟨distinct, all⟩ := keyed_map_iff.mp keyed
    refine absorbs_map fun key content member => ⟨content, find?_of_mem distinct member, ?_⟩
    exact absorbs_self (isTraitsKey key) content (all _ member)
  | .list items, keyed => absorbs_list (isAmong_self keyed)
  | .scalar .null, _ => .nothing _ _
  | .scalar (.bool _), _ | .scalar (.int _), _ | .scalar (.float _), _ | .scalar (.text _), _
  | .scalar (.included _), _ | .scalar (.bytes _), _ | .scalar (.date _), _
  | .scalar (.timestamp _), _ | .scalar (.enclosing _), _ | .set _, _ | .pair _ _, _ =>
    absorbs_of_not_map rfl rfl rfl
termination_by content => sizeOf content
decreasing_by
  have inEntries := List.sizeOf_lt_of_mem member
  simp only [Prod.mk.sizeOf_spec, Value.map.sizeOf_spec] at inEntries ⊢
  omega

/-- Entries that are merged in one after the other are absorbed, if each is. -/
theorem absorbs_mergeEntries (own : Entries)
    (each : ∀ key content, (key, content) ∈ entries → Absorbs (isTraitsKey key) content content ∧
      ∀ value, Absorbs (isTraitsKey key) (merge (isTraitsKey key) value content) content) :
    Absorbs traits (.map (mergeEntries own entries)) (.map entries) := by
  refine absorbs_map fun key content member => ?_
  induction entries generalizing own with
  | nil => cases member
  | cons entry rest ih =>
    obtain ⟨first, here⟩ := entry
    have others (key : Scalar) (content : Value) (member : (key, content) ∈ rest) :=
      each key content (List.mem_cons_of_mem _ member)
    obtain ⟨itself, merged⟩ := each first here List.mem_cons_self
    have kept (other : Scalar) (further : Value) (_ : (other, further) ∈ rest)
        (_ : other.string? = first.string?) (value : Value)
        (absorbs : Absorbs (isTraitsKey first) value here) := absorbs.merge further
    unfold mergeEntries merge.mergeEntries
    rcases List.mem_cons.mp member with same | further
    · cases same
      cases found : own.find? key with
      | none =>
        refine find?_mergeEntries kept ?_ itself
        rw [Entries.find?_append, found, Entries.find?_cons, if_pos (Scalar.alike_refl key)]
        rfl
      | some old => exact find?_mergeEntries kept (Entries.find?_put_self _ _ _) (merged old)
    · cases found : own.find? first with
      | none => exact ih _ others further
      | some old => exact ih _ others further

/-- **Merged content is absorbed**, if no key in it comes twice. -/
theorem absorbs_merge (traits : Bool) (value content : Value) (keyed : Keyed content) :
    Absorbs traits (merge traits value content) content := by
  by_cases nothing : value = .null
  · rw [nothing, merge_null_left]
    exact absorbs_self traits content keyed
  have something : value.isNull = false := by
    cases value with
    | scalar s =>
      cases s with
      | null => exact absurd rfl nothing
      | _ => rfl
    | _ => rfl
  rcases merge_cases something traits content with ⟨same, noMaps, noLists⟩ |
    ⟨own, entries, rfl, isMap, merged⟩ | ⟨rfl, own, items, rfl, rfl, joined⟩
  · rw [same]
    exact .other something noMaps noLists
  · rw [merged, isMap]
    rw [isMap] at keyed
    refine absorbs_mergeEntries own fun key content member => ?_
    have isContent : Keyed content := (keyed_map_iff.mp keyed).2 _ member
    exact ⟨absorbs_self _ content isContent, fun value => absorbs_merge _ value content isContent⟩
  · rw [joined]
    refine .references fun item member => ?_
    rcases mem_joinReferences_or_alike member with joins | ⟨other, isOther, alike⟩
    · have isKeyed := keyed_list_iff.mp keyed item member
      exact List.any_eq_true.mpr ⟨item, joins, alike_self item isKeyed⟩
    · exact List.any_eq_true.mpr ⟨other, List.mem_append_left _ isOther, alike⟩
termination_by sizeOf content
decreasing_by
  have inEntries := List.sizeOf_lt_of_mem member
  simp only [isMap, Prod.mk.sizeOf_spec, Value.map.sizeOf_spec] at inEntries ⊢
  omega

end RamlInterfaces.Raml
