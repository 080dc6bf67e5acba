/-
**What a document declares itself.**

The application of templates to a resource changes nothing that the resource declares itself: types
and traits only add to it, and the resource loses its reference to a type.

* `mergeType_covers`, `applyTraits_survives`: what types and traits leave as it is;
* `PlainResource`: a resource without problems is nothing or a mapping, and so are its methods;
* `resolveResource_survives`: **a resource is kept by the application of templates**.
-/

import RamlInterfaces.Proofs.Raml.Survival
import RamlInterfaces.Proofs.Raml.Validated

namespace RamlInterfaces.Raml

variable {templates : Templates} {arguments node resolved own entries : Entries} {key : Scalar}
  {value result explicit : Value}

/-! ### Resource types -/

theorem isTypeKey_iff : isTypeKey key = true ↔ key.string? = some "type" := by
  constructor
  · exact fun same => Scalar.string?_of_alike_text same
  · intro named
    unfold isTypeKey
    rw [Scalar.alike_text named rfl, beq_self_eq_true]

/-- A member of a resource type leaves the entries of a node as they are. -/
theorem mergeTypeEntry_covers (derived : Bool) (merged : Entries) (key : Scalar) (value : Value) :
    Covers merged (mergeTypeEntry derived merged key value) := by
  have kept (traits : Bool) (key : Scalar) (isTraits : traits = true → isTraitsKey key = true)
      (explicit : Value) : Survives (Place.content.below key) explicit
        (merge traits explicit value) := by
    refine survives_merge (below_content_ne key) (fun joins => ?_) explicit value
    rw [below_of_ne_resource (by decide), if_pos (isTraits joins)]
  have added (missing : merged.find? key = none) : Covers merged (merged.put key value) := by
    rw [Entries.put_of_missing missing]
    exact Covers.append merged _
  have taken := takesTypeEntry derived merged key value
  generalize mergeTypeEntry derived merged key value = result at taken ⊢
  cases taken with
  | intoPlain _ found => exact Covers.put found (kept false _ Bool.noConfusion _)
  | intoOptional _ _ found => exact Covers.put found (kept false _ Bool.noConfusion _)
  | into _ found => exact Covers.put found (kept _ key (fun joins => joins) _)
  | offered _ _ missing => exact added missing
  | new _ missing => exact added missing
  | dropped => exact Covers.refl merged

/-- Keys that are the same string find the same. -/
theorem find?_of_string? {name : String} (named : key.string? = some name) :
    entries.find? key = entries.find? (.text name) := by
  refine Entries.find?_congr fun first => ?_
  cases text : first.string? with
  | some other => rw [Scalar.alike_text text named, Scalar.alike_text text rfl]
  | none =>
    have unlike {other : Scalar} (isText : other.string? = some name) :
        first.alike other = false := by
      refine Bool.eq_false_iff.mpr fun same => ?_
      rw [← string?_of_alike same, text] at isText
      cases isText
    rw [unlike named, unlike rfl]

/-- A name that no entry has is not found. -/
theorem find?_of_everywhere_ne {name : String}
    (apart : Everywhere (fun named _ => named ≠ some name) entries) :
    entries.find? (.text name) = none := by
  refine Entries.find?_eq_none fun entry member => Bool.eq_false_iff.mpr fun same => ?_
  exact apart entry member (Scalar.string?_of_alike_text same)

/-- No key among the entries refers to a type. -/
abbrev Typeless (entries : Entries) : Prop :=
  Everywhere (fun name _ => name ≠ some "type") entries

theorem Typeless.find? (typeless : Typeless entries) : entries.find? (.text "type") = none :=
  find?_of_everywhere_ne typeless

theorem typeless_filter (entries : Entries) :
    Typeless (entries.filter fun entry => !isTypeKey entry.1) := by
  intro entry member named
  have kept := (List.mem_filter.mp member).2
  rw [isTypeKey_iff.mpr named] at kept
  cases kept

theorem mergeTypeEntry_typeless (derived : Bool) {merged : Entries} (typeless : Typeless merged)
    (value : Value) (other : key.string? ≠ some "type") :
    Typeless (mergeTypeEntry derived merged key value) := by
  have taken := takesTypeEntry derived merged key value
  generalize mergeTypeEntry derived merged key value = result at taken ⊢
  cases taken with
  | intoPlain _ found => exact typeless.put (Everywhere.find? typeless found)
  | dropped => exact typeless
  | _ => exact typeless.put other

/-- **The body of a resource type leaves the entries of a node as they are**, its reference to a
type apart. -/
theorem mergeTypeBody_covers (derived : Bool) (node body : Entries) :
    Covers (lasting .resource node) (mergeTypeBody derived node body) ∧
      Typeless (mergeTypeBody derived node body) := by
  have walk (further merged : Entries) (typeless : Typeless merged) (others : Typeless further) :
      let final := further.foldl
        (fun merged entry => mergeTypeEntry derived merged entry.1 entry.2) merged
      Covers merged final ∧ Typeless final := by
    induction further generalizing merged with
    | nil => exact ⟨Covers.refl merged, typeless⟩
    | cons entry rest ih =>
      have next := mergeTypeEntry_typeless derived typeless entry.2
        (others entry List.mem_cons_self)
      obtain ⟨covers, final⟩ :=
        ih _ next fun other member => others other (List.mem_cons_of_mem _ member)
      exact ⟨(mergeTypeEntry_covers derived merged entry.1 entry.2).trans covers, final⟩
  have start : lasting .resource node = node.filter fun entry => !isTypeKey entry.1 := rfl
  rw [start]
  exact walk _ _ (typeless_filter node) (typeless_filter body)

/-- **A chain of resource types leaves the entries of a node as they are**, its reference to a type
apart. -/
theorem mergeType_covers {types : Entries} {seen : List String}
    (merged : mergeType types arguments node seen = .ok resolved) :
    Covers (lasting .resource node) resolved ∧ Typeless resolved := by
  obtain ⟨_, _, _, content, -, -, -, -, -, rfl⟩ := mergeType_eq_ok_iff.mp merged
  exact mergeTypeBody_covers _ node content

/-- What a resource keeps when its type is applied. -/
structure TypeApplied (own entries : Entries) : Prop where
  order : ((lasting .resource own).map Prod.fst).Sublist (entries.map Prod.fst)
  typeless : (own.get "type").isNull = false → entries.find? (.text "type") = none
  each : ∀ key value, isTypeKey key = false → own.find? key = some value →
    ∃ result, entries.find? key = some result ∧ Survives (Place.content.below key) value result

theorem find?_lasting (other : isTypeKey key = false) (entries : Entries) :
    (lasting .resource entries).find? key = entries.find? key := by
  refine Entries.find?_filter fun entry _ same => ?_
  have notType : isTypeKey entry.1 = false := by
    refine Bool.eq_false_iff.mpr fun isType => ?_
    have named := isTypeKey_iff.mp isType
    rw [string?_of_alike same] at named
    rw [isTypeKey_iff.mpr named] at other
    cases other
  unfold Place.loses
  rw [notType]
  rfl

theorem applyType_keeps (applied : applyType templates arguments node = .ok resolved) :
    TypeApplied node resolved := by
  rcases applyType_eq_ok_iff.mp applied with ⟨untyped, rfl⟩ | ⟨-, merged⟩
  · have order : ((lasting .resource resolved).map Prod.fst).Sublist (resolved.map Prod.fst) :=
      List.filter_sublist.map _
    refine ⟨order, fun typed => ?_, fun key value _ found => ?_⟩
    · rw [untyped] at typed
      cases typed
    · exact ⟨value, found, Survives.refl (below_content_ne key) value⟩
  · obtain ⟨covers, typeless⟩ := mergeType_covers merged
    refine ⟨covers.order, fun _ => Typeless.find? typeless, fun key value other found => ?_⟩
    rw [← find?_lasting other] at found
    exact covers.each key value found

/-! ### Traits -/

/-- **The traits of a method leave its entries as they are.** -/
theorem applyTraits_survives {place : Place} (other : place ≠ .resource) {traits : List Value}
    {name : String} {members : Entries}
    (applied : applyTraits templates arguments traits name (.map members) = .ok result) :
    Survives place (.map members) result := by
  obtain ⟨method, merged, content, walked, rfl⟩ := applyTraits_eq_ok_iff.mp applied
  cases (contentEntries?_map members).symm.trans content
  have kept : Covers members merged := by
    refine foldlM_keeps (fun state item next covers step => ?_) (Covers.refl members) walked
    obtain ⟨_, _, body, -, -, -, rfl⟩ := applyTrait_eq_ok_iff.mp step
    exact covers.trans (covers_mergeEntries state body)
  exact (survives_map_iff other).mpr ⟨merged, rfl, kept⟩

/-! ### Resources -/

/-- A resource that is nothing or a mapping, with methods that are, all the way down. -/
inductive PlainResource : Value → Prop where
  | nothing : PlainResource .null
  | mapping {own : Entries}
    (methods : ∀ key child, own.find? key = some child → (verbKey? key).isSome = true →
      child = .null ∨ ∃ members, child = .map members)
    (resources : ∀ key child, own.find? key = some child → isResourceKey key = true →
      PlainResource child) : PlainResource (.map own)

/-- Nothing survives as nothing only. -/
theorem Survives.isNull_eq_false {place : Place} (survives : Survives place value result)
    (something : value.isNull = false) : result.isNull = false := by
  cases survives with
  | nothing => cases something
  | same => exact something
  | joined => rfl
  | mapping => rfl

theorem Covers.get_isNull (covers : Covers own entries) (name : String)
    (something : (own.get name).isNull = false) : (entries.get name).isNull = false := by
  unfold Entries.get at something ⊢
  cases found : own.find? (.text name) with
  | none =>
    rw [found] at something
    cases something
  | some value =>
    rw [found] at something
    obtain ⟨result, isResult, survives⟩ := covers.each _ value found
    rw [isResult]
    exact survives.isNull_eq_false something

theorem keys_lasting (place : Place) (entries : Entries) : (lasting place entries).map Prod.fst =
    (entries.map Prod.fst).filter fun key => !place.loses key := by
  unfold lasting
  rw [List.filter_map]
  rfl

variable {depth : Nat} {parentPath relativePath path : String}

theorem memberStep_key {resource : Entries} {entry step : Scalar × Value}
    (done : memberStep templates depth path resource entry = .ok step) : step.1 = entry.1 :=
  (memberStep_ok done).1

theorem below_resource_of_isResourceKey (isPath : isResourceKey key = true) :
    Place.resource.below key = .resource ∧ Place.content.below key = .content := by
  obtain ⟨relative, named⟩ := isResourceKey_iff.mp isPath
  have noTraits : isTraitsKey key = false :=
    isTraitsKey_eq_false (by rw [role_of_resourceKey? named]; decide)
  refine ⟨if_pos ⟨rfl, isPath⟩, ?_⟩
  rw [below_of_ne_resource (by decide), noTraits]
  rfl

theorem below_resource_of_not_isResourceKey (noPath : isResourceKey key = false) :
    Place.resource.below key = Place.content.below key := by
  have notBoth : ¬ (Place.resource = .resource ∧ isResourceKey key = true) := by
    rw [noPath]
    exact fun both => nomatch both.2
  have content : Place.content.below key = if isTraitsKey key then .references else .content :=
    below_of_ne_resource (by decide) key
  rw [content]
  exact if_neg notBoth

/-- A member of a resource that is kept until its resource is walked through is kept after that. -/
theorem memberStep_survives {resource : Entries} {middle last : Value}
    (methods : (verbKey? key).isSome = true → value = .null ∨ ∃ members, value = .map members)
    (below : ∀ relative, resourceKey? key = some relative →
      resolveResource templates depth path relative middle = .ok last →
        Survives .content value middle → Survives .resource value last)
    (before : Survives (Place.content.below key) value middle)
    (step : memberStep templates depth path resource (key, middle) = .ok (key, last)) :
    Survives (Place.resource.below key) value last := by
  rcases (memberStep_ok step).2 with ⟨verb, isVerb, isMethod⟩ | ⟨relative, isPath, resolved⟩ |
    ⟨_, noPath, unchanged⟩
  · have noPath : isResourceKey key = false := by
      refine Bool.eq_false_iff.mpr fun isPath => ?_
      obtain ⟨relative, named⟩ := isResourceKey_iff.mp isPath
      rw [verbKey?_of_resourceKey? named] at isVerb
      cases isVerb
    rw [below_resource_of_not_isResourceKey noPath]
    rcases methods (Option.isSome_of_eq_some isVerb) with rfl | ⟨members, rfl⟩
    · exact .nothing _ _
    · obtain ⟨further, rfl, _⟩ := (survives_map_iff (below_content_ne key)).mp before
      have kept := applyTraits_survives (below_content_ne key) isMethod
      exact before.trans (below_content_ne key) kept
  · obtain ⟨isResource, isContent⟩ :=
      below_resource_of_isResourceKey (isResourceKey_iff.mpr ⟨relative, isPath⟩)
    rw [isContent] at before
    rw [isResource]
    exact below relative isPath resolved before
  · have noPath : isResourceKey key = false := isResourceKey_eq_false_iff.mpr noPath
    rw [below_resource_of_not_isResourceKey noPath, show last = middle from unchanged]
    exact before

/-- **A resource is kept by the application of templates**, also where content was merged into it
before: what it declares itself is there. -/
theorem resolveResource_survives (plain : PlainResource explicit)
    (merged : Survives .content explicit value)
    (done : resolveResource templates depth parentPath relativePath value = .ok result) :
    Survives .resource explicit result := by
  induction depth generalizing parentPath relativePath explicit value result with
  | zero => cases done
  | succ depth ih =>
    cases plain with
    | nothing => exact .nothing _ _
    | @mapping own methods resources =>
      obtain ⟨entries, rfl, covers⟩ := (survives_map_iff (by decide)).mp merged
      obtain ⟨declared, resource, final, content, typed, walked, rfl⟩ :=
        resolveResource_succ_eq_ok_iff.mp done
      cases (contentEntries?_map entries).symm.trans content
      have applied := applyType_keeps typed
      have keys : final.map Prod.fst = resource.map Prod.fst :=
        Entries.keys_of_mapM (fun _ _ => memberStep_key) walked
      have found := Entries.find?_of_mapM (fun _ _ => memberStep_key) walked
      have member (key : Scalar) (value : Value) (other : isTypeKey key = false)
          (isValue : own.find? key = some value) : ∃ last, Entries.find? final key = some last ∧
            Survives (Place.resource.below key) value last := by
        -- into the merged content, from there into the content of the type, and through the walk
        obtain ⟨middle, isMiddle, first⟩ := covers.each key value isValue
        obtain ⟨further, isFurther, second⟩ := applied.each key middle other isMiddle
        have before := first.trans (below_content_ne key) second
        rcases found key with ⟨missing, _⟩ | ⟨start, child, last, alike, isChild, isLast, step⟩
        · rw [isFurther] at missing
          cases missing
        rw [isFurther, Option.some.injEq] at isChild
        subst isChild
        rw [← below_congr alike] at before ⊢
        refine ⟨last, isLast, memberStep_survives (fun isVerb => ?_) (fun relative isPath => ?_)
          before step⟩
        · rw [verbKey?_of_alike alike] at isVerb
          exact methods key value isValue isVerb
        · rw [resourceKey?_of_alike alike] at isPath
          have plain := resources key value isValue (isResourceKey_iff.mpr ⟨relative, isPath⟩)
          exact fun resolved kept => ih plain kept resolved
      refine .mapping ?_ (fun _ typed => ?_) (fun key value stays isValue => ?_)
        fun key value result stays isValue isResult => ?_
      · rw [keys]
        refine List.Sublist.trans ?_ applied.order
        rw [keys_lasting, keys_lasting]
        exact covers.order.filter _
      · have stays := covers.get_isNull "type" typed
        rcases found (.text "type") with ⟨_, missing⟩ | ⟨_, child, _, _, isChild, _, _⟩
        · exact missing
        · rw [applied.typeless stays] at isChild
          cases isChild
      · obtain ⟨last, isLast, _⟩ := member key value stays isValue
        rw [isLast]
        rfl
      · obtain ⟨last, isLast, survives⟩ := member key value stays isValue
        rw [isLast, Option.some.injEq] at isResult
        subst isResult
        exact survives

end RamlInterfaces.Raml
