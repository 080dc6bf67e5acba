/-
**Alike traits.**

Two traits are alike when their members differ in certain texts only: in descriptions, and in the
defaults, examples, patterns and enums of the parameters that they declare.  If those texts read the
same after the placeholders are filled, then so do the methods that the traits are applied to, and
documents that differ in nothing but such traits have one description.

* `AlternativesAlike`, `BodyAlike`, `TraitAlike`, `EntryAlike`: the declarations of parameters, the
  members of a trait, the declared traits, and the entries of a document that differ in such texts;
* `FillsAlike`: filling placeholders makes the texts read the same;
* `templateBody_alike`: **alike traits give bodies that read the same**;
* `RefersTo`: the references to a trait that the application comes to;
* `applyTemplatesWithin_alike`: **documents with alike traits are described alike** after their
  templates are applied.
-/

import RamlInterfaces.Proofs.Raml.Idempotence
import RamlInterfaces.Proofs.Raml.SameReading

namespace RamlInterfaces.Raml

/-! ### Relations -/

/-- What a trait declares for a parameter is alike: a mapping with alike facets, or a list of such
alternatives. -/
def AlternativesAlike (text : Value → Value → Prop) (value other : Value) : Prop :=
  MapsAlike (FacetAlike text) value other ∨ ListsAlike (MapsAlike (FacetAlike text)) value other

/-- The members of a trait are alike. -/
abbrev BodyAlike (text : Value → Value → Prop) : Option String → Value → Value → Prop :=
  MemberAlike text (AlternativesAlike text)

/-- The declared traits are alike: those of the given name have alike members, and all others are
the same. -/
def TraitAlike (trait : String) (text : Value → Value → Prop) (name : Option String) :
    Value → Value → Prop :=
  if name = some trait then MapsAlike (BodyAlike text) else Eq

/-- The entries of the root are alike: the declarations of traits are, and all others are the
same. -/
def EntryAlike (trait : String) (text : Value → Value → Prop) (name : Option String)
    (value other : Value) : Prop :=
  if name = some "traits" then
    MapsAlike (TraitAlike trait text) value other ∨
      ListsAlike (MapsAlike (TraitAlike trait text)) value other
  else value = other

/-- Filling placeholders makes the texts read the same. -/
def FillsAlike (arguments : Entries) (text : Value → Value → Prop) : Prop :=
  ∀ value other, text value other →
    EndAlike ReadsAlike (substitute arguments value) (substitute arguments other)

/-! ### Filling a trait -/

section Filling

variable {arguments template another : Entries} {text : Value → Value → Prop}
  {value other : Value} {key filled : Scalar}

theorem facetAlike_substitute (fills : FillsAlike arguments text)
    (done : substituteScalar arguments key = .ok filled)
    (alike : FacetAlike text key.string? value other) :
    EndAlike (FacetAlike ReadsAlike filled.string?) (substitute arguments value)
      (substitute arguments other) := by
  unfold FacetAlike at alike
  by_cases isText : key.string?.any (textFields.map Prod.fst).contains = true
  · obtain ⟨name, named, isField⟩ := (Option.any_eq_true _ _).mp isText
    have plain : ∀ name ∈ textFields.map Prod.fst, mayHoldPlaceholder name.toList = false := by
      decide
    have same := eq_of_substituteScalar named (plain name (List.contains_iff_mem.mp isField)) done
    rw [if_pos isText] at alike
    unfold FacetAlike
    rw [same, if_pos isText]
    exact fills _ _ alike
  · rw [if_neg isText] at alike
    by_cases isEnum : key.string? = some "enum"
    · have same := eq_of_substituteScalar isEnum (by decide) done
      rw [if_pos isEnum] at alike
      unfold FacetAlike
      rw [same, if_neg isText, if_pos isEnum]
      exact ListsAlike.substitute alike fills
    · rw [if_neg isEnum] at alike
      rw [alike]
      exact .refl (facetAlike_refl readsAlike_refl _) _

/-- The first alternatives of alike lists are alike. -/
theorem DeclarationsAlike.of_lists
    (alike : ListsAlike (MapsAlike (FacetAlike ReadsAlike)) value other) :
    DeclarationsAlike value other := by
  rcases alike with same | ⟨items, others, rfl, rfl, alike⟩
  · exact .inl (.inl same)
  refine .inr ⟨rfl, rfl, ?_⟩
  unfold Raml.firstAlternative
  dsimp only
  induction alike with
  | nil => exact .inl rfl
  | @cons item other _ _ here _ ih =>
    rw [List.find?_cons, List.find?_cons, ← here.shape.isMap]
    cases item.isMap with
    | true => exact here
    | false => exact ih

theorem alternativesAlike_substitute (fills : FillsAlike arguments text)
    (alike : AlternativesAlike text value other) :
    EndAlike DeclarationsAlike (substitute arguments value) (substitute arguments other) := by
  have maps (value other : Value) (alike : MapsAlike (FacetAlike text) value other) :
      EndAlike (MapsAlike (FacetAlike ReadsAlike)) (substitute arguments value)
        (substitute arguments other) :=
    alike.substitute fun _ _ _ _ => facetAlike_substitute fills
  rcases alike with alike | alike
  · exact (maps _ _ alike).mono fun _ _ => .inl
  · exact (ListsAlike.substitute alike maps).mono fun _ _ => .of_lists

theorem bodyAlike_substitute (fills : FillsAlike arguments text)
    (done : substituteScalar arguments key = .ok filled)
    (alike : BodyAlike text key.string? value other) :
    EndAlike (MemberAlike ReadsAlike DeclarationsAlike filled.string?) (substitute arguments value)
      (substitute arguments other) := by
  unfold BodyAlike MemberAlike at alike
  by_cases isText : key.string? = some "description"
  · have same := eq_of_substituteScalar isText (by decide) done
    rw [if_pos isText] at alike
    unfold MemberAlike
    rw [same, if_pos isText]
    exact fills _ _ alike
  · rw [if_neg isText] at alike
    by_cases declares : key.string? = some "headers" ∨ key.string? = some "queryParameters"
    · have same : filled = key := by
        rcases declares with named | named
        · exact eq_of_substituteScalar named (by decide) done
        · exact eq_of_substituteScalar named (by decide) done
      rw [if_pos declares] at alike
      unfold MemberAlike
      rw [same, if_neg isText, if_pos declares]
      exact MapsAlike.substitute alike fun _ _ _ _ _ => alternativesAlike_substitute fills
    · rw [if_neg declares] at alike
      rw [alike]
      exact .refl (memberAlike_refl readsAlike_refl _) _

theorem FacetAlike.isEndless_eq {name : Option String} (alike : FacetAlike text name value other)
    (ends : ∀ value other, text value other → value.isEndless = other.isEndless) :
    value.isEndless = other.isEndless := by
  unfold FacetAlike at alike
  split at alike
  · exact ends _ _ alike
  · split at alike
    · exact ListsAlike.isEndless_eq alike ends
    · rw [alike]

theorem BodyAlike.isEndless_eq {name : Option String} (alike : BodyAlike text name value other)
    (ends : ∀ value other, text value other → value.isEndless = other.isEndless) :
    value.isEndless = other.isEndless := by
  have facets (value other : Value) (alike : MapsAlike (FacetAlike text) value other) :
      value.isEndless = other.isEndless :=
    alike.isEndless_eq fun _ _ _ here => here.isEndless_eq ends
  unfold BodyAlike MemberAlike at alike
  split at alike
  · exact ends _ _ alike
  · split at alike
    · refine MapsAlike.isEndless_eq alike fun _ value other here => ?_
      rcases here with here | here
      · exact facets _ _ here
      · exact here.isEndless_eq facets
    · rw [alike]

/-- **Traits with alike members give bodies that read the same.** -/
theorem templateBody_alike (fills : FillsAlike arguments text)
    (ends : ∀ value other, text value other → value.isEndless = other.isEndless)
    (alike : EntriesAlike (BodyAlike text) template another) :
    EndAlike MethodsAlike (templateBody template arguments) (templateBody another arguments) := by
  have members : EntriesAlike (BodyAlike text)
      ((template.erase (.text "usage")).erase (.text "displayName"))
      ((another.erase (.text "usage")).erase (.text "displayName")) :=
    (alike.filter fun key => !key.alike (.text "usage")).filter
      fun key => !key.alike (.text "displayName")
  have filled := members.substitute fun _ _ _ _ => bodyAlike_substitute fills
  unfold templateBody
  dsimp only
  rw [members.isEndless_eq fun _ _ _ here => here.isEndless_eq ends]
  split
  · exact .error _
  · unfold substitute
    generalize substitute.substituteEntries arguments _ = first at filled ⊢
    generalize substitute.substituteEntries arguments _ = second at filled ⊢
    cases filled with
    | error fault => exact .error _
    | ok related => exact .ok related.ofList

end Filling

/-! ### Applying alike traits -/

/-- The application to a document comes to a reference to a trait, and fills the trait with the
given arguments. -/
inductive RefersTo (root : Entries) (trait : String) (arguments : Entries) : Prop where
  | intro {path : String} {resource method : Entries} {key : Scalar} {child value : Value}
    {verb : Verb} {reference : Reference} (visits : Visits root path resource)
    (member : (key, child) ∈ resource) (named : verbKey? key = some verb)
    (content : contentEntries? child = some method)
    (refers : value ∈ methodReferences (referenceList (resource.get "is")) method)
    (isReference : Reference.ofValue? value = some reference) (isTrait : reference.name = trait)
    (passed : (methodArguments path verb.word).putAll reference.arguments = arguments)

section Application

variable {trait path : String} {text : Value → Value → Prop} {templates others : Templates}
  {arguments root other : Entries} {value another : Value}

theorem traitAlike_refl (trait : String) (text : Value → Value → Prop) (name : Option String)
    (value : Value) : TraitAlike trait text name value value := by
  unfold TraitAlike
  split
  · exact .inl rfl
  · rfl

theorem namedTemplates_alike
    (alike : MapsAlike (TraitAlike trait text) value another ∨
      ListsAlike (MapsAlike (TraitAlike trait text)) value another) :
    EntriesAlike (TraitAlike trait text) (namedTemplates value) (namedTemplates another) := by
  have same := traitAlike_refl trait text
  rcases alike with (rfl | ⟨_, _, rfl, rfl, alike⟩) | (rfl | ⟨items, others, rfl, rfl, alike⟩)
  · exact .refl same _
  · exact alike
  · exact .refl same _
  · have all {sofar known : Entries} (start : EntriesAlike (TraitAlike trait text) sofar known) :
        EntriesAlike (TraitAlike trait text)
          (items.foldl (fun found item => found.putAll (item.entries?.getD [])) sofar)
          (others.foldl (fun found item => found.putAll (item.entries?.getD [])) known) := by
      induction alike generalizing sofar known with
      | nil => exact start
      | @cons item other _ _ here _ ih =>
        have declared : EntriesAlike (TraitAlike trait text) (item.entries?.getD [])
            (other.entries?.getD []) := by
          rcases here with rfl | ⟨_, _, rfl, rfl, alike⟩
          · exact .refl same _
          · exact alike
        exact ih (start.putAll declared)
    exact all .nil

theorem traitBody_alike
    (traits : EntriesAlike (TraitAlike trait text) templates.traits others.traits)
    (ends : ∀ value other, text value other → value.isEndless = other.isEndless)
    (fills : ∀ reference, Reference.ofValue? value = some reference → reference.name = trait →
      FillsAlike (arguments.putAll reference.arguments) text) :
    EndAlike MethodsAlike (traitBody templates arguments value)
      (traitBody others arguments value) := by
  unfold traitBody
  refine (EndAlike.self (written (Reference.ofValue? value))).bind ?_
  rintro reference _ ⟨rfl, isReference⟩
  rw [written_eq_ok_iff] at isReference
  have both : Option.Rel (TraitAlike trait text (some reference.name))
      (templates.traits.find? (.text reference.name))
      (others.traits.find? (.text reference.name)) := traits.find? (.text reference.name)
  generalize templates.traits.find? (.text reference.name) = declared at both
  generalize others.traits.find? (.text reference.name) = further at both
  have refl (template : Entries) (given : Entries) :
      EndAlike MethodsAlike (templateBody template given) (templateBody template given) :=
    .refl (fun body => .refl (memberAlike_refl readsAlike_refl) body) _
  cases both with
  | none => exact .error _
  | @some first second related =>
    unfold TraitAlike at related
    by_cases isTrait : reference.name = trait
    · rw [if_pos (congrArg some isTrait)] at related
      rcases related with rfl | ⟨template, another, rfl, rfl, alike⟩
      · cases first with
        | map template => exact refl template _
        | _ => exact .error _
      · exact templateBody_alike (fills reference isReference isTrait) ends alike
    · rw [if_neg fun same => isTrait (Option.some.inj same)] at related
      subst related
      cases first with
      | map template => exact refl template _
      | _ => exact .error _

/-- **A method reads the same** whichever of alike traits are applied to it. -/
theorem applyTraits_alike {references : List Value} {name : String}
    (traits : EntriesAlike (TraitAlike trait text) templates.traits others.traits)
    (ends : ∀ value other, text value other → value.isEndless = other.isEndless)
    (fills : ∀ method refers reference, contentEntries? value = some method →
      refers ∈ methodReferences references method → Reference.ofValue? refers = some reference →
        reference.name = trait →
          FillsAlike ((methodArguments path name).putAll reference.arguments) text) :
    EndAlike (MapsAlike (MemberAlike ReadsAlike DeclarationsAlike))
      (applyTraits templates (resourceArguments path) references name value)
      (applyTraits others (resourceArguments path) references name value) := by
  have walk (method : Entries) (content : contentEntries? value = some method) :
      EndAlike MethodsAlike
        ((methodReferences references method).foldlM
          (applyTrait templates (methodArguments path name)) method)
        ((methodReferences references method).foldlM
          (applyTrait others (methodArguments path name)) method) := by
    refine EndAlike.foldlM (List.forall₂_same.mpr fun _ _ => rfl)
      (.refl (memberAlike_refl readsAlike_refl) method) ?_
    rintro refers member _ rfl sofar known alike
    rw [applyTrait_eq, applyTrait_eq]
    refine (traitBody_alike traits ends fun reference isReference isTrait => ?_).bind
      fun body more bodies => .ok (mergeEntries_alike alike bodies)
    exact fills method refers reference content member isReference isTrait
  refine (EndAlike.self (contentEntries value)).bind ?_
  rintro method _ ⟨rfl, content⟩
  refine (walk method (contentEntries_ok_iff.mp content)).bind fun merged further alike => ?_
  exact .ok (.inr ⟨merged, further, rfl, rfl, alike⟩)

theorem composed_congr (types : templates.resourceTypes = others.resourceTypes) :
    composed templates path value = composed others path value := by
  unfold composed applyType
  rw [types]

/-- A resource has the content of its types first, and then its members are resolved. -/
theorem resolveResource_composed {depth : Nat} {parentPath relativePath : String} :
    resolveResource templates (depth + 1) parentPath relativePath value = (do
      let resource ← composed templates (parentPath ++ relativePath) value
      let resolved ← resource.mapM
        (memberStep templates depth (parentPath ++ relativePath) resource)
      pure (.map resolved)) := by
  rw [resolveResource_succ]
  unfold composed
  rw [bind_assoc]

/-- **A resource has the same description** whichever of alike traits are applied to it. -/
theorem resolveResource_alike {depth : Nat} {parentPath relativePath : String}
    (traits : EntriesAlike (TraitAlike trait text) (Templates.ofRoot root).traits
      (Templates.ofRoot other).traits)
    (types : (Templates.ofRoot root).resourceTypes = (Templates.ofRoot other).resourceTypes)
    (ends : ∀ value other, text value other → value.isEndless = other.isEndless)
    (fills : ∀ arguments, RefersTo root trait arguments → FillsAlike arguments text)
    (visits : ∀ resource, composed (Templates.ofRoot root) (parentPath ++ relativePath) value =
      .ok resource → Visits root (parentPath ++ relativePath) resource) :
    EndAlike DescribedAlike
      (resolveResource (Templates.ofRoot root) depth parentPath relativePath value)
      (resolveResource (Templates.ofRoot other) depth parentPath relativePath value) := by
  induction depth generalizing parentPath relativePath value with
  | zero => exact .error _
  | succ depth ih =>
    have members (resource : Entries)
        (isVisited : Visits root (parentPath ++ relativePath) resource) :
        EndAlike (EntriesAlike ResourceMemberAlike)
          (resource.mapM (memberStep (Templates.ofRoot root) depth (parentPath ++ relativePath)
            resource))
          (resource.mapM (memberStep (Templates.ofRoot other) depth (parentPath ++ relativePath)
            resource)) := by
      refine EndAlike.mapM (List.forall₂_same.mpr fun _ _ => rfl) ?_
      rintro ⟨key, child⟩ member _ rfl
      cases named : verbKey? key with
      | some verb =>
        have methods : ∀ value another,
            MapsAlike (MemberAlike ReadsAlike DeclarationsAlike) value another →
              ResourceMemberAlike key.string? value another := by
          rw [resourceMemberAlike_of_verbKey? named]
          exact fun _ _ => extractAction_alike
        rw [memberStep_method named, memberStep_method named]
        refine (applyTraits_alike traits ends ?_).bind fun method another alike =>
          .ok ⟨rfl, methods method another alike⟩
        intro method value reference isMethod refers isReference isTrait
        exact fills _ (.intro isVisited member named isMethod refers isReference isTrait rfl)
      | none =>
        cases below : resourceKey? key with
        | some relative =>
          have resources : ResourceMemberAlike key.string? = DescribedAlike :=
            resourceMemberAlike_of_resourceKey? below
          rw [memberStep_resource below, memberStep_resource below]
          refine (ih fun inner content => ?_).bind fun first second alike => .ok ⟨rfl, ?_⟩
          · exact .within isVisited member below content
          · rwa [resources]
        | none =>
          rw [memberStep_other named below, memberStep_other named below]
          exact .ok ⟨rfl, resourceMemberAlike_refl _ _⟩
    rw [resolveResource_composed, resolveResource_composed, ← composed_congr types]
    refine (EndAlike.self (composed (Templates.ofRoot root) _ value)).bind ?_
    rintro resource _ ⟨rfl, content⟩
    exact (members resource (visits resource content)).bind fun resolved others alike =>
      .ok (extractResource_alike alike)

/-- What is no resource is described alike as it stands in the document. -/
theorem rootMemberAlike_of_entryAlike {key : Scalar} (noResource : resourceKey? key = none)
    (alike : EntryAlike trait text key.string? value another) :
    RootMemberAlike key.string? value another := by
  have noPath : ¬(resourceKey? key).isSome = true := by
    rw [noResource]
    exact Bool.false_ne_true
  have others : RootMemberAlike key.string? =
      if key.string? = some "traits" then fun _ _ => True else Eq := if_neg noPath
  unfold EntryAlike at alike
  rw [others]
  by_cases isTraits : key.string? = some "traits"
  · rw [if_pos isTraits]
    trivial
  · rw [if_neg isTraits] at alike ⊢
    exact alike

/-- **Documents with alike traits are described alike**, if the texts in which the traits differ
read the same after they are filled, wherever the application comes to them. -/
theorem applyTemplatesWithin_alike {depth : Nat}
    (alike : EntriesAlike (EntryAlike trait text) root other)
    (ends : ∀ value other, text value other → value.isEndless = other.isEndless)
    (fills : ∀ arguments, RefersTo root trait arguments → FillsAlike arguments text) :
    EndAlike (EntriesAlike RootMemberAlike) (applyTemplatesWithin depth root)
      (applyTemplatesWithin depth other) := by
  have refl (name : Option String) (value : Value) : EntryAlike trait text name value value := by
    unfold EntryAlike
    split
    · exact .inl (.inl rfl)
    · rfl
  have declared : EntryAlike trait text (some "traits") (root.get "traits") (other.get "traits") :=
    alike.get (refl _ _)
  have sameTypes : EntryAlike trait text (some "resourceTypes") (root.get "resourceTypes")
      (other.get "resourceTypes") := alike.get (refl _ _)
  have traits : EntriesAlike (TraitAlike trait text) (Templates.ofRoot root).traits
      (Templates.ofRoot other).traits := namedTemplates_alike declared
  have types : (Templates.ofRoot root).resourceTypes = (Templates.ofRoot other).resourceTypes :=
    congrArg namedTemplates sameTypes
  unfold applyTemplatesWithin
  refine EndAlike.mapM alike ?_
  rintro ⟨key, value⟩ member ⟨_, another⟩ ⟨rfl, here⟩
  dsimp only at here ⊢
  cases named : resourceKey? key with
  | some relative =>
    have noTraits : key.string? ≠ some "traits" := by
      intro isTraits
      obtain ⟨isName, slash⟩ := resourceKey?_eq_some_iff.mp named
      obtain rfl := Option.some.inj (isName.symm.trans isTraits)
      cases slash
    have resources : RootMemberAlike key.string? = DescribedAlike :=
      rootMemberAlike_of_resourceKey? named
    unfold EntryAlike at here
    rw [if_neg noTraits] at here
    subst here
    rw [resolveEntry_resource named, resolveEntry_resource named]
    refine (resolveResource_alike traits types ends fills fun resource content => ?_).bind
      fun first second alike => .ok ⟨rfl, ?_⟩
    · rw [String.empty_append] at content ⊢
      exact .top member named content
    · rwa [resources]
  | none =>
    rw [resolveEntry_other named, resolveEntry_other named]
    exact .ok ⟨rfl, rootMemberAlike_of_entryAlike named here⟩

end Application

end RamlInterfaces.Raml
