/-
**Methods that read the same.**

The description keeps the texts of some values only: `5` and `"5"` are one default.  So methods
whose mappings differ in nothing but the way such texts are written have one description.  Merging
further content into them does not tell them apart either, if that differs in the same way at most.
The description of a document is put together from those of its methods: two documents with the same
keys have one description if their methods have, and all else that is described is the same.

* `ReadsAlike`: scalars with one text in the document;
* `FacetAlike`, `DeclarationsAlike`, `MemberAlike`: the facets of a parameter, its declarations, and
  the members of a method that differ in such texts alone;
* `merge_related`: merging keeps a relation that is kept for mappings and lists;
* `mergeEntries_alike`: **merging keeps methods alike**;
* `extractAction_alike`: **such methods have one description**;
* `DescribedAlike`: resources with one description, wherever they stand;
* `ResourceMemberAlike`, `RootMemberAlike`: the members of two resources, and of the roots of two
  documents, that are described alike;
* `extractResource_alike`, `extractDescription_alike`: **such resources and documents have one
  description**.
-/

import RamlInterfaces.Proofs.Raml.Application
import RamlInterfaces.Proofs.Raml.Overlay
import RamlInterfaces.Proofs.Raml.Related
import RamlInterfaces.Raml.Extraction

namespace RamlInterfaces.Raml

/-! ### Relations -/

/-- The values are the same, or scalars that are something and have one text in the document. -/
def ReadsAlike (value other : Value) : Prop :=
  value = other ∨ ∃ s t : Scalar, value = .scalar s ∧ other = .scalar t ∧ s ≠ .null ∧ t ≠ .null ∧
    documentText value = documentText other

/-- The facets of a parameter are alike: those that hold a text by the given relation, the values of
an enum by the same one each, and all others are the same. -/
def FacetAlike (text : Value → Value → Prop) (name : Option String) : Value → Value → Prop :=
  if name.any (textFields.map Prod.fst).contains = true then text
  else if name = some "enum" then ListsAlike text
  else Eq

/-- What is declared for a parameter is alike: it is, or its first alternative, a mapping with alike
facets. -/
def DeclarationsAlike (value other : Value) : Prop :=
  MapsAlike (FacetAlike ReadsAlike) value other ∨ value.isList = true ∧ other.isList = true ∧
    MapsAlike (FacetAlike ReadsAlike) (firstAlternative value) (firstAlternative other)

/-- The members of a method are alike: its description and the declarations of its parameters by the
given relations, and all others are the same. -/
def MemberAlike (text declaration : Value → Value → Prop) (name : Option String) :
    Value → Value → Prop :=
  if name = some "description" then text
  else if name = some "headers" ∨ name = some "queryParameters" then MapsAlike fun _ => declaration
  else Eq

/-- The members of two methods read the same. -/
abbrev MethodsAlike (method other : Entries) : Prop :=
  EntriesAlike (MemberAlike ReadsAlike DeclarationsAlike) method other

theorem facetAlike_refl {text : Value → Value → Prop} (same : ∀ value, text value value)
    (name : Option String) (value : Value) : FacetAlike text name value value := by
  unfold FacetAlike
  split
  · exact same value
  · split
    · exact .inl rfl
    · rfl

theorem memberAlike_refl {text declaration : Value → Value → Prop}
    (same : ∀ value, text value value) (name : Option String) (value : Value) :
    MemberAlike text declaration name value value := by
  unfold MemberAlike
  split
  · exact same value
  · split
    · exact .inl rfl
    · rfl

/-! ### Shapes -/

/-- Both values are nothing, or neither, and the same for mappings and for lists. -/
structure SameShape (value other : Value) : Prop where
  isNull : value.isNull = other.isNull
  isMap : value.isMap = other.isMap
  isList : value.isList = other.isList

theorem SameShape.of_eq {value other : Value} (same : value = other) : SameShape value other := by
  subst same
  exact ⟨rfl, rfl, rfl⟩

theorem ReadsAlike.shape {value other : Value} (alike : ReadsAlike value other) :
    SameShape value other := by
  rcases alike with same | ⟨s, t, rfl, rfl, something, somethingElse, _⟩
  · exact .of_eq same
  · have isSomething (scalar : Scalar) (something : scalar ≠ .null) :
        (Value.scalar scalar).isNull = false := by
      cases scalar with
      | null => exact absurd rfl something
      | _ => rfl
    exact ⟨(isSomething s something).trans (isSomething t somethingElse).symm, rfl, rfl⟩

theorem MapsAlike.shape {rel : Option String → Value → Value → Prop} {value other : Value}
    (alike : MapsAlike rel value other) : SameShape value other := by
  rcases alike with same | ⟨entries, others, rfl, rfl, _⟩
  · exact .of_eq same
  · exact ⟨rfl, rfl, rfl⟩

theorem ListsAlike.shape {rel : Value → Value → Prop} {value other : Value}
    (alike : ListsAlike rel value other) : SameShape value other := by
  rcases alike with same | ⟨items, others, rfl, rfl, _⟩
  · exact .of_eq same
  · exact ⟨rfl, rfl, rfl⟩

theorem DeclarationsAlike.shape {value other : Value} (alike : DeclarationsAlike value other) :
    SameShape value other := by
  rcases alike with maps | ⟨isList, isOther, _⟩
  · exact maps.shape
  · cases value with
    | list =>
      cases other with
      | list => exact ⟨rfl, rfl, rfl⟩
      | _ => cases isOther
    | _ => cases isList

/-! ### Merging -/

section Merging

variable {traits : Bool} {explicit other value another : Value}

/-- **A relation between values of one shape is kept by merging**, if the merging of mappings and
the joining of lists keep it. -/
theorem merge_related {rel : Value → Value → Prop}
    (shapes : ∀ value other, rel value other → SameShape value other)
    (isExplicit : rel explicit other) (isInherited : rel value another)
    (maps : ∀ own ownOther entries others, explicit = .map own → other = .map ownOther →
      value = .map entries → another = .map others →
        rel (.map (mergeEntries own entries)) (.map (mergeEntries ownOther others)))
    (lists : traits = true → ∀ own ownOther items others, explicit = .list own →
      other = .list ownOther → value = .list items → another = .list others →
        rel (.list (joinReferences own items)) (.list (joinReferences ownOther others))) :
    rel (merge traits explicit value) (merge traits other another) := by
  have here := shapes _ _ isExplicit
  have there := shapes _ _ isInherited
  cases nothing : explicit.isNull with
  | true =>
    have otherNothing := here.isNull.symm.trans nothing
    rw [eq_null_of_isNull nothing, eq_null_of_isNull otherNothing, merge_null_left, merge_null_left]
    exact isInherited
  | false =>
    have otherSomething := here.isNull.symm.trans nothing
    rcases merge_cases nothing traits value with ⟨same, noMaps, noLists⟩ |
      ⟨own, entries, rfl, rfl, same⟩ | ⟨isTraits, own, items, rfl, rfl, same⟩
    · rw [here.isMap, there.isMap] at noMaps
      rw [here.isList, there.isList] at noLists
      rw [same, merge_eq_left otherSomething traits noMaps noLists]
      exact isExplicit
    · cases other with
      | map ownOther =>
        cases another with
        | map others => exact maps _ _ _ _ rfl rfl rfl rfl
        | _ => cases there.isMap
      | _ => cases here.isMap
    · cases other with
      | list ownOther =>
        cases another with
        | list others =>
          subst isTraits
          exact lists rfl _ _ _ _ rfl rfl rfl rfl
        | _ => cases there.isList
      | _ => cases here.isList

theorem ReadsAlike.eq_of_map {entries : Entries} (alike : ReadsAlike (.map entries) other) :
    other = .map entries := by
  rcases alike with same | ⟨_, _, same, _⟩
  · exact same.symm
  · cases same

theorem ReadsAlike.eq_of_list {items : List Value} (alike : ReadsAlike (.list items) other) :
    other = .list items := by
  rcases alike with same | ⟨_, _, same, _⟩
  · exact same.symm
  · cases same

theorem ReadsAlike.merge (isExplicit : ReadsAlike explicit other)
    (isInherited : ReadsAlike value another) :
    ReadsAlike (Raml.merge traits explicit value) (Raml.merge traits other another) := by
  refine merge_related (fun _ _ => ReadsAlike.shape) isExplicit isInherited ?_ ?_
  · rintro own ownOther entries others rfl isOther rfl isAnother
    cases isOther.symm.trans isExplicit.eq_of_map
    cases isAnother.symm.trans isInherited.eq_of_map
    exact .inl rfl
  · rintro _ own ownOther items others rfl isOther rfl isAnother
    cases isOther.symm.trans isExplicit.eq_of_list
    cases isAnother.symm.trans isInherited.eq_of_list
    exact .inl rfl

/-- The lists are merged whole, unless they hold references to traits. -/
theorem ListsAlike.merge {rel : Value → Value → Prop} (isExplicit : ListsAlike rel explicit other)
    (isInherited : ListsAlike rel value another) :
    ListsAlike rel (Raml.merge false explicit value) (Raml.merge false other another) := by
  refine merge_related (fun _ _ => ListsAlike.shape) isExplicit isInherited ?_
    fun joins => absurd joins Bool.false_ne_true
  rintro own ownOther entries others rfl isOther rfl isAnother
  rcases isExplicit with same | ⟨_, _, same, _⟩
  · rcases isInherited with sameToo | ⟨_, _, same, _⟩
    · cases same.trans isOther
      cases sameToo.trans isAnother
      exact .inl rfl
    · cases same
  · cases same

theorem MapsAlike.entries {rel : Option String → Value → Value → Prop} {entries others : Entries}
    (same : ∀ name value, rel name value value)
    (alike : MapsAlike rel (.map entries) (.map others)) : EntriesAlike rel entries others := by
  rcases alike with equal | ⟨_, _, isMap, isOther, alike⟩
  · cases equal
    exact .refl same entries
  · cases isMap
    cases isOther
    exact alike

theorem MapsAlike.eq_of_list {rel : Option String → Value → Value → Prop}
    {items others : List Value} (alike : MapsAlike rel (.list items) (.list others)) :
    items = others := by
  rcases alike with same | ⟨_, _, same, _⟩
  · exact Value.list.inj same
  · cases same

theorem MapsAlike.merge {rel : Option String → Value → Value → Prop}
    (same : ∀ name value, rel name value value)
    (kept : ∀ key explicit other value another, rel key.string? explicit other →
      rel key.string? value another →
        rel key.string? (Raml.merge (isTraitsKey key) explicit value)
          (Raml.merge (isTraitsKey key) other another))
    (isExplicit : MapsAlike rel explicit other) (isInherited : MapsAlike rel value another) :
    MapsAlike rel (Raml.merge traits explicit value) (Raml.merge traits other another) := by
  refine merge_related (fun _ _ => MapsAlike.shape) isExplicit isInherited ?_ ?_
  · rintro own ownOther entries others rfl rfl rfl rfl
    have own := isExplicit.entries same
    exact .inr ⟨_, _, rfl, rfl, own.mergeEntries (isInherited.entries same) kept⟩
  · rintro _ own ownOther items others rfl rfl rfl rfl
    rw [isExplicit.eq_of_list, isInherited.eq_of_list]
    exact .inl rfl

theorem isTraitsKey_of_name {key : Scalar} {name : String} (named : key.string? = some name)
    (different : name ≠ "is") : isTraitsKey key = false :=
  (isTraitsKey_of_string? named).trans (beq_eq_false_iff_ne.mpr different)

theorem readsAlike_refl (value : Value) : ReadsAlike value value := .inl rfl

theorem facetAlike_merge (key : Scalar) (explicit other value another : Value)
    (isExplicit : FacetAlike ReadsAlike key.string? explicit other)
    (isInherited : FacetAlike ReadsAlike key.string? value another) :
    FacetAlike ReadsAlike key.string? (merge (isTraitsKey key) explicit value)
      (merge (isTraitsKey key) other another) := by
  unfold FacetAlike at *
  by_cases isText : key.string?.any (textFields.map Prod.fst).contains = true
  · rw [if_pos isText] at *
    exact isExplicit.merge isInherited
  · rw [if_neg isText] at *
    by_cases isEnum : key.string? = some "enum"
    · rw [if_pos isEnum] at *
      rw [isTraitsKey_of_name isEnum (by decide)]
      exact isExplicit.merge isInherited
    · rw [if_neg isEnum] at *
      rw [isExplicit, isInherited]

/-- The first alternative of joined lists is that of the first of them that has one. -/
theorem firstAlternative_joinReferences (own items : List Value) :
    firstAlternative (.list (joinReferences own items)) =
      if (firstAlternative (.list own)).isMap = true then firstAlternative (.list own)
      else firstAlternative (.list items) := by
  have joined : firstAlternative (.list (joinReferences own items)) =
      ((own.find? Value.isMap).or ((items.filter fun item => !item.isAmong own).find?
        Value.isMap)).getD .null := congrArg (Option.getD · Value.null) List.find?_append
  have isFirst : firstAlternative (.list own) = (own.find? Value.isMap).getD .null := rfl
  rw [joined, isFirst]
  rcases Option.eq_none_or_eq_some (own.find? Value.isMap) with missing | ⟨first, found⟩
  · have kept (item : Value) (isMap : item.isMap = true) : item.isAmong own = false := by
      refine List.any_eq_false.mpr fun other member alike => ?_
      have noMap := List.find?_eq_none.mp missing other member
      cases item with
      | map =>
        cases other with
        | map => exact noMap rfl
        | _ => cases alike
      | _ => cases isMap
    have tests : (fun item : Value => decide ((!item.isAmong own) = true ∧ item.isMap = true)) =
        Value.isMap := by
      funext item
      rw [Bool.eq_iff_iff, decide_eq_true_iff]
      exact ⟨And.right, fun isMap => ⟨by rw [kept item isMap]; rfl, isMap⟩⟩
    rw [missing, Option.getD_none, if_neg (by decide), Option.none_or, List.find?_filter, tests]
    rfl
  · have isMap : first.isMap = true := List.find?_some found
    rw [found, Option.getD_some, if_pos isMap]
    rfl

theorem DeclarationsAlike.firstAlternative {items others : List Value}
    (alike : DeclarationsAlike (.list items) (.list others)) :
    MapsAlike (FacetAlike ReadsAlike) (Raml.firstAlternative (.list items))
      (Raml.firstAlternative (.list others)) := by
  rcases alike with maps | ⟨_, _, alike⟩
  · rw [maps.eq_of_list]
    exact .inl rfl
  · exact alike

theorem DeclarationsAlike.merge (isExplicit : DeclarationsAlike explicit other)
    (isInherited : DeclarationsAlike value another) :
    DeclarationsAlike (Raml.merge traits explicit value) (Raml.merge traits other another) := by
  refine merge_related (fun _ _ => DeclarationsAlike.shape) isExplicit isInherited ?_ ?_
  · rintro own ownOther entries others rfl rfl rfl rfl
    rcases isExplicit with maps | ⟨isList, _⟩
    · rcases isInherited with further | ⟨isList, _⟩
      · have refl := facetAlike_refl readsAlike_refl
        exact .inl (.inr ⟨_, _, rfl, rfl,
          (maps.entries refl).mergeEntries (further.entries refl) facetAlike_merge⟩)
      · cases isList
    · cases isList
  · rintro _ own ownOther items others rfl rfl rfl rfl
    refine .inr ⟨rfl, rfl, ?_⟩
    rw [firstAlternative_joinReferences, firstAlternative_joinReferences,
      isExplicit.firstAlternative.shape.isMap]
    split
    · exact isExplicit.firstAlternative
    · exact isInherited.firstAlternative

theorem memberAlike_merge (key : Scalar) (explicit other value another : Value)
    (isExplicit : MemberAlike ReadsAlike DeclarationsAlike key.string? explicit other)
    (isInherited : MemberAlike ReadsAlike DeclarationsAlike key.string? value another) :
    MemberAlike ReadsAlike DeclarationsAlike key.string? (merge (isTraitsKey key) explicit value)
      (merge (isTraitsKey key) other another) := by
  unfold MemberAlike at *
  by_cases isText : key.string? = some "description"
  · rw [if_pos isText] at *
    exact isExplicit.merge isInherited
  · rw [if_neg isText] at *
    by_cases declares : key.string? = some "headers" ∨ key.string? = some "queryParameters"
    · rw [if_pos declares] at *
      exact MapsAlike.merge (fun _ _ => .inl (.inl rfl))
        (fun _ _ _ _ _ first second => first.merge second) isExplicit isInherited
    · rw [if_neg declares] at *
      rw [isExplicit, isInherited]

end Merging

/-- **Merging keeps methods alike**, and so does merging alike content into them. -/
theorem mergeEntries_alike {method other body another : Entries} (alike : MethodsAlike method other)
    (isBody : MethodsAlike body another) :
    MethodsAlike (mergeEntries method body) (mergeEntries other another) :=
  EntriesAlike.mergeEntries alike isBody memberAlike_merge

/-! ### Extraction -/

section Extraction

variable {facets others : Entries} {value other : Value} {name : String}

theorem ReadsAlike.documentText_eq (alike : ReadsAlike value other) :
    documentText value = documentText other := by
  rcases alike with rfl | ⟨_, _, _, _, _, _, same⟩
  · rfl
  · exact same

theorem ReadsAlike.documentTextValue_eq (alike : ReadsAlike value other) :
    documentTextValue value = documentTextValue other := by
  unfold documentTextValue
  rw [alike.documentText_eq]

/-- Fields are put alike if their facets are nothing alike and read alike. -/
theorem putFields_congr {read : Value → Except Failure Value} {names : List (String × String)}
    {fields : Entries}
    (same : ∀ entry ∈ names, (facets.get entry.1).isNull = (others.get entry.1).isNull ∧
      read (facets.get entry.1) = read (others.get entry.1)) :
    putFields facets read names fields = putFields others read names fields := by
  induction names generalizing fields with
  | nil => rfl
  | cons entry rest ih =>
    obtain ⟨⟨nothing, reads⟩, further⟩ := List.forall_mem_cons.mp same
    unfold putFields at ih ⊢
    rw [List.foldlM_cons, List.foldlM_cons]
    dsimp only
    rw [nothing, reads]
    exact bind_congr fun sofar => ih further

theorem putEnumValues_congr {fields : Entries}
    (alike : ListsAlike ReadsAlike (facets.get "enum") (others.get "enum")) :
    putEnumValues facets fields = putEnumValues others fields := by
  unfold putEnumValues
  rcases alike with same | ⟨items, more, isList, isOther, alike⟩
  · rw [same]
  · have texts : items.mapM documentTextValue = more.mapM documentTextValue := by
      clear isList isOther
      induction alike with
      | nil => rfl
      | cons here _ ih => rw [List.mapM_cons, List.mapM_cons, here.documentTextValue_eq, ih]
    rw [isList, isOther]
    dsimp only [items?]
    rw [texts]
    rfl

theorem parameterOfFacets_congr {requiredDefault : Bool}
    (alike : EntriesAlike (FacetAlike ReadsAlike) facets others) :
    parameterOfFacets requiredDefault facets = parameterOfFacets requiredDefault others := by
  have get (name : String) :
      FacetAlike ReadsAlike (some name) (facets.get name) (others.get name) :=
    alike.get (facetAlike_refl readsAlike_refl _ _)
  have plain : ∀ entry ∈ valueFields ++ [("type", "type")],
      facets.get entry.1 = others.get entry.1 := by
    intro entry member
    have here := get entry.1
    have noText : ∀ entry ∈ valueFields ++ [("type", "type")],
        (textFields.map Prod.fst).contains entry.1 = false ∧ entry.1 ≠ "enum" := by decide
    obtain ⟨noText, noEnum⟩ := noText entry member
    unfold FacetAlike at here
    rw [Option.any_some, noText, if_neg (by decide),
      if_neg fun same => noEnum (Option.some.inj same)] at here
    exact here
  have texts : ∀ entry ∈ textFields, ReadsAlike (facets.get entry.1) (others.get entry.1) := by
    intro entry member
    have here := get entry.1
    have isText : ∀ entry ∈ textFields, (textFields.map Prod.fst).contains entry.1 = true := by
      decide
    unfold FacetAlike at here
    rw [Option.any_some, isText entry member, if_pos rfl] at here
    exact here
  have enums : ListsAlike ReadsAlike (facets.get "enum") (others.get "enum") := get "enum"
  have values (fields : Entries) :
      putFields facets .ok valueFields fields = putFields others .ok valueFields fields :=
    putFields_congr fun entry member => by
      have same := plain entry (List.mem_append_left _ member)
      exact ⟨congrArg Value.isNull same, congrArg Except.ok same⟩
  have kinds (fields : Entries) :
      putFields facets textOfValue [("type", "type")] fields =
        putFields others textOfValue [("type", "type")] fields :=
    putFields_congr fun entry member => by
      have same := plain entry (List.mem_append_right _ member)
      exact ⟨congrArg Value.isNull same, congrArg textOfValue same⟩
  have written (fields : Entries) :
      putFields facets documentTextValue textFields fields =
        putFields others documentTextValue textFields fields :=
    putFields_congr fun entry member =>
      ⟨(texts entry member).shape.isNull, (texts entry member).documentTextValue_eq⟩
  have fields : parameterFields requiredDefault facets =
    parameterFields requiredDefault others := by
    unfold parameterFields
    rw [values]
    refine bind_congr fun plain => ?_
    rw [kinds]
    refine bind_congr fun kind => ?_
    rw [written]
    exact bind_congr fun _ => putEnumValues_congr enums
  unfold parameterOfFacets
  rw [fields]

theorem EntriesAlike.isEmptyLike_eq {rel : Option String → Value → Value → Prop}
    (alike : EntriesAlike rel facets others) :
    (Value.map facets).isEmptyLike = (Value.map others).isEmptyLike := by
  cases alike with
  | nil => rfl
  | cons => rfl

theorem extractParameter_congr {requiredDefault : Bool} (alike : DeclarationsAlike value other) :
    extractParameter requiredDefault value = extractParameter requiredDefault other := by
  have first : MapsAlike (FacetAlike ReadsAlike) (firstAlternative value)
      (firstAlternative other) := by
    rcases alike with (same | ⟨facets, others, rfl, rfl, alike⟩) | ⟨_, _, first⟩
    · exact .inl (congrArg firstAlternative same)
    · exact .inr ⟨facets, others, rfl, rfl, alike⟩
    · exact first
  unfold extractParameter
  rcases first with same | ⟨facets, others, isFacets, isOthers, alike⟩
  · rw [same]
  · rw [isFacets, isOthers]
    dsimp only
    rw [alike.isEmptyLike_eq, parameterOfFacets_congr alike]

theorem mappingEntries_alike {rel : Option String → Value → Value → Prop}
    (alike : EntriesAlike rel facets others) :
    EndAlike (EntriesAlike rel) (mappingEntries (.map facets)) (mappingEntries (.map others)) := by
  unfold mappingEntries
  rw [alike.isEmptyLike_eq]
  split
  · exact .ok .nil
  · exact .ok alike

theorem extractParameters_congr {requiredDefault : Bool}
    (alike : MapsAlike (fun _ => DeclarationsAlike) value other) :
    extractParameters requiredDefault value = extractParameters requiredDefault other := by
  rcases alike with same | ⟨declarations, others, rfl, rfl, alike⟩
  · rw [same]
  · refine ((mappingEntries_alike alike).bind fun entries more related => ?_).eq
    refine EndAlike.foldlM related (Eq.refl []) ?_
    rintro ⟨name, declaration⟩ _ ⟨_, other⟩ ⟨rfl, alike⟩ parameters _ rfl
    dsimp only at alike ⊢
    rw [extractParameter_congr alike]
    exact .refl (fun _ => rfl) _

/-- **Methods that read the same have one description.** -/
theorem extractAction_alike
    (alike : MapsAlike (MemberAlike ReadsAlike DeclarationsAlike) value other) (verb : Verb)
    (path : String) : extractAction verb path value = extractAction verb path other := by
  rcases alike with same | ⟨method, another, rfl, rfl, alike⟩
  · rw [same]
  refine ((mappingEntries_alike alike).bind fun members others alike => ?_).eq
  have get (name : String) : MemberAlike ReadsAlike DeclarationsAlike (some name)
      (members.get name) (others.get name) := alike.get (memberAlike_refl readsAlike_refl _ _)
  have headers : MapsAlike (fun _ => DeclarationsAlike) (members.get "headers")
      (others.get "headers") := get "headers"
  have queryParameters : MapsAlike (fun _ => DeclarationsAlike) (members.get "queryParameters")
      (others.get "queryParameters") := get "queryParameters"
  have description : ReadsAlike (members.get "description") (others.get "description") :=
    get "description"
  rw [extractParameters_congr headers, extractParameters_congr queryParameters,
    description.documentText_eq]
  exact .refl (fun _ => rfl) _

end Extraction

/-! ### Documents with one description -/

section Documents

/-- The resources have one description, wherever they stand. -/
def DescribedAlike (value other : Value) : Prop :=
  ∀ parentPath relativePath,
    extractResource parentPath relativePath value = extractResource parentPath relativePath other

/-- The methods have one description, in every resource. -/
def ActionsAlike (value other : Value) : Prop :=
  ∀ verb path, extractAction verb path value = extractAction verb path other

/-- The members of a resource are alike: the methods have one description, and so have the resources
below; all others are the same. -/
def ResourceMemberAlike (name : Option String) : Value → Value → Prop :=
  if (name.bind Verb.ofWord?).isSome = true then ActionsAlike
  else if (name.filter fun text => text.toList.head? == some '/').isSome = true then DescribedAlike
  else Eq

/-- The entries of the root are alike: the resources have one description, the declared traits may
differ, and all others are the same. -/
def RootMemberAlike (name : Option String) : Value → Value → Prop :=
  if (name.filter fun text => text.toList.head? == some '/').isSome = true then DescribedAlike
  else if name = some "traits" then fun _ _ => True
  else Eq

theorem resourceMemberAlike_refl (name : Option String) (value : Value) :
    ResourceMemberAlike name value value := by
  unfold ResourceMemberAlike
  split
  · exact fun _ _ => rfl
  · split
    · exact fun _ _ => rfl
    · rfl

theorem rootMemberAlike_refl (name : Option String) (value : Value) :
    RootMemberAlike name value value := by
  unfold RootMemberAlike
  split
  · exact fun _ _ => rfl
  · split
    · trivial
    · rfl

variable {rel : Option String → Value → Value → Prop} {members others : Entries} {path : String}
  {key : Scalar} {relative : String}

theorem resourceMemberAlike_of_verbKey? {verb : Verb} (named : verbKey? key = some verb) :
    ResourceMemberAlike key.string? = ActionsAlike :=
  if_pos (Option.isSome_iff_exists.mpr ⟨verb, named⟩)

theorem resourceMemberAlike_of_resourceKey? (named : resourceKey? key = some relative) :
    ResourceMemberAlike key.string? = DescribedAlike := by
  have noVerb : ¬(verbKey? key).isSome = true := by
    rw [verbKey?_of_resourceKey? named]
    exact Bool.false_ne_true
  exact (if_neg noVerb).trans (if_pos (Option.isSome_iff_exists.mpr ⟨relative, named⟩))

theorem rootMemberAlike_of_resourceKey? (named : resourceKey? key = some relative) :
    RootMemberAlike key.string? = DescribedAlike :=
  if_pos (Option.isSome_iff_exists.mpr ⟨relative, named⟩)

theorem extractActions_alike (alike : EntriesAlike ResourceMemberAlike members others) :
    extractActions path members = extractActions path others := by
  unfold extractActions
  induction alike with
  | nil => rfl
  | @cons entry other rest more here _ ih =>
    obtain ⟨key, child⟩ := entry
    obtain ⟨_, another⟩ := other
    obtain ⟨rfl, alike⟩ := here
    rw [List.filterMap_cons, List.filterMap_cons]
    cases named : verbKey? key with
    | none =>
      simp only [named, Option.map_none]
      exact ih
    | some verb =>
      rw [resourceMemberAlike_of_verbKey? named] at alike
      simp only [named, Option.map_some, List.mapM_cons]
      rw [alike verb path, ih]

/-- The resources of two nodes are described alike if those under each key are. -/
theorem extractResources_alike (alike : EntriesAlike rel members others)
    (each : ∀ key relative, resourceKey? key = some relative → rel key.string? = DescribedAlike) :
    extractResources path members = extractResources path others := by
  induction alike with
  | nil => rfl
  | @cons entry other rest more here _ ih =>
    obtain ⟨key, child⟩ := entry
    obtain ⟨_, another⟩ := other
    obtain ⟨rfl, alike⟩ := here
    unfold extractResources at ih ⊢
    unfold extractResource.extractResources
    cases named : resourceKey? key with
    | none => exact ih
    | some relative =>
      rw [each key relative named] at alike
      have below : extractResource path relative child = extractResource path relative another :=
        alike path relative
      dsimp only
      rw [below, ih]

/-- **Resources with alike members have one description.** -/
theorem extractResource_alike (alike : EntriesAlike ResourceMemberAlike members others) :
    DescribedAlike (.map members) (.map others) := by
  intro parentPath relativePath
  have get (name : String) : ResourceMemberAlike (some name) (members.get name) (others.get name) :=
    alike.get (resourceMemberAlike_refl _ _)
  have uriParameters : members.get "uriParameters" = others.get "uriParameters" :=
    get "uriParameters"
  have displayName : members.get "displayName" = others.get "displayName" := get "displayName"
  have description : members.get "description" = others.get "description" := get "description"
  have below : extractResource.extractResources (parentPath ++ relativePath) members =
      extractResource.extractResources (parentPath ++ relativePath) others :=
    extractResources_alike alike fun _ _ => resourceMemberAlike_of_resourceKey?
  unfold extractResource
  dsimp only
  rw [uriParameters, displayName, description, extractActions_alike alike, below]

theorem keyDetails_alike (alike : EntriesAlike rel members others) :
    keyDetails members = keyDetails others := by
  unfold keyDetails
  induction alike with
  | nil => rfl
  | @cons entry other _ _ here _ ih =>
    obtain ⟨key, _⟩ := entry
    obtain ⟨_, _⟩ := other
    obtain ⟨rfl, _⟩ := here
    rw [List.filterMap_cons, List.filterMap_cons, ih]

/-- **Documents with alike entries have one description.** -/
theorem extractDescription_alike {root other : Entries}
    (alike : EntriesAlike RootMemberAlike root other) :
    extractDescription root = extractDescription other := by
  have resources : extractResources "" root = extractResources "" other :=
    extractResources_alike alike fun _ _ => rootMemberAlike_of_resourceKey?
  have get (name : String) : RootMemberAlike (some name) (root.get name) (other.get name) :=
    alike.get (rootMemberAlike_refl _ _)
  have title : root.get "title" = other.get "title" := get "title"
  have version : root.get "version" = other.get "version" := get "version"
  have baseUri : root.get "baseUri" = other.get "baseUri" := get "baseUri"
  have mediaType : root.get "mediaType" = other.get "mediaType" := get "mediaType"
  unfold extractDescription
  rw [resources, keyDetails_alike alike, title, version, baseUri, mediaType]

end Documents

end RamlInterfaces.Raml
