/-
**Documents without problems are those of the grammar.**

What is checked of a member of a mapping is what its key says of it, from references to methods and
to resources at any depth.  The place of a named parameter is told by the text of its key, so a key
that has none ends the check of a document that is in the grammar.

* `referenceProblems_eq_nil_iff`, `actionProblems_eq_nil_iff`, `resourceProblems_eq_nil_iff`: the
  nodes without problems, from references to resources;
* `InGrammar`: the documents of the grammar;
* `problems_eq_nil_iff`: **a document has no problems exactly if it is one of them and the names of
  its parameters can be written**;
* `problems_vastName`: a document of the grammar whose check fails.
-/

import RamlInterfaces.Proofs.Raml.Grammar

namespace RamlInterfaces.Raml

variable {names : Scalar → Prop} {templates : Templates} {symbol inner : Symbol} {key : Scalar}
  {value : Value} {path : String}

/-! ### References -/

/-- A name of a template is known if it can be written and is declared. -/
theorem undeclaredProblems_eq_nil_iff {kind : TemplateKind} :
    undeclaredProblems templates kind path value = .ok [] ↔
      ∃ reference, Reference.ofValue? value = some reference ∧
        (templates.ofKind kind).has (.text reference.name) = true := by
  unfold undeclaredProblems
  rw [bind_eq_ok_iff]
  refine exists_congr fun reference => ?_
  rw [written_eq_ok_iff]
  exact and_congr_right fun _ => unless_eq_nil_iff

theorem toText?_of_string? {text : String} (isText : value.string? = some text) :
    value.toText? = some text := by
  cases value with
  | scalar s => exact Scalar.toText?_of_string? isText
  | _ => cases isText

/-- A name that is no mapping refers to the template of that name. -/
theorem ofValue?_of_string? {text : String} (isText : value.string? = some text) :
    Reference.ofValue? value = some ⟨text, []⟩ := by
  cases value with
  | scalar s => exact congrArg (Option.map _) (toText?_of_string? isText)
  | _ => cases isText

/-- The arguments of a reference are nothing or a mapping. -/
theorem argumentProblems_eq_nil_iff {kind : TemplateKind} :
    argumentProblems kind path key value = .ok [] ↔ (value.isNull || value.isMap) = true := by
  unfold argumentProblems
  split
  · exact iff_of_true rfl ‹_›
  · refine iff_of_false (fun nothing => ?_) ‹_›
    obtain ⟨_, _, nothing⟩ := Findings.atKey_eq_nil_iff.mp nothing
    exact complain_ne_nil _ _ nothing

/-- **A reference without problems** is a name or a mapping from one name to arguments, and the name
is declared. -/
theorem referenceProblems_eq_nil_iff {kind : TemplateKind} :
    referenceProblems templates kind path value = .ok [] ↔
      Derives IsNameable templates (.reference kind) value := by
  unfold referenceProblems
  split
  · rename_i key arguments
    rw [Findings.append_eq_nil_iff, undeclaredProblems_eq_nil_iff, argumentProblems_eq_nil_iff]
    unfold Reference.ofValue?
    constructor
    · rintro ⟨fits, reference, isReference, declared⟩
      obtain ⟨name, named, rfl⟩ := Option.map_eq_some_iff.mp isReference
      exact .application fits named declared
    · intro derived
      cases derived with
      | application fits named declared => exact ⟨fits, _, congrArg (Option.map _) named, declared⟩
      | name named => cases named
      | mapping isMapping => cases isMapping
  · rename_i several
    refine iff_of_false (complain_ne_nil _ _) fun derived => ?_
    cases derived with
    | application => exact several _ _ rfl
    | name named => cases named
    | mapping isMapping => cases isMapping
  · rename_i noMapping
    have named_iff : Derives IsNameable templates (.reference kind) value ↔
        ∃ name, value.string? = some name ∧
          (templates.ofKind kind).has (.text name) = true := by
      constructor
      · intro derived
        cases derived with
        | name named declared => exact ⟨_, named, declared⟩
        | application => exact absurd rfl (noMapping _)
        | nothing isMapping | mapping isMapping => cases isMapping
      · rintro ⟨name, named, declared⟩
        exact .name named declared
    rw [named_iff]
    split
    · rename_i isText
      obtain ⟨name, named⟩ := Option.isSome_iff_exists.mp isText
      rw [undeclaredProblems_eq_nil_iff, ofValue?_of_string? named, named]
      simp
    · rename_i noText
      refine iff_of_false (complain_ne_nil _ _) ?_
      rintro ⟨name, named, _⟩
      rw [named] at noText
      exact noText rfl

/-- **References to traits without problems.** -/
theorem traitProblems_eq_nil_iff :
    traitProblems templates path value = .ok [] ↔ Derives IsNameable templates .traits value := by
  unfold traitProblems
  split
  · rename_i references
    rw [Findings.inEach_eq_nil_iff]
    constructor
    · intro fine
      exact .traits fun reference member => referenceProblems_eq_nil_iff.mp (fine reference member)
    · intro derived reference member
      rw [referenceProblems_eq_nil_iff]
      cases derived with
      | traits each => exact each reference member
      | trait one =>
        cases one with
        | name named => cases named
  · rename_i noList
    rw [referenceProblems_eq_nil_iff]
    constructor
    · exact .trait
    · intro derived
      cases derived with
      | trait one => exact one
      | traits => exact absurd rfl (noList _)
      | nothing isMapping | mapping isMapping => cases isMapping

/-! ### Methods and resources -/

theorem isOneOf_iff {words : List String} :
    isOneOf words key = true ↔ ∃ name ∈ words, key.string? = some name := by
  unfold isOneOf
  cases key.string? with
  | none => simp
  | some text => simp

/-- The member under one of some names, all of which say the same. -/
theorem belongs_iff_of_isOneOf {words : List String} (isWord : isOneOf words key = true)
    (each : ∀ name ∈ words, (name, inner) ∈ symbol.members) :
    Belongs IsNameable templates symbol (key, value) ↔
      Derives IsNameable templates inner value := by
  obtain ⟨name, isIn, named⟩ := isOneOf_iff.mp isWord
  exact (Member.listed named (each name isIn)).belongs_iff

theorem isOneOf_of_listed {name : String} (named : key.string? = some name)
    (isListed : (name, inner) ∈ symbol.members) :
    isOneOf (symbol.members.map Prod.fst) key = true :=
  isOneOf_iff.mpr ⟨name, List.mem_map_of_mem isListed, named⟩

/-- **A member of a method without problems** is one that methods may have, and what it says. -/
theorem actionMemberProblems_eq_nil_iff :
    actionMemberProblems templates path key value = .ok [] ↔
      Belongs IsNameable templates .method (key, value) := by
  unfold actionMemberProblems
  split
  · rename_i isParameters
    rw [belongs_iff_of_isOneOf isParameters (by decide : ∀ name ∈ _, (name, Symbol.parameters) ∈ _)]
    exact parametersProblems_eq_nil_iff
  rename_i noParameters
  split
  · rename_i isTraits
    rw [belongs_iff_of_isOneOf isTraits (by decide : ∀ name ∈ _, (name, Symbol.traits) ∈ _)]
    exact traitProblems_eq_nil_iff
  rename_i noTraits
  split
  · rename_i isScalar
    rw [belongs_iff_of_isOneOf isScalar (by decide : ∀ name ∈ _, (name, Symbol.scalar) ∈ _)]
    exact scalarProblems_eq_nil_iff
  rename_i noScalar
  split
  · rename_i isKnown
    obtain ⟨name, isIn, named⟩ := isOneOf_iff.mp isKnown
    have free : ∀ name ∈ actionKeys, name ∈ ["headers", "queryParameters", "baseUriParameters"] ∨
        name ∈ ["is"] ∨ name ∈ ["description"] ∨ (name, .anything) ∈ Symbol.method.members := by
      decide
    rcases free name isIn with one | one | one | isListed
    · exact absurd (isOneOf_iff.mpr ⟨name, one, named⟩) noParameters
    · exact absurd (isOneOf_iff.mpr ⟨name, one, named⟩) noTraits
    · exact absurd (isOneOf_iff.mpr ⟨name, one, named⟩) noScalar
    · exact iff_of_true rfl ⟨.anything, .listed named isListed, .anything⟩
  · rename_i unknown
    refine iff_of_false (complain_ne_nil _ _) ?_
    rintro ⟨inner, member, _⟩
    cases member with
    | listed named isListed => exact unknown (isOneOf_of_listed named isListed)

/-- **A method without problems** is nothing or a mapping of members that methods may have. -/
theorem actionProblems_eq_nil_iff :
    actionProblems templates path value = .ok [] ↔ Derives IsNameable templates .method value := by
  cases value with
  | map members =>
    exact inEach_eq_nil_iff_derives rfl fun _ _ _ => actionMemberProblems_eq_nil_iff
  | scalar s =>
    cases s with
    | null => exact iff_of_true rfl (.nothing rfl)
    | _ => exact complain_iff_of_other rfl (by rintro ⟨⟩) rfl (by rintro ⟨⟩)
  | _ => exact complain_iff_of_other rfl (by rintro ⟨⟩) rfl (by rintro ⟨⟩)

/-- **A member of a resource that is no resource itself.** -/
theorem resourceMemberProblems_eq_nil_iff (noPath : resourceKey? key = none) :
    resourceMemberProblems templates path key value = .ok [] ↔
      Belongs IsNameable templates .resource (key, value) := by
  unfold resourceMemberProblems
  split
  · rename_i isVerb
    rw [(Member.of_verbKey? isVerb).belongs_iff]
    exact actionProblems_eq_nil_iff
  rename_i noVerb
  split
  · rename_i isParameters
    rw [belongs_iff_of_isOneOf isParameters (by decide : ∀ name ∈ _, (name, Symbol.parameters) ∈ _)]
    exact parametersProblems_eq_nil_iff
  rename_i noParameters
  split
  · rename_i isType
    rw [belongs_iff_of_isOneOf isType
      (by decide : ∀ name ∈ _, (name, Symbol.reference .resourceType) ∈ _)]
    exact referenceProblems_eq_nil_iff
  rename_i noType
  split
  · rename_i isTraits
    rw [belongs_iff_of_isOneOf isTraits (by decide : ∀ name ∈ _, (name, Symbol.traits) ∈ _)]
    exact traitProblems_eq_nil_iff
  rename_i noTraits
  split
  · rename_i isScalar
    rw [belongs_iff_of_isOneOf isScalar (by decide : ∀ name ∈ _, (name, Symbol.scalar) ∈ _)]
    exact scalarProblems_eq_nil_iff
  rename_i noScalar
  split
  · rename_i isKnown
    obtain ⟨name, isIn, named⟩ := isOneOf_iff.mp isKnown
    have free : ∀ name ∈ resourceKeys, name ∈ ["uriParameters", "baseUriParameters"] ∨
        name ∈ ["type"] ∨ name ∈ ["is"] ∨ name ∈ ["displayName", "description"] ∨
          (name, .anything) ∈ Symbol.resource.members := by
      decide
    rcases free name isIn with one | one | one | one | isListed
    · exact absurd (isOneOf_iff.mpr ⟨name, one, named⟩) noParameters
    · exact absurd (isOneOf_iff.mpr ⟨name, one, named⟩) noType
    · exact absurd (isOneOf_iff.mpr ⟨name, one, named⟩) noTraits
    · exact absurd (isOneOf_iff.mpr ⟨name, one, named⟩) noScalar
    · exact iff_of_true rfl ⟨.anything, .listed named isListed, .anything⟩
  · rename_i unknown
    have noMember : ¬ Belongs IsNameable templates .resource (key, value) := by
      rintro ⟨inner, member, _⟩
      cases member with
      | listed named isListed => exact unknown (isOneOf_of_listed named isListed)
      | verb named =>
        exact noVerb (Option.isSome_of_eq_some (verbKey?_eq_some_iff.mpr named))
      | path named slash => cases noPath.symm.trans (resourceKey?_eq_some_iff.mpr ⟨named, slash⟩)
    split
    · exact iff_of_false (complain_ne_nil _ _) noMember
    · exact iff_of_false (complain_ne_nil _ _) noMember

mutual

/-- **A resource without problems** is nothing or a mapping of members that resources may have. -/
theorem resourceProblems_eq_nil_iff (path : String) : (value : Value) →
    (resourceProblems templates path value = .ok [] ↔ Derives IsNameable templates .resource value)
  | .map members => by
    unfold resourceProblems
    rw [memberProblems_eq_nil_iff path members, derives_map_iff rfl]
  | .scalar s => by
    cases s with
    | null => exact iff_of_true rfl (.nothing rfl)
    | _ => exact complain_iff_of_other rfl (by rintro ⟨⟩) rfl (by rintro ⟨⟩)
  | .list _ | .set _ | .pair _ _ =>
    complain_iff_of_other rfl (by rintro ⟨⟩) rfl (by rintro ⟨⟩)

theorem memberProblems_eq_nil_iff (path : String) : (members : Entries) →
    (resourceProblems.memberProblems templates path members = .ok [] ↔
      ∀ entry ∈ members, Belongs IsNameable templates .resource entry)
  | [] => iff_of_true rfl fun _ member => absurd member List.not_mem_nil
  | (key, child) :: rest => by
    unfold resourceProblems.memberProblems
    rw [Findings.append_eq_nil_iff, List.forall_mem_cons, memberProblems_eq_nil_iff path rest]
    refine and_congr_left fun _ => ?_
    cases named : resourceKey? key with
    | none =>
      refine Findings.atKey_eq_nil_iff.trans ⟨?_, fun belongs => ?_⟩
      · rintro ⟨name, _, nothing⟩
        exact (resourceMemberProblems_eq_nil_iff named).mp nothing
      · obtain ⟨inner, member, -⟩ := id belongs
        obtain ⟨name, isText⟩ := member.isNameable
        exact ⟨name, isText, (resourceMemberProblems_eq_nil_iff named).mpr belongs⟩
    | some relative =>
      rw [(Member.of_resourceKey? named).belongs_iff]
      exact resourceProblems_eq_nil_iff (path ++ relative) child

end

/-! ### Documents -/

/-- A title is a scalar that is something, and no blank text. -/
structure IsTitle (title : Value) : Prop where
  isScalar : title.isScalar = true
  something : title.isNull = false
  shown : ∀ text, title.string? = some text → ∃ c ∈ text.toList, Text.isBlank c = false

/-- Templates are declared by a mapping or a list of mappings, if at all, and the body that is left
for each name is a mapping. -/
structure DeclaresTemplates (value : Value) : Prop where
  shape : value.isNull = true ∨ value.isMap = true ∨
    ∃ items, value = .list items ∧ ∀ item ∈ items, item.isMap = true
  bodies : ∀ entry ∈ namedTemplates value, entry.2.isMap = true

/-- The documents of the grammar, in which named parameters may have such keys. -/
structure InGrammar (names : Scalar → Prop) (root : Entries) : Prop where
  title : IsTitle (root.get "title")
  baseUri : (root.get "baseUri").isNull = true ∨ ∃ text, (root.get "baseUri").string? = some text
  traits : DeclaresTemplates (root.get "traits")
  resourceTypes : DeclaresTemplates (root.get "resourceTypes")
  baseUriParameters : Derives names (Templates.ofRoot root) .parameters
    (root.get "baseUriParameters")
  uriParameters : Derives names (Templates.ofRoot root) .parameters (root.get "uriParameters")
  /-- A key of the root is a known one, or it begins with a slash and its value is a resource. -/
  members : ∀ entry ∈ root, (∃ name ∈ rootKeys, entry.1.string? = some name) ∨
    ∃ name, entry.1.string? = some name ∧ name.toList.head? = some '/' ∧
      Derives names (Templates.ofRoot root) .resource entry.2

theorem titleProblems_eq_nil_iff : titleProblems value = .ok [] ↔ IsTitle value := by
  unfold titleProblems
  split
  · refine iff_of_false (complain_ne_nil _ _) fun isTitle => ?_
    cases isTitle.something
  · rename_i s something
    have isNull : (Value.scalar s).isNull = false := by
      cases s with
      | null => exact absurd rfl something
      | _ => rfl
    split
    · rename_i text named
      have isScalar : (Value.scalar s).isScalar = true := by
        cases s with
        | text | included => rfl
        | _ => cases named
      split
      · rename_i blank
        refine iff_of_false (complain_ne_nil _ _) fun isTitle => ?_
        obtain ⟨c, inside, noBlank⟩ := isTitle.shown text named
        cases (List.all_eq_true.mp blank c inside).symm.trans noBlank
      · rename_i shown
        refine iff_of_true rfl ⟨isScalar, isNull, fun other isOther => ?_⟩
        obtain rfl : text = other := Option.some.inj (named.symm.trans isOther)
        simpa [Text.isAllBlank] using shown
    · rename_i noText
      rw [scalarProblems_eq_nil_iff_isScalar]
      refine ⟨fun isScalar => ⟨isScalar, isNull, fun text named => ?_⟩, IsTitle.isScalar⟩
      cases noText.symm.trans named
  · rename_i noNull noScalar
    rw [scalarProblems_eq_nil_iff_isScalar]
    refine ⟨fun isScalar => ⟨isScalar, ?_, fun text named => ?_⟩, IsTitle.isScalar⟩
    · cases value with
      | scalar s => exact absurd rfl (noScalar s)
      | _ => rfl
    · cases value with
      | scalar s => exact absurd rfl (noScalar s)
      | _ => cases named

theorem bodyProblems_eq_nil_iff {name : String} :
    bodyProblems name key value = .ok [] ↔ value.isMap = true := by
  unfold bodyProblems
  split
  · exact iff_of_true rfl ‹_›
  · refine iff_of_false (fun nothing => ?_) ‹_›
    obtain ⟨_, _, nothing⟩ := Findings.atKey_eq_nil_iff.mp nothing
    exact complain_ne_nil _ _ nothing

theorem templateProblems_eq_nil_iff {name : String} :
    templateProblems name value = .ok [] ↔ DeclaresTemplates value := by
  unfold templateProblems
  dsimp only
  split
  · exact iff_of_true rfl ⟨.inl rfl, fun _ member => absurd member List.not_mem_nil⟩
  · rename_i items
    rw [Findings.append_eq_nil_iff, Findings.inEach_eq_nil_iff, Findings.inEach_eq_nil_iff]
    simp only [unless_eq_nil_iff, bodyProblems_eq_nil_iff]
    constructor
    · rintro ⟨entries, bodies⟩
      exact ⟨.inr (.inr ⟨items, rfl, entries⟩), bodies⟩
    · rintro ⟨shape, bodies⟩
      rcases shape with isNull | isMap | ⟨_, same, entries⟩
      · cases isNull
      · cases isMap
      · cases same
        exact ⟨entries, bodies⟩
  · rename_i entries
    rw [Findings.inEach_eq_nil_iff]
    simp only [bodyProblems_eq_nil_iff]
    exact ⟨fun bodies => ⟨.inr (.inl rfl), bodies⟩, DeclaresTemplates.bodies⟩
  · rename_i noNull noList noMap
    refine iff_of_false (complain_ne_nil _ _) fun declares => ?_
    rcases declares.shape with isNull | isMap | ⟨items, rfl, _⟩
    · cases value with
      | scalar s =>
        cases s with
        | null => exact noNull rfl
        | _ => cases isNull
      | _ => cases isNull
    · cases value with
      | map entries => exact noMap entries rfl
      | _ => cases isMap
    · exact noList items rfl

/-- No known key of the root is a path. -/
theorem head?_of_mem_rootKeys : ∀ name ∈ rootKeys, name.toList.head? ≠ some '/' := by
  decide

theorem entryProblems_eq_nil_iff : entryProblems templates key value = .ok [] ↔
    (∃ name ∈ rootKeys, key.string? = some name) ∨ ∃ name, key.string? = some name ∧
      name.toList.head? = some '/' ∧ Derives IsNameable templates .resource value := by
  unfold entryProblems
  split
  · rename_i relative named
    obtain ⟨isPath, slash⟩ := resourceKey?_eq_some_iff.mp named
    rw [resourceProblems_eq_nil_iff]
    constructor
    · exact fun derived => .inr ⟨relative, isPath, slash, derived⟩
    · rintro (⟨name, known, isName⟩ | ⟨_, _, _, derived⟩)
      · obtain rfl : relative = name := Option.some.inj (isPath.symm.trans isName)
        exact absurd slash (head?_of_mem_rootKeys relative known)
      · exact derived
  · rename_i noResource
    have noMember : ¬ ∃ name, key.string? = some name ∧ name.toList.head? = some '/' ∧
        Derives IsNameable templates .resource value := by
      rintro ⟨name, named, slash, _⟩
      cases noResource.symm.trans (resourceKey?_eq_some_iff.mpr ⟨named, slash⟩)
    rw [or_iff_left noMember, ← isOneOf_iff]
    split
    · exact iff_of_true rfl ‹_›
    · refine iff_of_false (fun nothing => ?_) ‹_›
      obtain ⟨_, _, nothing⟩ := Findings.atKey_eq_nil_iff.mp nothing
      exact complain_ne_nil _ _ nothing

theorem baseUriProblems_eq_nil_iff :
    (if value.isNull || value.string?.isSome then .ok [] else complain path .notText) = .ok [] ↔
      value.isNull = true ∨ ∃ text, value.string? = some text := by
  rw [unless_eq_nil_iff, Bool.or_eq_true, Option.isSome_iff_exists]

/-- **A document has no problems exactly if it is in the grammar** and the names of its parameters
can be written. -/
theorem problems_eq_nil_iff (root : Entries) :
    problems root = .ok [] ↔ InGrammar IsNameable root := by
  have parameters (path : String) (value : Value) : parametersProblems path value = .ok [] ↔
      Derives IsNameable (Templates.ofRoot root) .parameters value := parametersProblems_eq_nil_iff
  simp only [problems, Findings.append_eq_nil_iff, Findings.inEach_eq_nil_iff,
    titleProblems_eq_nil_iff, baseUriProblems_eq_nil_iff, templateProblems_eq_nil_iff, parameters,
    entryProblems_eq_nil_iff]
  constructor
  · rintro ⟨⟨⟨⟨⟨⟨title, baseUri⟩, traits⟩, resourceTypes⟩, baseUriParameters⟩, uriParameters⟩,
    members⟩
    exact { title, baseUri, traits, resourceTypes, baseUriParameters, uriParameters, members }
  · intro inGrammar
    exact ⟨⟨⟨⟨⟨⟨inGrammar.title, inGrammar.baseUri⟩, inGrammar.traits⟩, inGrammar.resourceTypes⟩,
      inGrammar.baseUriParameters⟩, inGrammar.uriParameters⟩, inGrammar.members⟩

/-- A document with one named parameter. -/
def withParameter (key : Scalar) : Entries :=
  [(.text "title", .text "t"), (.text "baseUriParameters", .map [(key, .map [])])]

theorem inGrammar_withParameter : InGrammar (fun _ => True) (withParameter key) where
  title := ⟨rfl, rfl, fun text same => ⟨'t', by cases same; decide, by decide⟩⟩
  baseUri := .inl rfl
  traits := ⟨.inl rfl, nofun⟩
  resourceTypes := ⟨.inl rfl, nofun⟩
  baseUriParameters := (derives_map_iff rfl).mpr
    (List.forall_mem_singleton.mpr ⟨.parameter, .parameter trivial, .mapping rfl nofun nofun⟩)
  uriParameters := .nothing rfl
  members := List.forall_mem_cons.mpr ⟨.inl ⟨"title", by decide, rfl⟩,
    List.forall_mem_singleton.mpr (.inl ⟨"baseUriParameters", by decide, rfl⟩)⟩

/-- A parameter whose name cannot be written ends the check. -/
theorem problems_withParameter (noText : key.toText? = none) :
    problems (withParameter key) = .error (.defect .tooManyDigits) := by
  have failed : parametersProblems "baseUriParameters" (.map [(key, .map [])]) =
      .error (.defect .tooManyDigits) := by
    unfold parametersProblems inEach atKey
    dsimp only
    rw [noText]
    rfl
  show _ ++ parametersProblems "baseUriParameters" (.map [(key, .map [])]) ++ _ ++ _ =
    Except.error (.defect .tooManyDigits)
  rw [failed]
  rfl

/-- **A document of the grammar whose problems cannot be told**: a parameter has an integer of too
many digits for its name. -/
theorem problems_vastName : InGrammar (fun _ => True) (withParameter (.int Number.vast)) ∧
    problems (withParameter (.int Number.vast)) = .error (.defect .tooManyDigits) :=
  ⟨inGrammar_withParameter, problems_withParameter toText?_vast⟩

end RamlInterfaces.Raml
