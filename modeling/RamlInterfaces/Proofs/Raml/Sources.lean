/-
**The references to traits that a resource gathers.**

A method and its resource may refer to traits in the document and in the types of the resources on
the way.  The references are written as a list or as a single one, and what the sources have is
merged as any other content, save that lists are joined: where one source has a list and another one
a single reference, or two have different single ones, only one of them is kept.

* `Written`, `Refers`: what the sources have at a path, and the references in it;
* `SourcesAgree`: the sources use one form, and references that are alike mean the same;
* `collects_references`: merging values of one form loses no reference;
* `gathered_fits`, `gathered_holds`: **where the sources agree, the resource has the references of
  all of them**, or references alike.
-/

import RamlInterfaces.Proofs.Raml.Mention
import RamlInterfaces.Proofs.Raml.Stops

namespace RamlInterfaces.Raml

/-! ### References and their sources -/

/-- A member of a type may come to stand under a name, or be merged into what does: question marks
at the end of its key do not count. -/
def MayStandUnder (key : Scalar) (name : String) : Prop := key.string?.map stem = some (stem name)

/-- A member of a type comes to stand under a name in a resource with the given content: it is not
optional, or it is a method that the resource has. -/
def StandsUnder (declared : Entries) (key : Scalar) (name : String) : Prop :=
  key.string? = some name ∧ optionalKey? key = none ∨
    optionalKey? key = some name ∧ (Verb.ofWord? name).isSome = true ∧
      declared.has (.text name) = true

/-- A value is written for a path inside the resource at a place: in the document, or in a type of a
resource on the way there.  `counts` says which members of a type count. -/
inductive Written (root : Entries) (counts : Entries → Scalar → String → Prop)
    (place tail : List String) (value : Value) : Prop where
  | declared (found : (Value.map root).at? ((place ++ tail).map .text) = some value)
  | inherited {stop : Stop} {body : Entries} {key : Scalar} {child : Value} {name : String}
    {rest : List String} (passes : Passes (Templates.ofRoot root) "" root place stop)
    (hasType : stop.HasType (Templates.ofRoot root) body) (member : (key, child) ∈ body)
    (counts : counts stop.declared key name) (ahead : stop.ahead ++ tail = name :: rest)
    (found : child.at? (rest.map .text) = some value)

/-- The paths to the references of a resource and of a method. -/
def referencePaths (verb : Verb) : List (List String) := [["is"], [verb.word, "is"]]

/-- A method of the resource at a place, or the resource, refers to a trait. -/
def Refers (root : Entries) (counts : Entries → Scalar → String → Prop) (place : List String)
    (verb : Verb) (reference : Value) : Prop :=
  ∃ tail ∈ referencePaths verb, ∃ value, Written root counts place tail value ∧
    reference ∈ referenceList value

/-- The content that a reference gives a method of the resource at a place. -/
def traitAt (root : Entries) (place : List String) (verb : Verb) (reference : Value) :
    Except Failure Entries :=
  traitBody (Templates.ofRoot root) (methodArguments (pathOf place) verb.word) reference

/-- The forms in which references are written: lists, or one and the same single value. -/
inductive Form where
  | list
  | single (value : Value)

/-- The value is written in the form. -/
def Form.Admits : Form → Value → Prop
  | .list, value => value.isList = true
  | .single same, value => value = same

/-- A type has mappings or nothing for the methods and resources in it. -/
def PlainType (body : Entries) : Prop := ∀ entry ∈ body,
  (Role.of entry.1.string? = .method → entry.2 = .null ∨ ∃ members, entry.2 = .map members) ∧
  (Role.of entry.1.string? = .resource → PlainResource entry.2)

/-- The sources of a method's references agree: what they have for the method, and for its resource,
is nothing or of one form; the types have mappings on the way there; and references that count as
the same give the same content. -/
structure SourcesAgree (root : Entries) (place : List String) (verb : Verb) : Prop where
  form : ∀ tail ∈ referencePaths verb, ∃ form : Form, ∀ value,
    Written root (fun _ => MayStandUnder) place tail value → value = .null ∨ form.Admits value
  plain : ∀ stop body, Passes (Templates.ofRoot root) "" root place stop →
    stop.HasType (Templates.ofRoot root) body → PlainType body
  alike : ∀ first second, Refers root (fun _ => MayStandUnder) place verb first →
    Refers root (fun _ => MayStandUnder) place verb second → second.alike first = true →
      traitAt root place verb second = traitAt root place verb first

variable {root body own entries : Entries} {place rest tail : List String} {verb : Verb}
  {value reference child : Value} {name : String} {key : Scalar} {form : Form}
  {fits means same : Value → Prop}

/-! ### Joining references of one form -/

/-- A value in the form, in which no key comes twice and every reference means something. -/
def FitsForm (form : Form) (means : Value → Prop) (value : Value) : Prop :=
  value = .null ∨
    Keyed value ∧ form.Admits value ∧ ∀ reference ∈ referenceList value, means reference

theorem mem_joinReferences {items further : List Value} {item : Value}
    (member : item ∈ joinReferences items further) : item ∈ items ∨ item ∈ further := by
  rcases List.mem_append.mp member with isOwn | isFurther
  · exact .inl isOwn
  · exact .inr (List.mem_filter.mp isFurther).1

/-- Two values of one form are merged into one of them, or are lists. -/
theorem FitsForm.merge_cases {explicit inherited : Value}
    (isExplicit : FitsForm form means explicit)
    (isInherited : FitsForm form means inherited) (traits : Bool) :
    explicit = .null ∧ merge traits explicit inherited = inherited ∨
      merge traits explicit inherited = explicit ∧
        (traits = true → inherited = .null ∨ inherited = explicit) ∨
      ∃ items further, form = .list ∧ explicit = .list items ∧ inherited = .list further ∧
        merge traits explicit inherited = .list (joinReferences items further) := by
  rcases isExplicit with rfl | ⟨keyed, admits, -⟩
  · exact .inl ⟨rfl, merge_null_left traits inherited⟩
  rcases isInherited with rfl | ⟨-, alsoAdmits, -⟩
  · exact .inr (.inl ⟨merge_null_right traits explicit, fun _ => .inl rfl⟩)
  refine .inr ?_
  cases form with
  | list =>
    cases explicit with
    | list items =>
      cases inherited with
      | list further =>
        cases traits with
        | true => exact .inr ⟨items, further, rfl, rfl, rfl, rfl⟩
        | false => exact .inl ⟨rfl, fun isTraits => absurd isTraits Bool.false_ne_true⟩
      | _ => cases alsoAdmits
    | _ => cases admits
  | single same =>
    have equal : inherited = explicit := alsoAdmits.trans (Eq.symm admits)
    rw [equal]
    exact .inl ⟨(absorbs_self traits explicit keyed).merge_eq, fun _ => .inr rfl⟩

/-- Lists in the form, joined, are in the form. -/
theorem FitsForm.join {items further : List Value} (isExplicit : FitsForm .list means (.list items))
    (isInherited : FitsForm .list means (.list further)) :
    FitsForm .list means (.list (joinReferences items further)) := by
  rcases isExplicit with nothing | ⟨keyed, -, each⟩
  · cases nothing
  rcases isInherited with nothing | ⟨alsoKeyed, -, others⟩
  · cases nothing
  refine .inr ⟨keyed_list_iff.mpr fun item member => ?_, rfl, fun reference member => ?_⟩
  · rcases mem_joinReferences member with isOwn | isFurther
    · exact keyed_list_iff.mp keyed item isOwn
    · exact keyed_list_iff.mp alsoKeyed item isFurther
  · rcases mem_joinReferences member with isOwn | isFurther
    · exact each reference isOwn
    · exact others reference isFurther

theorem FitsForm.each (isValue : FitsForm form means value)
    (member : reference ∈ referenceList value) : means reference := by
  rcases isValue with rfl | ⟨-, -, each⟩
  · cases member
  · exact each reference member

/-- **Merging values of one form loses no reference**: each is there, or one alike that is the same
for the purpose. -/
theorem collects_references (agree : ∀ first second, means first → means second →
    second.alike first = true → same first → same second) :
    Collects (FitsForm form means) fun value =>
      ∃ reference ∈ referenceList value, same reference where
  nothing := .inl rfl
  merge := by
    intro traits explicit inherited isExplicit isInherited
    rcases isExplicit.merge_cases isInherited traits with ⟨-, becomes⟩ | ⟨stays, -⟩ |
      ⟨own, items, rfl, rfl, rfl, joined⟩
    · rw [becomes]
      exact isInherited
    · rw [stays]
      exact isExplicit
    · rw [joined]
      exact isExplicit.join isInherited
  keeps := by
    rintro traits explicit inherited isExplicit isInherited ⟨reference, member, isSame⟩
    rcases isExplicit.merge_cases isInherited traits with ⟨rfl, -⟩ | ⟨stays, -⟩ |
      ⟨own, items, -, rfl, rfl, joined⟩
    · cases member
    · rw [stays]
      exact ⟨reference, member, isSame⟩
    · rw [joined]
      exact ⟨reference, List.mem_append_left _ member, isSame⟩
  takes := by
    rintro explicit inherited isExplicit isInherited ⟨reference, member, isSame⟩
    rcases isExplicit.merge_cases isInherited true with ⟨-, becomes⟩ | ⟨stays, equal⟩ |
      ⟨own, items, -, rfl, rfl, joined⟩
    · rw [becomes]
      exact ⟨reference, member, isSame⟩
    · rcases equal rfl with rfl | rfl
      · cases member
      · rw [stays]
        exact ⟨reference, member, isSame⟩
    rw [joined]
    rcases mem_joinReferences_or_alike member with joins | ⟨other, isOther, alike⟩
    · exact ⟨reference, joins, isSame⟩
    · refine ⟨other, List.mem_append_left _ isOther, ?_⟩
      exact agree reference other (isInherited.each member) (isExplicit.each isOther) alike isSame

/-! ### Ways through mappings -/

/-- What stands at a path has no key twice, if the whole has none. -/
theorem keyed_at? {path : List Scalar} (keyed : Keyed value) (found : value.at? path = some child) :
    Keyed child := by
  induction path generalizing value with
  | nil =>
    rw [Value.at?_nil, Option.some.injEq] at found
    exact found ▸ keyed
  | cons key rest ih =>
    obtain ⟨entries, next, rfl, isNext, inside⟩ := Value.at?_cons_eq_some_iff.mp found
    exact ih ((keyed_map_iff.mp keyed).2.find? isNext) inside

/-- Where no key comes twice, a mapping leads along a path if what is found under its first name
does. -/
theorem fitsAlong_of_find? (distinct : Distinct own)
    (each : ∀ child, own.find? (.text name) = some child → FitsAlong fits rest child) :
    FitsAlong fits (name :: rest) (.map own) := by
  refine fitsAlong_map_iff.mpr fun (key, child) member named => each child ?_
  rw [← find?_of_string? named]
  exact find?_of_mem distinct member

theorem at?_of_find? {path : List String} {inner : Value}
    (found : own.find? (.text name) = some child)
    (inside : child.at? (path.map .text) = some inner) :
    (Value.map own).at? ((name :: path).map .text) = some inner :=
  Value.at?_cons_eq_some_iff.mpr ⟨own, child, rfl, found, inside⟩

/-- A method leads to its references. -/
theorem fitsAlong_method (plain : value = .null ∨ ∃ members, value = .map members)
    (keyed : Keyed value)
    (each : ∀ inner, value.at? (["is"].map .text) = some inner → fits inner) :
    FitsAlong fits ["is"] value := by
  rcases plain with rfl | ⟨members, rfl⟩
  · exact .inl rfl
  · refine fitsAlong_of_find? (keyed_map_iff.mp keyed).1 fun child found => ?_
    exact each child (at?_of_find? found (Value.at?_nil child))

/-- A plain resource leads to the references of the resources below and of their methods. -/
theorem PlainResource.fitsAlong (plain : PlainResource value) (keyed : Keyed value)
    (resources : ∀ name ∈ rest, isResourceKey (.text name) = true)
    (isPath : tail ∈ referencePaths verb)
    (each : ∀ inner, value.at? ((rest ++ tail).map .text) = some inner → fits inner) :
    FitsAlong fits (rest ++ tail) value := by
  induction rest generalizing value with
  | nil =>
    rcases List.mem_cons.mp isPath with rfl | isMethod
    · cases plain with
      | nothing => exact .inl rfl
      | mapping => exact fitsAlong_method (.inr ⟨_, rfl⟩) keyed each
    · obtain rfl := List.mem_singleton.mp isMethod
      cases plain with
      | nothing => exact .inl rfl
      | @mapping own methods =>
        obtain ⟨distinct, all⟩ := keyed_map_iff.mp keyed
        refine fitsAlong_of_find? distinct fun child found => ?_
        have isVerb : verbKey? (.text verb.word) = some verb := verbKey?_eq_some_iff.mpr rfl
        refine fitsAlong_method (methods _ child found (Option.isSome_of_eq_some isVerb))
          (all.find? found) fun inner inside => ?_
        exact each inner (at?_of_find? found inside)
  | cons name rest ih =>
    cases plain with
    | nothing => exact .inl rfl
    | @mapping own _ below =>
      obtain ⟨distinct, all⟩ := keyed_map_iff.mp keyed
      obtain ⟨isResource, others⟩ := List.forall_mem_cons.mp resources
      refine fitsAlong_of_find? distinct fun child found => ?_
      refine ih (below _ child found isResource) (all.find? found) others fun inner inside => ?_
      exact each inner (at?_of_find? found inside)

/-! ### Keys with question marks -/

/-- Question marks at the end of a name do not matter for its first character. -/
theorem head?_stem (name : String) :
    ((stem name).toList.head? == some '/') = (name.toList.head? == some '/') := by
  obtain ⟨marks, split, isMark⟩ := Text.exists_dropLastWhile_append (· == '?') name.toList
  unfold stem
  rw [String.toList_ofList]
  conv_rhs => rw [split]
  cases Text.dropLastWhile (· == '?') name.toList with
  | cons first rest => rfl
  | nil =>
    cases marks with
    | nil => rfl
    | cons mark others =>
      rw [beq_iff_eq.mp (isMark mark List.mem_cons_self)]
      rfl

/-- Keys that are the same but for question marks at the end have one role. -/
theorem MayStandUnder.role (may : MayStandUnder key name) :
    Role.of key.string? = Role.of (some name) := by
  obtain ⟨text, named, sameStem⟩ := Option.map_eq_some_iff.mp may
  rw [named]
  show Role.ofName text = Role.ofName name
  unfold Role.ofName
  rw [← head?_stem text, ← head?_stem name, sameStem]

/-- The name of a method is not optional. -/
theorem optionalKey?_verb (verb : Verb) : optionalKey? (.text verb.word) = none := by
  cases verb <;> decide

/-! ### What the sources have -/

/-- The content of a type has no key twice, if the declared types have none. -/
theorem Stop.HasType.keyed {templates : Templates} {stop : Stop}
    (types : Everywhere (fun _ => Keyed) templates.resourceTypes)
    (hasType : stop.HasType templates body) : Keyed (.map body) := by
  obtain ⟨names, applied, follows⟩ := hasType
  have isKeyed {node last : Entries} {names : List String}
      (follows : Follows templates.resourceTypes (resourceArguments stop.path) node names last)
      (keyed : Keyed (.map node)) : Keyed (.map last) := by
    induction follows with
    | start => exact keyed
    | next given _ ih =>
      obtain ⟨-, template, found, filled⟩ := given
      exact ih (keyed_templateBody (types.find? found) filled)
  cases follows with
  | start => exact absurd rfl applied
  | next given further =>
    obtain ⟨-, template, found, filled⟩ := given
    exact isKeyed further (keyed_templateBody (types.find? found) filled)

theorem Passes.ahead_subset {templates : Templates} {path : String} {stop : Stop}
    (passes : Passes templates path entries place stop) : ∀ name ∈ stop.ahead, name ∈ place := by
  induction passes with
  | here rest => exact fun name member => List.mem_cons_of_mem _ member
  | further _ _ ih => exact fun name member => List.mem_cons_of_mem _ (ih name member)

section

variable (keyed : Keyed (.map root)) (valid : problems root = .ok [])
  (leads : LeadsToResource (place.map .text)) (agree : SourcesAgree root place verb)

include keyed in
theorem keyed_templates (name : String) :
    Everywhere (fun _ => Keyed) (namedTemplates (root.get name)) :=
  keyed_namedTemplates (Everywhere.get (keyed_map_iff.mp keyed).2 rfl)

include keyed in
/-- What a source has is of the form that the sources use, and refers to what they refer to. -/
theorem Written.fitsForm (isPath : tail ∈ referencePaths verb)
    (isForm : ∀ value, Written root (fun _ => MayStandUnder) place tail value →
      value = .null ∨ form.Admits value)
    (written : Written root (fun _ => MayStandUnder) place tail value) :
    FitsForm form (Refers root (fun _ => MayStandUnder) place verb) value := by
  rcases isForm value written with rfl | admits
  · exact .inl rfl
  refine .inr ⟨?_, admits, fun reference member => ⟨tail, isPath, value, written, member⟩⟩
  cases written with
  | declared found => exact keyed_at? keyed found
  | inherited _ hasType member _ _ found =>
    have isBody := hasType.keyed (keyed_templates keyed "resourceTypes")
    exact keyed_at? ((keyed_map_iff.mp isBody).2 _ member) found

theorem referencePath_ne_nil (isPath : tail ∈ referencePaths verb) : tail ≠ [] := by
  rintro rfl
  rcases List.mem_cons.mp isPath with same | isMethod
  · cases same
  · cases List.mem_singleton.mp isMethod

include leads in
theorem toReferences (isPath : tail ∈ referencePaths verb) : ToReferences (place ++ tail) := by
  obtain ⟨-, resources⟩ := leads
  have noType : "type" ∉ place := fun member => by
    have isResource := resources _ (List.mem_map_of_mem member)
    rw [isResourceKey_eq_false_of_isTypeKey (isTypeKey_iff.mpr rfl)] at isResource
    cases isResource
  rcases List.mem_cons.mp isPath with rfl | isMethod
  · refine ⟨endsInReferences_concat false place, fun member => ?_⟩
    rcases List.mem_append.mp member with inPlace | inTail
    · exact noType inPlace
    · exact absurd inTail (by decide)
  · obtain rfl := List.mem_singleton.mp isMethod
    refine ⟨?_, fun member => ?_⟩
    · rw [List.append_cons]
      exact endsInReferences_concat false (place ++ [verb.word])
    · rcases List.mem_append.mp member with inPlace | inTail
      · exact noType inPlace
      · revert inTail
        cases verb <;> decide

include keyed valid leads in
theorem fitsAlong_root (isPath : tail ∈ referencePaths verb)
    (each : ∀ inner, (Value.map root).at? ((place ++ tail).map .text) = some inner → fits inner) :
    FitsAlong fits (place ++ tail) (.map root) := by
  obtain ⟨nonempty, resources⟩ := leads
  cases place with
  | nil => exact absurd rfl nonempty
  | cons name rest =>
    obtain ⟨isResource, others⟩ := List.forall_mem_cons.mp resources
    obtain ⟨distinct, all⟩ := keyed_map_iff.mp keyed
    refine fitsAlong_of_find? distinct fun child found => ?_
    refine (plainResource_of_find? valid found isResource).fitsAlong (all.find? found)
      (List.forall_mem_map.mp others) isPath fun inner inside => ?_
    exact each inner (at?_of_find? found inside)

include keyed leads in
theorem bodiesFit (isPath : tail ∈ referencePaths verb)
    (plain : ∀ stop body, Passes (Templates.ofRoot root) "" root place stop →
      stop.HasType (Templates.ofRoot root) body → PlainType body)
    (each : ∀ inner, Written root (fun _ => MayStandUnder) place tail inner → fits inner) :
    BodiesFit fits (Templates.ofRoot root) "" root place tail := by
  intro stop body passes hasType name rest ahead (key, child) member may
  have written {inner : Value} (inside : child.at? (rest.map .text) = some inner) : fits inner :=
    each inner (.inherited passes hasType member may ahead inside)
  have isKeyed : Keyed child :=
    (keyed_map_iff.mp (hasType.keyed (keyed_templates keyed "resourceTypes"))).2 _ member
  obtain ⟨methods, below⟩ := plain stop body passes hasType _ member
  have resources : ∀ name ∈ stop.ahead, isResourceKey (.text name) = true := fun name isAhead =>
    leads.2 _ (List.mem_map_of_mem (passes.ahead_subset name isAhead))
  cases isAhead : stop.ahead with
  | cons next more =>
    rw [isAhead] at ahead resources
    cases ahead
    obtain ⟨isResource, others⟩ := List.forall_mem_cons.mp resources
    refine (below ?_).fitsAlong isKeyed others isPath fun inner inside => written inside
    rw [MayStandUnder.role may]
    exact role_of_isResourceKey isResource
  | nil =>
    rw [isAhead] at ahead
    rcases List.mem_cons.mp isPath with rfl | isMethod
    · cases ahead
      exact written (Value.at?_nil child)
    · obtain rfl := List.mem_singleton.mp isMethod
      cases ahead
      refine fitsAlong_method (methods ?_) isKeyed fun inner inside => written inside
      rw [MayStandUnder.role may]
      have isVerb : verbKey? (.text verb.word) = some verb := verbKey?_eq_some_iff.mpr rfl
      exact role_of_verbKey? isVerb

/-! ### What the resource gathers -/

include agree in
/-- References that are alike are the same for a method whose sources agree. -/
theorem SourcesAgree.collects (form : Form) (reference : Value) :
    Collects (FitsForm form (Refers root (fun _ => MayStandUnder) place verb)) fun value =>
      ∃ other ∈ referenceList value,
        traitAt root place verb other = traitAt root place verb reference :=
  collects_references fun first second isFirst isSecond alike isSame =>
    (agree.alike first second isFirst isSecond alike).trans isSame

include keyed valid leads agree in
/-- Where the sources agree, all of them have references of one form. -/
theorem SourcesAgree.fit (isPath : tail ∈ referencePaths verb) : ∃ form,
    FitsAlong (FitsForm form (Refers root (fun _ => MayStandUnder) place verb)) (place ++ tail)
      (.map root) ∧
    BodiesFit (FitsForm form (Refers root (fun _ => MayStandUnder) place verb))
      (Templates.ofRoot root) "" root place tail := by
  obtain ⟨form, isForm⟩ := agree.form tail isPath
  have fits (inner : Value) (written : Written root (fun _ => MayStandUnder) place tail inner) :=
    written.fitsForm keyed isPath isForm
  refine ⟨form, ?_, bodiesFit keyed leads isPath agree.plain fits⟩
  exact fitsAlong_root keyed valid leads isPath fun inner found => fits inner (.declared found)

variable {last : Stop} (arrives : last.ahead = [])
  (passes : Passes (Templates.ofRoot root) "" root place last)

include keyed valid leads agree arrives passes

/-- **A resource whose sources agree refers, in their form, to what they do.** -/
theorem gathered_fits (isPath : tail ∈ referencePaths verb) : ∃ form,
    FitsAlong (FitsForm form (Refers root (fun _ => MayStandUnder) place verb)) tail
      (.map last.resource) := by
  obtain ⟨form, isEntries, bodies⟩ := agree.fit keyed valid leads isPath
  exact ⟨form, passes.fitsAlong (agree.collects form .null) arrives (toReferences leads isPath)
    (referencePath_ne_nil isPath) isEntries bodies⟩

/-- **A resource whose sources agree has each of their references**, or one that gives the same. -/
theorem gathered_holds (refers : Refers root StandsUnder place verb reference) :
    ∃ tail ∈ referencePaths verb, HoldsAt (fun value => ∃ other ∈ referenceList value,
      traitAt root place verb other = traitAt root place verb reference) tail
        (.map last.resource) := by
  obtain ⟨tail, isPath, value, written, member⟩ := refers
  obtain ⟨form, isEntries, bodies⟩ := agree.fit keyed valid leads isPath
  let holds (value : Value) : Prop := ∃ other ∈ referenceList value,
    traitAt root place verb other = traitAt root place verb reference
  have collects : Collects _ holds := agree.collects form reference
  have ends := toReferences leads isPath
  have tailed := referencePath_ne_nil isPath
  refine ⟨tail, isPath, ?_⟩
  cases written with
  | declared found =>
    refine passes.holdsAt collects arrives ends tailed isEntries bodies ?_
    exact ⟨value, found, reference, member, rfl⟩
  | @inherited stop body key child name rest earlier hasType isMember stands ahead found =>
    have isBody := hasType.keyed (keyed_templates keyed "resourceTypes")
    have isChild {name : String} (named : key.string? = some name) :
        body.find? (.text name) = some child := by
      rw [← find?_of_string? named]
      exact find?_of_mem (keyed_map_iff.mp isBody).1 isMember
    rcases stands with ⟨named, plain⟩ | ⟨optional, isVerb, declared⟩
    · have isPlain : optionalKey? (.text name) = none :=
        (optionalKey?_of_string? named).symm.trans plain
      have offers : Offers holds false name rest body :=
        .inl (holdsAt_map_iff.mpr ⟨child, isChild named, value, found, reference, member, rfl⟩)
      have has (optional : false = true) : stop.declared.has (.text name) = true :=
        absurd optional Bool.false_ne_true
      exact passes.holdsAt_of_type collects arrives ends tailed isEntries bodies earlier hasType
        ahead isPlain has offers
    · obtain ⟨other, isOther⟩ := Option.isSome_iff_exists.mp isVerb
      obtain rfl := Verb.ofWord?_eq_some_iff.mp isOther
      obtain ⟨text, named, marked⟩ := exists_of_optionalKey? optional
      have isOptional : text = optionalName other.word :=
        String.toList_inj.mp (marked.trans (toList_optionalName other.word).symm)
      have noReferences : other.word ≠ "is" := by cases other <;> decide
      rw [isOptional] at named
      have offers : Offers holds true other.word rest body := .inr ⟨rfl, noReferences,
        holdsAt_map_iff.mpr ⟨child, isChild named, value, found, reference, member, rfl⟩⟩
      exact passes.holdsAt_of_type collects arrives ends tailed isEntries bodies earlier hasType
        ahead (optionalKey?_verb other) (fun _ => declared) offers

end

end RamlInterfaces.Raml
