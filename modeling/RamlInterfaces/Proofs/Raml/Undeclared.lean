/-
**References that are not declared.**

The references of a document are checked before its templates are applied, those in the bodies of
templates are not.  So a reference that turns out not to be declared was written in the body of a
resource type, or it is what merging has made of several references that are mappings.

* `HoldsReferences`: the values by which a node, or what is below it, refers to templates;
* `RefersOnly.merge`, `mergeable_fitsReferences`: **merging adds nothing but merged values**;
* `mergeType_undeclared`, `applyTraits_undeclared`, `resolveResource_undeclared`: the references
  that the application comes to and that are not declared;
* `isDeclared_of_problems`: the references of a document without problems are declared;
* `undeclared_references`: **where references come from that are not declared**;
* `undeclared_joined`: two that are declared, joined into one that is not.
-/

import RamlInterfaces.Proofs.Raml.Inheritance
import RamlInterfaces.Proofs.Raml.Mention
import RamlInterfaces.Proofs.Raml.ProblemFree
import RamlInterfaces.Proofs.Raml.Sources

namespace RamlInterfaces.Raml

/-! ### References -/

/-- The value stands where a method refers to traits. -/
def MethodHolds (method listed : Value) : Prop :=
  ∃ members, contentEntries? method = some members ∧
    ∃ entry ∈ members, entry.1.string? = some "is" ∧ entry.2 = listed

/-- The value stands where a node refers to templates of a kind.  The node is a resource, or the
body of a template: it refers to a type and to traits itself, and so do its methods and the
resources below it.  Question marks at the end of a key do not matter. -/
inductive HoldsReferences : Value → TemplateKind → Value → Prop where
  | type {value listed : Value} {entries : Entries} {key : Scalar}
    (content : contentEntries? value = some entries) (member : (key, listed) ∈ entries)
    (isType : key.string? = some "type") (something : listed.isNull = false) :
    HoldsReferences value .resourceType listed
  | traits {value listed : Value} {entries : Entries} {key : Scalar}
    (content : contentEntries? value = some entries) (member : (key, listed) ∈ entries)
    (isTraits : key.string?.map stem = some "is") : HoldsReferences value .trait listed
  | method {value child listed : Value} {entries : Entries} {key : Scalar}
    (content : contentEntries? value = some entries) (member : (key, child) ∈ entries)
    (isMethod : Role.of key.string? = .method) (inside : MethodHolds child listed) :
    HoldsReferences value .trait listed
  | within {value child listed : Value} {kind : TemplateKind} {entries : Entries} {key : Scalar}
    (content : contentEntries? value = some entries) (member : (key, child) ∈ entries)
    (isPath : Role.of key.string? = .resource) (deeper : HoldsReferences child kind listed) :
    HoldsReferences value kind listed

/-- The references that a value is: traits may be listed. -/
def referencesOf : TemplateKind → Value → List Value
  | .trait, listed => referenceList listed
  | .resourceType, reference => [reference]

/-- Every value by which the node refers to templates has a property. -/
def RefersOnly (fits : TemplateKind → Value → Prop) (value : Value) : Prop :=
  ∀ kind listed, HoldsReferences value kind listed → fits kind listed

/-- Every value by which a member of a node refers to templates has a property, its reference to a
type apart. -/
structure FitsReferences (fits : TemplateKind → Value → Prop) (name : Option String)
    (value : Value) : Prop where
  traits : name.map stem = some "is" → fits .trait value
  method : Role.of name = .method → ∀ listed, MethodHolds value listed → fits .trait listed
  resource : Role.of name = .resource → RefersOnly fits value

/-- The member of a node is its reference to a type, with a property. -/
abbrev FitsTypeReference (fits : TemplateKind → Value → Prop) :=
  FitsType fun _ => fits .resourceType

/-- The property holds of two mappings merged into one, and of the references to traits in two lists
joined, if it holds of both. -/
structure ClosedUnderJoining (fits : TemplateKind → Value → Prop) : Prop where
  maps : ∀ kind, ClosedUnderMerging fun _ => fits kind
  lists : ∀ own items, fits .trait (.list own) → fits .trait (.list items) →
    fits .trait (.list (joinReferences own items))

variable {fits : TemplateKind → Value → Prop} {holds : Value → Prop} {value listed : Value}
  {entries : Entries} {key : Scalar} {kind : TemplateKind}

/-- What holds of the references of a node is what holds of those in its entries. -/
theorem refersOnly_iff (content : contentEntries? value = some entries) :
    RefersOnly fits value ↔
      Everywhere (FitsTypeReference fits) entries ∧ Everywhere (FitsReferences fits) entries := by
  constructor
  · intro all
    refine ⟨fun entry member isType something => all _ _ (.type content member isType something),
      fun entry member => ⟨fun isTraits => ?_, fun isMethod listed inside => ?_,
        fun isPath kind listed deeper => ?_⟩⟩
    · exact all _ _ (.traits content member isTraits)
    · exact all _ _ (.method content member isMethod inside)
    · exact all _ _ (.within content member isPath deeper)
  · rintro ⟨types, others⟩ kind listed refers
    cases refers with
    | type same member isType something =>
      rw [content, Option.some.injEq] at same
      subst same
      exact types _ member isType something
    | traits same member isTraits =>
      rw [content, Option.some.injEq] at same
      subst same
      exact (others _ member).traits isTraits
    | method same member isMethod inside =>
      rw [content, Option.some.injEq] at same
      subst same
      exact (others _ member).method isMethod _ inside
    | within same member isPath deeper =>
      rw [content, Option.some.injEq] at same
      subst same
      exact (others _ member).resource isPath _ _ deeper

theorem methodHoldsOnly_iff (content : contentEntries? value = some entries) :
    (∀ listed, MethodHolds value listed → holds listed) ↔
      Everywhere (fun name child => name = some "is" → holds child) entries := by
  constructor
  · intro all entry member isTraits
    exact all _ ⟨entries, content, entry, member, isTraits, rfl⟩
  · rintro all _ ⟨_, same, entry, member, isTraits, rfl⟩
    rw [content, Option.some.injEq] at same
    subst same
    exact all entry member isTraits

/-! ### Merging -/

section Merging

variable {explicit inherited : Value} (closed : ClosedUnderJoining fits)

include closed

theorem ClosedUnderJoining.merge {traits : Bool} (isExplicit : fits .trait explicit)
    (isInherited : fits .trait inherited) : fits .trait (Raml.merge traits explicit inherited) := by
  refine merge_keeps isExplicit isInherited (fun own entries left right => ?_)
    fun _ own items left right => ?_
  · subst left right
    exact closed.maps .trait 0 own entries isExplicit isInherited
  · subst left right
    exact closed.lists own items isExplicit isInherited

theorem ClosedUnderJoining.mergeMethod
    (isExplicit : ∀ listed, MethodHolds explicit listed → fits .trait listed)
    (isInherited : ∀ listed, MethodHolds inherited listed → fits .trait listed) :
    ∀ listed, MethodHolds (Raml.merge false explicit inherited) listed → fits .trait listed := by
  let all (merged : Value) : Prop := ∀ listed, MethodHolds merged listed → fits .trait listed
  have keeps : all (Raml.merge false explicit inherited) := by
    refine merge_keeps isExplicit isInherited (fun own entries left right => ?_)
      fun joins => absurd joins Bool.false_ne_true
    subst left right
    rw [methodHoldsOnly_iff (contentEntries?_map own)] at isExplicit
    rw [methodHoldsOnly_iff (contentEntries?_map entries)] at isInherited
    refine (methodHoldsOnly_iff (contentEntries?_map _)).mpr
      (isExplicit.mergeEntries isInherited ?_)
    exact fun entry member explicit fits isTraits =>
      closed.merge (fits isTraits) (isInherited entry member isTraits)
  exact keeps

/-- The members of nodes keep the property when they are merged, if the resources below do. -/
theorem FitsReferences.merge {name : Option String} {traits : Bool}
    (plain : Role.of name ≠ .other → traits = false)
    (below : ∀ explicit, RefersOnly fits explicit → RefersOnly fits inherited →
      RefersOnly fits (Raml.merge false explicit inherited))
    (isExplicit : FitsReferences fits name explicit)
    (isInherited : FitsReferences fits name inherited) :
    FitsReferences fits name (Raml.merge traits explicit inherited) where
  traits isTraits := closed.merge (isExplicit.traits isTraits) (isInherited.traits isTraits)
  method role := by
    rw [plain (by rw [role]; decide)]
    exact closed.mergeMethod (isExplicit.method role) (isInherited.method role)
  resource role := by
    rw [plain (by rw [role]; decide)]
    exact below explicit (isExplicit.resource role) (isInherited.resource role)

/-- **Merging adds no references** but merged ones. -/
theorem RefersOnly.merge (isExplicit : RefersOnly fits explicit)
    (isInherited : RefersOnly fits inherited) :
    RefersOnly fits (Raml.merge false explicit inherited) := by
  induction inherited using node_induction generalizing explicit with
  | step inherited ih =>
    refine merge_keeps isExplicit isInherited (fun own further left right => ?_)
      fun joins => absurd joins Bool.false_ne_true
    subst left right
    have content := contentEntries?_map further
    obtain ⟨ownTypes, ownOthers⟩ := (refersOnly_iff (contentEntries?_map own)).mp isExplicit
    obtain ⟨types, others⟩ := (refersOnly_iff content).mp isInherited
    refine (refersOnly_iff (contentEntries?_map _)).mpr ⟨?_, ?_⟩
    · refine ownTypes.mergeEntries types fun entry member explicit isType => ?_
      exact isType.merge (closed.maps .resourceType) isTraitsKey_of_string? (types entry member)
    · refine ownOthers.mergeEntries others fun entry member explicit fits => ?_
      exact fits.merge closed isTraitsKey_eq_false
        (fun _ isExplicit isInherited => ih further _ _ content member isExplicit isInherited)
        (others entry member)

/-- **The content of a chain of types adds no references** to the members of a resource. -/
theorem mergeable_fitsReferences : Mergeable (FitsReferences fits) where
  optional := fun key plain value optional isFitting => by
    obtain ⟨name, named, marked⟩ := exists_of_optionalKey? optional
    have role := role_of_optionalKey? optional
    have same : key.string?.map stem = some (stem plain) := by
      rw [named, Option.map_some, stem_optional marked]
    refine ⟨fun isTraits => ?_, fun isRole => ?_, fun isRole => ?_⟩
    · exact isFitting.traits (same.trans isTraits)
    · exact isFitting.method (role.trans isRole)
    · exact isFitting.resource (role.trans isRole)
  merge := fun _ _ _ _ plain isExplicit isInherited =>
    isExplicit.merge closed plain (fun _ first second => first.merge closed second) isInherited

end Merging

/-! ### References that the application comes to -/

/-- The reference denotes a template that is declared with a body. -/
def IsDeclared (templates : Templates) (kind : TemplateKind) (reference : Value) : Prop :=
  ∃ name template, referenceName? reference = some name ∧
    (templates.ofKind kind).find? (.text name) = some (.map template)

/-- A reference of the given name is not declared; it is one of those that a value with a property
is. -/
def SomeUndeclared (templates : Templates) (fits : TemplateKind → Value → Prop)
    (kind : TemplateKind) (name : String) : Prop :=
  ∃ listed, fits kind listed ∧ ∃ reference ∈ referencesOf kind listed,
    referenceName? reference = some name ∧ ¬ IsDeclared templates kind reference

/-- The bodies of declared resource types refer to templates by values with a property, whatever
their arguments are. -/
def BodiesRefer (templates : Templates) (fits : TemplateKind → Value → Prop) : Prop :=
  ∀ name template arguments body,
    templates.resourceTypes.find? (.text name) = some (.map template) →
      templateBody template arguments = .ok body → RefersOnly fits (.map body)

variable {names : Scalar → Prop} {templates : Templates} {arguments node resolved : Entries}
  {name path : String} {depth : Nat}

/-- A name that denotes no template is that of a reference that is not declared. -/
theorem not_isDeclared_of_missing {reference : Value} {denoted : Reference}
    (isReference : Reference.ofValue? reference = some denoted)
    (missing : ∀ template,
      (templates.ofKind kind).find? (.text denoted.name) ≠ some (.map template)) :
    referenceName? reference = some denoted.name ∧ ¬ IsDeclared templates kind reference := by
  refine ⟨referenceName?_of_some isReference, ?_⟩
  rintro ⟨name, template, named, found⟩
  cases (referenceName?_of_some isReference).symm.trans named
  exact missing template found

theorem templateBody_ne_undeclared {template : Entries} :
    templateBody template arguments ≠ .error (.raml (.undeclared kind name)) := by
  intro failed
  cases templateBody_error failed

/-- The reference to a type that a body has. -/
theorem BodiesRefer.typed (bodies : BodiesRefer templates fits) {template body : Entries}
    (found : templates.resourceTypes.find? (.text name) = some (.map template))
    (filled : templateBody template arguments = .ok body)
    (typed : (body.get "type").isNull = false) :
    fits .resourceType (body.get "type") := by
  have all := ((refersOnly_iff (contentEntries?_map body)).mp (bodies _ _ _ _ found filled)).1
  exact all.get (fun _ missing => nomatch missing) rfl typed

theorem TraitFails.not_isDeclared
    (fails : TraitFails templates arguments value (.raml (.undeclared kind name))) :
    kind = .trait ∧ referenceName? value = some name ∧ ¬ IsDeclared templates .trait value := by
  cases fails with
  | undeclared isReference missing => exact ⟨rfl, not_isDeclared_of_missing isReference missing⟩
  | body _ _ unfilled => exact absurd unfilled templateBody_ne_undeclared

/-- A method is refused for a reference of its own or of its resource that is not declared. -/
theorem applyTraits_undeclared {traits : Value} {verb : String} (missing : fits .trait .null)
    (own : ∀ listed, MethodHolds value listed → fits .trait listed) (others : fits .trait traits)
    (failed : applyTraits templates (resourceArguments path) (referenceList traits) verb value =
      .error (.raml (.undeclared kind name))) : SomeUndeclared templates fits kind name := by
  rcases applyTraits_error_iff.mp failed with ⟨-, same⟩ | ⟨method, reference, content, comes, fails⟩
  · cases same
  · have all := (methodHoldsOnly_iff content).mp own
    have here : fits .trait (method.get "is") := all.get (fun _ => missing) rfl
    obtain ⟨rfl, named, undeclared⟩ := fails.not_isDeclared
    rcases List.mem_append.mp comes.mem with isOwn | isOther
    · exact ⟨_, here, reference, isOwn, named, undeclared⟩
    · exact ⟨_, others, reference, (List.mem_filter.mp isOther).1, named, undeclared⟩

section Application

variable (bodies : BodiesRefer templates fits)

include bodies

/-- A chain of types is refused for a reference on it that is not declared. -/
theorem mergeType_undeclared {seen : List String} (start : fits .resourceType (node.get "type"))
    (failed : mergeType templates.resourceTypes arguments node seen =
      .error (.raml (.undeclared kind name))) : SomeUndeclared templates fits kind name := by
  generalize same : templates.resourceTypes = types at failed
  fun_induction mergeType types arguments node seen with
  | case1 | case2 | case4 | case6 => cases failed
  | case3 _ _ _ _ _ _ _ _ refused =>
    cases failed
    exact absurd refused templateBody_ne_undeclared
  | case5 _ _ _ _ _ _ found _ filled typed _ refused ih =>
    cases failed
    subst same
    exact ih (bodies.typed found filled (Bool.eq_false_iff.mpr typed)) refused
  | case7 node seen reference isReference fresh missing =>
    cases failed
    subst same
    exact ⟨_, start, _, List.mem_cons_self, not_isDeclared_of_missing isReference missing⟩

variable (closed : ClosedUnderJoining fits)

include closed

/-- **A resource takes no references from its chain of types** but those in the bodies. -/
theorem applyType_refers (isNode : Everywhere (FitsReferences fits) node)
    (applied : applyType templates arguments node = .ok resolved) :
    Everywhere (FitsReferences fits) resolved := by
  rcases applyType_eq_ok_iff.mp applied with ⟨-, rfl⟩ | ⟨-, merged⟩
  · exact isNode
  · refine (mergeable_fitsReferences closed).mergeType (fun _ => True)
      (fun _ _ _ body _ _ found filled => ?_) isNode trivial merged
    have all := (refersOnly_iff (contentEntries?_map body)).mp (bodies _ _ _ _ found filled)
    exact ⟨all.2, fun _ => trivial⟩

/-- **A resource is refused for a reference that is not declared**: one of its own, one in the body
of a resource type, or what merging makes of them. -/
theorem resolveResource_undeclared {parentPath relativePath : String}
    (missing : fits .trait .null) (refers : RefersOnly fits value)
    (failed : resolveResource templates depth parentPath relativePath value =
      .error (.raml (.undeclared kind name))) : SomeUndeclared templates fits kind name := by
  induction depth generalizing parentPath relativePath value with
  | zero => cases failed
  | succ depth ih =>
    cases resourceFails failed with
    | type content refused =>
      obtain ⟨something, refused⟩ := applyType_eq_error_iff.mp refused
      have start : fits .resourceType (Entries.get _ "type") :=
        ((refersOnly_iff content).mp refers).1.get (fun _ missing => nomatch missing) rfl something
      exact mergeType_undeclared bodies start refused
    | method content typed comes isVerb refused =>
      have members := applyType_refers bodies closed ((refersOnly_iff content).mp refers).2 typed
      have noTraits : FitsReferences fits (some "is") .null :=
        ⟨fun _ => missing, fun role => absurd role (by decide), fun role => absurd role (by decide)⟩
      exact applyTraits_undeclared missing
        ((members _ comes.mem).method (role_of_verbKey? isVerb))
        ((members.get noTraits).traits (by decide)) refused
    | below content typed comes isPath refused =>
      have members := applyType_refers bodies closed ((refersOnly_iff content).mp refers).2 typed
      exact ih ((members _ comes.mem).resource (role_of_resourceKey? isPath)) refused

end Application

/-! ### References of a document -/

section Documents

variable {root : Entries} {reference : Value} {inner : Symbol}

/-- The keys of a resource that stand for methods, for resources and for traits. -/
theorem symbol_of_role (member : Member names .resource key inner) :
    (Role.of key.string? = .method → inner = .method) ∧
      (Role.of key.string? = .resource → inner = .resource) ∧
        (key.string?.map stem = some "is" → inner = .traits) := by
  cases member with
  | @listed _ _ _ name named isListed =>
    have all : ∀ entry ∈ Symbol.resource.members, Role.ofName entry.1 ≠ .method ∧
        Role.ofName entry.1 ≠ .resource ∧ (stem entry.1 = "is" → entry.2 = .traits) := by
      decide
    obtain ⟨noMethod, noPath, isTraits⟩ := all _ isListed
    rw [named]
    exact ⟨fun role => absurd role noMethod, fun role => absurd role noPath,
      fun same => isTraits (Option.some.inj same)⟩
  | @verb _ verb named =>
    rw [named]
    refine ⟨fun _ => rfl, fun role => ?_, fun same => ?_⟩
    · cases verb <;> revert role <;> decide
    · cases verb <;> revert same <;> decide
  | @path _ name named slash =>
    have role : Role.ofName name = .resource := if_pos (beq_iff_eq.mpr slash)
    rw [named]
    refine ⟨fun isMethod => ?_, fun _ => rfl, fun same => ?_⟩
    · cases role.symm.trans isMethod
    · have start := head?_stem name
      rw [slash, Option.some.inj same] at start
      exact absurd start (by decide)

/-- The references to traits in a document without problems. -/
theorem derives_of_mem_referenceList (derived : Derives names templates .traits listed) :
    ∀ reference ∈ referenceList listed, Derives names templates (.reference .trait) reference := by
  cases derived with
  | traits each => exact each
  | trait one =>
    cases one with
    | name named declared =>
      intro reference member
      cases listed with
      | scalar s =>
        cases s with
        | null => cases named
        | _ => exact List.mem_singleton.mp member ▸ .name named declared
      | _ => cases named
    | application fits named declared =>
      intro reference member
      exact List.mem_singleton.mp member ▸ .application fits named declared
    | nothing isMapping | mapping isMapping => cases isMapping
  | nothing isMapping | mapping isMapping => cases isMapping

/-- A node of a document has the entries that its symbol lets it have. -/
theorem belongs_of_content {symbol : Symbol} (isMapping : symbol = .method ∨ symbol = .resource)
    (derived : Derives names templates symbol value)
    (content : contentEntries? value = some entries) :
    ∀ entry ∈ entries, Belongs names templates symbol entry := by
  cases derived with
  | nothing =>
    cases content
    exact fun entry member => absurd member List.not_mem_nil
  | mapping isMapping known each =>
    rw [contentEntries?_map, Option.some.injEq] at content
    subst content
    exact (derives_map_iff isMapping).mp (.mapping isMapping known each)
  | _ => rcases isMapping with same | same <;> cases same

theorem derives_of_methodHolds (derived : Derives names templates .method value)
    (inside : MethodHolds value listed) : Derives names templates .traits listed := by
  obtain ⟨members, content, entry, member, isTraits, rfl⟩ := inside
  have isListed : ("is", Symbol.traits) ∈ Symbol.method.members := by decide
  exact (Member.listed isTraits isListed).belongs_iff.mp
    (belongs_of_content (.inl rfl) derived content entry member)

/-- **The references of a resource without problems** are declared. -/
theorem derives_of_holdsReferences (holds : HoldsReferences value kind listed)
    (derived : Derives names templates .resource value) :
    ∀ reference ∈ referencesOf kind listed,
      Derives names templates (.reference kind) reference := by
  induction holds with
  | type content member isType _ =>
    have isListed : ("type", Symbol.reference .resourceType) ∈ Symbol.resource.members := by decide
    have here := (Member.listed isType isListed).belongs_iff.mp
      (belongs_of_content (.inr rfl) derived content _ member)
    intro reference isReference
    rw [List.mem_singleton.mp isReference]
    exact here
  | traits content member isTraits =>
    obtain ⟨inner, isMember, here⟩ := belongs_of_content (.inr rfl) derived content _ member
    rw [(symbol_of_role isMember).2.2 isTraits] at here
    exact derives_of_mem_referenceList here
  | method content member isMethod inside =>
    obtain ⟨inner, isMember, here⟩ := belongs_of_content (.inr rfl) derived content _ member
    rw [(symbol_of_role isMember).1 isMethod] at here
    exact derives_of_mem_referenceList (derives_of_methodHolds here inside)
  | within content member isPath _ ih =>
    obtain ⟨inner, isMember, here⟩ := belongs_of_content (.inr rfl) derived content _ member
    rw [(symbol_of_role isMember).2.1 isPath] at here
    exact ih here

/-- The value stands where a resource of the document, or what is below it, refers to templates. -/
def DocumentHolds (root : Entries) (kind : TemplateKind) (listed : Value) : Prop :=
  ∃ entry ∈ root, isResourceKey entry.1 = true ∧ HoldsReferences entry.2 kind listed

/-- The declared names of a document without problems have bodies. -/
theorem exists_template_of_has (inGrammar : InGrammar names root)
    (has : ((Templates.ofRoot root).ofKind kind).has (.text name) = true) :
    ∃ template,
      ((Templates.ofRoot root).ofKind kind).find? (.text name) = some (.map template) := by
  obtain ⟨body, found⟩ := Option.isSome_iff_exists.mp has
  obtain ⟨entry, member, _, rfl⟩ := Entries.exists_of_find? found
  have isMap : entry.2.isMap = true := by
    cases kind with
    | trait => exact inGrammar.traits.bodies entry member
    | resourceType => exact inGrammar.resourceTypes.bodies entry member
  cases same : entry.2 with
  | map template => exact ⟨template, same ▸ found⟩
  | _ =>
    rw [same] at isMap
    cases isMap

/-- **The references of a document without problems are declared.** -/
theorem isDeclared_of_problems (valid : problems root = .ok [])
    (holds : DocumentHolds root kind listed) :
    ∀ reference ∈ referencesOf kind listed, IsDeclared (Templates.ofRoot root) kind reference := by
  obtain ⟨entry, member, isPath, inside⟩ := holds
  have inGrammar := (problems_eq_nil_iff root).mp valid
  obtain ⟨relative, named⟩ := isResourceKey_iff.mp isPath
  obtain ⟨isName, slash⟩ := resourceKey?_eq_some_iff.mp named
  have derived : Derives IsNameable (Templates.ofRoot root) .resource entry.2 := by
    rcases inGrammar.members entry member with ⟨name, known, isKnown⟩ | ⟨_, _, _, derived⟩
    · obtain rfl : relative = name := Option.some.inj (isName.symm.trans isKnown)
      exact absurd slash (head?_of_mem_rootKeys relative known)
    · exact derived
  intro reference isReference
  cases derives_of_holdsReferences inside derived reference isReference with
  | name named declared =>
    obtain ⟨template, found⟩ := exists_template_of_has inGrammar declared
    exact ⟨_, template, referenceName?_of_some (ofValue?_of_string? named), found⟩
  | application _ named declared =>
    obtain ⟨template, found⟩ := exists_template_of_has inGrammar declared
    exact ⟨_, template, referenceName?_of_some (congrArg (Option.map _) named), found⟩
  | nothing isMapping | mapping isMapping => cases isMapping

/-- The value stands where the body of a template refers to templates; the template is declared, and
filled with some arguments. -/
def BodyHolds (templates : Templates) (holder kind : TemplateKind) (listed : Value) : Prop :=
  ∃ name template arguments body,
    (templates.ofKind holder).find? (.text name) = some (.map template) ∧
      templateBody template arguments = .ok body ∧ HoldsReferences (.map body) kind listed

/-- The value stands where the document, or the body of a resource type, refers to templates. -/
def IsWritten (root : Entries) (kind : TemplateKind) (listed : Value) : Prop :=
  DocumentHolds root kind listed ∨ BodyHolds (Templates.ofRoot root) .resourceType kind listed

/-- What merging makes of the values by which nodes refer to templates: one that is written, or two
mappings merged, or two lists of traits joined. -/
inductive Joined (root : Entries) (kind : TemplateKind) : Value → Prop where
  | written {listed : Value} (isWritten : IsWritten root kind listed) : Joined root kind listed
  | nothing (isTrait : kind = .trait) : Joined root kind .null
  | maps {own entries : Entries} (first : Joined root kind (.map own))
    (second : Joined root kind (.map entries)) : Joined root kind (.map (mergeEntries own entries))
  | lists {own items : List Value} (isTrait : kind = .trait) (first : Joined root kind (.list own))
    (second : Joined root kind (.list items)) : Joined root kind (.list (joinReferences own items))

theorem closed_joined (root : Entries) : ClosedUnderJoining (Joined root) where
  maps := fun _ _ _ _ => .maps
  lists := fun _ _ => .lists rfl

/-- Two references that are mappings were merged into one. -/
def IsMerged (root : Entries) (kind : TemplateKind) (reference : Value) : Prop :=
  ∃ own entries, Joined root kind (.map own) ∧ Joined root kind (.map entries) ∧
    reference = .map (mergeEntries own entries)

/-- **A reference that merging has left is one that was written, or two mappings merged.** -/
theorem Joined.isWritten_or_isMerged (joined : Joined root kind listed)
    (isReference : reference ∈ referencesOf kind listed) :
    (∃ written, IsWritten root kind written ∧ reference ∈ referencesOf kind written) ∨
      IsMerged root kind reference := by
  induction joined with
  | written isWritten => exact .inl ⟨_, isWritten, isReference⟩
  | nothing isTrait =>
    subst isTrait
    cases isReference
  | maps first second =>
    refine .inr ⟨_, _, first, second, ?_⟩
    cases kind <;> exact List.mem_singleton.mp isReference
  | lists isTrait first second left right =>
    subst isTrait
    rcases List.mem_append.mp isReference with isOwn | isFurther
    · exact left isOwn
    · exact right (List.mem_filter.mp isFurther).1

/-- **Where references come from that are not declared.**  In a document without problems, each
reference of a resource or method is declared.  If the application of the templates is refused for a
name that is not declared, then that is the name of a reference in the body of a declared resource
type, or of two references merged that are mappings. -/
theorem undeclared_references (valid : problems root = .ok []) :
    (∀ kind listed, DocumentHolds root kind listed → ∀ reference ∈ referencesOf kind listed,
      IsDeclared (Templates.ofRoot root) kind reference) ∧
    ∀ depth kind name,
      applyTemplatesWithin depth root = .error (.raml (.undeclared kind name)) →
        ∃ reference, referenceName? reference = some name ∧
          ¬ IsDeclared (Templates.ofRoot root) kind reference ∧
          ((∃ listed, BodyHolds (Templates.ofRoot root) .resourceType kind listed ∧
            reference ∈ referencesOf kind listed) ∨ IsMerged root kind reference) := by
  have declared {kind : TemplateKind} {listed : Value} (holds : DocumentHolds root kind listed) :=
    isDeclared_of_problems valid holds
  refine ⟨fun _ _ => declared, fun depth kind name failed => ?_⟩
  obtain ⟨⟨key, value⟩, ⟨before, after, split, _⟩, failed⟩ := mapM_eq_error_iff.mp failed
  have member : (key, value) ∈ root := split ▸ List.mem_append_right _ List.mem_cons_self
  cases isPath : resourceKey? key with
  | none =>
    simp only [resolveEntry, isPath] at failed
    cases failed
  | some relative =>
    rw [resolveEntry_resource isPath, bind_eq_error_iff] at failed
    rcases failed with failed | ⟨_, _, same⟩
    · have bodies : BodiesRefer (Templates.ofRoot root) (Joined root) :=
        fun name template arguments body found filled kind listed holds =>
          .written (.inr ⟨name, template, arguments, body, found, filled, holds⟩)
      have refers : RefersOnly (Joined root) value := fun kind listed holds =>
        .written (.inl ⟨(key, value), member, Option.isSome_of_eq_some isPath, holds⟩)
      obtain ⟨listed, joined, reference, isReference, named, undeclared⟩ :=
        resolveResource_undeclared bodies (closed_joined root) (.nothing rfl) refers failed
      refine ⟨reference, named, undeclared, ?_⟩
      rcases joined.isWritten_or_isMerged isReference with ⟨_, here | inBody, isReference⟩ | merged
      · exact absurd (declared here reference isReference) undeclared
      · exact .inl ⟨_, inBody, isReference⟩
      · exact .inr merged
    · cases same

end Documents

/-! ### Two references in one -/

/-- A document whose resource and whose type refer to traits by values of their own. -/
def markedShelves (inherited explicit : Value) : Entries :=
  [(.text "title", .text "t"),
    (.text "traits", .list [
      .map [(.text "cached", .map [(.text "headers", .map [(.text "If-Match", .null)])])],
      .map [(.text "paged", .map [(.text "queryParameters", .map [(.text "page", .null)])])]]),
    (.text "resourceTypes", .list [.map [(.text "shelf", .map [(.text "is", inherited)])]]),
    (.text "/shelves", .map [(.text "type", .text "shelf"), (.text "is", explicit),
      (.text "get", .null)])]

/-- A document whose resource type refers to a trait that is not declared. -/
def lostShelves : Entries :=
  markedShelves (.list [.text "lost"]) (.list [.text "cached"])

theorem undeclared_references_lost : problems lostShelves = .ok [] ∧
    applyTemplates lostShelves = .error (.raml (.undeclared .trait "lost"))  ∧
    ∃ reference, referenceName? reference = some "lost" ∧
      ¬ IsDeclared (Templates.ofRoot lostShelves) .trait reference ∧
      ((∃ listed, BodyHolds (Templates.ofRoot lostShelves) .resourceType .trait listed ∧
        reference ∈ referencesOf .trait listed) ∨ IsMerged lostShelves .trait reference) := by
  have valid : problems lostShelves = .ok [] := by decide +kernel
  have failed : applyTemplates lostShelves = .error (.raml (.undeclared .trait "lost")) :=
    failure?_eq_some.mp (by decide +kernel)
  exact ⟨valid, failed, (undeclared_references valid).2 _ _ _ failed⟩

/-- A document whose resource and whose type each refer to one trait, by a mapping. -/
def joinedShelves : Entries :=
  markedShelves (.map [(.text "paged", .null)]) (.map [(.text "cached", .null)])

/-- A node with a single member that refers to no templates has no references. -/
theorem refersOnly_of_plain {name : String} (noType : name ≠ "type") (noTraits : stem name ≠ "is")
    (role : Role.ofName name = .other) : RefersOnly fits (.map [(.text name, value)]) := by
  have roleOf : Role.of (Scalar.text name).string? = .other := role
  refine (refersOnly_iff (contentEntries?_map _)).mpr
    ⟨List.forall_mem_singleton.mpr fun isType => ?_, List.forall_mem_singleton.mpr
      ⟨fun isTraits => ?_, fun isMethod => ?_, fun isPath => ?_⟩⟩
  · exact absurd (Option.some.inj isType) noType
  · exact absurd (Option.some.inj isTraits) noTraits
  · cases isMethod.symm.trans roleOf
  · cases isPath.symm.trans roleOf

/-- The bodies of the templates of that document refer to the trait `paged` alone. -/
theorem name_of_bodyHolds {holder kind : TemplateKind} {listed reference : Value}
    (holds : BodyHolds (Templates.ofRoot joinedShelves) holder kind listed)
    (isReference : reference ∈ referencesOf kind listed) :
    referenceName? reference = some "paged" := by
  let fits (kind : TemplateKind) (listed : Value) : Prop :=
    ∀ reference ∈ referencesOf kind listed, referenceName? reference = some "paged"
  obtain ⟨name, template, arguments, body, found, filled, refers⟩ := holds
  have only : RefersOnly fits (.map body) := by
    obtain ⟨entry, member, -, same⟩ := Entries.exists_of_find? found
    cases holder with
    | trait =>
      rcases List.mem_cons.mp member with rfl | member
      · cases same
        cases filled
        exact refersOnly_of_plain (by decide) (by decide) (by decide)
      · obtain rfl := List.mem_singleton.mp member
        cases same
        cases filled
        exact refersOnly_of_plain (by decide) (by decide) (by decide)
    | resourceType =>
      obtain rfl := List.mem_singleton.mp member
      cases same
      cases filled
      refine (refersOnly_iff (contentEntries?_map _)).mpr
        ⟨List.forall_mem_singleton.mpr fun isType => ?_, List.forall_mem_singleton.mpr
          ⟨fun _ => ?_, fun isMethod => ?_, fun isPath => ?_⟩⟩
      · exact absurd isType (by decide)
      · exact List.forall_mem_singleton.mpr rfl
      · exact absurd isMethod (by decide)
      · exact absurd isPath (by decide)
  exact only kind listed refers reference isReference

/-- **Two references joined into one that is not declared**: a resource and its type each refer to a
declared trait by a mapping, and the two become one mapping, which denotes none. -/
theorem undeclared_joined : problems joinedShelves = .ok [] ∧
    applyTemplates joinedShelves =
      .error (.raml (.undeclared .trait "\x7b'cached': None, 'paged': None\x7d")) ∧
    ∀ holder kind listed, BodyHolds (Templates.ofRoot joinedShelves) holder kind listed →
      ∀ reference ∈ referencesOf kind listed,
        referenceName? reference ≠ some "\x7b'cached': None, 'paged': None\x7d" := by
  refine ⟨by decide +kernel, failure?_eq_some.mp (by decide +kernel), ?_⟩
  intro holder kind listed holds reference isReference
  rw [name_of_bodyHolds holds isReference]
  decide

end RamlInterfaces.Raml
