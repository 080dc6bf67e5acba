/-
**Where the application of templates ends.**

A body that holds itself cannot be filled.  In a finite document there is none, and the content of
types and traits is merged in finitely many steps, whatever they are.

A resource type may bring in resources of its own, which refer to types again.  The chain of types
of one resource cannot come back, but nothing keeps a type from bringing in a resource of the same
type: then the application has no end.  Where no type brings itself in, it ends.

* `FiniteTemplates`, `finiteTemplates_of_root`: the templates of a finite document are finite;
* `applyType_ends`, `applyTraits_ends`: **types and traits are applied in finitely many steps**;
* `Occurs`: the references to types that the application can come to;
* `Inherits`, `Nests`, `Brings`: what a type is made of, and which types it brings in below itself;
* `Bounded`, `exists_bounded`: how often types bring in further ones, where none brings itself in;
* `ends_of_mentionsOnly`: a resource that mentions bounded types only is resolved at some depth;
* `applyTemplates_ends`: **the application to a document ends** where no type brings itself in, and
  a resource whose own chain of types comes back is refused as circular;
* `nestedCircle_endless`: a type that brings itself in has no end.
-/

import Mathlib.Logic.Relation
import RamlInterfaces.Proofs.Raml.Inheritance
import RamlInterfaces.Proofs.Raml.Mention
import RamlInterfaces.Proofs.Raml.Traits

namespace RamlInterfaces.Raml

open Relation

/-! ### Templates that can be filled -/

section Finite

/-- The value does not hold itself. -/
abbrev IsFinite (value : Value) : Prop := value.isEndless = false

/-- None of the values of the entries holds itself. -/
abbrev FiniteEntries (entries : Entries) : Prop := Everywhere (fun _ => IsFinite) entries

variable {entries further template arguments node : Entries} {value : Value} {templates : Templates}

theorem isEndless_map_iff : IsFinite (.map entries) ↔ FiniteEntries entries := by
  have each : Value.isEndless.someEndlessEntry entries = false ↔ FiniteEntries entries := by
    induction entries with
    | nil => exact iff_of_true rfl Everywhere.nil
    | cons entry rest ih =>
      unfold Value.isEndless.someEndlessEntry
      rw [Bool.or_eq_false_iff, ih]
      exact ⟨fun both => Everywhere.cons both.1 both.2, fun all => ⟨all entry List.mem_cons_self,
        fun other member => all other (List.mem_cons_of_mem _ member)⟩⟩
  exact each

theorem isEndless_list_iff {items : List Value} :
    IsFinite (.list items) ↔ ∀ item ∈ items, IsFinite item := by
  have each : Value.isEndless.someEndless items = false ↔ ∀ item ∈ items, IsFinite item := by
    induction items with
    | nil => exact iff_of_true rfl fun item member => absurd member List.not_mem_nil
    | cons item rest ih =>
      unfold Value.isEndless.someEndless
      rw [Bool.or_eq_false_iff, ih, List.forall_mem_cons]
  exact each

/-- No template of a document holds itself. -/
structure FiniteTemplates (templates : Templates) : Prop where
  traits : FiniteEntries templates.traits
  resourceTypes : FiniteEntries templates.resourceTypes

theorem finite_namedTemplates (finite : IsFinite value) : FiniteEntries (namedTemplates value) :=
  everywhere_namedTemplates (fun _ => isEndless_map_iff.mp) (fun _ => isEndless_list_iff.mp) finite

/-- **The templates of a finite document are finite.** -/
theorem finiteTemplates_of_root {root : Entries} (finite : IsFinite (.map root)) :
    FiniteTemplates (Templates.ofRoot root) := by
  have all : FiniteEntries root := isEndless_map_iff.mp finite
  exact ⟨finite_namedTemplates (Everywhere.get all rfl),
    finite_namedTemplates (Everywhere.get all rfl)⟩

/-- A finite template can be filled, or is refused. -/
theorem templateBody_ends (finite : IsFinite (.map template)) :
    templateBody template arguments ≠ .error (.defect .nestedTooDeeply) := by
  have body : IsFinite (.map ((template.erase (.text "usage")).erase (.text "displayName"))) := by
    have all : FiniteEntries template := isEndless_map_iff.mp finite
    exact isEndless_map_iff.mpr ((all.filter _).filter _)
  intro failed
  rcases templateBody_eq_error_iff.mp failed with ⟨endless, -⟩ | ⟨-, unfilled⟩
  · exact nomatch endless.symm.trans body
  · obtain ⟨_, -, blames⟩ := substitute_eq_error_iff.mp unfilled
    cases blames

/-- **Finite types are applied in finitely many steps.** -/
theorem applyType_ends (finite : FiniteTemplates templates) :
    applyType templates arguments node ≠ .error (.defect .nestedTooDeeply) := by
  intro failed
  obtain ⟨typed, failed⟩ := applyType_eq_error_iff.mp failed
  obtain ⟨_, _, _, _, halts⟩ := (mergeType_error_iff typed .nil).mp failed
  cases halts with
  | unfilled _ _ found unfilled =>
    exact templateBody_ends (Everywhere.find? finite.resourceTypes found) unfilled

/-- **Finite traits are applied in finitely many steps.** -/
theorem applyTraits_ends (finite : FiniteTemplates templates) {traits : List Value}
    {path name : String} :
    applyTraits templates (resourceArguments path) traits name value ≠
      .error (.defect .nestedTooDeeply) := by
  intro failed
  rcases applyTraits_error_iff.mp failed with ⟨-, same⟩ | ⟨_, _, -, -, fails⟩
  · cases same
  · cases fails with
    | body _ found unfilled =>
      exact templateBody_ends (Everywhere.find? finite.traits found) unfilled

end Finite

variable {root : Entries} {templates : Templates}

/-! ### What types bring in -/

/-- A reference gives a resource a body: that of the type, under the arguments of the reference. -/
def Gives (types : Entries) (reference : Value) (body : Entries) : Prop :=
  ∃ path denoted template, Reference.ofValue? reference = some denoted ∧
    types.find? (.text denoted.name) = some (.map template) ∧
    templateBody template ((resourceArguments path).putAll denoted.arguments) = .ok body

/-- The reference occurs: a resource of the document mentions it, or a body that an occurring
reference gives, or it comes from merging two occurring ones. -/
inductive Occurs (root : Entries) : Value → Prop where
  | declared {key : Scalar} {value reference : Value} {depth : Nat} (member : (key, value) ∈ root)
    (isPath : isResourceKey key = true) (mentions : Mentions value depth reference) :
    Occurs root reference
  | given {reference further : Value} {body : Entries} {depth : Nat}
    (occurs : Occurs root reference)
    (gives : Gives (Templates.ofRoot root).resourceTypes reference body)
    (mentions : Mentions (.map body) depth further) : Occurs root further
  | merged {own entries : Entries} (first : Occurs root (.map own))
    (second : Occurs root (.map entries)) : Occurs root (.map (mergeEntries own entries))

/-- The first reference is the second one, or was merged with occurring ones into it. -/
inductive PartOf (root : Entries) (part : Value) : Value → Prop where
  | whole : PartOf root part part
  | first {own entries : Entries} (isPart : PartOf root part (.map own))
    (other : Occurs root (.map entries)) : PartOf root part (.map (mergeEntries own entries))
  | second {own entries : Entries} (other : Occurs root (.map own))
    (isPart : PartOf root part (.map entries)) : PartOf root part (.map (mergeEntries own entries))

/-- The body of a type refers to another type itself. -/
def Inherits (root : Entries) (name inherited : String) : Prop :=
  ∃ reference further body, Occurs root reference ∧ referenceName? reference = some name ∧
    Gives (Templates.ofRoot root).resourceTypes reference body ∧
    Mentions (.map body) 0 further ∧ referenceName? further = some inherited

/-- The body of a type holds a resource that comes to refer to another type. -/
def Nests (root : Entries) (name nested : String) : Prop :=
  ∃ reference further whole body depth, Occurs root reference ∧
    referenceName? reference = some name ∧
    Gives (Templates.ofRoot root).resourceTypes reference body ∧
    Mentions (.map body) (depth + 1) further ∧ PartOf root further whole ∧
    referenceName? whole = some nested

/-- A type or one that it inherits from brings in a resource of another type. -/
def Brings (root : Entries) (name nested : String) : Prop :=
  ∃ inherited, ReflTransGen (Inherits root) name inherited ∧ Nests root inherited nested

/-- A type brings in others, and these others, fewer times than the bound. -/
def Bounded (root : Entries) : Nat → String → Prop
  | 0, _ => False
  | bound + 1, name => ∀ nested, Brings root name nested → Bounded root bound nested

theorem PartOf.trans {part middle whole : Value} (first : PartOf root part middle)
    (second : PartOf root middle whole) : PartOf root part whole := by
  induction second with
  | whole => exact first
  | first _ other ih => exact .first ih other
  | second other _ ih => exact .second other ih

/-- A reference that gives a body denotes a declared type. -/
theorem Gives.declared {types body : Entries} {reference : Value} {name : String}
    (gives : Gives types reference body) (named : referenceName? reference = some name) :
    ∃ template, types.find? (.text name) = some template := by
  obtain ⟨_, denoted, template, isReference, found, -⟩ := gives
  cases (referenceName?_of_some isReference).symm.trans named
  exact ⟨_, found⟩

/-- What brings in a type is declared. -/
theorem Brings.declared {name nested : String} (brings : Brings root name nested) :
    ∃ template, (Templates.ofRoot root).resourceTypes.find? (.text name) = some template := by
  obtain ⟨inherited, inherits, nests⟩ := brings
  rcases inherits.cases_head with rfl | ⟨next, ⟨_, _, _, _, named, gives, _⟩, _⟩
  · obtain ⟨_, _, _, _, _, _, named, gives, _⟩ := nests
    exact gives.declared named
  · exact gives.declared named

theorem Bounded.succ {bound : Nat} {name : String} (bounded : Bounded root bound name) :
    Bounded root (bound + 1) name := by
  induction bound generalizing name with
  | zero => cases bounded
  | succ bound ih => exact fun nested brings => ih (bounded nested brings)

/-- **Where no type brings itself in, there is a bound for all of them.**  On the way down each type
is a new one, and there are only so many. -/
theorem exists_bounded (acyclic : ∀ name, ¬ TransGen (Brings root) name name) :
    ∃ bound, ∀ name, Bounded root bound name := by
  have walk (bound : Nat) (seen : List String) (name : String)
      (few : unseenCount (Templates.ofRoot root).resourceTypes seen < bound)
      (way : ∀ earlier ∈ seen, TransGen (Brings root) earlier name) : Bounded root bound name := by
    induction bound generalizing seen name with
    | zero => exact absurd few (Nat.not_lt_zero _)
    | succ bound ih =>
      intro nested brings
      obtain ⟨template, found⟩ := brings.declared
      have fresh : seen.contains name = false := by
        refine Bool.eq_false_iff.mpr fun known => ?_
        exact acyclic name (way name (List.contains_iff_mem.mp known))
      have fewer := unseenCount_lt found fresh
      refine ih (seen ++ [name]) nested (by omega) fun earlier isSeen => ?_
      rcases List.mem_append.mp isSeen with before | here
      · exact (way earlier before).tail brings
      · rw [List.mem_singleton.mp here]
        exact .single brings
  refine ⟨unseenCount (Templates.ofRoot root).resourceTypes [] + 1, fun name => ?_⟩
  exact walk _ [] name (Nat.lt_succ_self _) fun earlier isSeen => absurd isSeen List.not_mem_nil

/-! ### Resources that are resolved at some depth -/

variable {value : Value} {declared resource : Entries} {path : String} {rank height : Nat}

/-- A resource is resolved or refused at some depth, wherever it stands. -/
def Ends (templates : Templates) (value : Value) : Prop :=
  ∀ parentPath relativePath, ∃ depth,
    resolveResource templates depth parentPath relativePath value ≠
      .error (.defect .nestedTooDeeply)

theorem resolveResource_of_le {less more : Nat} {parentPath relativePath : String}
    (le : less ≤ more) (ends : resolveResource templates less parentPath relativePath value ≠
      .error (.defect .nestedTooDeeply)) :
    resolveResource templates more parentPath relativePath value ≠
      .error (.defect .nestedTooDeeply) := by
  induction le with
  | refl => exact ends
  | step _ ih =>
    rw [resolveResource_succ_of_ne ih]
    exact ih

/-- The resources among the members of a resource are resolved or refused at a common depth. -/
theorem exists_depth_of_members (path : String)
    (each : ∀ key child, (key, child) ∈ resource → isResourceKey key = true →
      Ends templates child) :
    ∃ depth, ∀ entry ∈ resource, ∀ relative, resourceKey? entry.1 = some relative →
      resolveResource templates depth path relative entry.2 ≠
        .error (.defect .nestedTooDeeply) := by
  let ends (depth : Nat) (entry : Scalar × Value) : Prop :=
    ∀ relative, resourceKey? entry.1 = some relative →
      resolveResource templates depth path relative entry.2 ≠ .error (.defect .nestedTooDeeply)
  refine exists_bound_of_each ends (fun less more entry le isEnd relative named => ?_)
    fun (key, child) member => ?_
  · exact resolveResource_of_le le (isEnd relative named)
  · cases named : resourceKey? key with
    | none => exact ⟨0, fun relative isPath => nomatch named.symm.trans isPath⟩
    | some relative =>
      have isPath : isResourceKey key = true := isResourceKey_iff.mpr ⟨relative, named⟩
      obtain ⟨depth, isEnd⟩ := each key child member isPath path relative
      refine ⟨depth, fun other same => ?_⟩
      rw [← Option.some.inj (named.symm.trans same)]
      exact isEnd

/-- **A resource ends where the resources below it do**, those of its type among them. -/
theorem ends_of_members (finite : FiniteTemplates templates)
    (each : ∀ declared path resource key child, contentEntries? value = some declared →
      applyType templates (resourceArguments path) declared = .ok resource →
        (key, child) ∈ resource → isResourceKey key = true → Ends templates child) :
    Ends templates value := by
  intro parentPath relativePath
  have common : ∃ depth, ∀ declared resource, contentEntries? value = some declared →
      applyType templates (resourceArguments (parentPath ++ relativePath)) declared =
          .ok resource → ∀ entry ∈ resource, ∀ relative, resourceKey? entry.1 = some relative →
        resolveResource templates depth (parentPath ++ relativePath) relative entry.2 ≠
          .error (.defect .nestedTooDeeply) := by
    cases content : contentEntries? value with
    | none => exact ⟨0, fun declared resource same => nomatch same⟩
    | some declared =>
      cases typed : applyType templates (resourceArguments (parentPath ++ relativePath))
          declared with
      | error failure =>
        refine ⟨0, fun other resource same applied => ?_⟩
        cases same
        cases typed.symm.trans applied
      | ok resource =>
        obtain ⟨depth, ends⟩ := exists_depth_of_members (parentPath ++ relativePath)
          fun key child => each declared _ resource key child content typed
        refine ⟨depth, fun other another same applied => ?_⟩
        cases same
        cases typed.symm.trans applied
        exact ends
  obtain ⟨depth, ends⟩ := common
  refine ⟨depth + 1, fun failed => ?_⟩
  cases resourceFails failed with
  | type _ refused => exact applyType_ends finite refused
  | method _ _ _ _ refused => exact applyTraits_ends finite refused
  | below content typed comes named refused =>
    exact ends _ _ content typed _ comes.mem _ named refused

/-! ### What a resource comes to mention -/

/-- The reference occurs, and the types that it is part of a reference to are bounded: more loosely
above a certain height. -/
def Fits (root : Entries) (rank height depth : Nat) (reference : Value) : Prop :=
  Occurs root reference ∧ ∀ whole name, PartOf root reference whole →
    referenceName? whole = some name →
      Bounded root (if depth < height then rank + 1 else rank) name

theorem closedUnderMerging_fits : ClosedUnderMerging (Fits root rank height) := by
  intro depth own entries isOwn isFurther
  refine ⟨.merged isOwn.1 isFurther.1, fun whole name isPart => ?_⟩
  have part : PartOf root (.map own) (.map (mergeEntries own entries)) := .first .whole isFurther.1
  exact isOwn.2 whole name (part.trans isPart)

/-- A node that refers to a type mentions it. -/
theorem mentions_own (content : contentEntries? value = some declared)
    (typed : (declared.get "type").isNull = false) : Mentions value 0 (declared.get "type") := by
  unfold Entries.get at typed ⊢
  cases found : declared.find? (.text "type") with
  | none =>
    rw [found] at typed
    cases typed
  | some reference =>
    rw [found] at typed
    obtain ⟨⟨key, other⟩, member, isType, rfl⟩ := Entries.exists_of_find? found
    exact .own content member isType typed

/-- The content of a chain of types mentions types of a lower rank than those of the chain. -/
theorem applyType_fits (mentions : MentionsOnly (Fits root rank (height + 1)) value)
    (content : contentEntries? value = some declared)
    (applied : applyType (Templates.ofRoot root) (resourceArguments path) declared =
      .ok resource) : Everywhere (FitsBelow (Fits root rank (height + 1))) resource := by
  have below := ((mentionsOnly_iff content).mp mentions).2
  rcases applyType_eq_ok_iff.mp applied with ⟨-, rfl⟩ | ⟨typed, merged⟩
  · exact below
  · obtain ⟨occurs, bounded⟩ := mentions 0 _ (mentions_own content typed)
    obtain ⟨first, _, _, _, isFirst, -⟩ := mergeType_eq_ok_iff.mp merged
    have start := bounded _ _ .whole (referenceName?_of_some isFirst)
    rw [if_pos (Nat.succ_pos height)] at start
    -- the chain goes from one occurring reference to the next by inheritance
    let comes (reference : Value) : Prop := Occurs root reference ∧
      ∀ name, referenceName? reference = some name →
        ReflTransGen (Inherits root) first.name name
    have begins : comes (declared.get "type") := by
      refine ⟨occurs, fun name named => ?_⟩
      cases (referenceName?_of_some isFirst).symm.trans named
      exact .refl
    refine (mergeable_fitsBelow closedUnderMerging_fits).mergeType comes
      (fun reference denoted template body isComing isReference found filled => ?_) below begins
      merged
    obtain ⟨isOccurring, leads⟩ := isComing
    have named := referenceName?_of_some isReference
    have way := leads _ named
    have gives : Gives (Templates.ofRoot root).resourceTypes reference body :=
      ⟨path, denoted, template, isReference, found, filled⟩
    refine ⟨fun entry member role depth further deeper => ?_, fun something => ?_⟩
    · have isMentioned : Mentions (.map body) (depth + 1) further :=
        .within (contentEntries?_map body) member (isResourceKey_of_role role) deeper
      refine ⟨.given isOccurring gives isMentioned, fun whole name isPart isName => ?_⟩
      have lower : Bounded root rank name := start _
        ⟨_, way, reference, further, whole, body, depth, isOccurring, named, gives, isMentioned,
          isPart, isName⟩
      split
      · exact lower.succ
      · exact lower
    · have isMentioned := mentions_own (contentEntries?_map body) something
      refine ⟨.given isOccurring gives isMentioned, fun name isName => way.tail ?_⟩
      exact ⟨reference, _, body, isOccurring, named, gives, isMentioned, isName⟩

/-- A resource that mentions no type by a name is resolved or refused at some depth: what cannot be
written gives it no content. -/
theorem ends_of_mentions_unnamed (finite : FiniteTemplates templates)
    (mentions : MentionsOnly (fun _ reference => Reference.ofValue? reference = none) value) :
    Ends templates value := by
  induction value using node_induction with
  | step value ih =>
    refine ends_of_members finite fun declared path resource key child content applied member => ?_
    obtain ⟨-, below⟩ := (mentionsOnly_iff content).mp mentions
    rcases applyType_eq_ok_iff.mp applied with ⟨-, rfl⟩ | ⟨typed, merged⟩
    · exact fun isPath =>
        ih resource key child content member (below _ member (role_of_isResourceKey isPath))
    · obtain ⟨_, _, _, _, isReference, -⟩ := mergeType_eq_ok_iff.mp merged
      cases (mentions _ _ (mentions_own content typed)).symm.trans isReference

/-- **A resource that mentions bounded types only is resolved or refused at some depth.**  On the
way down the types of the highest rank come to stand less deep, and those that they bring in are of
a lower rank. -/
theorem ends_of_mentionsOnly (finite : FiniteTemplates (Templates.ofRoot root))
    (mentions : MentionsOnly (Fits root rank 0) value) :
    Ends (Templates.ofRoot root) value := by
  induction rank generalizing value with
  | zero =>
    refine ends_of_mentions_unnamed finite fun depth reference isMentioned => ?_
    refine Option.eq_none_iff_forall_ne_some.mpr fun denoted isReference => ?_
    have lowest := (mentions depth reference isMentioned).2 reference _ .whole
      (referenceName?_of_some isReference)
    rw [if_neg (Nat.not_lt_zero depth)] at lowest
    exact lowest
  | succ rank ih =>
    have level (height : Nat) (value : Value)
        (mentions : MentionsOnly (Fits root rank height) value) :
        Ends (Templates.ofRoot root) value := by
      induction height generalizing value with
      | zero => exact ih mentions
      | succ height inner =>
        refine ends_of_members finite
          fun declared path resource key child content applied member isPath => ?_
        have below := applyType_fits mentions content applied _ member
          (role_of_isResourceKey isPath)
        refine inner child fun depth reference deeper => ?_
        obtain ⟨occurs, bounded⟩ := below depth reference deeper
        simp only [Nat.add_lt_add_iff_right] at bounded
        exact ⟨occurs, bounded⟩
    obtain ⟨height, within⟩ := exists_bound value
    refine level height value fun depth reference isMentioned => ?_
    obtain ⟨occurs, bounded⟩ := mentions depth reference isMentioned
    rw [if_neg (Nat.not_lt_zero depth)] at bounded
    rw [Fits, if_pos (within depth reference isMentioned)]
    exact ⟨occurs, bounded⟩

/-! ### Documents -/

/-- **The application of templates to a finite document ends**, where no type brings itself in below
itself, and at every greater depth it ends the same way.  A resource is refused as circular exactly
when its own chain of types comes back to one of them. -/
theorem applyTemplates_ends (finite : (Value.map root).isEndless = false)
    (acyclic : ∀ name, ¬ TransGen (Brings root) name name) :
    (∃ depth result, result ≠ .error (.defect .nestedTooDeeply) ∧
      ∀ deeper, depth ≤ deeper → applyTemplatesWithin deeper root = result) ∧
    ∀ path node cycle, applyType (Templates.ofRoot root) (resourceArguments path) node =
        .error (.raml (.circularTypes cycle)) ↔
      ∃ names name, ComesBack (Templates.ofRoot root).resourceTypes (resourceArguments path) node []
        names name ∧ cycle = names ++ [name] := by
  refine ⟨?_, fun path node cycle => applyType_circular_iff⟩
  have templates := finiteTemplates_of_root finite
  obtain ⟨rank, bounded⟩ := exists_bounded acyclic
  have each (key : Scalar) (child : Value) (member : (key, child) ∈ root)
      (isPath : isResourceKey key = true) : Ends (Templates.ofRoot root) child := by
    have fits : MentionsOnly (Fits root rank 0) child := by
      intro depth reference isMentioned
      rw [Fits, if_neg (Nat.not_lt_zero depth)]
      exact ⟨.declared member isPath isMentioned, fun whole name _ _ => bounded name⟩
    exact ends_of_mentionsOnly templates fits
  obtain ⟨depth, ends⟩ := exists_depth_of_members "" each
  have isEnd : applyTemplatesWithin depth root ≠ .error (.defect .nestedTooDeeply) := by
    intro failed
    obtain ⟨⟨key, child⟩, ⟨before, after, split, _⟩, failed⟩ := mapM_eq_error_iff.mp failed
    have member : (key, child) ∈ root := by
      rw [split]
      exact List.mem_append.mpr (.inr List.mem_cons_self)
    cases named : resourceKey? key with
    | none =>
      simp only [resolveEntry, named] at failed
      cases failed
    | some relative =>
      rw [resolveEntry_resource named, bind_eq_error_iff] at failed
      rcases failed with here | ⟨_, _, same⟩
      · exact ends (key, child) member relative named here
      · cases same
  exact ⟨depth, _, isEnd, fun deeper le => applyTemplatesWithin_of_le le isEnd⟩

/-- A resource that only refers to a type. -/
def resourceOf (name : String) : Value := .map [(.text "type", .text name)]

/-- The body of a type that brings in a resource of another type. -/
def collectionBody : Entries := [(.text "/item", resourceOf "item")]

/-- The body of a type that brings in nothing. -/
def itemBody : Entries := [(.text "description", .text "an item")]

/-- A document with a resource type that brings in a resource of another type. -/
def collections : Entries :=
  [(.text "title", .text "t"),
    (.text "resourceTypes", .map [(.text "item", .map itemBody),
      (.text "collection", .map collectionBody)]),
    (.text "/users", resourceOf "collection")]

theorem gives_collections {reference : Value} {body : Entries}
    (gives : Gives (Templates.ofRoot collections).resourceTypes reference body) :
    referenceName? reference = some "item" ∧ body = itemBody ∨
      referenceName? reference = some "collection" ∧ body = collectionBody := by
  obtain ⟨path, denoted, template, isReference, found, filled⟩ := gives
  rw [referenceName?_of_some isReference]
  generalize denoted.name = name at found ⊢
  generalize (resourceArguments path).putAll _ = arguments at filled
  have declared : (Templates.ofRoot collections).resourceTypes =
      [(.text "item", .map itemBody), (.text "collection", .map collectionBody)] := by rfl
  have alike (first second : String) :
      (Scalar.text first).alike (.text second) = (first == second) := Scalar.alike_text rfl rfl
  rw [declared, Entries.find?_cons, Entries.find?_cons, alike, alike] at found
  by_cases isItem : ("item" == name) = true
  · rw [if_pos isItem] at found
    cases found
    have same : templateBody itemBody arguments = .ok itemBody := by rfl
    exact .inl ⟨congrArg some (beq_iff_eq.mp isItem).symm, Except.ok.inj (filled.symm.trans same)⟩
  · rw [if_neg isItem] at found
    by_cases isCollection : ("collection" == name) = true
    · rw [if_pos isCollection] at found
      cases found
      have same : templateBody collectionBody arguments = .ok collectionBody := by rfl
      exact .inr ⟨congrArg some (beq_iff_eq.mp isCollection).symm,
        Except.ok.inj (filled.symm.trans same)⟩
    · rw [if_neg isCollection] at found
      cases found

theorem mentionsOnly_resourceOf (name : String) :
    MentionsOnly (fun depth reference => depth = 0 ∧ reference = .text name) (resourceOf name) := by
  refine (mentionsOnly_iff (contentEntries?_map _)).mpr ⟨?_, ?_⟩
  · exact Everywhere.cons (fun _ _ => ⟨rfl, rfl⟩) Everywhere.nil
  · exact Everywhere.cons (fun role => absurd role (by decide)) Everywhere.nil

theorem mentionsOnly_collectionBody :
    MentionsOnly (fun depth reference => depth = 1 ∧ reference = .text "item")
      (.map collectionBody) := by
  refine (mentionsOnly_iff (contentEntries?_map _)).mpr ⟨?_, ?_⟩
  · exact Everywhere.cons (fun named => absurd named (by decide)) Everywhere.nil
  · refine Everywhere.cons (fun _ depth reference mentions => ?_) Everywhere.nil
    obtain ⟨rfl, same⟩ := mentionsOnly_resourceOf "item" depth reference mentions
    exact ⟨rfl, same⟩

theorem not_mentions_itemBody : MentionsOnly (fun _ _ => False) (.map itemBody) := by
  refine (mentionsOnly_iff (contentEntries?_map _)).mpr ⟨?_, ?_⟩
  · exact Everywhere.cons (fun named => absurd named (by decide)) Everywhere.nil
  · exact Everywhere.cons (fun role => absurd role (by decide)) Everywhere.nil

/-- A reference by name alone is no part of another one. -/
theorem PartOf.eq_text {name : String} {whole : Value} (isPart : PartOf root (.text name) whole) :
    whole = .text name := by
  generalize same : Value.text name = part at isPart
  induction isPart with
  | whole => rfl
  | first _ _ ih => cases same.trans ih.symm
  | second _ _ ih => cases same.trans ih.symm

/-- Only the one type brings in the other. -/
theorem brings_collections {name nested : String} (brings : Brings collections name nested) :
    name = "collection" ∧ nested = "item" := by
  obtain ⟨inherited, inherits, nests⟩ := brings
  have noStep (name inherited : String) : ¬ Inherits collections name inherited := by
    rintro ⟨reference, further, body, _, _, gives, mentions, _⟩
    rcases gives_collections gives with ⟨_, rfl⟩ | ⟨_, rfl⟩
    · exact not_mentions_itemBody _ _ mentions
    · cases (mentionsOnly_collectionBody _ _ mentions).1
  have same : name = inherited := by
    rcases inherits.cases_head with same | ⟨_, step, _⟩
    · exact same
    · exact (noStep _ _ step).elim
  obtain ⟨reference, further, whole, body, depth, _, isName, gives, mentions, isPart, isNested⟩ :=
    nests
  rcases gives_collections gives with ⟨_, rfl⟩ | ⟨isCollection, rfl⟩
  · exact (not_mentions_itemBody _ _ mentions).elim
  · obtain ⟨_, rfl⟩ := mentionsOnly_collectionBody _ _ mentions
    rw [isPart.eq_text] at isNested
    cases isName.symm.trans isCollection
    cases isNested
    exact ⟨same, rfl⟩

theorem applyTemplates_ends_collections : ∃ depth result,
    result ≠ .error (.defect .nestedTooDeeply) ∧
      ∀ deeper, depth ≤ deeper → applyTemplatesWithin deeper collections = result := by
  have acyclic (name : String) : ¬ TransGen (Brings collections) name name := by
    intro circle
    obtain ⟨_, first, _⟩ := TransGen.head'_iff.mp circle
    obtain ⟨_, _, last⟩ := TransGen.tail'_iff.mp circle
    exact absurd ((brings_collections first).1.symm.trans (brings_collections last).2) (by decide)
  exact (applyTemplates_ends (by decide) acyclic).1

/-! ### A type that brings itself in -/

/-- The body of a type that brings in a resource of the type `a`. -/
def nestingBody : Entries := [(.text "/x", resourceOf "a")]

/-- A document with a resource type that brings in a resource of the same type. -/
def nestedCircle : Entries :=
  [(.text "title", .text "t"),
    (.text "resourceTypes", .list [.map [(.text "a", .map nestingBody)]]),
    (.text "/r", resourceOf "a")]

/-- The body has no placeholders. -/
theorem templateBody_nestingBody (arguments : Entries) :
    templateBody nestingBody arguments = .ok nestingBody := by
  rfl

theorem applyType_nestedCircle (arguments : Entries) :
    applyType (Templates.ofRoot nestedCircle) arguments [(.text "type", .text "a")] =
      .ok nestingBody := by
  have isDeclared : (Templates.ofRoot nestedCircle).resourceTypes.find? (.text "a") =
      some (.map nestingBody) := by rfl
  refine applyType_eq_ok_iff.mpr (.inr ⟨by decide, mergeType_eq_ok_iff.mpr ?_⟩)
  exact ⟨⟨"a", []⟩, nestingBody, nestingBody, nestingBody, rfl, rfl, isDeclared,
    templateBody_nestingBody _, .inl ⟨by decide, rfl⟩, rfl⟩

/-- A resource of the type has no end at any depth. -/
theorem resolveResource_nestedCircle (depth : Nat) (parentPath relativePath : String) :
    resolveResource (Templates.ofRoot nestedCircle) depth parentPath relativePath
      (resourceOf "a") = .error (.defect .nestedTooDeeply) := by
  induction depth generalizing parentPath relativePath with
  | zero => rfl
  | succ depth ih =>
    have isPath : resourceKey? (.text "/x") = some "/x" := by decide
    have content : contentEntries? (resourceOf "a") = some [(.text "type", .text "a")] :=
      contentEntries?_map _
    have comes : ComesToMember (Templates.ofRoot nestedCircle) depth (parentPath ++ relativePath)
        (resourceOf "a") (.text "/x", resourceOf "a") := by
      refine ⟨_, nestingBody, content, applyType_nestedCircle _, [], [], rfl, ?_⟩
      exact fun earlier member => absurd member List.not_mem_nil
    refine resolveResource_of_member comes fun resource => ?_
    rw [memberStep_resource isPath, ih]
    rfl

/-- **A type that brings itself in has no end**: the document has no problems and is finite, and its
type is applied to its own resource over and over. -/
theorem nestedCircle_endless : problems nestedCircle = .ok [] ∧
    (Value.map nestedCircle).isEndless = false ∧
    ∀ depth, applyTemplatesWithin depth nestedCircle = .error (.defect .nestedTooDeeply) := by
  refine ⟨by decide +kernel, by decide, fun depth => ?_⟩
  have isPath : resourceKey? (.text "/r") = some "/r" := by decide
  have comes : ComesTo (resolveEntry (Templates.ofRoot nestedCircle) depth) nestedCircle
      (.text "/r", resourceOf "a") := by
    refine ⟨nestedCircle.take 2, [], rfl, fun earlier member => ?_⟩
    have noResource : resourceKey? earlier.1 = none := by
      simp only [nestedCircle, List.take, List.mem_cons, List.not_mem_nil, or_false] at member
      rcases member with rfl | rfl <;> decide
    exact ⟨earlier, by simp only [resolveEntry, noResource]; rfl⟩
  refine mapM_eq_error_iff.mpr ⟨_, comes, ?_⟩
  rw [resolveEntry_resource isPath, resolveResource_nestedCircle]
  rfl

end RamlInterfaces.Raml
