/-
**The effect of references to traits.**

A reference to a trait takes effect where the method shows the content of the trait: its keys stand
in the method, unless something that is no mapping is in their way.  Where the sources of a method's
references agree, the method has applied all of them.

* `Shows`, `TakesEffect`: the content that a method shows, and the references that take effect;
* `refers_takesEffect`: **where the sources agree, every reference takes effect**;
* `dropped_references`: where they do not, it may not; nor may the references in a trait's content.
-/

import Mathlib.Data.List.Infix
import RamlInterfaces.Proofs.Raml.Sources

namespace RamlInterfaces.Raml

/-- The path leads through keys of mappings inside the value. -/
def IsKeyPath : Value → List Scalar → Prop
  | _, [] => True
  | .map entries, key :: rest => ∃ child, (key, child) ∈ entries ∧ IsKeyPath child rest
  | _, _ :: _ => False

/-- Every path of keys in the content is one in the value, unless something that is no mapping
stands on the way. -/
def Shows (value content : Value) : Prop := ∀ path, IsKeyPath content path →
  (value.at? path).isSome = true ∨ ∃ above below inner, path = above ++ below ∧
    value.at? above = some inner ∧ inner.isNull = false ∧ inner.isMap = false

/-- A reference takes effect in a method of the resource at a place: the method shows the content
that it gives. -/
def TakesEffect (root : Entries) (place : List String) (verb : Verb) (reference method : Value) :
    Prop :=
  ∃ body, traitAt root place verb reference = .ok body ∧ Shows method (.map body)

variable {root resolved : Entries} {place : List String} {verb : Verb}
  {value content method reference : Value} {traits : Bool} {depth : Nat}

/-- **A value shows the content that it has absorbed.** -/
theorem Absorbs.shows (absorbs : Absorbs traits value content) : Shows value content := by
  intro path isPath
  induction path generalizing traits value content with
  | nil =>
    rw [Value.at?_nil]
    exact .inl rfl
  | cons key rest ih =>
    cases content with
    | map entries =>
      obtain ⟨child, member, further⟩ := isPath
      cases absorbs with
      | other something noMaps =>
        refine .inr ⟨[], key :: rest, value, rfl, Value.at?_nil value, something, ?_⟩
        exact Bool.eq_false_iff.mpr fun isMap => nomatch noMaps isMap
      | @mapping _ own _ there each =>
        obtain ⟨inner, found⟩ := Option.isSome_iff_exists.mp (there key child member)
        have step (path : List Scalar) : (Value.map own).at? (key :: path) = inner.at? path := by
          show (Entries.find? own key).bind (fun child => child.at? path) = inner.at? path
          rw [found]
          rfl
        rcases ih (each key child inner member found) further with shown |
          ⟨above, below, blocking, rfl, isThere, something, noMap⟩
        · rw [step]
          exact .inl shown
        · refine .inr ⟨key :: above, below, blocking, rfl, ?_, something, noMap⟩
          rw [step]
          exact isThere
    | _ => exact isPath.elim

/-! ### The references of a method -/

section

variable {resource own entries : Entries} {child : Value} {means same : Value → Prop} {form : Form}

theorem means_of_fitsAlong (fits : FitsAlong (FitsForm form means) ["is"] (.map entries))
    (member : reference ∈ referenceList (entries.get "is")) : means reference := by
  have isForm : FitsMember (FitsForm form means) "is" [] (some "is") (entries.get "is") :=
    Everywhere.get (fitsAlong_map_iff.mp fits) fun _ => .inl rfl
  exact FitsForm.each (isForm rfl) member

theorem exists_reference_of_holdsAt
    (holdsAt : HoldsAt (fun value => ∃ other ∈ referenceList value, same other) ["is"]
      (.map entries)) : ∃ other ∈ referenceList (entries.get "is"), same other := by
  obtain ⟨value, found, inner, isInner, holds⟩ := holdsAt_map_iff.mp holdsAt
  obtain rfl := Option.some.inj ((Value.at?_nil value).symm.trans isInner)
  unfold Entries.get
  rw [found]
  exact holds

/-- What holds of a reference that a resource or its method has holds of one that is applied to the
method, if it holds of every one that counts as the same. -/
theorem exists_methodReference {further : Form}
    (agree : ∀ first second, means first → means second → second.alike first = true →
      same first → same second)
    (isResource : FitsAlong (FitsForm form means) ["is"] (.map resource))
    (isMethod : FitsAlong (FitsForm further means) [verb.word, "is"] (.map resource))
    (found : resource.find? (.text verb.word) = some child)
    (content : contentEntries? child = some own)
    (gathered : ∃ tail ∈ referencePaths verb,
      HoldsAt (fun value => ∃ other ∈ referenceList value, same other) tail (.map resource)) :
    ∃ other ∈ methodReferences (referenceList (resource.get "is")) own, same other := by
  have isChild : FitsAlong (FitsForm further means) ["is"] child :=
    (fitsAlong_map_iff.mp isMethod).find? found rfl
  have isOwn : FitsAlong (FitsForm further means) ["is"] (.map own) := by
    rcases isChild with rfl | ⟨members, rfl, all⟩
    · cases content
      exact fitsAlong_map_iff.mpr Everywhere.nil
    · rw [contentEntries?_map, Option.some.injEq] at content
      exact fitsAlong_map_iff.mpr (content ▸ all)
  obtain ⟨tail, isPath, holdsAt⟩ := gathered
  rcases List.mem_cons.mp isPath with rfl | inMethod
  · obtain ⟨reference, member, isSame⟩ := exists_reference_of_holdsAt holdsAt
    rcases mem_joinReferences_or_alike member with joins | ⟨other, isOther, alike⟩
    · exact ⟨reference, joins, isSame⟩
    · -- the method's own reference counts for it
      refine ⟨other, List.mem_append_left _ isOther, ?_⟩
      exact agree reference other (means_of_fitsAlong isResource member)
        (means_of_fitsAlong isOwn isOther) alike isSame
  · obtain rfl := List.mem_singleton.mp inMethod
    obtain ⟨_, isSame, holdsChild⟩ := holdsAt_map_iff.mp holdsAt
    obtain rfl := Option.some.inj (found.symm.trans isSame)
    obtain ⟨members, rfl⟩ := exists_map_of_holdsAt holdsChild
    rw [contentEntries?_map, Option.some.injEq] at content
    subst content
    obtain ⟨reference, member, isSame⟩ := exists_reference_of_holdsAt holdsChild
    exact ⟨reference, List.mem_append_left _ member, isSame⟩

end

/-- **Every reference takes effect in a method whose sources agree**: the method shows the content
that the reference gives, whether it stands in the method, in its resource or in a type of one of
the resources on the way. -/
theorem refers_takesEffect (keyed : (Value.map root).isKeyed = true)
    (valid : problems root = .ok []) (applied : applyTemplatesWithin depth root = .ok resolved)
    (leads : LeadsToResource (place.map .text))
    (there : (Value.map resolved).at? ((place ++ [verb.word]).map .text) = some method)
    (agree : SourcesAgree root place verb) (refers : Refers root StandsUnder place verb reference) :
    TakesEffect root place verb reference method := by
  obtain ⟨last, child, passes, arrives, isPlace, found, withTraits⟩ :=
    exists_stop_of_resolved applied leads there
  obtain ⟨own, bodies, content, given, rfl⟩ := applyTraits_ok_iff.mp withTraits
  have ofResource : ["is"] ∈ referencePaths verb := List.mem_cons_self
  have ofMethod : [verb.word, "is"] ∈ referencePaths verb :=
    List.mem_cons_of_mem _ List.mem_cons_self
  obtain ⟨_, isResource⟩ := gathered_fits keyed valid leads agree arrives passes ofResource
  obtain ⟨_, isMethod⟩ := gathered_fits keyed valid leads agree arrives passes ofMethod
  obtain ⟨other, isApplied, sameContent⟩ := exists_methodReference
    (fun first second isFirst isSecond alike isSame =>
      (agree.alike first second isFirst isSecond alike).trans isSame)
    isResource isMethod found content (gathered_holds keyed valid leads agree arrives passes refers)
  obtain ⟨body, isBody, gives⟩ := exists_result_of_mem given isApplied
  have traits := keyed_templates keyed "traits"
  have isKeyed : ∀ body ∈ bodies, Keyed (.map body) := fun body member => by
    obtain ⟨_, -, isBody⟩ := exists_of_mem_mapM given member
    exact keyed_traitBody traits isBody
  refine ⟨body, ?_, (absorbs_traits isKeyed own body isBody).shows⟩
  rw [← sameContent]
  unfold traitAt
  rw [← isPlace]
  exact gives

/-! ### Documents of one type -/

/-- A method of a resolved document. -/
def resolvedMethod? (depth : Nat) (root : Entries) (place : List String) (verb : Verb) :
    Option Value :=
  (applyTemplatesWithin depth root).toOption.bind fun resolved =>
    (Value.map resolved).at? ((place ++ [verb.word]).map .text)

theorem exists_resolved_of_any {check : Value → Bool}
    (checked : (resolvedMethod? depth root place verb).any check = true) : ∃ resolved method,
      applyTemplatesWithin depth root = .ok resolved ∧
      (Value.map resolved).at? ((place ++ [verb.word]).map .text) = some method ∧
      check method = true := by
  obtain ⟨method, found, holds⟩ := (Option.any_eq_true _ _).mp checked
  obtain ⟨resolved, same, there⟩ := Option.bind_eq_some_iff.mp found
  exact ⟨resolved, method, toOption_eq_some_iff.mp same, there, holds⟩

/-- A type that refers to a trait, and to one for a method that its resource may have. -/
def shelfType : Entries :=
  [(.text "is", .list [.text "paged"]),
    (.text "get?", .map [(.text "is", .list [.text "traced"])])]

/-- A document with that type, some traits and the given resource. -/
def shelves (resource : Entries) : Entries :=
  [(.text "title", .text "t"),
    (.text "resourceTypes", .list [.map [(.text "shelf", .map shelfType)]]),
    (.text "traits", .list [
      .map [(.text "cached", .map [(.text "headers", .map [(.text "If-Match", .null)])])],
      .map [(.text "listed", .map [(.text "is", .list [.text "paged"])])],
      .map [(.text "paged", .map [(.text "queryParameters", .map [(.text "page", .null)])])],
      .map [(.text "sized", .map [(.text "queryParameters", .map [
        (.text "max<<size>>", .null)])])],
      .map [(.text "traced", .map [(.text "headers", .map [
        (.text "X-<<methodName>>", .null)])])]]),
    (.text "/shelves", .map resource)]

/-- A resource of that type, which refers to traits as given. -/
def shelf (references : Value) : Entries :=
  [(.text "type", .text "shelf"), (.text "is", references), (.text "get", .null)]

section

variable {references : Value} {resource body : Entries} {stop : Stop}

theorem givesBody_shelf : GivesBody (Templates.ofRoot (shelves (shelf references))).resourceTypes
    (resourceArguments "/shelves") (shelf references) ⟨"shelf", []⟩ shelfType :=
  ⟨⟨rfl, rfl⟩, shelfType, rfl, rfl⟩

theorem passes_shelves (passes : Passes (Templates.ofRoot (shelves resource)) ""
    (shelves resource) ["/shelves"] stop) :
    stop.path = "/shelves" ∧ stop.declared = resource ∧ stop.ahead = [] := by
  cases passes with
  | here rest under =>
    obtain ⟨value, found, content⟩ := under.content
    cases found
    rw [contentEntries?_map, Option.some.injEq] at content
    exact ⟨rfl, content.symm, rfl⟩
  | further under later => cases later

theorem hasType_shelf
    (passes : Passes (Templates.ofRoot (shelves (shelf references))) ""
      (shelves (shelf references)) ["/shelves"] stop)
    (hasType : stop.HasType (Templates.ofRoot (shelves (shelf references))) body) :
    body = shelfType := by
  obtain ⟨isPath, isDeclared, -⟩ := passes_shelves passes
  obtain ⟨names, applied, follows⟩ := hasType
  rw [isPath, isDeclared] at follows
  cases follows with
  | start => exact absurd rfl applied
  | next given further =>
    obtain ⟨-, rfl⟩ := given.unique givesBody_shelf
    exact (further.of_untyped rfl).2

/-- The resource has its references, and the type its own for the resource and for the method. -/
theorem written_shelf {tail : List String} {value : Value} (isPath : tail ∈ referencePaths .get)
    (written : Written (shelves (shelf references)) (fun _ => MayStandUnder) ["/shelves"] tail
      value) :
    value = references ∨ value = .list [.text "paged"] ∨ value = .list [.text "traced"] := by
  cases written with
  | declared found =>
    rcases List.mem_cons.mp isPath with rfl | isMethod
    · exact .inl (Option.some.inj found).symm
    · obtain rfl := List.mem_singleton.mp isMethod
      cases found
  | inherited passes hasType member counts ahead found =>
    obtain rfl := hasType_shelf passes hasType
    obtain ⟨-, -, arrived⟩ := passes_shelves passes
    rw [arrived] at ahead
    rcases List.mem_cons.mp isPath with rfl | isMethod
    · cases ahead
      rcases List.mem_cons.mp member with same | isOptional
      · cases same
        exact .inr (.inl (Option.some.inj found).symm)
      · cases List.mem_singleton.mp isOptional
        exact absurd counts (by unfold MayStandUnder; decide)
    · obtain rfl := List.mem_singleton.mp isMethod
      cases ahead
      rcases List.mem_cons.mp member with same | isOptional
      · cases same
        exact absurd counts (by unfold MayStandUnder; decide)
      · cases List.mem_singleton.mp isOptional
        exact .inr (.inr (Option.some.inj found).symm)

/-- The type of the resource refers to its trait for the resource. -/
theorem refers_shelf
    (ends : (applyType (Templates.ofRoot (shelves (shelf references)))
      (resourceArguments "/shelves") (shelf references)).toOption.isSome = true) :
    Refers (shelves (shelf references)) StandsUnder ["/shelves"] .get (.text "paged") := by
  obtain ⟨typed, same⟩ := Option.isSome_iff_exists.mp ends
  have isTyped := toOption_eq_some_iff.mp same
  have under : IsUnder (Templates.ofRoot (shelves (shelf references))) ""
      (shelves (shelf references)) "/shelves" (shelf references) typed :=
    ⟨⟨.map (shelf references), rfl, contentEntries?_map _⟩, isTyped⟩
  refine ⟨["is"], List.mem_cons_self, .list [.text "paged"], ?_, List.mem_cons_self⟩
  exact .inherited (.here [] under)
    ⟨_, List.cons_ne_nil _ _, .next givesBody_shelf (.start shelfType)⟩ List.mem_cons_self
      (.inl ⟨rfl, rfl⟩) rfl (Value.at?_nil _)

end

/-- The resource of a document with references in a list. -/
def listedShelves : Entries := shelves (shelf (.list [.text "cached"]))

theorem sourcesAgree_shelves : SourcesAgree listedShelves ["/shelves"] .get where
  form := by
    intro tail isPath
    refine ⟨.list, fun value written => .inr ?_⟩
    rcases written_shelf isPath written with rfl | rfl | rfl <;> rfl
  plain := by
    intro stop body passes hasType
    obtain rfl := hasType_shelf passes hasType
    refine List.forall_mem_cons.mpr ⟨?_, List.forall_mem_singleton.mpr ?_⟩
    · exact ⟨fun role => absurd role (by decide), fun role => absurd role (by decide)⟩
    · exact ⟨fun _ => .inr ⟨_, rfl⟩, fun role => absurd role (by decide)⟩
  alike := by
    have names (reference : Value)
        (refers : Refers listedShelves (fun _ => MayStandUnder) ["/shelves"] .get reference) :
        reference = .text "cached" ∨ reference = .text "paged" ∨ reference = .text "traced" := by
      obtain ⟨tail, isPath, value, written, member⟩ := refers
      rcases written_shelf isPath written with rfl | rfl | rfl
      · exact .inl (List.mem_singleton.mp member)
      · exact .inr (.inl (List.mem_singleton.mp member))
      · exact .inr (.inr (List.mem_singleton.mp member))
    intro first second isFirst isSecond alike
    rcases names first isFirst with rfl | rfl | rfl <;>
      rcases names second isSecond with rfl | rfl | rfl <;>
      first | rfl | exact absurd alike (by decide)

theorem takesEffect_shelves : (Value.map listedShelves).isKeyed = true ∧
    problems listedShelves = .ok [] ∧ LeadsToResource (["/shelves"].map .text) ∧
    SourcesAgree listedShelves ["/shelves"] .get ∧
    Refers listedShelves StandsUnder ["/shelves"] .get (.text "paged") ∧ ∃ resolved method,
      applyTemplatesWithin 2 listedShelves = .ok resolved ∧
      (Value.map resolved).at? ((["/shelves"] ++ [Verb.get.word]).map .text) = some method ∧
      TakesEffect listedShelves ["/shelves"] .get (.text "paged") method := by
  have keyed : (Value.map listedShelves).isKeyed = true := rfl
  have valid : problems listedShelves = .ok [] := rfl
  have leads : LeadsToResource (["/shelves"].map .text) := ⟨List.cons_ne_nil _ _, by decide⟩
  have ends : (resolvedMethod? 2 listedShelves ["/shelves"] .get).any (fun _ => true) = true := by
    decide +kernel
  obtain ⟨resolved, method, applied, there, -⟩ := exists_resolved_of_any ends
  have refers : Refers listedShelves StandsUnder ["/shelves"] .get (.text "paged") :=
    refers_shelf (by decide +kernel)
  exact ⟨keyed, valid, leads, sourcesAgree_shelves, refers, resolved, method, applied, there,
    refers_takesEffect keyed valid applied leads there sourcesAgree_shelves refers⟩

/-! ### Dropped references -/

/-- The templates of a document without problems are applied, and a reference takes no effect in a
method. -/
def Drops (root : Entries) (place : List String) (verb : Verb) (reference : Value) : Prop :=
  problems root = .ok [] ∧ ∃ resolved method, applyTemplates root = .ok resolved ∧
    (Value.map resolved).at? ((place ++ [verb.word]).map .text) = some method ∧
    ¬ TakesEffect root place verb reference method

/-- The value lacks the path, and nothing but mappings stands on the way. -/
def lacksPath (path : List Scalar) (value : Value) : Bool :=
  (value.at? path).isNone && path.inits.all fun above => (value.at? above).all Value.isMap

theorem not_shows_of_lacksPath {path : List Scalar} (lacks : lacksPath path value = true)
    (isPath : IsKeyPath content path) : ¬ Shows value content := by
  obtain ⟨missing, mappings⟩ := Bool.and_eq_true_iff.mp lacks
  intro shows
  rcases shows path isPath with shown | ⟨above, below, inner, rfl, isThere, -, noMap⟩
  · rw [Option.isNone_iff_eq_none.mp missing] at shown
    cases shown
  · have isMap := List.all_eq_true.mp mappings above ((List.mem_inits _ _).mpr ⟨below, rfl⟩)
    rw [isThere, Option.all_some, noMap] at isMap
    cases isMap

theorem drops_of_lacksPath {body : Entries} {path : List Scalar} (valid : problems root = .ok [])
    (given : traitAt root place verb reference = .ok body) (isPath : IsKeyPath (.map body) path)
    (lacks : (resolvedMethod? nestingLimit root place verb).any (lacksPath path) = true) :
    Drops root place verb reference := by
  obtain ⟨resolved, method, applied, there, missing⟩ := exists_resolved_of_any lacks
  refine ⟨valid, resolved, method, applied, there, ?_⟩
  rintro ⟨other, isOther, shows⟩
  obtain rfl := Except.ok.inj (given.symm.trans isOther)
  exact not_shows_of_lacksPath missing isPath shows

/-- A document whose resource has a single reference, where its type has a list. -/
def singleShelves : Entries := shelves (shelf (.text "cached"))

/-- A document with a method whose trait refers to another one. -/
def chainedShelves : Entries :=
  shelves [(.text "get", .map [(.text "is", .list [.text "listed"])])]

/-- A reference to a trait with an argument. -/
def sized (size : Scalar) : Value := .map [(.text "sized", .map [(.text "size", .scalar size)])]

/-- A document whose resource refers to a trait with another argument than its method does, the two
being equal. -/
def sizedShelves : Entries :=
  shelves [(.text "is", .list [sized (.bool true)]),
    (.text "get", .map [(.text "is", .list [sized (.int 1)])])]

/-- **References may be dropped**: those of a type where its resource has a single one, those in the
content of a trait, and those that equal others. -/
theorem dropped_references :
    (Refers singleShelves StandsUnder ["/shelves"] .get (.text "paged") ∧
      Drops singleShelves ["/shelves"] .get (.text "paged")) ∧
    (Refers chainedShelves StandsUnder ["/shelves"] .get (.text "listed") ∧
      traitAt chainedShelves ["/shelves"] .get (.text "listed") =
        .ok [(.text "is", .list [.text "paged"])] ∧
      Drops chainedShelves ["/shelves"] .get (.text "paged")) ∧
    Refers sizedShelves StandsUnder ["/shelves"] .get (sized (.bool true)) ∧
      Drops sizedShelves ["/shelves"] .get (sized (.bool true)) := by
  have single : IsKeyPath (.map [(.text "queryParameters", .map [(.text "page", .null)])])
      [.text "queryParameters"] := ⟨_, List.mem_cons_self, trivial⟩
  have twice : IsKeyPath (.map [(.text "queryParameters", .map [(.text "maxTrue", .null)])])
      [.text "queryParameters", .text "maxTrue"] :=
    ⟨_, List.mem_cons_self, _, List.mem_cons_self, trivial⟩
  refine ⟨⟨refers_shelf (by decide +kernel), ?_⟩, ⟨?_, rfl, ?_⟩, ?_, ?_⟩
  · exact drops_of_lacksPath rfl rfl single (by decide +kernel)
  · exact ⟨["get", "is"], List.mem_cons_of_mem _ List.mem_cons_self, _, .declared rfl,
      List.mem_cons_self⟩
  · exact drops_of_lacksPath rfl rfl single (by decide +kernel)
  · exact ⟨["is"], List.mem_cons_self, _, .declared rfl, List.mem_cons_self⟩
  · exact drops_of_lacksPath rfl rfl twice (by decide +kernel)

end RamlInterfaces.Raml
