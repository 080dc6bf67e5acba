/-
**The way to a resource.**

The application of templates comes to a resource through the resources above it.  At each of them it
applies the types of that resource, which may bring in content for the resources below.

* `Stop`, `Passes`: the resources on the way to a place, from the entries on;
* `exists_stop_of_resource`, `exists_stop_of_resolved`: **every resolved resource is that of the
  last stop on the way there**, and every method of it is that of the stop with its traits;
* `Passes.fitsAlong`, `Passes.holdsAt`, `Passes.holdsAt_of_type`: **the last stop gathers what the
  entries hold, and what the types at each stop do**.
-/

import RamlInterfaces.Proofs.Raml.Idempotence
import RamlInterfaces.Proofs.Raml.Offers

namespace RamlInterfaces.Raml

/-- A resource that the application passes: its path, what it declares before its types are applied
and its content with them, and the names of the resources ahead. -/
structure Stop where
  path : String
  declared : Entries
  resource : Entries
  ahead : List String

/-- A resource stands under a name among entries that have a path. -/
structure IsUnder (templates : Templates) (path : String) (entries : Entries) (name : String)
    (declared resource : Entries) : Prop where
  content : ∃ value, entries.find? (.text name) = some value ∧
    contentEntries? value = some declared
  typed : applyType templates (resourceArguments (path ++ name)) declared = .ok resource

/-- On the way from entries with a path to a place, the application passes a stop. -/
inductive Passes (templates : Templates) : String → Entries → List String → Stop → Prop where
  | here {path name : String} {entries declared resource : Entries} (rest : List String)
    (under : IsUnder templates path entries name declared resource) :
    Passes templates path entries (name :: rest) ⟨path ++ name, declared, resource, rest⟩
  | further {path name : String} {entries declared resource : Entries} {rest : List String}
    {stop : Stop} (under : IsUnder templates path entries name declared resource)
    (later : Passes templates (path ++ name) resource rest stop) :
    Passes templates path entries (name :: rest) stop

/-- A type of the resource at a stop, perhaps inherited, has the body. -/
def Stop.HasType (templates : Templates) (stop : Stop) (body : Entries) : Prop :=
  ∃ names, names ≠ [] ∧
    Follows templates.resourceTypes (resourceArguments stop.path) stop.declared names body

/-- The names of the resources on a way, joined. -/
def pathOf (place : List String) : String := place.foldl (· ++ ·) ""

variable {templates : Templates} {path name : String} {entries declared resource resolved : Entries}
  {place rest tail : List String} {stop last : Stop} {fits holds : Value → Prop}
  {method result : Value} {depth : Nat} {verb : Verb} {root : Entries}

/-! ### Methods of resolved resources -/

/-- A name that declares a resource is its relative path. -/
theorem resourceKey?_text (isPath : isResourceKey (.text name) = true) :
    resourceKey? (.text name) = some name := by
  obtain ⟨relative, named⟩ := isResourceKey_iff.mp isPath
  obtain ⟨same, -⟩ := resourceKey?_eq_some_iff.mp named
  rw [named, Option.some.inj same]

theorem find?_resolved {key : Scalar}
    (walked : resource.mapM (memberStep templates depth path resource) = .ok resolved)
    (found : resolved.find? key = some result) : ∃ first child, resource.find? key = some child ∧
      first.alike key = true ∧
      memberStep templates depth path resource (first, child) = .ok (first, result) := by
  rcases Entries.find?_of_mapM (fun _ _ => memberStep_key) walked key with
    ⟨-, missing⟩ | ⟨first, child, last, same, isChild, isLast, step⟩
  · rw [found] at missing
    cases missing
  · rw [found, Option.some.injEq] at isLast
    subst isLast
    exact ⟨first, child, isChild, same, step⟩

/-- The application comes to a resource that it resolves. -/
theorem exists_under {value : Value} (found : entries.find? (.text name) = some value)
    (done : resolveResource templates depth path name value = .ok result) :
    ∃ below declared resource resolved, IsUnder templates path entries name declared resource ∧
      resource.mapM (memberStep templates below (path ++ name) resource) = .ok resolved ∧
      result = .map resolved := by
  cases depth with
  | zero => cases done
  | succ depth =>
    obtain ⟨declared, resource, resolved, content, typed, walked, same⟩ :=
      resolveResource_succ_eq_ok_iff.mp done
    exact ⟨depth, declared, resource, resolved, ⟨⟨value, found, content⟩, typed⟩, walked, same⟩

/-- A resolved resource at a place is that of the last stop on the way there. -/
theorem exists_stop_of_resolveResource {value node : Value}
    (found : entries.find? (.text name) = some value)
    (resources : ∀ name ∈ rest, isResourceKey (.text name) = true)
    (done : resolveResource templates depth path name value = .ok result)
    (there : result.at? (rest.map .text) = some node) :
    ∃ stop below members, Passes templates path entries (name :: rest) stop ∧ stop.ahead = [] ∧
      stop.path = rest.foldl (· ++ ·) (path ++ name) ∧ node = .map members ∧
      stop.resource.mapM (memberStep templates below stop.path stop.resource) = .ok members := by
  induction rest generalizing depth path entries name value result with
  | nil =>
    obtain ⟨below, declared, resource, resolved, under, walked, rfl⟩ := exists_under found done
    rw [List.map_nil, Value.at?_nil, Option.some.injEq] at there
    exact ⟨_, below, resolved, .here [] under, rfl, rfl, there.symm, walked⟩
  | cons next further ih =>
    obtain ⟨below, declared, resource, resolved, under, walked, rfl⟩ := exists_under found done
    obtain ⟨_, last, same, isLast, inside⟩ := Value.at?_cons_eq_some_iff.mp there
    cases same
    obtain ⟨isPath, others⟩ := List.forall_mem_cons.mp resources
    obtain ⟨first, child, isChild, alike, step⟩ := find?_resolved walked isLast
    have named := resourceKey?_text isPath
    rw [← resourceKey?_of_alike alike] at named
    rw [memberStep_resource named] at step
    obtain ⟨_, deeper, same⟩ := bind_eq_ok_iff.mp step
    cases same
    obtain ⟨stop, lower, members, passes, isStop⟩ := ih isChild others deeper inside
    exact ⟨stop, lower, members, .further under passes, isStop⟩

/-- **Every resolved resource is that of the last stop on the way there**, with its members
resolved. -/
theorem exists_stop_of_resource {node : Value}
    (applied : applyTemplatesWithin depth root = .ok resolved)
    (leads : LeadsToResource (place.map .text))
    (there : (Value.map resolved).at? (place.map .text) = some node) :
    ∃ stop below members, Passes (Templates.ofRoot root) "" root place stop ∧ stop.ahead = [] ∧
      stop.path = pathOf place ∧ node = .map members ∧
      stop.resource.mapM (memberStep (Templates.ofRoot root) below stop.path stop.resource) =
        .ok members := by
  obtain ⟨nonempty, resources⟩ := leads
  cases place with
  | nil => exact absurd rfl nonempty
  | cons name rest =>
    obtain ⟨_, last, same, isLast, inside⟩ := Value.at?_cons_eq_some_iff.mp there
    cases same
    obtain ⟨isPath, others⟩ := List.forall_mem_cons.mp resources
    rcases find?_of_applied applied (.text name) with
      ⟨-, missing⟩ | ⟨child, result, isChild, isResult, step⟩
    · cases missing.symm.trans isLast
    · cases isResult.symm.trans isLast
      rcases step with ⟨noResource, _⟩ | ⟨relative, named, done⟩
      · cases noResource.symm.trans (resourceKey?_text isPath)
      · cases named.symm.trans (resourceKey?_text isPath)
        exact exists_stop_of_resolveResource isChild (List.forall_mem_map.mp others) done inside

/-- A method of a resolved resource is its content with its traits. -/
theorem exists_content_of_method
    (walked : resource.mapM (memberStep templates depth path resource) = .ok resolved)
    (found : resolved.find? (.text verb.word) = some method) :
    ∃ content, resource.find? (.text verb.word) = some content ∧
      applyTraits templates (resourceArguments path) (referenceList (resource.get "is")) verb.word
        content = .ok method := by
  have isVerb : verbKey? (.text verb.word) = some verb := verbKey?_eq_some_iff.mpr rfl
  obtain ⟨first, content, isContent, alike, step⟩ := find?_resolved walked found
  rw [← verbKey?_of_alike alike] at isVerb
  rw [memberStep_method isVerb] at step
  obtain ⟨_, applied, same⟩ := bind_eq_ok_iff.mp step
  cases same
  exact ⟨content, isContent, applied⟩

/-- **Every method of a resolved resource is that of the last stop on the way there**, with its
traits. -/
theorem exists_stop_of_resolved (applied : applyTemplatesWithin depth root = .ok resolved)
    (leads : LeadsToResource (place.map .text))
    (there : (Value.map resolved).at? ((place ++ [verb.word]).map .text) = some method) :
    ∃ stop child, Passes (Templates.ofRoot root) "" root place stop ∧ stop.ahead = [] ∧
      stop.path = pathOf place ∧ stop.resource.find? (.text verb.word) = some child ∧
      applyTraits (Templates.ofRoot root) (resourceArguments stop.path)
        (referenceList (stop.resource.get "is")) verb.word child = .ok method := by
  rw [List.map_append, Value.at?_append] at there
  obtain ⟨node, isNode, inside⟩ := Option.bind_eq_some_iff.mp there
  obtain ⟨stop, below, members, passes, arrives, isPlace, rfl, walked⟩ :=
    exists_stop_of_resource applied leads isNode
  obtain ⟨_, last, same, isLast, isMethod⟩ := Value.at?_cons_eq_some_iff.mp inside
  cases same
  rw [List.map_nil, Value.at?_nil, Option.some.injEq] at isMethod
  subst isMethod
  obtain ⟨content, found, withTraits⟩ := exists_content_of_method walked isLast
  exact ⟨stop, content, passes, arrives, isPlace, found, withTraits⟩

/-! ### What the last stop gathers -/

theorem IsUnder.unique {other content : Entries}
    (under : IsUnder templates path entries name declared resource)
    (again : IsUnder templates path entries name other content) :
    declared = other ∧ resource = content := by
  obtain ⟨value, found, isDeclared⟩ := under.content
  obtain ⟨_, same, isOther⟩ := again.content
  rw [found, Option.some.injEq] at same
  subst same
  rw [isDeclared, Option.some.injEq] at isOther
  subst isOther
  exact ⟨rfl, Except.ok.inj (under.typed.symm.trans again.typed)⟩

/-- What entries lead to through a resource, the content that it declares does. -/
theorem IsUnder.fitsMember {next : String}
    (under : IsUnder templates path entries name declared resource)
    (isEntries : FitsAlong fits (name :: next :: rest) (.map entries)) :
    Everywhere (FitsMember fits next rest) declared := by
  obtain ⟨value, found, content⟩ := under.content
  rcases (fitsAlong_map_iff.mp isEntries).find? found rfl with rfl | ⟨own, rfl, isOwn⟩
  · rw [contentEntries?_null, Option.some.injEq] at content
    rw [← content]
    exact Everywhere.nil
  · rw [contentEntries?_map, Option.some.injEq] at content
    rw [← content]
    exact isOwn

theorem IsUnder.holdsAt {next : String}
    (under : IsUnder templates path entries name declared resource)
    (holdsAt : HoldsAt holds (name :: next :: rest) (.map entries)) :
    HoldsAt holds (next :: rest) (.map declared) := by
  obtain ⟨value, found, content⟩ := under.content
  obtain ⟨_, same, isValue⟩ := holdsAt_map_iff.mp holdsAt
  rw [found, Option.some.injEq] at same
  subst same
  obtain ⟨own, rfl⟩ := exists_map_of_holdsAt isValue
  rw [contentEntries?_map, Option.some.injEq] at content
  rw [← content]
  exact isValue

/-- The bodies of the types at all stops on the way lead to values that fit. -/
def BodiesFit (fits : Value → Prop) (templates : Templates) (path : String) (entries : Entries)
    (place tail : List String) : Prop :=
  ∀ stop body, Passes templates path entries place stop → stop.HasType templates body →
    ∀ name rest, stop.ahead ++ tail = name :: rest → Everywhere (FitsStem fits name rest) body

theorem BodiesFit.further (fit : BodiesFit fits templates path entries (name :: rest) tail)
    (under : IsUnder templates path entries name declared resource) :
    BodiesFit fits templates (path ++ name) resource rest tail :=
  fun stop body passes => fit stop body (.further under passes)

/-- The path leads to trait references, and not through a reference to a type. -/
structure ToReferences (path : List String) : Prop where
  ends : endsInReferences false path = true
  noType : "type" ∉ path

theorem ToReferences.further (ends : ToReferences (name :: rest)) (nonempty : rest ≠ []) :
    ToReferences rest := by
  refine ⟨?_, fun member => ends.noType (List.mem_cons_of_mem _ member)⟩
  cases rest with
  | nil => exact absurd rfl nonempty
  | cons next more => exact ends.ends

theorem ToReferences.ne_type (ends : ToReferences (name :: rest)) : name ≠ "type" := by
  rintro rfl
  exact ends.noType List.mem_cons_self

section

variable (collects : Collects fits holds)
  (under : IsUnder templates path entries name declared resource)
  (ends : ToReferences (name :: (rest ++ tail))) (tailed : tail ≠ [])
  (isEntries : FitsAlong fits (name :: (rest ++ tail)) (.map entries))
  (bodies : BodiesFit fits templates path entries (name :: rest) tail)

include collects under ends tailed isEntries bodies

/-- What entries lead to through a resource, the resource does with its types. -/
theorem IsUnder.fitsAlong : FitsAlong fits (rest ++ tail) (.map resource) := by
  obtain ⟨next, more, same⟩ :=
    List.exists_cons_of_ne_nil (List.append_ne_nil_of_right_ne_nil rest tailed)
  rw [same] at ends isEntries ⊢
  have further := ends.further (List.cons_ne_nil next more)
  refine fitsAlong_map_iff.mpr (collects.applyType_fitsMember further.ne_type further.ends
    (under.fitsMember isEntries) (fun names last applied follows => ?_) under.typed)
  exact bodies _ last (.here rest under) ⟨names, applied, follows⟩ next more same

/-- What entries hold through a resource, the resource holds with its types. -/
theorem IsUnder.holdsAt_left (holdsAt : HoldsAt holds (name :: (rest ++ tail)) (.map entries)) :
    HoldsAt holds (rest ++ tail) (.map resource) := by
  obtain ⟨next, more, same⟩ :=
    List.exists_cons_of_ne_nil (List.append_ne_nil_of_right_ne_nil rest tailed)
  rw [same] at ends isEntries holdsAt ⊢
  have further := ends.further (List.cons_ne_nil next more)
  refine collects.applyType_holdsAt_left further.ne_type further.ends
    (under.fitsMember isEntries) (fun names last applied follows => ?_) under.typed
    (under.holdsAt holdsAt)
  exact bodies _ last (.here rest under) ⟨names, applied, follows⟩ next more same

omit tailed in
/-- What a type of a resource offers, the resource holds. -/
theorem IsUnder.holdsAt_right {body : Entries} {optional : Bool} {next : String}
    {more : List String}
    (hasType : Stop.HasType templates ⟨path ++ name, declared, resource, rest⟩ body)
    (same : rest ++ tail = next :: more) (plain : optionalKey? (.text next) = none)
    (has : optional = true → declared.has (.text next) = true)
    (offers : Offers holds optional next more body) :
    HoldsAt holds (rest ++ tail) (.map resource) := by
  obtain ⟨names, applied, follows⟩ := hasType
  rw [same] at ends isEntries ⊢
  have further := ends.further (List.cons_ne_nil next more)
  refine collects.applyType_holdsAt_right further.ne_type further.ends plain
    (under.fitsMember isEntries) (fun names last applied follows => ?_) under.typed applied follows
    has offers
  exact bodies _ last (.here rest under) ⟨names, applied, follows⟩ next more same

end

namespace Passes

variable (collects : Collects fits holds) (arrives : last.ahead = [])
  (ends : ToReferences (place ++ tail)) (tailed : tail ≠ [])
  (isEntries : FitsAlong fits (place ++ tail) (.map entries))
  (bodies : BodiesFit fits templates path entries place tail)
  (passes : Passes templates path entries place last)

include collects arrives ends tailed isEntries bodies passes

/-- **The last stop leads where the entries do**, and the types at each stop. -/
theorem fitsAlong : FitsAlong fits tail (.map last.resource) := by
  induction passes with
  | here rest under =>
    have stays := under.fitsAlong collects ends tailed isEntries bodies
    rw [show rest = [] from arrives] at stays
    exact stays
  | @further path name entries declared resource rest stop under later ih =>
    have stays := under.fitsAlong collects ends tailed isEntries bodies
    have further : ToReferences (rest ++ tail) :=
      ends.further (List.append_ne_nil_of_right_ne_nil rest tailed)
    exact ih arrives further stays (bodies.further under)

/-- **The last stop holds what the entries do.** -/
theorem holdsAt (held : HoldsAt holds (place ++ tail) (.map entries)) :
    HoldsAt holds tail (.map last.resource) := by
  induction passes with
  | here rest under =>
    have stays := under.holdsAt_left collects ends tailed isEntries bodies held
    rw [show rest = [] from arrives] at stays
    exact stays
  | @further path name entries declared resource rest stop under later ih =>
    have stays := under.holdsAt_left collects ends tailed isEntries bodies held
    have further : ToReferences (rest ++ tail) :=
      ends.further (List.append_ne_nil_of_right_ne_nil rest tailed)
    exact ih arrives further (under.fitsAlong collects ends tailed isEntries bodies)
      (bodies.further under) stays

/-- **The last stop holds what a type at any stop offers**, if the resource there has the member
where this is optional. -/
theorem holdsAt_of_type {body : Entries} {optional : Bool} {more : List String}
    (earlier : Passes templates path entries place stop) (hasType : stop.HasType templates body)
    (same : stop.ahead ++ tail = name :: more) (plain : optionalKey? (.text name) = none)
    (has : optional = true → stop.declared.has (.text name) = true)
    (offers : Offers holds optional name more body) :
    HoldsAt holds tail (.map last.resource) := by
  induction passes with
  | @here path first entries declared resource rest under =>
    cases earlier with
    | here _ again =>
      obtain ⟨rfl, rfl⟩ := under.unique again
      have stays := under.holdsAt_right collects ends isEntries bodies hasType same plain has
        offers
      rw [show rest = [] from arrives] at stays
      exact stays
    | further _ later =>
      rw [show rest = [] from arrives] at later
      cases later
  | @further path first entries declared resource rest last under later ih =>
    have stays := under.fitsAlong collects ends tailed isEntries bodies
    have further : ToReferences (rest ++ tail) :=
      ends.further (List.append_ne_nil_of_right_ne_nil rest tailed)
    cases earlier with
    | here _ again =>
      obtain ⟨rfl, rfl⟩ := under.unique again
      refine later.holdsAt collects arrives further tailed stays (bodies.further under) ?_
      exact under.holdsAt_right collects ends isEntries bodies hasType same plain has offers
    | further again deeper =>
      obtain ⟨rfl, rfl⟩ := under.unique again
      exact ih arrives further stays (bodies.further under) deeper

end Passes

end RamlInterfaces.Raml
