/-
**Sessions after any calls.**

A session is a fresh one after some calls of its operations, on interfaces and methods that earlier
calls returned; a call that is refused does not end it.  Whatever the calls, what they returned
stays true of the model.

* `Call`, `Event`, `History`: a call, how it ended, and a session after some;
* `performAll`: calls performed one after the other;
* `Remembered`, `Carries`: an enum that the session remembers, and a method with its annotations;
* `Standing`: what the declarations of a session have to do with what was returned;
* `Standing.interface`, `Standing.method`, `Standing.enum`, `Standing.verb`, `Standing.refused`:
  **it stays after each call**;
* `Consistent`, `History.consistent`: **what holds after all calls**.
-/

import RamlInterfaces.Proofs.Generation.Independence
import RamlInterfaces.Proofs.Generation.Operations

namespace RamlInterfaces.Generation

open Java
open Settings (Configuration)

/-! ### Calls -/

/-- A call of an operation. -/
inductive Call where
  | interface (name : String)
  | method (owner : TypePath) (name : String) (returnType : TypeRef)
  | enum (owner : TypePath) (name : String) (literals : List String)
  | verb (word : String) (method : MethodPath)

/-- What a call returns. -/
inductive Answer where
  | type (path : TypePath)
  | method (path : MethodPath)
  | done
deriving DecidableEq

/-- The operation that is called. -/
def Call.perform : Call → Build Answer
  | .interface name => do
    let path ← createInterface name
    return .type path
  | .method owner name returnType => do
    let path ← createMethod owner name returnType
    return .method path
  | .enum owner name literals => do
    let path ← createEnum owner name literals
    return .type path
  | .verb word path => do
    annotateWord word path
    return .done

/-- A call and how it ended. -/
structure Event where
  call : Call
  outcome : Except Failure Answer

/-- The interface that was returned. -/
def Event.interface? : Event → Option TypePath
  | ⟨.interface _, .ok (.type path)⟩ => some path
  | _ => none

/-- The method that was returned. -/
def Event.method? : Event → Option MethodPath
  | ⟨.method _ _ _, .ok (.method path)⟩ => some path
  | _ => none

/-- The verb that a method was annotated for. -/
def Event.verb? (method : MethodPath) : Event → Option Verb
  | ⟨.verb word annotated, .ok _⟩ =>
    if annotated = method then Verb.ofWord? (Text.lower word) else none
  | _ => none

/-- The interfaces that calls returned. -/
def interfacesOf (events : List Event) : List TypePath := events.filterMap Event.interface?

/-- The methods that calls returned. -/
def methodsOf (events : List Event) : List MethodPath := events.filterMap Event.method?

/-- The verbs that a method was annotated for, in order. -/
def verbsFor (method : MethodPath) (events : List Event) : List Verb :=
  events.filterMap (Event.verb? method)

/-- A call is about interfaces and methods that earlier calls returned. -/
def Call.Admissible (events : List Event) : Call → Prop
  | .interface _ => True
  | .method owner _ _ | .enum owner _ _ => owner ∈ interfacesOf events
  | .verb _ path => path ∈ methodsOf events

instance (events : List Event) (call : Call) : Decidable (call.Admissible events) := by
  cases call <;> unfold Call.Admissible <;> infer_instance

/-- A session under a configuration after some calls, whether they were refused or not. -/
inductive History (configuration : Configuration) : List Event → Session → Prop
  | start {session : Session} (started : Session.start configuration = .ok session) :
    History configuration [] session
  | call {events : List Event} {session next : Session} {call : Call}
    {outcome : Except Failure Answer} (history : History configuration events session)
    (admissible : call.Admissible events)
    (ran : call.perform.run session = (outcome, next)) :
    History configuration (events ++ [⟨call, outcome⟩]) next

/-- Performs calls on a session one after the other, unless one of them is about what no earlier
call returned. -/
def performAll (events : List Event) (session : Session) :
    List Call → Option (List Event × Session)
  | [] => some (events, session)
  | call :: rest =>
    if call.Admissible events then
      let (outcome, next) := call.perform.run session
      performAll (events ++ [⟨call, outcome⟩]) next rest
    else none

theorem History.performAll {configuration : Configuration} {events later : List Event}
    {session final : Session} (history : History configuration events session) (calls : List Call)
    (performed : performAll events session calls = some (later, final)) :
    History configuration later final := by
  induction calls generalizing events session with
  | nil =>
    cases performed
    exact history
  | cons call rest ih =>
    unfold Generation.performAll at performed
    split at performed
    · exact ih (history.call ‹_› rfl) performed
    · cases performed

/-! ### Enums and methods -/

variable {base : String} {decls : List TypeDecl} {decl : TypeDecl}

/-- An enum that is remembered is nested in its interface, with its literals. -/
def Remembered (base : String) (decls : List TypeDecl) (known : KnownEnum) : Prop :=
  (known.literals.map constantName).Nodup ∧ ∃ decl ∈ decls,
    known.owner = (interfaceOf base decl.name).qualifiedName ∧
      known.path = (interfaceOf base decl.name).nested known.name ∧
        decl.nested.find? (·.name == known.name) = some (enumDecl known.name known.literals)

/-- A method has the given annotations. -/
def Carries (base : String) (decls : List TypeDecl) (method : MethodPath)
    (marks : List Annotation) : Prop :=
  ∃ decl ∈ decls, method.type = interfaceOf base decl.name ∧
    decl.methods[method.index]?.map (·.annotations) = some marks

/-- An enum stays when declarations change in their other members. -/
theorem Remembered.change {known : KnownEnum} (remembered : Remembered base decls known)
    (name : String) {change : TypeDecl → TypeDecl} (named : ∀ decl, (change decl).name = decl.name)
    (nested : ∀ decl name inner, decl.nested.find? (·.name == name) = some inner →
      (change decl).nested.find? (·.name == name) = some inner) :
    Remembered base (changeNamed name change decls) known := by
  obtain ⟨distinct, decl, member, owner, path, found⟩ := remembered
  refine ⟨distinct, _, List.mem_map_of_mem member, ?_⟩
  by_cases isNamed : decl.name = name
  · rw [if_pos isNamed, named]
    exact ⟨owner, path, nested _ _ _ found⟩
  · rw [if_neg isNamed]
    exact ⟨owner, path, found⟩

/-- A method stays when declarations change in their other members. -/
theorem Carries.change {method : MethodPath} {marks : List Annotation}
    (carries : Carries base decls method marks) (name : String) {change : TypeDecl → TypeDecl}
    (named : ∀ decl, (change decl).name = decl.name)
    (kept : ∀ decl, decl.name = name → method.type = interfaceOf base decl.name →
      decl.methods[method.index]?.map (·.annotations) = some marks →
        (change decl).methods[method.index]?.map (·.annotations) = some marks) :
    Carries base (changeNamed name change decls) method marks := by
  obtain ⟨decl, member, owner, found⟩ := carries
  refine ⟨_, List.mem_map_of_mem member, ?_⟩
  by_cases isNamed : decl.name = name
  · rw [if_pos isNamed, named]
    exact ⟨owner, kept decl isNamed owner found⟩
  · rw [if_neg isNamed]
    exact ⟨owner, found⟩

/-- Enums and methods stay when one more type is nested. -/
theorem Remembered.nested {known : KnownEnum} (remembered : Remembered base decls known)
    (name : String) (inner : TypeDecl) :
    Remembered base (changeNamed name (withNested · inner) decls) known :=
  remembered.change name (fun _ => rfl) fun decl _ _ found => by
    show (decl.nested ++ [inner]).find? _ = _
    rw [List.find?_append, found, Option.some_or]

theorem Carries.nested {method : MethodPath} {marks : List Annotation}
    (carries : Carries base decls method marks) (name : String) (inner : TypeDecl) :
    Carries base (changeNamed name (withNested · inner) decls) method marks :=
  carries.change name (fun _ => rfl) fun _ _ _ found => found

/-- An enum of a new name with constants of distinct names can be remembered. -/
theorem remembered_of_nested {name : String} {literals : List String} (member : decl ∈ decls)
    (fresh : name ∉ decl.nested.map (·.name)) (distinct : (literals.map constantName).Nodup) :
    Remembered base (changeNamed decl.name (withNested · (enumDecl name literals)) decls)
      ⟨(interfaceOf base decl.name).qualifiedName, name, literals,
        (interfaceOf base decl.name).nested name⟩ := by
  have isFresh : (enumDecl name literals).name ∉ decl.nested.map (·.name) := fresh
  exact ⟨distinct, _, mem_changeNamed (withNested · (enumDecl name literals)) member, rfl, rfl,
    find?_withNested isFresh⟩

theorem Remembered.mono {known : KnownEnum} (remembered : Remembered base decls known)
    (added : List TypeDecl) : Remembered base (decls ++ added) known := by
  obtain ⟨distinct, decl, member, there⟩ := remembered
  exact ⟨distinct, decl, List.mem_append_left _ member, there⟩

theorem Carries.mono {method : MethodPath} {marks : List Annotation}
    (carries : Carries base decls method marks) (added : List TypeDecl) :
    Carries base (decls ++ added) method marks := by
  obtain ⟨decl, member, there⟩ := carries
  exact ⟨decl, List.mem_append_left _ member, there⟩

/-! ### What was returned -/

section Events

variable {events : List Event} {event : Event}

theorem interfacesOf_concat : interfacesOf (events ++ [event]) =
    interfacesOf events ++ event.interface?.toList := by
  unfold interfacesOf
  rw [List.filterMap_append]
  cases found : event.interface? <;> simp [found]

theorem methodsOf_concat : methodsOf (events ++ [event]) =
    methodsOf events ++ event.method?.toList := by
  unfold methodsOf
  rw [List.filterMap_append]
  cases found : event.method? <;> simp [found]

theorem verbsFor_concat {method : MethodPath} : verbsFor method (events ++ [event]) =
    verbsFor method events ++ (event.verb? method).toList := by
  unfold verbsFor
  rw [List.filterMap_append]
  cases found : event.verb? method <;> simp [found]

/-- A call that returns no interface and no method leaves those that were returned. -/
theorem interfacesOf_concat_of_none (none : event.interface? = none) :
    interfacesOf (events ++ [event]) = interfacesOf events := by
  rw [interfacesOf_concat, none]
  exact List.append_nil _

theorem methodsOf_concat_of_none (none : event.method? = none) :
    methodsOf (events ++ [event]) = methodsOf events := by
  rw [methodsOf_concat, none]
  exact List.append_nil _

theorem verbsFor_concat_of_none {method : MethodPath} (none : event.verb? method = none) :
    verbsFor method (events ++ [event]) = verbsFor method events := by
  rw [verbsFor_concat, none]
  exact List.append_nil _

/-- A call that is refused returns nothing. -/
theorem nothing_of_refused (call : Call) (failure : Failure) :
    Event.interface? ⟨call, .error failure⟩ = none ∧ Event.method? ⟨call, .error failure⟩ = none ∧
      ∀ method, Event.verb? method ⟨call, .error failure⟩ = none := by
  cases call <;> exact ⟨rfl, rfl, fun _ => rfl⟩

end Events

/-! ### Sessions after calls -/

/-- Every enum that was returned is remembered under its interface, which was returned itself. -/
def Returned (enums : List KnownEnum) (events : List Event) : Prop :=
  ∀ owner name literals path, ⟨.enum owner name literals, .ok (.type path)⟩ ∈ events →
    owner ∈ interfacesOf events ∧ ⟨owner.qualifiedName, name, literals, path⟩ ∈ enums

/-- Every method that was to be annotated was returned. -/
def Annotated (events : List Event) : Prop :=
  ∀ word method outcome, ⟨.verb word method, outcome⟩ ∈ events → method ∈ methodsOf events

section Concat

variable {events : List Event} {event : Event} {enums more : List KnownEnum}

theorem Returned.concat (returned : Returned enums events) (kept : enums ⊆ more)
    (own : ∀ owner name literals path, event = ⟨.enum owner name literals, .ok (.type path)⟩ →
      owner ∈ interfacesOf events ∧ ⟨owner.qualifiedName, name, literals, path⟩ ∈ more) :
    Returned more (events ++ [event]) := by
  intro owner name literals path member
  rw [interfacesOf_concat]
  rcases List.mem_append.mp member with old | new
  · obtain ⟨isInterface, isKnown⟩ := returned owner name literals path old
    exact ⟨List.mem_append_left _ isInterface, kept isKnown⟩
  · obtain ⟨isInterface, isKnown⟩ := own _ _ _ _ (List.mem_singleton.mp new).symm
    exact ⟨List.mem_append_left _ isInterface, isKnown⟩

theorem Annotated.concat (annotated : Annotated events)
    (own : ∀ word method outcome, event = ⟨.verb word method, outcome⟩ →
      method ∈ methodsOf events) : Annotated (events ++ [event]) := by
  intro word method outcome member
  rw [methodsOf_concat]
  rcases List.mem_append.mp member with old | new
  · exact List.mem_append_left _ (annotated word method outcome old)
  · exact List.mem_append_left _ (own _ _ _ (List.mem_singleton.mp new).symm)

/-- A method that was not returned was not annotated. -/
theorem Annotated.verbsFor_eq_nil (annotated : Annotated events) {method : MethodPath}
    (unknown : method ∉ methodsOf events) : verbsFor method events = [] := by
  refine List.filterMap_eq_nil_iff.mpr fun event member => ?_
  unfold Event.verb?
  split
  · rename_i word annotatedMethod answer
    refine if_neg fun same => unknown ?_
    rw [← same]
    exact annotated word annotatedMethod _ member
  · rfl

end Concat

/-- The annotation of a method for a verb. -/
def verbMark (base : String) (verb : Verb) : Annotation := ⟨verbReference base verb, []⟩

/-- The declarations of a session have what calls returned: the interfaces, the enums that the
session remembers, and the methods with an annotation for each verb. -/
structure Standing (configuration : Configuration) (decls : List TypeDecl) (verbs : List Verb)
    (enums : List KnownEnum) (events : List Event) (session : Session) : Prop where
  declared : Declared configuration decls verbs enums session
  distinct : (decls.map (·.name)).Nodup
  different : verbs.Nodup
  interfaces : interfacesOf events =
    decls.map fun decl => interfaceOf configuration.basePackage decl.name
  remembered : ∀ known ∈ enums, Remembered configuration.basePackage decls known
  returned : Returned enums events
  methods : ∀ method ∈ methodsOf events, Carries configuration.basePackage decls method
    ((verbsFor method events).map (verbMark configuration.basePackage))
  annotated : Annotated events

variable {configuration : Configuration} {verbs : List Verb} {enums : List KnownEnum}
  {events : List Event} {session next : Session}

theorem standing_start (configuration : Configuration) :
    Standing configuration [] [] [] [] { configuration } where
  declared := declared_start configuration
  distinct := List.nodup_nil
  different := List.nodup_nil
  interfaces := rfl
  remembered := fun _ member => absurd member List.not_mem_nil
  returned := fun _ _ _ _ member => absurd member List.not_mem_nil
  methods := fun _ member => absurd member List.not_mem_nil
  annotated := fun _ _ _ member => absurd member List.not_mem_nil

namespace Standing

/-- An interface that was returned is declared. -/
theorem exists_decl (standing : Standing configuration decls verbs enums events session)
    {owner : TypePath} (member : owner ∈ interfacesOf events) :
    ∃ decl ∈ decls, interfaceOf configuration.basePackage decl.name = owner := by
  rw [standing.interfaces] at member
  exact List.mem_map.mp member

/-- Changes of declarations leave the interfaces if they leave their names. -/
theorem interfaces_of_names (standing : Standing configuration decls verbs enums events session)
    {later : List TypeDecl} (names : later.map (·.name) = decls.map (·.name)) :
    interfacesOf events =
      later.map fun decl => interfaceOf configuration.basePackage decl.name := by
  have paths := congrArg (List.map (interfaceOf configuration.basePackage)) names
  rw [List.map_map, List.map_map] at paths
  exact standing.interfaces.trans paths.symm

/-- **A refused call** leaves what was returned if it leaves the enums and the methods. -/
theorem refused (standing : Standing configuration decls verbs enums events session) {call : Call}
    (admissible : call.Admissible events) (failure : Failure) {later : List TypeDecl}
    (declared : Declared configuration later verbs enums next)
    (names : later.map (·.name) = decls.map (·.name))
    (enumsStay : ∀ known, Remembered configuration.basePackage decls known →
      Remembered configuration.basePackage later known)
    (methodsStay : ∀ method marks, Carries configuration.basePackage decls method marks →
      Carries configuration.basePackage later method marks) :
    Standing configuration later verbs enums (events ++ [⟨call, .error failure⟩]) next := by
  obtain ⟨noInterface, noMethod, noVerb⟩ := nothing_of_refused call failure
  refine ⟨declared, names ▸ standing.distinct, standing.different, ?_,
    fun known member => enumsStay known (standing.remembered known member), ?_, ?_, ?_⟩
  · rw [interfacesOf_concat_of_none noInterface]
    exact standing.interfaces_of_names names
  · exact standing.returned.concat (fun _ member => member) fun _ _ _ _ same => by cases same
  · intro method member
    rw [methodsOf_concat_of_none noMethod] at member
    rw [verbsFor_concat_of_none (noVerb method)]
    exact methodsStay _ _ (standing.methods method member)
  · refine standing.annotated.concat fun word method outcome same => ?_
    cases same
    exact admissible

/-- **An interface that is returned** is declared besides the others. -/
theorem interface (standing : Standing configuration decls verbs enums events session)
    {name : String} (fresh : name ∉ decls.map (·.name))
    (declared : Declared configuration (decls ++ [{ name, kind := .interface }]) verbs enums next) :
    Standing configuration (decls ++ [{ name, kind := .interface }]) verbs enums
      (events ++ [⟨.interface name,
        .ok (.type (interfaceOf configuration.basePackage name))⟩]) next := by
  refine ⟨declared, nodup_map_concat_iff.mpr ⟨standing.distinct, fresh⟩, standing.different, ?_,
    fun known member => (standing.remembered known member).mono _, ?_, ?_, ?_⟩
  · rw [interfacesOf_concat, List.map_append, standing.interfaces]
    rfl
  · exact standing.returned.concat (fun _ member => member) fun _ _ _ _ same => by cases same
  · intro method member
    rw [methodsOf_concat_of_none rfl] at member
    rw [verbsFor_concat_of_none rfl]
    exact (standing.methods method member).mono _
  · exact standing.annotated.concat fun _ _ _ same => by cases same

/-- **An enum that is returned** is remembered. -/
theorem enum (standing : Standing configuration decls verbs enums events session)
    {owner : TypePath} (admissible : owner ∈ interfacesOf events) {name : String}
    {literals : List String} {path : TypePath} {later : List TypeDecl} {more : List KnownEnum}
    (declared : Declared configuration later verbs more next)
    (names : later.map (·.name) = decls.map (·.name))
    (isKnown : ⟨owner.qualifiedName, name, literals, path⟩ ∈ more) (kept : enums ⊆ more)
    (remembered : ∀ known ∈ more, Remembered configuration.basePackage later known)
    (methodsStay : ∀ method marks, Carries configuration.basePackage decls method marks →
      Carries configuration.basePackage later method marks) :
    Standing configuration later verbs more
      (events ++ [⟨.enum owner name literals, .ok (.type path)⟩]) next := by
  refine ⟨declared, names ▸ standing.distinct, standing.different, ?_, remembered, ?_, ?_, ?_⟩
  · rw [interfacesOf_concat_of_none rfl]
    exact standing.interfaces_of_names names
  · refine standing.returned.concat kept fun _ _ _ _ same => ?_
    cases same
    exact ⟨admissible, isKnown⟩
  · intro method member
    rw [methodsOf_concat_of_none rfl] at member
    rw [verbsFor_concat_of_none rfl]
    exact methodsStay _ _ (standing.methods method member)
  · exact standing.annotated.concat fun _ _ _ same => by cases same

/-- **A method that is returned** comes last in its interface. -/
theorem method (standing : Standing configuration decls verbs enums events session)
    (member : decl ∈ decls) (name : String) (returnType : TypeRef)
    (declared : Declared configuration
      (changeNamed decl.name (withMethod · { name, returnType }) decls) verbs enums next) :
    Standing configuration (changeNamed decl.name (withMethod · { name, returnType }) decls) verbs
      enums (events ++ [⟨.method (interfaceOf configuration.basePackage decl.name) name returnType,
        .ok (.method (methodPlace configuration.basePackage decl))⟩]) next := by
  let change := (withMethod · { name, returnType })
  let place := methodPlace configuration.basePackage decl
  have names : (changeNamed decl.name change decls).map (·.name) = decls.map (·.name) :=
    map_name_changeNamed _ fun _ => rfl
  have unknown : place ∉ methodsOf events := by
    intro isMethod
    obtain ⟨other, isOther, owner, found⟩ := standing.methods place isMethod
    have same : decl = other :=
      List.inj_on_of_nodup_map standing.distinct member isOther (congrArg TypePath.outermost owner)
    rw [← same] at found
    simp [place, methodPlace] at found
  refine ⟨declared, names ▸ standing.distinct, standing.different, ?_, fun known isKnown => ?_,
    ?_, fun method isMethod => ?_, ?_⟩
  · rw [interfacesOf_concat_of_none rfl]
    exact standing.interfaces_of_names names
  · exact (standing.remembered known isKnown).change _ (fun _ => rfl) fun _ _ _ found => found
  · exact standing.returned.concat (fun _ member => member) fun _ _ _ _ same => by cases same
  · rw [verbsFor_concat_of_none rfl]
    rw [methodsOf_concat] at isMethod
    rcases List.mem_append.mp isMethod with old | new
    · refine (standing.methods method old).change _ (fun _ => rfl) fun other _ _ found => ?_
      obtain ⟨known, isKnown, marks⟩ := Option.map_eq_some_iff.mp found
      obtain ⟨inside, _⟩ := List.getElem?_eq_some_iff.mp isKnown
      show (other.methods ++ [_])[method.index]?.map (·.annotations) = _
      rw [List.getElem?_append_left inside]
      exact found
    · obtain rfl : method = place := List.mem_singleton.mp new
      rw [standing.annotated.verbsFor_eq_nil unknown]
      refine ⟨change decl, mem_changeNamed change member, rfl, ?_⟩
      simp [change, withMethod, place, methodPlace]
  · exact standing.annotated.concat fun _ _ _ same => by cases same

/-- **A method that is annotated for a verb** has one more annotation, and no other method has. -/
theorem verb (standing : Standing configuration decls verbs enums events session)
    (member : decl ∈ decls) {index : Nat} {word : String} {verb : Verb} {later : List Verb}
    (isWord : Verb.ofWord? (Text.lower word) = some verb) (different : later.Nodup)
    (admissible : ⟨interfaceOf configuration.basePackage decl.name, index⟩ ∈ methodsOf events)
    (declared : Declared configuration (changeNamed decl.name
      (withMark index (verbMark configuration.basePackage verb)) decls) later enums next) :
    Standing configuration
      (changeNamed decl.name (withMark index (verbMark configuration.basePackage verb)) decls) later
      enums (events ++ [⟨.verb word ⟨interfaceOf configuration.basePackage decl.name, index⟩,
        .ok .done⟩]) next := by
  let mark := verbMark configuration.basePackage verb
  have names : (changeNamed decl.name (withMark index mark) decls).map (·.name) =
      decls.map (·.name) := map_name_changeNamed _ fun _ => rfl
  refine ⟨declared, names ▸ standing.distinct, different, ?_, fun known isKnown => ?_,
    ?_, fun method isMethod => ?_, ?_⟩
  · rw [interfacesOf_concat_of_none rfl]
    exact standing.interfaces_of_names names
  · exact (standing.remembered known isKnown).change _ (fun _ => rfl) fun _ _ _ found => found
  · exact standing.returned.concat (fun _ member => member) fun _ _ _ _ same => by cases same
  · rw [methodsOf_concat_of_none rfl] at isMethod
    rw [verbsFor_concat]
    by_cases same : (⟨interfaceOf configuration.basePackage decl.name, index⟩ : MethodPath) = method
    · obtain ⟨other, isOther, owner, found⟩ := standing.methods method isMethod
      rw [← same] at owner found ⊢
      obtain rfl : decl = other := List.inj_on_of_nodup_map standing.distinct member isOther
        (congrArg TypePath.outermost owner)
      obtain ⟨known, isKnown, marks⟩ := Option.map_eq_some_iff.mp found
      refine ⟨withMark index mark decl, mem_changeNamed _ member, rfl, ?_⟩
      simp [withMark, Event.verb?, isKnown, marks, isWord, mark]
    · have other : Event.verb? method ⟨.verb word ⟨interfaceOf configuration.basePackage decl.name,
        index⟩, .ok .done⟩ = none := if_neg same
      rw [other, Option.toList_none, List.append_nil]
      refine (standing.methods method isMethod).change _ (fun _ => rfl) fun owner named isOwner
        found => ?_
      have apart : index ≠ method.index := by
        rintro rfl
        exact same (by rw [← named, ← isOwner])
      show (owner.methods.modify index _)[method.index]?.map (·.annotations) = _
      rw [List.getElem?_modify_ne _ _ apart]
      exact found
  · refine standing.annotated.concat fun _ _ _ same => ?_
    cases same
    exact admissible

/-- **A call that returns** leaves what was returned, and adds to it. -/
theorem returns (standing : Standing configuration decls verbs enums events session) {call : Call}
    (admissible : call.Admissible events) {answer : Answer}
    (ran : call.perform.run session = (.ok answer, next)) :
    ∃ decls verbs enums,
      Standing configuration decls verbs enums (events ++ [⟨call, .ok answer⟩]) next := by
  cases call with
  | interface name =>
    obtain ⟨path, middle, created, done⟩ := run_bind_eq_ok.mp ran
    cases done
    obtain ⟨rfl, fresh, declared⟩ :=
      createInterface_declared name session path next standing.declared created
    exact ⟨_, _, _, standing.interface fresh declared⟩
  | method owner name returnType =>
    obtain ⟨path, middle, created, done⟩ := run_bind_eq_ok.mp ran
    cases done
    obtain ⟨decl, member, rfl⟩ := standing.exists_decl admissible
    obtain ⟨rfl, declared⟩ := createMethod_declared standing.distinct member name returnType session
      path next standing.declared created
    exact ⟨_, _, _, standing.method member name returnType declared⟩
  | enum owner name literals =>
    obtain ⟨path, middle, created, done⟩ := run_bind_eq_ok.mp ran
    cases done
    obtain ⟨decl, member, rfl⟩ := standing.exists_decl admissible
    rcases createEnum_declared standing.distinct member name literals session path next
      standing.declared created with ⟨isKnown, declared⟩ | ⟨isPath, fresh, distinct, declared⟩
    · exact ⟨_, _, _, standing.enum admissible declared rfl isKnown (fun _ there => there)
        standing.remembered fun _ _ carries => carries⟩
    · refine ⟨_, _, _, standing.enum admissible declared (map_name_changeNamed _ fun _ => rfl)
        (List.mem_append_right _ List.mem_cons_self) (fun _ there => List.mem_append_left _ there)
        (fun known isKnown => ?_) fun _ _ carries => carries.nested _ _⟩
      rcases List.mem_append.mp isKnown with old | new
      · exact (standing.remembered known old).nested _ _
      · rw [List.mem_singleton.mp new, isPath]
        exact remembered_of_nested member fresh distinct
  | verb word method =>
    obtain ⟨_, middle, annotated, done⟩ := run_bind_eq_ok.mp ran
    cases done
    obtain ⟨decl, member, owner, _⟩ := standing.methods method admissible
    obtain ⟨_, index⟩ := method
    obtain rfl := owner
    obtain ⟨verb, isWord, declared⟩ := annotateWord_declared word decl.name index session _ next
      standing.declared annotated
    exact ⟨_, _, _, standing.verb member isWord (nodup_noteVerb standing.different verb) admissible
      declared⟩

/-- **An enum that was returned** is nested in its interface, which is declared. -/
theorem exists_nested (standing : Standing configuration decls verbs enums events session)
    {owner path : TypePath} {name : String} {literals : List String}
    (member : ⟨.enum owner name literals, .ok (.type path)⟩ ∈ events) :
    (∃ decl ∈ decls, interfaceOf configuration.basePackage decl.name = owner ∧
      decl.nested.find? (·.name == name) = some (enumDecl name literals)) ∧
    path = owner.nested name ∧ (literals.map constantName).Nodup := by
  obtain ⟨isInterface, isKnown⟩ := standing.returned owner name literals path member
  obtain ⟨decl, isDecl, rfl⟩ := standing.exists_decl isInterface
  obtain ⟨distinct, other, isOther, isOwner, isPath, found⟩ := standing.remembered _ isKnown
  obtain rfl : decl = other := List.inj_on_of_nodup_map standing.distinct isDecl isOther
    (interfaceOf_injective isOwner)
  exact ⟨⟨decl, isDecl, rfl, found⟩, isPath, distinct⟩

/-- **A call that is refused** leaves what was returned. -/
theorem refuses (standing : Standing configuration decls verbs enums events session) {call : Call}
    (admissible : call.Admissible events) {failure : Failure}
    (ran : call.perform.run session = (.error failure, next)) :
    ∃ decls,
      Standing configuration decls verbs enums (events ++ [⟨call, .error failure⟩]) next := by
  have same (declared : Declared configuration decls verbs enums next) :
      ∃ decls, Standing configuration decls verbs enums (events ++ [⟨call, .error failure⟩]) next :=
    ⟨decls, standing.refused admissible failure declared rfl (fun _ there => there)
      fun _ _ there => there⟩
  cases call with
  | interface name =>
    exact same (Stops.bind_of_first (createInterface_stops name) (fun _ => Stops.pure _) session
      failure next standing.declared ran)
  | method owner name returnType =>
    exact same (Stops.bind_of_first (createMethod_stops owner name returnType)
      (fun _ => Stops.pure _) session failure next standing.declared ran)
  | enum owner name literals =>
    obtain ⟨decl, member, rfl⟩ := standing.exists_decl admissible
    rcases Stops.bind_of_first (createEnum_stops standing.distinct member name literals)
      (fun _ => Stops.pure _) session failure next standing.declared ran with
        declared | ⟨fresh, taken, declared⟩
    · exact same declared
    · exact ⟨_, standing.refused admissible failure declared (map_name_changeNamed _ fun _ => rfl)
        (fun _ remembered => remembered.nested _ _) fun _ _ carries => carries.nested _ _⟩
  | verb word method =>
    exact same (Stops.bind_of_first (annotateWord_stops word method) (fun _ => Stops.pure _) session
      failure next standing.declared ran)

end Standing

/-! ### All calls -/

/-- What was returned by calls is true of the model of a session. -/
structure Consistent (configuration : Configuration) (events : List Event) (session : Session) :
    Prop where
  /-- The interfaces that were returned are different types. -/
  interfaces : (interfacesOf events).Nodup
  /-- An enum that was returned is the type nested in its interface under its name; it has a
  constant for each literal, in order, and nothing else, and the names of the constants are
  different. -/
  enums : ∀ owner name literals path, ⟨.enum owner name literals, .ok (.type path)⟩ ∈ events →
    path = owner.nested name ∧ session.model.type? path = some (enumDecl name literals) ∧
      ((enumDecl name literals).constants.map (·.name)).Nodup
  /-- Two enums that were returned are one type exactly if interface and name are the same. -/
  same : ∀ owner name literals path other otherName otherLiterals otherPath,
    ⟨.enum owner name literals, .ok (.type path)⟩ ∈ events →
      ⟨.enum other otherName otherLiterals, .ok (.type otherPath)⟩ ∈ events →
        (path = otherPath ↔ owner = other ∧ name = otherName)
  /-- A method has exactly the annotations for the verbs that it was annotated for, each with the
  one type of that verb. -/
  annotations : ∀ method ∈ methodsOf events, session.model.annotations (.method method) =
    (verbsFor method events).map (verbMark configuration.basePackage)
  /-- The model has the annotation types of some verbs, one for each. -/
  supports : ∃ verbs : List Verb, verbs.Nodup ∧
    (session.model.units.filter (isSupport configuration.basePackage)).map (·.type) =
      verbs.map verbDecl

theorem History.standing (history : History configuration events session) :
    ∃ decls verbs enums, Standing configuration decls verbs enums events session := by
  induction history with
  | start started =>
    unfold Session.start at started
    split at started
    · cases started
    · cases started
      exact ⟨[], [], [], standing_start configuration⟩
  | @call events session next call outcome _ admissible ran ih =>
    obtain ⟨decls, verbs, enums, standing⟩ := ih
    cases outcome with
    | ok answer => exact standing.returns admissible ran
    | error failure =>
      obtain ⟨later, stands⟩ := standing.refuses admissible ran
      exact ⟨later, verbs, enums, stands⟩

/-- **What was returned stays true**, whatever was called in whatever order and whether it was
refused or not. -/
theorem History.consistent (history : History configuration events session) :
    Consistent configuration events session := by
  obtain ⟨decls, verbs, enums, standing⟩ := history.standing
  refine ⟨?_, fun owner name literals path member => ?_, ?_, fun method member => ?_, ?_⟩
  · rw [standing.interfaces]
    refine standing.distinct.of_map.map_on fun first isFirst second isSecond same => ?_
    exact List.inj_on_of_nodup_map standing.distinct isFirst isSecond
      (congrArg TypePath.outermost same)
  · obtain ⟨⟨decl, isDecl, rfl, found⟩, isPath, distinct⟩ := standing.exists_nested member
    refine ⟨isPath, ?_, ?_⟩
    · rw [isPath]
      exact (standing.declared.type? standing.distinct isDecl [name]).trans (at?_of_find? found)
    · unfold enumDecl
      rw [List.map_map]
      exact distinct
  · intro owner name literals path other otherName otherLiterals otherPath member isOther
    obtain ⟨⟨decl, _, rfl, _⟩, isPath, _⟩ := standing.exists_nested member
    obtain ⟨⟨otherDecl, _, rfl, _⟩, isOtherPath, _⟩ := standing.exists_nested isOther
    rw [isPath, isOtherPath]
    constructor
    · intro same
      have outermost : decl.name = otherDecl.name := congrArg TypePath.outermost same
      have inner : [name] = [otherName] := congrArg TypePath.inner same
      exact ⟨by rw [outermost], List.singleton_inj.mp inner⟩
    · rintro ⟨sameOwner, rfl⟩
      rw [sameOwner]
  · obtain ⟨decl, isDecl, owner, marks⟩ := standing.methods method member
    have type : session.model.type? method.type = some decl := by
      rw [owner]
      exact standing.declared.type? standing.distinct isDecl []
    show (((session.model.type? method.type).bind _).map _).getD [] = _
    rw [type, Option.bind_some, marks]
    rfl
  · exact ⟨verbs, standing.different, standing.declared.made.declares.supports⟩

/-- The interface `Orders`, whose enum `State` is refused for two constants of one name, and again
for the type it left behind; whose enum `Sort` is asked for twice, and then with other literals; and
whose method is annotated for two verbs, and for a word that is none. -/
def ordersCalls : List Call :=
  let orders := interfaceOf "api" "Orders"
  [.interface "Orders", .enum orders "State" ["in use", "in-use"], .enum orders "State" ["new"],
    .enum orders "Sort" ["up", "down"], .enum orders "Sort" ["up", "down"],
    .enum orders "Sort" ["up"], .method orders "patchOrders" (.primitive .void),
    .verb "Patch" ⟨orders, 0⟩, .verb "fetch" ⟨orders, 0⟩, .verb "get" ⟨orders, 0⟩]

/-- How these calls end. -/
def ordersOutcomes : List (Except Failure Answer) :=
  let orders := interfaceOf "api" "Orders"
  [.ok (.type orders), .error (.model (.constantDefined "in_use" "api.resource.Orders.State")),
    .error (.model (.typeDefined "api.resource.Orders.State")),
    .ok (.type (orders.nested "Sort")), .ok (.type (orders.nested "Sort")),
    .error (.model (.enumDefined "api.resource.Orders.Sort" ["up", "down"] ["up"])),
    .ok (.method ⟨orders, 0⟩), .ok .done, .error (.model (.unsupportedVerb "fetch")), .ok .done]

theorem consistent_orders : ∃ events session,
    performAll [] { configuration := { basePackage := "api" } } ordersCalls =
      some (events, session) ∧ events.map (·.outcome) = ordersOutcomes ∧
        Consistent { basePackage := "api" } events session := by
  have outcomes : (performAll [] { configuration := { basePackage := "api" } } ordersCalls).map
      (·.1.map (·.outcome)) = some ordersOutcomes := by
    decide +kernel
  obtain ⟨⟨events, session⟩, performed, ended⟩ := Option.map_eq_some_iff.mp outcomes
  have history : History { basePackage := "api" } events session :=
    (History.start rfl).performAll ordersCalls performed
  exact ⟨events, session, performed, ended, history.consistent⟩

end RamlInterfaces.Generation
