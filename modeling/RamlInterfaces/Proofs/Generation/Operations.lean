/-
**What the operations of a session do.**

Interfaces, methods, enums and annotations for verbs are declared by four operations, which may be
called in any order and each of which may be refused.  What a refused one leaves behind matters: an
enum stays where it was nested even if its constants are refused.

* `Stops`: what a step leaves behind that fails;
* `Declares.type?`: the types of a model, looked up in its declarations;
* `Declared`: a session with the given declarations, annotation types and enums;
* `createInterface_declared`, `createMethod_declared`, `createEnum_declared`,
  `annotateVerb_declared`: **an operation that ends with a result**;
* `createInterface_stops`, `createMethod_stops`, `createEnum_stops`, `annotateVerb_stops`: **one
  that is refused**.
-/

import Mathlib.Data.List.Nodup
import RamlInterfaces.Proofs.Generation.Declarations

namespace RamlInterfaces.Generation

open Java
open Settings (Configuration)

/-! ### Steps that fail -/

/-- A step that fails takes every session with the first property to one with the second. -/
def Stops {α : Type} (before : Session → Prop) (step : Build α) (after : Session → Prop) : Prop :=
  ∀ session failure final, before session → step.run session = (.error failure, final) → after final

namespace Stops

variable {α β : Type} {before after : Session → Prop}

protected theorem mono {stronger weaker : Session → Prop} {step : Build β}
    (stops : Stops before step after) (implied : ∀ session, stronger session → before session)
    (implies : ∀ session, after session → weaker session) : Stops stronger step weaker :=
  fun session failure final holds ran =>
    implies final (stops session failure final (implied session holds) ran)

/-- What is known of the sessions and not of one only. -/
protected theorem assuming {fact : Prop} {step : Build β} (stops : fact → Stops before step after) :
    Stops (fun session => before session ∧ fact) step after :=
  fun session failure final holds ran => stops holds.2 session failure final holds.1 ran

protected theorem pure (value : β) : Stops before (pure value) after := by
  intro session failure final start ran
  cases ran

protected theorem throw {failure : Failure} (holds : ∀ session, before session → after session) :
    Stops before (throw failure : Build β) after := by
  intro session other final start ran
  cases ran
  exact holds session start

protected theorem modify (update : Session → Session) :
    Stops before (modify update : Build Unit) after := by
  intro session failure final start ran
  cases ran

protected theorem set (updated : Session) : Stops before (set updated : Build Unit) after := by
  intro session failure final start ran
  cases ran

/-- **One step after another** fails where the first does, or the second after the first. -/
protected theorem bind {step : Build α} {next : α → Build β} {middle : α → Session → Prop}
    (leads : Leads before step middle) (first : Stops before step after)
    (second : ∀ value, Stops (middle value) (next value) after) :
    Stops before (step >>= next) after := by
  intro session failure final start ran
  cases stepped : step.run session with
  | mk outcome between =>
    cases outcome with
    | error other =>
      rw [run_bind_error next stepped] at ran
      cases ran
      exact first session failure final start stepped
    | ok value =>
      rw [run_bind_ok next stepped] at ran
      have there := leads session value between start stepped
      exact second value between failure final there ran

/-- Only the first of two steps can fail. -/
protected theorem bind_of_first {step : Build α} {next : α → Build β}
    (first : Stops before step after)
    (second : ∀ value, Stops (fun _ => True) (next value) after) :
    Stops before (step >>= next) after := by
  have always : Leads before step fun _ _ => True := fun _ _ _ _ _ => trivial
  exact Stops.bind always first second

protected theorem get_bind {next : Session → Build β}
    (each : ∀ seen, before seen → Stops (fun session => session = seen) (next seen) after) :
    Stops before (get >>= next) after :=
  fun session failure final start ran => each session start session failure final rfl ran

/-- A change of the model that is refused leaves the session as it was. -/
protected theorem attempt (step : Model → Except Fault (β × Model)) :
    Stops before (Build.attempt step) before := by
  refine Stops.get_bind fun seen start => ?_
  cases step seen.model with
  | error fault => exact Stops.throw fun session same => same ▸ start
  | ok outcome =>
    exact Stops.bind_of_first (Stops.set _) fun _ => Stops.pure _

/-- **A walk that stops** has taken some items into account. -/
protected theorem forM {holds : List α → Session → Prop} {round : α → Build Unit}
    (goes : ∀ before item, Leads (holds before) (round item) fun _ => holds (before ++ [item]))
    (stops : ∀ before item, Stops (holds before) (round item) (holds before))
    (before items : List α) :
    Stops (holds before) (forM items round) fun session => ∃ taken, holds taken session := by
  induction items generalizing before with
  | nil => exact Stops.pure _
  | cons item rest ih =>
    refine Stops.bind (goes before item) ?_ fun _ => ih (before ++ [item])
    exact (stops before item).mono (fun _ there => there) fun _ there => ⟨before, there⟩

end Stops

/-! ### Declarations of a name -/

section Declarations

variable {base name : String} {decls supports : List TypeDecl} {decl : TypeDecl} {model : Model}

theorem map_name_changeNamed (change : TypeDecl → TypeDecl)
    (named : ∀ decl, (change decl).name = decl.name) :
    (changeNamed name change decls).map (·.name) = decls.map (·.name) := by
  unfold changeNamed
  rw [List.map_map]
  refine List.map_congr_left fun decl _ => ?_
  by_cases isNamed : decl.name = name <;> simp [isNamed, named]

theorem mem_changeNamed (change : TypeDecl → TypeDecl) (member : decl ∈ decls) :
    change decl ∈ changeNamed decl.name change decls :=
  List.mem_map.mpr ⟨decl, member, if_pos rfl⟩

/-- Changes of the declaration of one name, one after the other. -/
theorem changeNamed_changeNamed (first second both : TypeDecl → TypeDecl)
    (named : ∀ decl, (first decl).name = decl.name)
    (same : ∀ decl ∈ decls, decl.name = name → second (first decl) = both decl) :
    changeNamed name second (changeNamed name first decls) = changeNamed name both decls := by
  unfold changeNamed
  rw [List.map_map]
  refine List.map_congr_left fun decl member => ?_
  by_cases isNamed : decl.name = name
  · simp [isNamed, named, same decl member isNamed]
  · simp [isNamed]

/-- The type that was nested last is found by its name if that is new. -/
theorem find?_withNested {inner : TypeDecl} (fresh : inner.name ∉ decl.nested.map (·.name)) :
    (withNested decl inner).nested.find? (·.name == inner.name) = some inner :=
  find?_concat_key fresh

theorem at?_of_find? {inner : TypeDecl} (found : decl.nested.find? (·.name == name) = some inner) :
    decl.at? [name] = some inner := by
  rw [TypeDecl.at?_cons, found]
  rfl

/-- **The types inside an interface are looked up in its declaration.** -/
theorem Declares.type? (declares : Declares base decls supports model) (name : String)
    (inner : List String) : model.type? ⟨resourcePackageOf base, name, inner⟩ =
      (decls.find? (·.name == name)).bind (·.at? inner) := by
  have holds : Model.holds ⟨resourcePackageOf base, name, inner⟩ = fun unit =>
      isResource base unit && unit.type.name == name := rfl
  rw [← declares.interfaces, List.find?_map, List.find?_filter, Option.bind_map, Model.type?, holds]
  simp only [Function.comp_def, Bool.decide_and, Bool.decide_eq_true]

/-- **An interface that is declared has a new name.** -/
theorem Declares.notMem_of_define (declares : Declares base decls supports model) {kind : Kind}
    {next : Model} (defined : model.define (resourcePackageOf base) name kind = .ok next) :
    name ∉ decls.map (·.name) := by
  intro member
  rw [← declares.interfaces, List.map_map] at member
  obtain ⟨unit, kept, same⟩ := List.mem_map.mp member
  obtain ⟨isUnit, isInterface⟩ := List.mem_filter.mp kept
  refine (Model.define_eq_ok_iff.mp defined).1 (List.mem_map.mpr ⟨unit, isUnit, ?_⟩)
  show TypePath.qualify unit.package unit.type.name = TypePath.qualify _ name
  rw [show unit.package = resourcePackageOf base from beq_iff_eq.mp isInterface,
    show unit.type.name = name from same]
  rfl

end Declarations

/-! ### Sessions with given declarations -/

/-- A session under a configuration with the given interfaces, the annotation types of the given
verbs, each at its place, and the given enums that it remembers. -/
structure Declared (configuration : Configuration) (decls : List TypeDecl) (verbs : List Verb)
    (enums : List KnownEnum) (session : Session) : Prop where
  made : Made configuration decls verbs session
  types : ∀ entry ∈ session.verbTypes,
    entry.2 = ⟨supportPackageOf configuration.basePackage, entry.1.name, []⟩
  enums : session.enums = enums

variable {configuration : Configuration} {decls : List TypeDecl} {decl : TypeDecl}
  {verbs : List Verb} {enums : List KnownEnum} {session : Session}

theorem declared_start (configuration : Configuration) :
    Declared configuration [] [] [] { configuration } where
  made := made_start configuration
  types := fun _ member => absurd member List.not_mem_nil
  enums := rfl

theorem Declared.change {later : List TypeDecl} {next : Model}
    (declared : Declared configuration decls verbs enums session)
    (declares : Declares configuration.basePackage later (verbs.map verbDecl) next) :
    Declared configuration later verbs enums { session with model := next } :=
  ⟨declared.made.change declares, declared.types, declared.enums⟩

theorem Declared.package (declared : Declared configuration decls verbs enums session) :
    session.resourcePackage = resourcePackageOf configuration.basePackage := by
  unfold Session.resourcePackage resourcePackageOf
  rw [declared.made.settings]

/-- **An interface is declared under a new name.** -/
theorem createInterface_declared (name : String) :
    Leads (Declared configuration decls verbs enums) (createInterface name) fun owner session =>
      owner = interfaceOf configuration.basePackage name ∧ name ∉ decls.map (·.name) ∧
        Declared configuration (decls ++ [{ name, kind := .interface }]) verbs enums session := by
  refine Leads.get_bind fun seen declared => ?_
  rw [declared.package]
  refine Leads.attempt_map fun session next same defined => ?_
  rw [same] at defined ⊢
  refine ⟨rfl, declared.made.declares.notMem_of_define defined, ?_⟩
  exact declared.change (declared.made.declares.defineInterface defined)

/-- **An interface that is refused** leaves the session as it was. -/
theorem createInterface_stops {before : Session → Prop} (name : String) :
    Stops before (createInterface name) before :=
  Stops.get_bind fun _ holds =>
    (Stops.attempt _).mono (fun _ same => same) fun _ same => same ▸ holds

/-! ### Members of an interface -/

section Members

/-- **So does a method that is refused.** -/
theorem createMethod_stops {before : Session → Prop} (owner : TypePath) (name : String)
    (returnType : TypeRef) : Stops before (createMethod owner name returnType) before := by
  refine Stops.get_bind fun seen holds => ?_
  split
  · exact Stops.bind_of_first (Stops.set _) fun _ => Stops.pure _
  · exact Stops.throw fun _ same => same ▸ holds

variable (distinct : (decls.map (·.name)).Nodup) (member : decl ∈ decls)

include distinct member

/-- **What is in an interface** is what its declaration has. -/
theorem Declared.type? (declared : Declared configuration decls verbs enums session)
    (inner : List String) :
    session.model.type? ⟨resourcePackageOf configuration.basePackage, decl.name, inner⟩ =
      decl.at? inner := by
  rw [declared.made.declares.type?, (find?_key_iff distinct).mpr ⟨member, rfl⟩]
  rfl

/-- **A method is declared last in its interface.** -/
theorem createMethod_declared (name : String) (returnType : TypeRef) :
    Leads (Declared configuration decls verbs enums)
      (createMethod (interfaceOf configuration.basePackage decl.name) name returnType)
      fun method session => method = methodPlace configuration.basePackage decl ∧
        Declared configuration (changeNamed decl.name (withMethod · { name, returnType }) decls)
          verbs enums session := by
  refine Leads.get_bind fun seen declared => ?_
  split
  · refine (Leads.set ?_).bind fun _ => Leads.pure fun _ there => there
    refine ⟨?_, declared.change (declared.made.declares.changeNamed decl.name [] _)⟩
    have found : seen.model.type? (interfaceOf configuration.basePackage decl.name) = some decl :=
      declared.type? distinct member []
    unfold Model.methodCount methodPlace
    rw [found]
    rfl
  · exact Leads.throw _

end Members

/-! ### Enums -/

/-- A session that has nested an enum of some literals in an interface and does not remember it. -/
def Nesting (configuration : Configuration) (decls : List TypeDecl) (verbs : List Verb)
    (enums : List KnownEnum) (owner name : String) (taken : List String) (session : Session) :
    Prop :=
  (taken.map constantName).Nodup ∧ Declared configuration
    (changeNamed owner (withNested · (enumDecl name taken)) decls) verbs enums session

section Enums

variable {name : String} (distinct : (decls.map (·.name)).Nodup) (member : decl ∈ decls)

include distinct member

/-- A type is nested under a name that is new in the interface. -/
theorem nest_declared (name : String) :
    Leads (Declared configuration decls verbs enums)
      (Build.nest (interfaceOf configuration.basePackage decl.name) name .enum) fun path session =>
        Nesting configuration decls verbs enums decl.name name [] session ∧
          path = (interfaceOf configuration.basePackage decl.name).nested name ∧
            name ∉ decl.nested.map (·.name) := by
  refine Leads.attempt_map fun session next declared nested => ?_
  obtain ⟨free, rfl⟩ := Model.nest_eq_ok_iff.mp nested
  have found : session.model.type? (interfaceOf configuration.basePackage decl.name) =
    some decl := declared.type? distinct member []
  refine ⟨⟨List.nodup_nil, ?_⟩, rfl, free.2 decl found⟩
  exact declared.change (declared.made.declares.changeNamed decl.name [] _)

variable (fresh : name ∉ decl.nested.map (·.name))

include fresh

/-- The enum that was nested is found. -/
theorem Nesting.type? {taken : List String}
    (nesting : Nesting configuration decls verbs enums decl.name name taken session) :
    session.model.type? ((interfaceOf configuration.basePackage decl.name).nested name) =
      some (enumDecl name taken) := by
  have names : ((changeNamed decl.name (withNested · (enumDecl name taken)) decls).map
      (·.name)).Nodup := by
    rw [map_name_changeNamed (withNested · (enumDecl name taken)) fun _ => rfl]
    exact distinct
  have isFresh : (enumDecl name taken).name ∉ decl.nested.map (·.name) := fresh
  refine (nesting.2.type? names (mem_changeNamed _ member) [name]).trans ?_
  exact at?_of_find? (find?_withNested isFresh)

/-- A constant is added to the enum that was nested if its name is new. -/
theorem addConstant_nesting (taken : List String) (literal : String) :
    Leads (Nesting configuration decls verbs enums decl.name name taken)
      (Build.attempt fun model =>
        (model.addConstant ((interfaceOf configuration.basePackage decl.name).nested name)
          (constantName literal) literal).map fun model => ((), model))
      fun _ => Nesting configuration decls verbs enums decl.name name (taken ++ [literal]) := by
  refine Leads.attempt_map fun session next nesting added => ?_
  obtain ⟨inner, found, -, isFree, rfl⟩ := Model.addConstant_eq_ok_iff.mp added
  have isNew : constantName literal ∉ taken.map constantName := by
    rw [nesting.type? distinct member fresh, Option.some.injEq] at found
    rw [← found] at isFree
    exact fun isTaken => isFree (List.map_map.symm ▸ isTaken)
  refine ⟨nodup_map_concat_iff.mpr ⟨nesting.1, isNew⟩, ?_⟩
  let change (inner : TypeDecl) : TypeDecl :=
    { inner with constants := inner.constants ++ [⟨constantName literal, literal⟩] }
  have later (other : TypeDecl) (isOther : other ∈ decls) (same : other.name = decl.name) :
      (withNested other (enumDecl name taken)).modify change [name] =
        withNested other (enumDecl name (taken ++ [literal])) := by
    obtain rfl := List.inj_on_of_nodup_map distinct isOther member same
    exact modify_withNested_enumDecl fresh taken literal
  have changed := nesting.2.made.declares.changeNamed decl.name [name] change
  rw [changeNamed_changeNamed (withNested · (enumDecl name taken)) (·.modify change [name]) _
    (fun _ => rfl) later] at changed
  exact nesting.2.change changed

omit fresh

/-- **An enum that is returned** is one that is remembered under its name with its literals, or it
is nested under a new name with constants of distinct names, and remembered. -/
theorem createEnum_declared (name : String) (literals : List String) :
    Leads (Declared configuration decls verbs enums)
      (createEnum (interfaceOf configuration.basePackage decl.name) name literals)
      fun path session =>
        (⟨(interfaceOf configuration.basePackage decl.name).qualifiedName, name, literals, path⟩ ∈
          enums ∧ Declared configuration decls verbs enums session) ∨
        (path = (interfaceOf configuration.basePackage decl.name).nested name ∧
          name ∉ decl.nested.map (·.name) ∧ (literals.map constantName).Nodup ∧
          Declared configuration
            (changeNamed decl.name (withNested · (enumDecl name literals)) decls) verbs
            (enums ++ [⟨(interfaceOf configuration.basePackage decl.name).qualifiedName, name,
              literals, path⟩]) session) := by
  refine Leads.get_bind fun seen declared => ?_
  dsimp only
  split
  · rename_i known found
    have isKnown := List.mem_of_find?_eq_some found
    have isAsked := List.find?_some found
    rw [Bool.and_eq_true, beq_iff_eq, beq_iff_eq] at isAsked
    rw [declared.enums] at isKnown
    obtain ⟨owner, named, values, path⟩ := known
    obtain ⟨rfl, rfl⟩ := isAsked
    dsimp only
    split
    · rename_i same
      refine Leads.pure fun session isSeen => .inl ?_
      rw [isSeen, ← same]
      exact ⟨isKnown, declared⟩
    · exact Leads.throw _
  · let owner := interfaceOf configuration.basePackage decl.name
    have noted : Leads (Nesting configuration decls verbs enums decl.name name literals)
        (modify fun session : Session => { session with enums := session.enums ++
          [⟨owner.qualifiedName, name, literals, owner.nested name⟩] })
        fun _ session => (literals.map constantName).Nodup ∧ Declared configuration
          (changeNamed decl.name (withNested · (enumDecl name literals)) decls) verbs
          (enums ++ [⟨owner.qualifiedName, name, literals, owner.nested name⟩]) session := by
      refine Leads.modify fun session nesting => ⟨nesting.1, ?_, nesting.2.types, ?_⟩
      · exact ⟨nesting.2.made.settings, nesting.2.made.known, nesting.2.made.declares⟩
      · exact congrArg (· ++ _) nesting.2.enums
    refine ((nest_declared distinct member name).start declared).bind fun path =>
      Leads.assuming fun isNested => ?_
    rw [isNested.1, loop_eq_forM]
    refine (Leads.forM (addConstant_nesting distinct member isNested.2) [] literals).bind
      fun _ => ?_
    exact noted.bind fun _ => Leads.pure fun _ there => .inr ⟨rfl, isNested.2, there⟩

/-- **An enum that is refused** leaves the session as it was, or it stays where it was nested, with
some constants, and is not remembered. -/
theorem createEnum_stops (name : String) (literals : List String) :
    Stops (Declared configuration decls verbs enums)
      (createEnum (interfaceOf configuration.basePackage decl.name) name literals)
      fun session => Declared configuration decls verbs enums session ∨
        name ∉ decl.nested.map (·.name) ∧ ∃ taken, Declared configuration
          (changeNamed decl.name (withNested · (enumDecl name taken)) decls)
            verbs enums session := by
  refine Stops.get_bind fun seen declared => ?_
  dsimp only
  split
  · split
    · exact Stops.pure _
    · exact Stops.throw fun _ same => .inl (same ▸ declared)
  · refine Stops.bind ((nest_declared distinct member name).start declared) ?_ fun path =>
      Stops.assuming fun isNested => ?_
    · exact (Stops.attempt _).mono (fun _ same => same) fun _ same => .inl (same ▸ declared)
    · rw [isNested.1, loop_eq_forM]
      have taken : Stops (Nesting configuration decls verbs enums decl.name name [])
          (forM literals fun literal => Build.attempt fun model =>
            (model.addConstant ((interfaceOf configuration.basePackage decl.name).nested name)
              (constantName literal) literal).map fun model => ((), model))
          fun session => ∃ taken,
            Nesting configuration decls verbs enums decl.name name taken session :=
        Stops.forM (addConstant_nesting distinct member isNested.2) (fun _ _ => Stops.attempt _) []
          literals
      refine Stops.bind_of_first (taken.mono (fun _ there => there) fun session there => ?_)
        fun _ => Stops.bind_of_first (Stops.modify _) fun _ => Stops.pure _
      exact .inr ⟨isNested.2, there.imp fun _ nesting => nesting.2⟩

end Enums

/-! ### Annotations for verbs -/

/-- A type with one more annotation of the method of a number. -/
def withMark (index : Nat) (mark : Annotation) (decl : TypeDecl) : TypeDecl :=
  { decl with methods := decl.methods.modify index fun method =>
      { method with annotations := method.annotations ++ [mark] } }

/-- What a session remembers besides its model. -/
def Remembers (configuration : Configuration) (types : List (Verb × TypePath))
    (enums : List KnownEnum) (session : Session) : Prop :=
  session.configuration = configuration ∧ session.verbTypes = types ∧ session.enums = enums

/-- The annotation type of a verb is declared at its place, and not remembered by that. -/
theorem createVerbType_place (verb : Verb) (types : List (Verb × TypePath)) :
    Leads (Remembers configuration types enums) (createVerbType verb) fun path session =>
      Remembers configuration types enums session ∧
        path = ⟨supportPackageOf configuration.basePackage, verb.name, []⟩ := by
  have changed (update : Model → Model) : Leads (Remembers configuration types enums)
      (Build.change update) fun _ => Remembers configuration types enums :=
    Leads.change fun _ remembers => remembers
  have reported (message : String) : Leads (Remembers configuration types enums)
      (Build.report .debug message) fun _ => Remembers configuration types enums :=
    Leads.modify fun _ remembers => remembers
  refine Leads.get_bind fun seen remembers => ?_
  have package : seen.supportPackage = supportPackageOf configuration.basePackage := by
    unfold Session.supportPackage supportPackageOf
    rw [remembers.1]
  have defined : Leads (fun session => session = seen)
      (Build.define (supportPackageOf configuration.basePackage) verb.name .annotationType)
      fun path session => Remembers configuration types enums session ∧
        path = ⟨supportPackageOf configuration.basePackage, verb.name, []⟩ := by
    refine Leads.attempt_map fun session next same _ => ?_
    rw [same]
    exact ⟨remembers, rfl⟩
  rw [package]
  refine defined.bind fun path => Leads.assuming fun isPath => ?_
  refine (changed _).bind fun _ => ?_
  refine (changed _).bind fun _ => (changed _).bind fun _ => (changed _).bind fun _ => ?_
  exact (reported _).bind fun _ => Leads.pure fun _ remembers => ⟨remembers, isPath⟩

/-- **The annotation type of a verb** is declared when it is first asked for. -/
theorem verbType_declared (verb : Verb) :
    Leads (Declared configuration decls verbs enums) (verbType verb) fun type session =>
      Declared configuration decls (noteVerb verbs verb) enums session ∧
        type = verbReference configuration.basePackage verb := by
  let place : TypePath := ⟨supportPackageOf configuration.basePackage, verb.name, []⟩
  unfold verbType noteVerb verbReference
  cases platformVerbType? verb with
  | some type => exact Leads.pure fun _ declared => ⟨declared, rfl⟩
  | none =>
    refine Leads.get_bind fun seen declared => ?_
    have known : verb ∈ verbs ↔ ∃ entry ∈ seen.verbTypes, entry.1 = verb := by
      rw [← declared.made.known, List.mem_map]
    split
    · rename_i isKnown path found
      have isEntry := List.mem_of_find?_eq_some found
      obtain rfl : isKnown = verb := by simpa using List.find?_some found
      refine Leads.pure fun session same => ?_
      rw [same, if_pos (by simp [known.mpr ⟨_, isEntry, rfl⟩])]
      exact ⟨declared, congrArg TypeRef.declared (declared.types _ isEntry)⟩
    · rename_i unknown
      have fresh : verb ∉ verbs := by
        rw [known]
        rintro ⟨entry, isEntry, same⟩
        exact List.find?_eq_none.mp unknown entry isEntry (beq_iff_eq.mpr same)
      have remembers : Remembers configuration seen.verbTypes enums seen :=
        ⟨declared.made.settings, rfl, declared.enums⟩
      have created : Leads (fun session => session = seen) (createVerbType verb)
          fun path session => (Declares configuration.basePackage decls
            ((verbs ++ [verb]).map verbDecl) session.model ∧
              Remembers configuration seen.verbTypes enums session) ∧ path = place := by
        intro session path final same ran
        rw [same] at ran
        obtain ⟨declares, _⟩ := createVerbType_made fresh seen path final declared.made ran
        obtain ⟨kept, isPath⟩ := createVerbType_place verb _ seen path final remembers ran
        refine ⟨⟨?_, kept⟩, isPath⟩
        rw [List.map_append]
        exact declares
      have noted : Leads
          (fun session => Declares configuration.basePackage decls ((verbs ++ [verb]).map verbDecl)
            session.model ∧ Remembers configuration seen.verbTypes enums session)
          (modify fun session : Session =>
            { session with verbTypes := session.verbTypes ++ [(verb, place)] })
          fun _ => Declared configuration decls (verbs ++ [verb]) enums := by
        refine Leads.modify fun session there => ?_
        obtain ⟨declares, settings, types, kept⟩ := there
        refine ⟨⟨settings, ?_, declares⟩, fun entry member => ?_, kept⟩
        · rw [List.map_append, types, declared.made.known]
          rfl
        · rcases List.mem_append.mp (types ▸ member) with old | new
          · exact declared.types entry old
          · rw [List.mem_singleton.mp new]
      rw [if_neg (by simp [fresh])]
      refine created.bind fun path => Leads.assuming fun isPath => ?_
      rw [isPath]
      exact noted.bind fun _ => Leads.pure fun _ there => ⟨there, rfl⟩

/-- **A method is annotated for a verb** by the annotation type of that verb. -/
theorem annotateVerb_declared (verb : Verb) (owner : String) (index : Nat) :
    Leads (Declared configuration decls verbs enums)
      (annotateVerb verb ⟨interfaceOf configuration.basePackage owner, index⟩)
      fun _ => Declared configuration (changeNamed owner
        (withMark index ⟨verbReference configuration.basePackage verb, []⟩) decls)
          (noteVerb verbs verb) enums := by
  refine (verbType_declared verb).bind fun type => Leads.assuming fun isType => ?_
  rw [isType]
  exact Leads.change fun _ declared =>
    declared.change (declared.made.declares.changeNamed owner [] _)

/-- A word is one for a verb where a method is annotated for it. -/
theorem annotateWord_declared (word : String) (owner : String) (index : Nat) :
    Leads (Declared configuration decls verbs enums)
      (annotateWord word ⟨interfaceOf configuration.basePackage owner, index⟩)
      fun _ session => ∃ verb, Verb.ofWord? (Text.lower word) = some verb ∧
        Declared configuration (changeNamed owner
          (withMark index ⟨verbReference configuration.basePackage verb, []⟩) decls)
            (noteVerb verbs verb) enums session := by
  unfold annotateWord
  split
  · rename_i verb isWord
    exact (annotateVerb_declared verb owner index).mono (fun _ there => there) fun _ _ there =>
      ⟨verb, isWord, there⟩
  · exact Leads.throw _

/-- An annotation type that is refused leaves the session as it was. -/
theorem createVerbType_stops {before : Session → Prop} (verb : Verb) :
    Stops before (createVerbType verb) before := by
  refine Stops.get_bind fun seen holds => Stops.bind_of_first ?_ fun _ => ?_
  · exact (Stops.attempt _).mono (fun _ same => same) fun _ same => same ▸ holds
  · refine Stops.bind_of_first (Stops.modify _) fun _ => ?_
    refine Stops.bind_of_first (Stops.modify _) fun _ => ?_
    refine Stops.bind_of_first (Stops.modify _) fun _ => ?_
    refine Stops.bind_of_first (Stops.modify _) fun _ => ?_
    exact Stops.bind_of_first (Stops.modify _) fun _ => Stops.pure _

/-- **So does an annotation that is refused.** -/
theorem annotateVerb_stops {before : Session → Prop} (verb : Verb) (method : MethodPath) :
    Stops before (annotateVerb verb method) before := by
  refine Stops.bind_of_first ?_ fun _ => Stops.modify _
  unfold verbType
  cases platformVerbType? verb with
  | some type => exact Stops.pure _
  | none =>
    refine Stops.get_bind fun seen holds => ?_
    split
    · exact Stops.pure _
    · refine Stops.bind_of_first ?_ fun _ =>
        Stops.bind_of_first (Stops.modify _) fun _ => Stops.pure _
      exact (createVerbType_stops verb).mono (fun _ same => same) fun _ same => same ▸ holds

theorem annotateWord_stops {before : Session → Prop} (word : String) (method : MethodPath) :
    Stops before (annotateWord word method) before := by
  unfold annotateWord
  split
  · exact annotateVerb_stops _ _
  · exact Stops.throw fun _ holds => holds

end RamlInterfaces.Generation
