/-
**The declarations of interfaces in full.**

What is generated for a resource can be read off the resource alone: its annotations and comments,
its methods with the types and the constraints of their parameters, and the enums nested in it.  The
annotation types that are generated besides are those of the verbs that the platform has none for.

* `interfaceDecl`, `verbDecl`: the declarations for a resource and for a verb;
* `Declares`, `Made`: models and sessions with the given declarations;
* `Declares.changeNamed`: a change in the interface of a name;
* `made_changeType`, `made_changeMethod`, `made_changeParameter`: **a change in the last
  interface**;
* `openInterface_made`, `openMethod_made`: an interface and a method that are begun.
-/

import RamlInterfaces.Proofs.Except
import RamlInterfaces.Proofs.Generation.Flattening

namespace RamlInterfaces.Generation

open Java
open Settings (Configuration)

/-! ### Declarations -/

/-- The annotation type of a verb. -/
def verbDecl (verb : Verb) : TypeDecl where
  name := verb.name
  kind := .annotationType
  annotations := [
    ⟨.named "java.lang.annotation.Target",
      [("value", .list [.constant "java.lang.annotation.ElementType" "METHOD"])]⟩,
    ⟨.named "java.lang.annotation.Retention",
      [("value", .constant "java.lang.annotation.RetentionPolicy" "RUNTIME")]⟩,
    ⟨.named "javax.ws.rs.HttpMethod", [("value", .text verb.name)]⟩]
  doc := { paragraphs :=
    ["Indicates that the annotated method responds to HTTP " ++ verb.name ++ " requests."] }

/-- The verbs that have annotation types, after one more was asked for. -/
def noteVerb (verbs : List Verb) (verb : Verb) : List Verb :=
  if (platformVerbType? verb).isSome || verbs.contains verb then verbs else verbs ++ [verb]

/-- The verbs that annotation types are declared for. -/
def verbsOf (actions : List (Raml.Resource × Raml.Action)) : List Verb :=
  actions.foldl (fun verbs entry => noteVerb verbs entry.2.verb) []

/-- A comment with a description, unless that is blank. -/
def describedDoc (description : Option String) : DocComment :=
  match description.filter (!Text.isAllBlank ·) with
  | some text => { paragraphs := [text] }
  | none => {}

/-- The type of a parameter under the name of its variable. -/
def argumentType (owner : TypePath) (name : String) (p : Raml.Parameter) : TypeRef :=
  match p.enumValues with
  | some (_ :: _) => .declared (owner.nested (typeName name))
  | _ =>
    let type := (scalarType? p).getD (.named "java.lang.Object")
    if p.repeated then .narrow "java.util.List" [type] else type

/-- The annotation for a default. -/
def defaultMark (text : String) : Annotation where
  type := .named "javax.ws.rs.DefaultValue"
  elements := [("value", .text text)]

/-- The annotation for a constraint; one without a finite bound is bare. -/
def constraintMark (c : Constraint) : Annotation where
  type := c.type
  elements := c.elements.toOption.getD []

namespace Argument

/-- The annotations of a parameter: what binds it, its default, and its constraints where these are
wanted. -/
def marks (constrained : Bool) (argument : Argument) : List Annotation :=
  [bindingMark argument.location argument.key] ++
    (argument.parameter.default.map defaultMark).toList ++
    if constrained then (constraints argument.parameter).map constraintMark else []

/-- The declaration of a parameter. -/
def declaration (owner : TypePath) (constrained : Bool) (argument : Argument) : Parameter where
  name := argument.name
  type := argumentType owner argument.name argument.parameter
  annotations := argument.marks constrained

end Argument

/-- A method with parameters and with a tag for each. -/
def withArguments (owner : TypePath) (constrained : Bool) (method : Method)
    (arguments : List Argument) : Method :=
  { method with
    parameters := arguments.map (·.declaration owner constrained)
    doc := arguments.foldl (fun doc argument => doc.addTag argument.name argument.tag.2)
      method.doc }

/-- The method of an action before its parameters are added. -/
def openedMethodDecl (base interfacePath : String) (action : Raml.Action) : Method where
  name := actionName action
  returnType := .primitive .void
  annotations := (openedMethod base interfacePath action).annotations
  doc := describedDoc action.description

/-- The method of an action. -/
def methodDecl (base : String) (constrained : Bool) (owner : TypePath) (interfacePath : String)
    (entry : Raml.Resource × Raml.Action) : Method :=
  withArguments owner constrained (openedMethodDecl base interfacePath entry.2)
    (argumentsFrom entry)

/-- The interface of a resource before its methods are added. -/
def openedDecl (resource : Raml.Resource) : TypeDecl where
  name := (openedInterface resource).name
  kind := .interface
  annotations := (openedInterface resource).annotations
  doc := describedDoc resource.description

theorem openedDecl_name (resource : Raml.Resource) :
    (openedDecl resource).name = (openedInterface resource).name := by
  simp only [openedDecl]

/-- An interface with the methods of the given actions and the enums that these ask for. -/
def withActions (base : String) (constrained : Bool) (interfacePath : String) (decl : TypeDecl)
    (entries : List (Raml.Resource × Raml.Action)) : TypeDecl :=
  { decl with
    methods := entries.map (methodDecl base constrained (interfaceOf base decl.name) interfacePath)
    nested := enumsOf (requestsFrom entries) }

/-- An interface without members is that without actions. -/
theorem withActions_empty {decl : TypeDecl} (methods : decl.methods = [])
    (nested : decl.nested = []) (base : String) (constrained : Bool) (path : String) :
    withActions base constrained path decl [] = decl := by
  cases decl
  cases methods
  cases nested
  rfl

/-- **The interface of a resource.** -/
def interfaceDecl (base : String) (constrained : Bool) (resource : Raml.Resource) : TypeDecl :=
  withActions base constrained (interfacePath resource.relativePath) (openedDecl resource)
    (actionsFrom resource)

theorem interfaceDecl_name (base : String) (constrained : Bool) (resource : Raml.Resource) :
    (interfaceDecl base constrained resource).name = (openedInterface resource).name := by
  simp only [interfaceDecl, withActions, openedDecl]

/-! ### Models with given declarations -/

/-- The interfaces and the annotation types of a model are the given ones. -/
structure Declares (base : String) (decls supports : List TypeDecl) (model : Model) : Prop where
  interfaces : (model.units.filter (isResource base)).map (·.type) = decls
  supports : (model.units.filter (isSupport base)).map (·.type) = supports

variable {base : String} {done decls supports : List TypeDecl} {decl : TypeDecl} {model : Model}
  {verbs : List Verb}

theorem declares_empty (base : String) : Declares base [] [] {} := ⟨rfl, rfl⟩

/-- The declarations with that of a name changed. -/
def changeNamed (name : String) (change : TypeDecl → TypeDecl) (decls : List TypeDecl) :
    List TypeDecl :=
  decls.map fun decl => if decl.name = name then change decl else decl

/-- A change of the last of several declarations of distinct names. -/
theorem changeNamed_last (fresh : decl.name ∉ done.map (·.name)) (change : TypeDecl → TypeDecl) :
    changeNamed decl.name change (done ++ [decl]) = done ++ [change decl] := by
  have others : done.map (fun other => if other.name = decl.name then change other else other) =
      done := by
    refine (List.map_congr_left fun other member => ?_).trans (List.map_id _)
    exact if_neg fun same => fresh (List.mem_map.mpr ⟨other, member, same⟩)
  unfold changeNamed
  rw [List.map_append, others, List.map_singleton, if_pos rfl]

/-- A change of the type at a path changes the types of its package. -/
theorem types_modifyType (package : String) (path : TypePath) (change : TypeDecl → TypeDecl)
    (model : Model) :
    ((model.modifyType path change).units.filter (·.package == package)).map (·.type) =
      ((model.units.filter (·.package == package)).map (·.type)).map fun decl =>
        if package = path.package ∧ decl.name = path.outermost then
          decl.modify change path.inner else decl := by
  let step (unit : CompilationUnit) : CompilationUnit :=
    if Model.holds path unit then { unit with type := unit.type.modify change path.inner } else unit
  have kept : (·.package == package) ∘ step = (·.package == package) := by
    funext unit
    by_cases holds : Model.holds path unit = true <;> simp [step, holds]
  show ((model.units.map step).filter (·.package == package)).map (·.type) = _
  rw [List.filter_map, kept, List.map_map, List.map_map]
  refine List.map_congr_left fun unit member => ?_
  have isPackage : unit.package = package := beq_iff_eq.mp (List.mem_filter.mp member).2
  show (step unit).type = if package = path.package ∧ unit.type.name = path.outermost then
    unit.type.modify change path.inner else unit.type
  rw [← isPackage]
  by_cases holds : Model.holds path unit = true
  · rw [if_pos (holds_iff.mp holds)]
    simp [step, holds]
  · rw [if_neg (mt holds_iff.mpr holds)]
    simp [step, holds]

/-- **A change in the interface of a name.** -/
theorem Declares.changeNamed (declares : Declares base decls supports model) (name : String)
    (inner : List String) (change : TypeDecl → TypeDecl) :
    Declares base (changeNamed name (·.modify change inner) decls) supports
      (model.modifyType ⟨resourcePackageOf base, name, inner⟩ change) where
  interfaces := by
    refine (types_modifyType (resourcePackageOf base) _ change model).trans ?_
    have interfaces : (model.units.filter (·.package == resourcePackageOf base)).map (·.type) =
        decls := declares.interfaces
    simp only [interfaces, true_and]
    rfl
  supports := by
    refine (types_modifyType (supportPackageOf base) _ change model).trans ?_
    have other : supportPackageOf base ≠ resourcePackageOf base := (resourcePackageOf_ne base).symm
    simp only [other, false_and, if_false, List.map_id']
    exact declares.supports

/-- **A change in the interface that was declared last.** -/
theorem Declares.modifyInterface (declares : Declares base (done ++ [decl]) supports model)
    (fresh : decl.name ∉ done.map (·.name)) (inner : List String) (change : TypeDecl → TypeDecl) :
    Declares base (done ++ [decl.modify change inner]) supports
      (model.modifyType ⟨resourcePackageOf base, decl.name, inner⟩ change) := by
  have changed := declares.changeNamed decl.name inner change
  rwa [changeNamed_last fresh] at changed

/-- A change in the annotation type that was declared last. -/
theorem Declares.modifySupport (declares : Declares base decls (done ++ [decl]) model)
    (fresh : decl.name ∉ done.map (·.name)) (change : TypeDecl → TypeDecl) :
    Declares base decls (done ++ [change decl])
      (model.modifyType ⟨supportPackageOf base, decl.name, []⟩ change) where
  interfaces := by
    refine (types_modifyType (resourcePackageOf base) _ change model).trans ?_
    simp only [resourcePackageOf_ne base, false_and, if_false, List.map_id']
    exact declares.interfaces
  supports := by
    refine (types_modifyType (supportPackageOf base) _ change model).trans ?_
    have supports : (model.units.filter (·.package == supportPackageOf base)).map (·.type) =
        done ++ [decl] := declares.supports
    simp only [supports, true_and]
    exact changeNamed_last fresh change

theorem Declares.defineInterface (declares : Declares base decls supports model) {name : String}
    {next : Model} (defined : model.define (resourcePackageOf base) name .interface = .ok next) :
    Declares base (decls ++ [{ name, kind := .interface }]) supports next := by
  have isInterface : isResource base ⟨resourcePackageOf base, { name, kind := .interface }⟩ =
      true := beq_self_eq_true _
  have noSupport := isSupport_of_isResource isInterface
  obtain ⟨-, rfl⟩ := Model.define_eq_ok_iff.mp defined
  refine ⟨?_, ?_⟩
  · rw [List.filter_append, List.map_append, declares.interfaces,
      List.filter_cons_of_pos isInterface]
    rfl
  · rw [List.filter_append, List.map_append, declares.supports, List.filter_cons_of_neg]
    · exact List.append_nil _
    · rw [noSupport]
      exact Bool.false_ne_true

theorem Declares.defineSupport (declares : Declares base decls supports model) {name : String}
    {next : Model}
    (defined : model.define (supportPackageOf base) name .annotationType = .ok next) :
    Declares base decls (supports ++ [{ name, kind := .annotationType }]) next := by
  have inSupports : isSupport base ⟨supportPackageOf base, { name, kind := .annotationType }⟩ =
      true := beq_self_eq_true _
  obtain ⟨-, rfl⟩ := Model.define_eq_ok_iff.mp defined
  refine ⟨?_, ?_⟩
  · rw [List.filter_append, List.map_append, declares.interfaces, List.filter_cons_of_neg]
    · exact List.append_nil _
    · intro isInterface
      rw [isSupport_of_isResource isInterface] at inSupports
      cases inSupports
  · rw [List.filter_append, List.map_append, declares.supports,
      List.filter_cons_of_pos inSupports]
    rfl

/-- A declaration with one more method. -/
def withMethod (decl : TypeDecl) (method : Method) : TypeDecl :=
  { decl with methods := decl.methods ++ [method] }

/-- A method with one more parameter. -/
def withParameter (method : Method) (parameter : Parameter) : Method :=
  { method with parameters := method.parameters ++ [parameter] }

theorem modify_concat {α : Type} (items : List α) (item : α) (change : α → α) :
    (items ++ [item]).modify items.length change = items ++ [change item] := by
  induction items with
  | nil => rfl
  | cons first rest ih => exact congrArg (first :: ·) ih

/-- The place of the next method of an interface. -/
def methodPlace (base : String) (decl : TypeDecl) : MethodPath :=
  ⟨interfaceOf base decl.name, decl.methods.length⟩

/-- A change in the method that was declared last. -/
theorem Declares.modifyMethod {method : Method}
    (declares : Declares base (done ++ [withMethod decl method]) supports model)
    (fresh : decl.name ∉ done.map (·.name)) (change : Method → Method) :
    Declares base (done ++ [withMethod decl (change method)]) supports
      (model.modifyMethod (methodPlace base decl) change) := by
  have changed := declares.modifyInterface fresh [] fun decl' =>
    { decl' with methods := decl'.methods.modify decl.methods.length change }
  have methods : (withMethod decl method).methods.modify decl.methods.length change =
      decl.methods ++ [change method] := modify_concat decl.methods method change
  simp only [TypeDecl.modify, methods] at changed
  exact changed

/-- A declaration with one more nested type. -/
def withNested (decl inner : TypeDecl) : TypeDecl := { decl with nested := decl.nested ++ [inner] }

/-- **A constant is added to the enum that was nested last.** -/
theorem modify_withNested_enumDecl {name : String} (unknown : name ∉ decl.nested.map (·.name))
    (before : List String) (literal : String) :
    (withNested decl (enumDecl name before)).modify
        (fun inner => { inner with
          constants := inner.constants ++ [⟨constantName literal, literal⟩] }) [name] =
      withNested decl (enumDecl name (before ++ [literal])) := by
  let change (inner : TypeDecl) : TypeDecl :=
    { inner with constants := inner.constants ++ [⟨constantName literal, literal⟩] }
  have constants : change (enumDecl name before) = enumDecl name (before ++ [literal]) := by
    unfold change enumDecl
    rw [List.map_append]
    rfl
  have isLast : (enumDecl name before).name ∉ decl.nested.map (·.name) := unknown
  rw [← constants]
  exact congrArg (fun nested => { decl with nested }) (changeNamed_last isLast change)

/-! ### Sessions with given declarations -/

variable {configuration : Configuration}

/-- A session under a configuration whose model has the given interfaces and the annotation types of
the given verbs. -/
structure Made (configuration : Configuration) (decls : List TypeDecl) (verbs : List Verb)
    (session : Session) : Prop where
  settings : session.configuration = configuration
  known : session.verbTypes.map (·.1) = verbs
  declares : Declares configuration.basePackage decls (verbs.map verbDecl) session.model

theorem made_start (configuration : Configuration) : Made configuration [] [] { configuration } :=
  ⟨rfl, rfl, declares_empty _⟩

theorem Made.change {later : List TypeDecl} {next : Model} {session : Session}
    (made : Made configuration decls verbs session)
    (declares : Declares configuration.basePackage later (verbs.map verbDecl) next) :
    Made configuration later verbs { session with model := next } :=
  ⟨made.settings, made.known, declares⟩

theorem made_report (level : Level) (message : String) :
    Leads (Made configuration decls verbs) (Build.report level message)
      fun _ => Made configuration decls verbs :=
  Leads.modify fun _ made => ⟨made.settings, made.known, made.declares⟩

/-! ### Annotation types -/

/-- The annotation type of a verb is declared. -/
theorem createVerbType_made {verb : Verb} (fresh : verb ∉ verbs) :
    Leads (Made configuration decls verbs) (createVerbType verb) fun _ session =>
      Declares configuration.basePackage decls (verbs.map verbDecl ++ [verbDecl verb])
        session.model ∧ session.verbTypes.map (·.1) = verbs ∧
          session.configuration = configuration := by
  let base := configuration.basePackage
  let path : TypePath := ⟨supportPackageOf base, verb.name, []⟩
  let declared (decl : TypeDecl) (session : Session) : Prop :=
    Declares base decls (verbs.map verbDecl ++ [decl]) session.model ∧
      session.verbTypes.map (·.1) = verbs ∧ session.configuration = configuration
  have isNew : verb.name ∉ (verbs.map verbDecl).map (·.name) := by
    rw [List.map_map]
    intro member
    obtain ⟨other, isKnown, same⟩ := List.mem_map.mp member
    exact fresh (verb_name_injective same ▸ isKnown)
  have changed {decl : TypeDecl} (named : decl.name = verb.name) (change : TypeDecl → TypeDecl) :
      Leads (declared decl) (Build.change fun model => model.modifyType path change)
        fun _ => declared (change decl) := by
    refine Leads.change fun session holds => ⟨?_, holds.2⟩
    rw [← named] at isNew
    have modified := holds.1.modifySupport isNew change
    rw [named] at modified
    exact modified
  refine Leads.get_bind fun seen made => ?_
  have package : seen.supportPackage = supportPackageOf base := by
    unfold Session.supportPackage supportPackageOf
    rw [made.settings]
  rw [package]
  have defined : Leads (fun session => session = seen)
      (Build.define (supportPackageOf base) verb.name .annotationType) fun result session =>
        declared { name := verb.name, kind := .annotationType } session ∧ result = path := by
    refine Leads.attempt_map fun session next same defined => ?_
    rw [same] at defined ⊢
    exact ⟨⟨made.declares.defineSupport defined, made.known, made.settings⟩, rfl⟩
  refine defined.bind fun result => Leads.assuming fun isPath => ?_
  rw [isPath]
  refine (changed rfl _).bind fun _ => ?_
  refine (changed rfl _).bind fun _ => (changed rfl _).bind fun _ =>
    (changed rfl _).bind fun _ => ?_
  refine (Leads.modify fun session holds => ?_).bind fun _ => Leads.pure fun _ holds => holds
  exact holds

/-- **The annotation type of a verb is there**, declared if the platform has none and it was not
asked for before. -/
theorem verbType_made (verb : Verb) :
    Leads (Made configuration decls verbs) (verbType verb)
      fun _ => Made configuration decls (noteVerb verbs verb) := by
  unfold verbType noteVerb
  cases platformVerbType? verb with
  | some type => exact Leads.pure fun _ made => made
  | none =>
    refine Leads.get_bind fun seen made => ?_
    have member : verb ∈ verbs ↔ ∃ entry ∈ seen.verbTypes, entry.1 = verb := by
      rw [← made.known, List.mem_map]
    split
    · rename_i known path found
      have isVerb : known = verb := by simpa using List.find?_some found
      have isKnown : verb ∈ verbs :=
        member.mpr ⟨_, List.mem_of_find?_eq_some found, isVerb⟩
      refine Leads.pure fun session same => ?_
      rw [same]
      simpa [isKnown] using made
    · rename_i unknown
      have fresh : verb ∉ verbs := by
        rw [member]
        rintro ⟨entry, isEntry, same⟩
        exact List.find?_eq_none.mp unknown entry isEntry (beq_iff_eq.mpr same)
      refine ((createVerbType_made fresh).start made).bind fun path => ?_
      refine (Leads.modify fun session holds => ?_).bind fun _ => Leads.pure fun _ holds => holds
      simp only [Option.isSome_none, Bool.false_or, List.contains_iff_mem, fresh, if_false]
      refine ⟨holds.2.2, ?_, ?_⟩
      · rw [List.map_append, holds.2.1]
        rfl
      · rw [List.map_append]
        exact holds.1

/-! ### Interfaces and methods -/

/-- An interface is declared. -/
theorem createInterface_made (name : String) :
    Leads (Made configuration decls verbs) (createInterface name) fun owner session =>
      Made configuration (decls ++ [{ name, kind := .interface }]) verbs session ∧
        owner = interfaceOf configuration.basePackage name := by
  refine Leads.get_bind fun seen made => ?_
  have package : seen.resourcePackage = resourcePackageOf configuration.basePackage := by
    unfold Session.resourcePackage resourcePackageOf
    rw [made.settings]
  rw [package]
  refine Leads.attempt_map fun session next same defined => ?_
  rw [same] at defined ⊢
  exact ⟨made.change (made.declares.defineInterface defined), rfl⟩

/-- A description that is not blank is added to a comment. -/
theorem describe_made {description : Option String} {add : String → Model → Model}
    {later : DocComment → TypeDecl}
    (added : ∀ text model, Declares configuration.basePackage (done ++ [later {}])
      (verbs.map verbDecl) model → Declares configuration.basePackage
        (done ++ [later { paragraphs := [text] }]) (verbs.map verbDecl) (add text model)) :
    Leads (Made configuration (done ++ [later {}]) verbs) (describe description add)
      fun _ => Made configuration (done ++ [later (describedDoc description)]) verbs := by
  unfold describe describedDoc
  cases description.filter (!Text.isAllBlank ·) with
  | some text => exact Leads.change fun session made => made.change (added text _ made.declares)
  | none => exact Leads.pure fun _ made => made

section Last

variable (fresh : decl.name ∉ done.map (·.name))

include fresh

/-- **A change of the interface that was declared last.** -/
theorem made_changeType (inner : List String) (change : TypeDecl → TypeDecl) :
    Leads (Made configuration (done ++ [decl]) verbs)
      (Build.change fun model => model.modifyType
        ⟨resourcePackageOf configuration.basePackage, decl.name, inner⟩ change)
      fun _ => Made configuration (done ++ [decl.modify change inner]) verbs :=
  Leads.change fun _ made => made.change (made.declares.modifyInterface fresh inner change)

/-- **A change of the method that was declared last.** -/
theorem made_changeMethod {method : Method} (change : Method → Method) :
    Leads (Made configuration (done ++ [withMethod decl method]) verbs)
      (Build.change fun model => model.modifyMethod
        (methodPlace configuration.basePackage decl) change)
      fun _ => Made configuration (done ++ [withMethod decl (change method)]) verbs :=
  Leads.change fun _ made => made.change (made.declares.modifyMethod fresh change)

/-- **A change of the parameter that was declared last.** -/
theorem made_changeParameter {method : Method} {parameter : Parameter}
    (change : Parameter → Parameter) :
    Leads (Made configuration (done ++ [withMethod decl (withParameter method parameter)]) verbs)
      (Build.change fun model => model.modifyMethod
        (methodPlace configuration.basePackage decl) fun declared =>
          { declared with
            parameters := declared.parameters.modify method.parameters.length change })
      fun _ => Made configuration
        (done ++ [withMethod decl (withParameter method (change parameter))]) verbs := by
  have changed : Leads
      (Made configuration (done ++ [withMethod decl (withParameter method parameter)]) verbs)
      (Build.change fun model => model.modifyMethod
        (methodPlace configuration.basePackage decl) fun declared =>
          { declared with
            parameters := declared.parameters.modify method.parameters.length change })
      fun _ => Made configuration (done ++ [withMethod decl { withParameter method parameter with
        parameters := (method.parameters ++ [parameter]).modify method.parameters.length change }])
          verbs := made_changeMethod fresh _
  rw [modify_concat] at changed
  exact changed

theorem createMethod_made (name : String) (returnType : TypeRef) :
    Leads (Made configuration (done ++ [decl]) verbs)
      (createMethod (interfaceOf configuration.basePackage decl.name) name returnType)
      fun _ => Made configuration (done ++ [withMethod decl { name, returnType }]) verbs := by
  refine Leads.get_bind fun seen made => ?_
  split
  · refine (Leads.set ?_).bind fun _ => Leads.pure fun _ made => made
    exact made.change (made.declares.modifyInterface fresh [] fun declared =>
      withMethod declared { name, returnType })
  · exact Leads.throw _

end Last

/-- **The interface of a resource is declared.** -/
theorem openInterface_made (resource : Raml.Resource)
    (fresh : (openedInterface resource).name ∉ done.map (·.name)) :
    Leads (Made configuration done verbs) (openInterface resource)
      fun _ => Made configuration (done ++ [openedDecl resource]) verbs := by
  unfold openInterface openedDecl
  unfold openedInterface at fresh ⊢
  generalize interfaceName resource.displayName resource.relativePath = name at fresh ⊢
  let mark := pathMark (interfacePath resource.relativePath)
  let opened (doc : DocComment) : TypeDecl :=
    { name, kind := .interface, annotations := [mark], doc }
  have noted (owner : TypePath) :
      Leads (Made configuration (done ++ [{ name, kind := .interface }]) verbs)
        (modify fun session : Session => { session with current := some owner })
        fun _ => Made configuration (done ++ [{ name, kind := .interface }]) verbs :=
    Leads.modify fun _ made => ⟨made.settings, made.known, made.declares⟩
  have marked : Leads (Made configuration (done ++ [{ name, kind := .interface }]) verbs)
      (Build.annotate (.type (interfaceOf configuration.basePackage name)) pathAnnotation
        [("value", .text (interfacePath resource.relativePath))])
      fun _ => Made configuration (done ++ [opened {}]) verbs :=
    made_changeType fresh [] fun decl => { decl with annotations := decl.annotations ++ [mark] }
  have described : Leads (Made configuration (done ++ [opened {}]) verbs)
      (describe resource.description fun description model =>
        model.modifyTypeDoc (interfaceOf configuration.basePackage name) (·.add description))
      fun _ => Made configuration (done ++ [opened (describedDoc resource.description)]) verbs :=
    describe_made fun text model declares => declares.modifyInterface fresh [] fun decl =>
      { decl with doc := decl.doc.add text }
  refine (createInterface_made name).bind fun owner => Leads.assuming fun isOwner => ?_
  rw [isOwner]
  refine (noted _).bind fun _ => marked.bind fun _ => described.bind fun _ => ?_
  exact (made_report _ _).bind fun _ => Leads.pure fun _ made => made

/-! ### Members -/

/-- The interface that an outline is of, as far as names and numbers go. -/
structure Shows (outline : Outline) (decl : TypeDecl) : Prop where
  name : decl.name = outline.name
  methods : decl.methods.length = outline.methods.length

variable {outlines : List Outline} {outline : Outline}

theorem Shows.place (shows : Shows outline decl) (base : String) :
    lastMethod base outline = methodPlace base decl := by
  unfold lastMethod methodPlace
  rw [shows.name, shows.methods]

/-- **The method of an action is declared.** -/
theorem openMethod_made (shows : Shows outline decl) (fresh : decl.name ∉ done.map (·.name))
    (path : String) (action : Raml.Action) :
    Leads
      (fun session => Reached configuration (outlines ++ [outline]) session ∧
        Made configuration (done ++ [decl]) verbs session)
      (openMethod (interfaceOf configuration.basePackage outline.name) path action)
      fun _ => Made configuration
        (done ++ [withMethod decl (openedMethodDecl configuration.basePackage path action)])
        (noteVerb verbs action.verb) := by
  let base := configuration.basePackage
  let place := methodPlace base decl
  let later := noteVerb verbs action.verb
  let verbMark : Annotation := ⟨verbReference base action.verb, []⟩
  let mark := pathMark (methodPath action.resourcePath path)
  let opened (marks : List Annotation) (doc : DocComment) : TypeDecl :=
    withMethod decl { name := actionName action, returnType := .primitive .void,
                      annotations := marks, doc }
  let created := outline.addMethod { name := actionName action }
  have declared : Leads
      (fun session => Reached configuration (outlines ++ [outline]) session ∧
        Made configuration (done ++ [decl]) verbs session)
      (createMethod (interfaceOf base outline.name) (actionName action) (.primitive .void))
      fun method session => (Reached configuration (outlines ++ [created]) session ∧
        Made configuration (done ++ [opened [] {}]) verbs session) ∧ method = place := by
    refine ((createMethod_decides _ _).leads.and ?_).mono (fun _ holds => holds)
      fun method session there => ⟨⟨there.1.2, there.2⟩, there.1.1.trans (shows.place base)⟩
    rw [← shows.name]
    exact (createMethod_made fresh _ _).mono (fun _ holds => holds.2) fun _ _ made => made
  have typed : Leads
      (fun session => Reached configuration (outlines ++ [created]) session ∧
        Made configuration (done ++ [opened [] {}]) verbs session)
      (verbType action.verb) fun type session => Made configuration (done ++ [opened [] {}]) later
        session ∧ type = verbReference base action.verb := by
    refine ((verbType_decides action.verb).leads.and ?_).mono (fun _ holds => holds)
      fun type session there => ⟨there.2, there.1.1⟩
    exact (verbType_made action.verb).mono (fun _ holds => holds.2) fun _ _ made => made
  have annotated (marks : List Annotation) (type : TypeRef)
      (elements : List (String × ElementValue)) :
      Leads (Made configuration (done ++ [opened marks {}]) later)
        (Build.annotate (.method place) type elements)
        fun _ => Made configuration (done ++ [opened (marks ++ [⟨type, elements⟩]) {}]) later :=
    made_changeMethod fresh fun method =>
      { method with annotations := method.annotations ++ [⟨type, elements⟩] }
  have described : Leads (Made configuration (done ++ [opened [verbMark, mark] {}]) later)
      (describe action.description fun description model =>
        model.modifyMethodDoc place (·.add description))
      fun _ => Made configuration
        (done ++ [opened [verbMark, mark] (describedDoc action.description)]) later :=
    describe_made fun text model declares => declares.modifyMethod fresh fun method =>
      { method with doc := method.doc.add text }
  refine declared.bind fun method => Leads.assuming fun isPlace => ?_
  rw [isPlace]
  have marked : Leads
      (fun session => Reached configuration (outlines ++ [created]) session ∧
        Made configuration (done ++ [opened [] {}]) verbs session)
      (annotateVerb action.verb place)
      fun _ => Made configuration (done ++ [opened [verbMark] {}]) later :=
    typed.bind fun type => Leads.assuming fun isType => isType ▸ annotated [] type []
  refine marked.bind fun _ => (annotated _ _ _).bind fun _ => ?_
  exact described.bind fun _ => Leads.pure fun _ made => made

end RamlInterfaces.Generation
