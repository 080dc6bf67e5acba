/-
**Sessions that fill interfaces.**

What a session knows besides its model is read off the outlines of its interfaces: the enums that it
remembers are the nested types, and the annotation types are those of its verbs.

* `Holds`, `Reached`: a session with interfaces of given outlines;
* `openInterface_decides`: **an interface is declared unless one has its name**;
* `openMethod_decides`: **a method is declared unless the interface has one of its name**.
-/

import RamlInterfaces.Proofs.Generation.Decision
import RamlInterfaces.Proofs.Generation.Members

namespace RamlInterfaces.Generation

open Java
open Settings (Configuration)

/-! ### Sessions -/

/-- A session under a configuration that remembers the given enums, and has annotation types of the
given names and interfaces of the given outlines. -/
structure Holds (configuration : Configuration) (enums : List KnownEnum) (supports : List String)
    (outlines : List Outline) (session : Session) : Prop where
  settings : session.configuration = configuration
  enums : session.enums = enums
  verbs : ∀ entry ∈ session.verbTypes,
    entry.2 = ⟨supportPackageOf configuration.basePackage, entry.1.name, []⟩
  outlined : Outlined configuration.basePackage outlines supports session.model

/-- What a session remembers of an enum that is nested in an interface. -/
def knownEnum (base owner : String) (inner : TypeDecl) : KnownEnum where
  owner := (interfaceOf base owner).qualifiedName
  name := inner.name
  literals := inner.constants.map (·.literal)
  path := (interfaceOf base owner).nested inner.name

/-- The enums of an interface. -/
def Outline.enums (base : String) (outline : Outline) : List KnownEnum :=
  outline.nested.map (knownEnum base outline.name)

/-- The names of the annotation types that a session remembers. -/
def verbNames (session : Session) : List String := session.verbTypes.map (·.1.name)

/-- A session that has come to interfaces of the given outlines, and that remembers their enums and
its annotation types. -/
def Reached (configuration : Configuration) (outlines : List Outline) (session : Session) : Prop :=
  Holds configuration (outlines.flatMap (Outline.enums configuration.basePackage))
    (verbNames session) outlines session

variable {configuration : Configuration} {enums : List KnownEnum} {supports : List String}
  {done outlines : List Outline} {outline : Outline} {session : Session}

theorem reached_start (configuration : Configuration) :
    Reached configuration [] { configuration } where
  settings := rfl
  enums := rfl
  verbs := fun _ member => absurd member List.not_mem_nil
  outlined := outlined_empty _

/-- Other fields of a session do not matter. -/
theorem Holds.congr (holds : Holds configuration enums supports outlines session) {other : Session}
    (settings : other.configuration = session.configuration) (model : other.model = session.model)
    (same : other.enums = session.enums) (verbs : other.verbTypes = session.verbTypes) :
    Holds configuration enums supports outlines other where
  settings := settings.trans holds.settings
  enums := same.trans holds.enums
  verbs := verbs ▸ holds.verbs
  outlined := model ▸ holds.outlined

/-- A change of the model. -/
theorem Holds.change (holds : Holds configuration enums supports outlines session)
    {laterSupports : List String} {later : List Outline} {next : Model}
    (outlined : Outlined configuration.basePackage later laterSupports next) :
    Holds configuration enums laterSupports later { session with model := next } where
  settings := holds.settings
  enums := holds.enums
  verbs := holds.verbs
  outlined := outlined

/-- Changes of the last interface that leave its name and the types nested in it. -/
theorem Reached.change {later : Outline} {next : Model}
    (holds : Reached configuration (done ++ [outline]) session)
    (outlined : Outlined configuration.basePackage (done ++ [later]) (verbNames session) next)
    (name : later.name = outline.name) (nested : later.nested = outline.nested) :
    Reached configuration (done ++ [later]) { session with model := next } := by
  have same : later.enums configuration.basePackage = outline.enums configuration.basePackage := by
    unfold Outline.enums
    rw [name, nested]
  have enums : (done ++ [later]).flatMap (Outline.enums configuration.basePackage) =
      (done ++ [outline]).flatMap (Outline.enums configuration.basePackage) := by
    rw [List.flatMap_append, List.flatMap_append, List.flatMap_singleton, List.flatMap_singleton,
      same]
  unfold Reached
  rw [enums]
  exact Holds.change holds outlined

theorem change_decides {later : Outline} {update : Model → Model} (name : later.name = outline.name)
    (nested : later.nested = outline.nested)
    (outlined : ∀ supports model,
      Outlined configuration.basePackage (done ++ [outline]) supports model →
        Outlined configuration.basePackage (done ++ [later]) supports (update model)) :
    Decides (Reached configuration (done ++ [outline])) (Build.change update) True
      fun _ => Reached configuration (done ++ [later]) :=
  Decides.change fun _ holds => holds.change (outlined _ _ holds.outlined) name nested

theorem report_decides (level : Level) (message : String) :
    Decides (Reached configuration outlines) (Build.report level message) True
      fun _ => Reached configuration outlines :=
  Decides.modify fun _ holds => Holds.congr holds rfl rfl rfl rfl

/-! ### Interfaces -/

/-- The annotation for a path. -/
def pathMark (path : String) : Annotation where
  type := pathAnnotation
  elements := [("value", .text path)]

/-- The outline of the interface of a resource before its methods are added. -/
def openedInterface (resource : Raml.Resource) : Outline where
  name := interfaceName resource.displayName resource.relativePath
  annotations := [pathMark (interfacePath resource.relativePath)]

theorem describe_decides (description : Option String) {add : String → Model → Model}
    (outlined : ∀ text supports model,
      Outlined configuration.basePackage (done ++ [outline]) supports model →
        Outlined configuration.basePackage (done ++ [outline]) supports (add text model)) :
    Decides (Reached configuration (done ++ [outline])) (describe description add) True
      fun _ => Reached configuration (done ++ [outline]) := by
  unfold describe
  split
  · exact change_decides rfl rfl (outlined _)
  · exact Decides.pure fun _ holds => holds

theorem createInterface_decides {name : String} (plain : IsPlain name) :
    Decides (Reached configuration done) (createInterface name) (name ∉ done.map (·.name))
      fun owner session => owner = interfaceOf configuration.basePackage name ∧
        Reached configuration (done ++ [({ name } : Outline)]) session := by
  refine Decides.get_bind fun seen holds => ?_
  have package : seen.resourcePackage = resourcePackageOf configuration.basePackage := by
    unfold Session.resourcePackage resourcePackageOf
    rw [holds.settings]
  rw [package]
  refine Decides.attempt fun session same => ?_
  rw [same]
  refine Settles.map ((holds.outlined.define_interface plain).mono fun next _ outlined => ⟨rfl, ?_⟩)
  have enums : (done ++ [({ name } : Outline)]).flatMap
      (Outline.enums configuration.basePackage) =
        done.flatMap (Outline.enums configuration.basePackage) := by
    rw [List.flatMap_append]
    exact List.append_nil _
  unfold Reached
  rw [enums]
  exact Holds.change holds outlined

/-- **An interface is declared unless one has its name.** -/
theorem openInterface_decides (resource : Raml.Resource) :
    Decides (Reached configuration done) (openInterface resource)
      ((openedInterface resource).name ∉ done.map (·.name)) fun owner session =>
        owner = interfaceOf configuration.basePackage (openedInterface resource).name ∧
          Reached configuration (done ++ [openedInterface resource]) session := by
  have plain := isPlain_interfaceName resource.displayName resource.relativePath
  unfold openInterface openedInterface
  generalize interfaceName resource.displayName resource.relativePath = name at plain ⊢
  let opened : Outline := { name, annotations := [pathMark (interfacePath resource.relativePath)] }
  refine (createInterface_decides plain).close fun owner => Decides.assuming fun isOwner => ?_
  rw [isOwner]
  have noted : Decides (Reached configuration (done ++ [({ name } : Outline)]))
      (modify fun session : Session =>
        { session with current := some (interfaceOf configuration.basePackage name) }) True
      fun _ => Reached configuration (done ++ [({ name } : Outline)]) :=
    Decides.modify fun _ holds => Holds.congr holds rfl rfl rfl rfl
  have marked : Decides (Reached configuration (done ++ [({ name } : Outline)]))
      (Build.annotate (.type (interfaceOf configuration.basePackage name)) pathAnnotation
        [("value", .text (interfacePath resource.relativePath))]) True
      fun _ => Reached configuration (done ++ [opened]) :=
    change_decides rfl rfl fun _ _ outlined => outlined.annotate _
  have described : Decides (Reached configuration (done ++ [opened]))
      (describe resource.description fun description model =>
        model.modifyTypeDoc (interfaceOf configuration.basePackage name) (·.add description)) True
      fun _ => Reached configuration (done ++ [opened]) :=
    describe_decides _ fun _ _ _ outlined => outlined.modifyTypeDoc _
  refine noted.andThen fun _ => marked.andThen fun _ => described.andThen fun _ => ?_
  exact (report_decides _ _).andThen fun _ => Decides.pure fun _ holds => ⟨rfl, holds⟩

/-! ### Methods -/

/-- The annotation type that a method of a verb is annotated with. -/
def verbReference (base : String) (verb : Verb) : TypeRef :=
  (platformVerbType? verb).getD (.declared ⟨supportPackageOf base, verb.name, []⟩)

theorem verb_name_injective {verb other : Verb} (same : verb.name = other.name) : verb = other := by
  revert same
  cases verb <;> cases other <;> decide

/-- The annotation type of a verb is declared where it is not yet known. -/
theorem createVerbType_decides {verb : Verb} (holds : Reached configuration outlines session)
    (fresh : verb.name ∉ verbNames session) :
    Decides (fun seen => seen = session) (createVerbType verb) True fun path final =>
      path = ⟨supportPackageOf configuration.basePackage, verb.name, []⟩ ∧
        Holds configuration (outlines.flatMap (Outline.enums configuration.basePackage))
          (verbNames final ++ [verb.name]) outlines final := by
  let path : TypePath := ⟨supportPackageOf configuration.basePackage, verb.name, []⟩
  let declared (seen : Session) : Prop :=
    Holds configuration (outlines.flatMap (Outline.enums configuration.basePackage))
      (verbNames seen ++ [verb.name]) outlines seen
  have package : session.supportPackage = supportPackageOf configuration.basePackage := by
    unfold Session.supportPackage supportPackageOf
    rw [holds.settings]
  have changed {change : TypeDecl → TypeDecl} (named : ∀ decl, (change decl).name = decl.name)
      (kind : ∀ decl, (change decl).kind = decl.kind)
      (methods : ∀ decl, (change decl).methods = decl.methods) :
      Decides declared (Build.change fun model => model.modifyType path change) True
        fun _ => declared :=
    Decides.change fun _ holds =>
      Holds.change holds (holds.outlined.modifySupport named kind methods)
  have documented (change : DocComment → DocComment) : Decides declared
      (Build.change fun model => model.modifyTypeDoc path change) True fun _ => declared :=
    changed (fun _ => rfl) (fun _ => rfl) fun _ => rfl
  have annotated (type : TypeRef) (elements : List (String × ElementValue)) :
      Decides declared (Build.annotate (.type path) type elements) True fun _ => declared :=
    changed (fun _ => rfl) (fun _ => rfl) fun _ => rfl
  refine Decides.get_bind fun seen same => ?_
  rw [same, package]
  have defined : Decides (fun seen => seen = session)
      (Build.define (supportPackageOf configuration.basePackage) verb.name .annotationType) True
        fun result final => result = path ∧ declared final := by
    refine Decides.attempt fun seen same => ?_
    rw [same]
    refine Settles.map (((holds.outlined.define_support (isPlain_verb verb)).mono
      fun next _ outlined => ⟨rfl, ?_⟩).congr (iff_true_intro fresh))
    exact Holds.change holds outlined
  refine defined.andThen fun result => Decides.assuming fun isPath => ?_
  rw [isPath]
  refine (documented _).andThen fun _ => ?_
  refine (annotated _ _).andThen fun _ => (annotated _ _).andThen fun _ => ?_
  refine (annotated _ _).andThen fun _ => ?_
  have reported (level : Level) (message : String) :
      Decides declared (Build.report level message) True fun _ => declared :=
    Decides.modify fun _ holds => Holds.congr holds rfl rfl rfl rfl
  exact (reported _ _).andThen fun _ => Decides.pure fun _ holds => ⟨rfl, holds⟩

/-- The annotation type of a verb is always there. -/
theorem verbType_decides (verb : Verb) :
    Decides (Reached configuration outlines) (verbType verb) True fun type session =>
      type = verbReference configuration.basePackage verb ∧
        Reached configuration outlines session := by
  unfold verbType verbReference
  cases platformVerbType? verb with
  | some type => exact Decides.pure fun _ holds => ⟨rfl, holds⟩
  | none =>
    refine Decides.get_bind fun seen holds => ?_
    split
    · rename_i known path found
      have isVerb : known = verb := by simpa using List.find?_some found
      have isPath := holds.verbs _ (List.mem_of_find?_eq_some found)
      rw [isVerb] at isPath
      refine Decides.pure fun session same => ⟨congrArg TypeRef.declared isPath, ?_⟩
      rw [same]
      exact holds
    · rename_i unknown
      have fresh : verb.name ∉ verbNames seen := by
        intro member
        obtain ⟨entry, isEntry, same⟩ := List.mem_map.mp member
        refine List.find?_eq_none.mp unknown entry isEntry (beq_iff_eq.mpr ?_)
        exact verb_name_injective same
      refine (createVerbType_decides holds fresh).andThen fun path =>
        Decides.assuming fun isPath => ?_
      refine (Decides.modify fun session holds => ?_).andThen fun _ =>
        Decides.pure fun _ holds => ⟨congrArg TypeRef.declared isPath, holds⟩
      refine ⟨holds.settings, holds.enums, fun entry member => ?_, ?_⟩
      · rcases List.mem_append.mp member with old | new
        · exact holds.verbs entry old
        · rw [List.mem_singleton.mp new]
          exact isPath
      · unfold verbNames
        rw [List.map_append]
        exact holds.outlined

/-- The outline of the method of an action before its parameters are added. -/
def openedMethod (base interfacePath : String) (action : Raml.Action) : MethodOutline where
  name := actionName action
  annotations := [⟨verbReference base action.verb, []⟩,
    pathMark (methodPath action.resourcePath interfacePath)]

theorem createMethod_decides (name : String) (returnType : TypeRef) :
    Decides (Reached configuration (done ++ [outline]))
      (createMethod (interfaceOf configuration.basePackage outline.name) name returnType)
      (name ∉ outline.methods.map (·.name)) fun path session =>
        path = lastMethod configuration.basePackage outline ∧
          Reached configuration (done ++ [outline.addMethod { name }]) session := by
  refine Decides.get_bind fun seen holds => ?_
  let owner := interfaceOf configuration.basePackage outline.name
  have free := holds.outlined.methodsNamed_isEmpty name
  split
  · rename_i isFree
    have place : (seen.model.addMethod owner name returnType).1 =
        lastMethod configuration.basePackage outline :=
      congrArg (MethodPath.mk _) holds.outlined.methodCount
    have added : Reached configuration (done ++ [outline.addMethod { name }])
        { seen with model := (seen.model.addMethod owner name returnType).2 } :=
      Reached.change holds (holds.outlined.addMethod _ _) rfl rfl
    refine Decides.congr ?_ (iff_true_intro (free.mp isFree)).symm
    exact (Decides.set added).andThen fun _ => Decides.pure fun _ holds => ⟨place, holds⟩
  · rename_i isTaken
    refine (Decides.throw (.inl ⟨_, rfl, rfl⟩)).congr (iff_false_intro ?_).symm
    exact fun isFree => isTaken (free.mpr isFree)

/-- An annotation of the last method. -/
theorem annotateMethod_decides {method : MethodOutline} (type : TypeRef)
    (elements : List (String × ElementValue)) :
    Decides (Reached configuration (done ++ [outline.addMethod method]))
      (Build.annotate (.method (lastMethod configuration.basePackage outline)) type elements) True
      fun _ => Reached configuration
        (done ++ [outline.addMethod (method.annotate ⟨type, elements⟩)]) :=
  change_decides rfl rfl fun _ _ outlined => outlined.annotateMethod ⟨type, elements⟩

theorem annotateVerb_decides {method : MethodOutline} (verb : Verb) :
    Decides (Reached configuration (done ++ [outline.addMethod method]))
      (annotateVerb verb (lastMethod configuration.basePackage outline)) True
      fun _ => Reached configuration (done ++ [outline.addMethod
        (method.annotate ⟨verbReference configuration.basePackage verb, []⟩)]) := by
  refine (verbType_decides verb).andThen fun type => Decides.assuming fun isType => ?_
  rw [isType]
  exact annotateMethod_decides _ _

/-- **A method is declared unless the interface has one of its name.** -/
theorem openMethod_decides (interfacePath : String) (action : Raml.Action) :
    Decides (Reached configuration (done ++ [outline]))
      (openMethod (interfaceOf configuration.basePackage outline.name) interfacePath action)
      (actionName action ∉ outline.methods.map (·.name)) fun method session =>
        method = lastMethod configuration.basePackage outline ∧
          Reached configuration (done ++ [outline.addMethod
            (openedMethod configuration.basePackage interfacePath action)]) session := by
  let opened := openedMethod configuration.basePackage interfacePath action
  have described : Decides (Reached configuration (done ++ [outline.addMethod opened]))
      (describe action.description fun description model => model.modifyMethodDoc
        (lastMethod configuration.basePackage outline) (·.add description)) True
      fun _ => Reached configuration (done ++ [outline.addMethod opened]) :=
    describe_decides _ fun text _ _ outlined => outlined.describeMethod text
  refine (createMethod_decides _ _).close fun path => Decides.assuming fun isPath => ?_
  rw [isPath]
  refine (annotateVerb_decides action.verb).andThen fun _ => ?_
  refine (annotateMethod_decides _ _).andThen fun _ => ?_
  exact described.andThen fun _ => Decides.pure fun _ holds => ⟨rfl, holds⟩

end RamlInterfaces.Generation
