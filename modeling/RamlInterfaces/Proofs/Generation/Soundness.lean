/-
**Sessions in which a model is built.**

Every step of building that ends with a result keeps a session sound: its units are, no two of them
have one name, and the enums and annotation types that it remembers are there.

* `Sound`: a sound session with the interfaces that are known to be there;
* `createEnum_leads`, `addParameter_leads`, `addMethods_leads`: the steps;
* `buildModel_sound`: **the session in which a model was built is sound**.
-/

import RamlInterfaces.Proofs.Generation.Growth
import RamlInterfaces.Proofs.Generation.Steps

namespace RamlInterfaces.Generation

open Java
open Settings (Configuration)

/-- A session under a configuration with the given interfaces: its units are sound and have distinct
names, its enums are where they are known to be, and its annotation types are those of verbs that
the platform has none for. -/
structure Sound (configuration : Configuration) (owners : List String) (session : Session) :
    Prop where
  settings : session.configuration = configuration
  units : ∀ unit ∈ session.model.units, SoundUnit configuration.basePackage unit
  distinct : (session.model.units.map (·.qualifiedName)).Nodup
  enums : ∀ known ∈ session.enums, ∃ owner,
    known.owner = (interfaceOf configuration.basePackage owner).qualifiedName ∧
      known.path = (interfaceOf configuration.basePackage owner).nested known.name ∧
      Hosts configuration.basePackage session.model.units owner known.name
  verbs : ∀ entry ∈ session.verbTypes, platformVerbType? entry.1 = none ∧
    entry.2 = ⟨supportPackageOf configuration.basePackage, entry.1.name, []⟩
  owned : ∀ owner ∈ owners,
    Leading session.model.units (interfaceOf configuration.basePackage owner)

variable {configuration : Configuration} {owners : List String} {session : Session}

theorem sound_start (configuration : Configuration) : Sound configuration [] { configuration } where
  settings := rfl
  units := fun _ member => absurd member List.not_mem_nil
  distinct := List.nodup_nil
  enums := fun _ member => absurd member List.not_mem_nil
  verbs := fun _ member => absurd member List.not_mem_nil
  owned := fun _ member => absurd member List.not_mem_nil

/-- **A session stays sound when its model grows.** -/
theorem Sound.grow (sound : Sound configuration owners session) {next : Model}
    (grown : GrowsModel configuration.basePackage session.model next) :
    Sound configuration owners { session with model := next } where
  settings := sound.settings
  units := fun later member => by
    obtain ⟨change, same, grows⟩ := grown
    rw [same] at member
    obtain ⟨unit, old, rfl⟩ := List.mem_map.mp member
    exact (grows unit old).sound (sound.units unit old)
  distinct := by
    obtain ⟨change, same, grows⟩ := grown
    have names : (session.model.units.map change).map (·.qualifiedName) =
        session.model.units.map (·.qualifiedName) := by
      rw [List.map_map]
      exact List.map_congr_left fun unit member => (grows unit member).qualifiedName
    rw [same, names]
    exact sound.distinct
  enums := fun known member => by
    obtain ⟨owner, owned, path, hosts⟩ := sound.enums known member
    exact ⟨owner, owned, path, hosts.grow grown⟩
  verbs := sound.verbs
  owned := fun owner member => (sound.owned owner member).grow grown

/-- Other fields of a session do not matter. -/
theorem Sound.congr (sound : Sound configuration owners session) {other : Session}
    (settings : other.configuration = session.configuration) (model : other.model = session.model)
    (enums : other.enums = session.enums) (verbs : other.verbTypes = session.verbTypes) :
    Sound configuration owners other where
  settings := settings.trans sound.settings
  units := model ▸ sound.units
  distinct := model ▸ sound.distinct
  enums := by
    rw [enums, model]
    exact sound.enums
  verbs := verbs ▸ sound.verbs
  owned := model ▸ sound.owned

theorem change_leads {update : Model → Model}
    (grown : ∀ model, GrowsModel configuration.basePackage model (update model)) :
    Leads (Sound configuration owners) (Build.change update)
      fun _ => Sound configuration owners :=
  Leads.change fun session sound => sound.grow (grown session.model)

theorem report_leads (level : Level) (message : String) :
    Leads (Sound configuration owners) (Build.report level message)
      fun _ => Sound configuration owners :=
  Leads.modify fun _ sound => sound.congr rfl rfl rfl rfl

theorem annotate_leads {site : Site} (outermost : (typePathOf site).inner = []) {type : TypeRef}
    {elements : List (String × ElementValue)}
    (allowed : ∀ unit, Model.holds (typePathOf site) unit = true →
      ∀ other ∈ annotationClasses { type, elements },
        Refers configuration.basePackage unit other) :
    Leads (Sound configuration owners) (Build.annotate site type elements)
      fun _ => Sound configuration owners :=
  change_leads fun _ => growsModel_annotate outermost fun unit _ => allowed unit

/-- An annotation that names classes of the platform. -/
theorem annotate_platform_leads (site : Site) (outermost : (typePathOf site).inner = [])
    {type : TypeRef} {elements : List (String × ElementValue)} (names : List String)
    (classes : annotationClasses { type, elements } = names.map .named)
    (known : ∀ name ∈ names, name ∈ platformClasses) :
    Leads (Sound configuration owners) (Build.annotate site type elements)
      fun _ => Sound configuration owners := by
  refine annotate_leads outermost fun unit _ other member => ?_
  rw [classes] at member
  obtain ⟨name, isName, rfl⟩ := List.mem_map.mp member
  exact .platform (known name isName) []

/-! ### Declarations -/

theorem qualifiedName_of_holds {path : TypePath} {unit : CompilationUnit}
    (holds : Model.holds path unit = true) :
    unit.qualifiedName = TypePath.qualify path.package path.outermost := by
  unfold CompilationUnit.qualifiedName CompilationUnit.path TypePath.qualifiedName
    TypePath.outermostName
  rw [package_of_holds holds, name_of_holds holds]
  rfl

/-- A session stays sound when a type of a new name is declared in one of the two packages. -/
theorem define_leads {package name : String} (kind : Kind)
    (place : package = resourcePackageOf configuration.basePackage ∨
      package = supportPackageOf configuration.basePackage) (plain : IsPlain name) :
    Leads (Sound configuration owners) (Build.define package name kind) fun path session =>
      Sound configuration owners session ∧ path = ⟨package, name, []⟩ ∧
        Leading session.model.units path := by
  refine Leads.attempt_map fun session next sound defined => ?_
  obtain ⟨fresh, rfl⟩ := Model.define_eq_ok_iff.mp defined
  let added : CompilationUnit := ⟨package, { name, kind }⟩
  have unknown (unit : CompilationUnit) (member : unit ∈ session.model.units) :
      unit.qualifiedName ≠ added.qualifiedName :=
    fun same => fresh (List.mem_map.mpr ⟨unit, member, same⟩)
  have addedSound : SoundUnit configuration.basePackage added := {
    package := place
    plain := plain
    nested := fun _ member => absurd member List.not_mem_nil
    classes := fun type member => refers_of_mem_enumClasses (mem_typeClasses_empty member) }
  have stays {path : TypePath} (leading : Leading session.model.units path) :
      Leading (session.model.units ++ [added]) path := by
    obtain ⟨unit, member, holds⟩ := leading
    exact ⟨unit, List.mem_append_left _ member, holds⟩
  refine ⟨{
    settings := sound.settings
    units := fun unit member => ?_
    distinct := ?_
    enums := fun known member => ?_
    verbs := sound.verbs
    owned := fun owner member => stays (sound.owned owner member) }, rfl, added,
      List.mem_append_right _ List.mem_cons_self, by simp [Model.holds, added]⟩
  · rcases List.mem_append.mp member with old | new
    · exact sound.units unit old
    · rw [List.mem_singleton.mp new]
      exact addedSound
  · show ((session.model.units ++ [added]).map (·.qualifiedName)).Nodup
    rw [List.map_append, List.nodup_append]
    refine ⟨sound.distinct, by simp, fun name isOld other isNew => ?_⟩
    obtain ⟨unit, member, rfl⟩ := List.mem_map.mp isOld
    rw [List.map_singleton, List.mem_singleton] at isNew
    rw [isNew]
    exact unknown unit member
  · obtain ⟨owner, owned, path, hosts⟩ := sound.enums known member
    refine ⟨owner, owned, path, stays hosts.owned, fun unit isUnit holds => ?_⟩
    rcases List.mem_append.mp isUnit with old | new
    · exact hosts.nested unit old holds
    · obtain ⟨host, isHost, there⟩ := hosts.owned
      rw [List.mem_singleton.mp new] at holds
      refine absurd ?_ (unknown host isHost)
      rw [qualifiedName_of_holds there, qualifiedName_of_holds holds]

theorem createInterface_leads {name : String} (plain : IsPlain name) :
    Leads (Sound configuration owners) (createInterface name) fun path session =>
      Sound configuration (name :: owners) session ∧
        path = interfaceOf configuration.basePackage name := by
  refine Leads.get_bind fun seen sound => ?_
  have package : seen.resourcePackage = resourcePackageOf configuration.basePackage := by
    unfold Session.resourcePackage resourcePackageOf
    rw [sound.settings]
  rw [package]
  refine ((define_leads .interface (.inl rfl) plain).start sound).mono (fun _ same => same)
    fun path session holds => ?_
  obtain ⟨later, rfl, leading⟩ := holds
  refine ⟨{ later with owned := fun owner member => ?_ }, rfl⟩
  rcases List.mem_cons.mp member with rfl | old
  · exact leading
  · exact later.owned owner old

theorem createMethod_leads {owner : TypePath} (outermost : owner.inner = []) (name : String) :
    Leads (Sound configuration owners) (createMethod owner name (.primitive .void))
      fun path session => Sound configuration owners session ∧ path.type = owner := by
  refine Leads.get_bind fun seen sound => ?_
  split
  · refine Leads.bind (Leads.set ?_) fun _ => Leads.pure fun _ holds => holds
    exact ⟨sound.grow (growsModel_addMethod outermost name), rfl⟩
  · exact Leads.throw _

/-- A name is determined by its package and the qualified name. -/
theorem qualify_injective {package name other : String}
    (same : TypePath.qualify package name = TypePath.qualify package other) : name = other := by
  unfold TypePath.qualify at same
  split at same
  · exact same
  · exact String.append_right_inj _ |>.mp same

/-- An enum is nested in its interface afterwards. -/
theorem createEnum_leads {owner name : String} (isOwner : owner ∈ owners) (plain : IsPlain name)
    (literals : List String) : Leads (Sound configuration owners)
      (createEnum (interfaceOf configuration.basePackage owner) name literals) fun path session =>
        Sound configuration owners session ∧
          path = (interfaceOf configuration.basePackage owner).nested name ∧
          Hosts configuration.basePackage session.model.units owner name := by
  refine Leads.get_bind fun seen sound => ?_
  dsimp only
  split
  · rename_i known found
    split
    · refine Leads.pure fun session same => ?_
      rw [same]
      have asked := List.find?_some found
      rw [Bool.and_eq_true, beq_iff_eq, beq_iff_eq] at asked
      obtain ⟨other, owned, path, hosts⟩ := sound.enums known (List.mem_of_find?_eq_some found)
      have sameOwner : other = owner := qualify_injective (owned.symm.trans asked.1)
      rw [sameOwner, asked.2] at path hosts
      exact ⟨sound, path, hosts⟩
    · exact Leads.throw _
  · let hosted := fun session : Session => Sound configuration owners session ∧
      Hosts configuration.basePackage session.model.units owner name
    have nested : Leads (Sound configuration owners)
        (Build.nest (interfaceOf configuration.basePackage owner) name .enum) fun path session =>
          hosted session ∧ path = (interfaceOf configuration.basePackage owner).nested name := by
      refine Leads.attempt_map fun session next sound nested => ?_
      obtain ⟨grown, there⟩ := growsModel_nest plain nested
      have later := sound.grow grown
      exact ⟨⟨later, later.owned owner isOwner, there⟩, rfl⟩
    refine (nested.start sound).bind fun path => ?_
    have constants : Leads
        (fun session => hosted session ∧
          path = (interfaceOf configuration.basePackage owner).nested name)
        (forIn literals () fun literal _ => do
          Build.attempt fun model =>
            (model.addConstant path (constantName literal) literal).map fun model => ((), model)
          pure (ForInStep.yield ())) fun _ session => hosted session ∧
            path = (interfaceOf configuration.basePackage owner).nested name := by
      refine Leads.forIn fun literal _ => Leads.attempt_map fun session next holds added => ?_
      obtain ⟨⟨sound, hosts⟩, rfl⟩ := holds
      have grown : GrowsModel configuration.basePackage session.model next :=
        growsModel_addConstant added
      exact ⟨⟨sound.grow grown, hosts.grow grown⟩, rfl⟩
    refine constants.bind fun _ => (Leads.modify fun session holds => ?_).bind fun _ =>
      Leads.pure fun _ holds => holds
    obtain ⟨⟨sound, hosts⟩, rfl⟩ := holds
    refine ⟨{ sound with enums := fun known member => ?_ }, rfl, hosts⟩
    rcases List.mem_append.mp member with old | new
    · exact sound.enums known old
    · rw [List.mem_singleton.mp new]
      exact ⟨owner, rfl, rfl, hosts⟩

/-! ### Annotation types of verbs -/

theorem isPlain_verb (verb : Verb) : IsPlain verb.name := by
  cases verb <;> decide

theorem createVerbType_leads (verb : Verb) : Leads (Sound configuration owners)
    (createVerbType verb) fun path session => Sound configuration owners session ∧
      path = ⟨supportPackageOf configuration.basePackage, verb.name, []⟩ := by
  refine Leads.get_bind fun seen sound => ?_
  have package : seen.supportPackage = supportPackageOf configuration.basePackage := by
    unfold Session.supportPackage supportPackageOf
    rw [sound.settings]
  rw [package]
  have declared := ((define_leads .annotationType (.inr rfl) (isPlain_verb verb)).start sound).mono
    (fun _ same => same) fun path session holds => And.intro holds.1 holds.2.1
  refine declared.bind fun path => Leads.assuming fun isPath => ?_
  have outermost : path.inner = [] := by rw [isPath]
  refine (change_leads fun _ => growsModel_modifyTypeDoc outermost _).bind fun _ => ?_
  refine (annotate_platform_leads (.type path) outermost
    ["java.lang.annotation.Target", "java.lang.annotation.ElementType"] rfl
      (by decide)).bind fun _ => ?_
  refine (annotate_platform_leads (.type path) outermost
    ["java.lang.annotation.Retention", "java.lang.annotation.RetentionPolicy"] rfl
      (by decide)).bind fun _ => ?_
  refine (annotate_platform_leads (.type path) outermost ["javax.ws.rs.HttpMethod"] rfl
    (by decide)).bind fun _ => ?_
  exact (report_leads _ _).bind fun _ => Leads.pure fun _ sound => ⟨sound, isPath⟩

/-- Every interface may refer to the annotation type of a verb. -/
theorem verbType_leads (verb : Verb) : Leads (Sound configuration owners) (verbType verb)
    fun type session => Sound configuration owners session ∧
      ∀ unit : CompilationUnit, unit.package = resourcePackageOf configuration.basePackage →
        ∀ other ∈ type.classes, Refers configuration.basePackage unit other := by
  unfold verbType
  split
  · rename_i type found
    refine Leads.pure fun session sound => ⟨sound, fun unit _ other member => ?_⟩
    have known : ∃ name ∈ platformClasses, type = .named name := by
      cases verb <;> cases found <;> exact ⟨_, by decide, rfl⟩
    obtain ⟨name, isName, rfl⟩ := known
    rw [List.mem_singleton.mp member]
    exact .platform isName []
  · rename_i missing
    have allowed {path : TypePath}
        (isPath : path = ⟨supportPackageOf configuration.basePackage, verb.name, []⟩) :
        ∀ unit : CompilationUnit, unit.package = resourcePackageOf configuration.basePackage →
          ∀ other ∈ (TypeRef.declared path).classes,
            Refers configuration.basePackage unit other := by
      intro unit interface other member
      rw [List.mem_singleton.mp member, isPath]
      exact .verb interface missing
    refine Leads.get_bind fun seen sound => ?_
    split
    · rename_i known path found
      refine Leads.pure fun session same => ?_
      rw [same]
      refine ⟨sound, allowed ?_⟩
      have isVerb : known = verb := by simpa using List.find?_some found
      rw [← isVerb]
      exact (sound.verbs _ (List.mem_of_find?_eq_some found)).2
    · refine ((createVerbType_leads verb).start sound).bind fun path =>
        Leads.assuming fun isPath => ?_
      refine (Leads.modify fun session sound => ?_).bind fun _ =>
        Leads.pure fun _ sound => ⟨sound, allowed isPath⟩
      refine { sound with verbs := fun entry member => ?_ }
      rcases List.mem_append.mp member with old | new
      · exact sound.verbs entry old
      · rw [List.mem_singleton.mp new]
        exact ⟨missing, isPath⟩

/-- A method of an interface is annotated for its verb. -/
theorem annotateVerb_leads (verb : Verb) {method : MethodPath} {owner : String}
    (isOwner : method.type = interfaceOf configuration.basePackage owner) :
    Leads (Sound configuration owners) (annotateVerb verb method)
      fun _ => Sound configuration owners := by
  refine (verbType_leads verb).bind fun type => Leads.assuming fun allowed => ?_
  refine annotate_leads (by rw [typePathOf, isOwner]; rfl) fun unit holds other member => ?_
  rw [annotationClasses, List.flatMap_nil, List.append_nil] at member
  rw [typePathOf, isOwner] at holds
  exact allowed unit (package_of_holds holds) other member

/-! ### Parameters -/

/-- The class that holds a primitive type, or the type itself, is there on the platform. -/
theorem primitiveOrBoxed_classes (p : Raml.Parameter) {primitive : Primitive} {name : String}
    (wrapped : primitive.wrapper? = some name) (known : name ∈ platformClasses) :
    ∀ other ∈ (primitiveOrBoxed p primitive).classes, ∃ name ∈ platformClasses,
      other = .named name := by
  unfold primitiveOrBoxed TypeRef.boxed
  intro other member
  split at member
  · cases member
  · dsimp only at member
    rw [wrapped] at member
    exact ⟨name, known, List.mem_singleton.mp member⟩

/-- The class that holds the values of a type is there on the platform if the type is. -/
theorem boxed_classes {type : TypeRef}
    (known : ∀ other ∈ type.classes, ∃ name ∈ platformClasses, other = .named name) :
    ∀ other ∈ type.boxed.classes, ∃ name ∈ platformClasses, other = .named name := by
  cases type with
  | primitive type =>
    intro other member
    cases type with
    | void => cases member
    | boolean => exact ⟨_, by decide, List.mem_singleton.mp member⟩
    | long => exact ⟨_, by decide, List.mem_singleton.mp member⟩
    | double => exact ⟨_, by decide, List.mem_singleton.mp member⟩
  | outside name arguments => exact known
  | declared path => exact known
  | unnamed text => exact known

/-- The types of declared kinds are there on the platform. -/
theorem scalarType?_classes {p : Raml.Parameter} {type : TypeRef}
    (found : scalarType? p = some type) :
    ∀ other ∈ type.classes, ∃ name ∈ platformClasses, other = .named name := by
  unfold scalarType? at found
  split at found
  · cases found
    exact fun other member => ⟨_, by decide, List.mem_singleton.mp member⟩
  · cases found
    exact fun other member => ⟨_, by decide, List.mem_singleton.mp member⟩
  · cases found
    exact primitiveOrBoxed_classes p rfl (by decide)
  · cases found
    exact primitiveOrBoxed_classes p rfl (by decide)
  · cases found
    exact primitiveOrBoxed_classes p rfl (by decide)
  · cases found
    exact fun other member => ⟨_, by decide, List.mem_singleton.mp member⟩
  · cases found
    exact fun other member => ⟨_, by decide, List.mem_singleton.mp member⟩
  · cases found

theorem scalarType_leads (p : Raml.Parameter) : Leads (Sound configuration owners) (scalarType p)
    fun type session => Sound configuration owners session ∧
      ∀ other ∈ type.classes, ∃ name ∈ platformClasses, other = .named name := by
  unfold scalarType
  split
  · rename_i type found
    exact Leads.pure fun _ sound => ⟨sound, scalarType?_classes found⟩
  · refine (report_leads _ _).bind fun _ => Leads.pure fun _ sound => ⟨sound, ?_⟩
    exact fun other member => ⟨_, by decide, List.mem_singleton.mp member⟩

/-- The type of a parameter: each unit that is the interface may refer to its classes. -/
theorem inferType_leads (p : Raml.Parameter) (name : String) {owner : String}
    (isOwner : owner ∈ owners) : Leads (Sound configuration owners)
      (inferType p name (some (interfaceOf configuration.basePackage owner))) fun type session =>
        Sound configuration owners session ∧ ∀ unit ∈ session.model.units,
          Model.holds (interfaceOf configuration.basePackage owner) unit = true →
            ∀ other ∈ type.classes, Refers configuration.basePackage unit other := by
  unfold inferType
  split
  · rename_i first rest values
    refine Leads.get_bind fun seen sound => ?_
    dsimp only [Option.or]
    refine ((createEnum_leads isOwner (isPlain_typeName name) _).start sound).bind fun path => ?_
    refine Leads.pure fun session holds => ?_
    obtain ⟨sound, isPath, hosts⟩ := holds
    refine ⟨sound, fun unit member there other inType => ?_⟩
    have nested : Refers configuration.basePackage unit
        (.declared ⟨unit.package, unit.type.name, [typeName name]⟩) :=
      .nested (hosts.nested unit member there)
    rw [package_of_holds there, name_of_holds there] at nested
    rw [List.mem_singleton.mp inType, isPath]
    exact nested
  · refine (scalarType_leads p).bind fun type => Leads.assuming fun known => ?_
    refine Leads.pure fun session sound => ⟨sound, fun unit _ _ other member => ?_⟩
    split at member
    · rcases List.mem_cons.mp member with rfl | inside
      · exact .platform (by decide) _
      · have inBoxed : other ∈ type.boxed.classes := by
          simpa [TypeRef.classes.classesOf] using inside
        obtain ⟨name, isName, rfl⟩ := boxed_classes known other inBoxed
        exact .platform isName []
    · obtain ⟨name, isName, rfl⟩ := known other member
      exact .platform isName []

theorem constraint_known (c : Constraint) :
    "javax.validation.constraints." ++ c.simpleName ∈ platformClasses := by
  have all : ∀ name ∈ ["NotNull", "Size", "Pattern", "Min", "Max", "DecimalMin", "DecimalMax"],
      "javax.validation.constraints." ++ name ∈ platformClasses := by decide
  refine all _ ?_
  cases c <;> simp [Constraint.simpleName]

/-- The elements of constraints name no class. -/
theorem elements_classes {c : Constraint} {elements : List (String × ElementValue)}
    (made : c.elements = .ok elements) :
    elements.flatMap (fun element => valueClasses element.2) = [] := by
  have bounded {bound : Option Int} (made : boundElements bound = .ok elements) :
      elements.flatMap (fun element => valueClasses element.2) = [] := by
    cases bound with
    | none => cases made
    | some n =>
      cases made
      rfl
  cases c with
  | notNull =>
    cases made
    rfl
  | size least greatest =>
    cases made
    cases least <;> cases greatest <;> rfl
  | pattern expression =>
    cases made
    rfl
  | min bound => exact bounded made
  | max bound => exact bounded made
  | decimalMin bound =>
    cases made
    rfl
  | decimalMax bound =>
    cases made
    rfl

theorem annotateConstraint_leads (site : Site) (outermost : (typePathOf site).inner = [])
    (c : Constraint) : Leads (Sound configuration owners) (annotateConstraint site c)
      fun _ => Sound configuration owners := by
  unfold annotateConstraint
  split
  · rename_i elements made
    refine annotate_platform_leads site outermost ["javax.validation.constraints." ++ c.simpleName]
      ?_ (by simpa using constraint_known c)
    rw [annotationClasses, elements_classes made]
    rfl
  · refine (annotate_platform_leads site outermost
      ["javax.validation.constraints." ++ c.simpleName] rfl
        (by simpa using constraint_known c)).bind fun _ => Leads.throw _

theorem constrain_leads (p : Raml.Parameter) (site : Site)
    (outermost : (typePathOf site).inner = []) : Leads (Sound configuration owners)
      (constrain p site) fun _ => Sound configuration owners := by
  refine Leads.get_bind fun seen sound => ?_
  split
  · refine ((Leads.forIn fun c _ => annotateConstraint_leads site outermost c).start sound).bind
      fun _ => Leads.pure fun _ holds => holds
  · refine Leads.pure fun session same => ?_
    rw [same]
    exact sound

theorem declareParameter_leads {owner : String} (isOwner : owner ∈ owners) {method : MethodPath}
    (inOwner : method.type = interfaceOf configuration.basePackage owner) (methodName : String)
    (location : Location) (key : String) (p : Raml.Parameter) :
    Leads (Sound configuration owners)
      (declareParameter (interfaceOf configuration.basePackage owner) method methodName location
        key p) fun declared session =>
          Sound configuration owners session ∧ declared.2.method = method := by
  have outermost : method.type.inner = [] := by
    rw [inOwner]
    rfl
  have counted : Leads (Sound configuration owners) (parameterCount method)
      fun _ => Sound configuration owners :=
    Leads.get_bind fun seen sound => Leads.pure fun session same => same ▸ sound
  have reported (name : String) : Leads (Sound configuration owners)
      (reportFallback methodName location key name) fun _ => Sound configuration owners := by
    unfold reportFallback
    split
    · exact report_leads _ _
    · exact Leads.pure fun _ sound => sound
  refine counted.bind fun count => (reported _).bind fun _ => ?_
  refine (inferType_leads p _ isOwner).bind fun type => ?_
  have added : Leads
      (fun session => Sound configuration owners session ∧ ∀ unit ∈ session.model.units,
        Model.holds (interfaceOf configuration.basePackage owner) unit = true →
          ∀ other ∈ type.classes, Refers configuration.basePackage unit other)
      (Build.attempt fun model => model.addParameter method type (argumentName key (count + 1)))
      fun parameter session => Sound configuration owners session ∧ parameter.method = method := by
    refine Leads.attempt fun session parameter model holds done => ?_
    obtain ⟨sound, allowed⟩ := holds
    rw [← inOwner] at allowed
    obtain ⟨grown, place⟩ := growsModel_addParameter outermost done allowed
    exact ⟨sound.grow grown, place⟩
  refine added.bind fun parameter => Leads.assuming fun place => ?_
  have inMethod : (typePathOf (.parameter parameter)).inner = [] := by
    rw [typePathOf, place]
    exact outermost
  have bound : Leads (Sound configuration owners)
      (Build.annotate (.parameter parameter) location.binding [("value", .text key)])
      fun _ => Sound configuration owners := by
    cases location with
    | path => exact annotate_platform_leads _ inMethod ["javax.ws.rs.PathParam"] rfl (by decide)
    | header => exact annotate_platform_leads _ inMethod ["javax.ws.rs.HeaderParam"] rfl (by decide)
    | query => exact annotate_platform_leads _ inMethod ["javax.ws.rs.QueryParam"] rfl (by decide)
  have defaulted : Leads (Sound configuration owners) (annotateDefault p (.parameter parameter))
      fun _ => Sound configuration owners := by
    unfold annotateDefault
    split
    · exact annotate_platform_leads _ inMethod ["javax.ws.rs.DefaultValue"] rfl (by decide)
    · exact Leads.pure fun _ sound => sound
  exact bound.bind fun _ => defaulted.bind fun _ => Leads.pure fun _ sound => ⟨sound, place⟩

theorem addParameter_leads {owner : String} (isOwner : owner ∈ owners) {method : MethodPath}
    (inOwner : method.type = interfaceOf configuration.basePackage owner) (methodName : String)
    (location : Location) (key : String) (p : Raml.Parameter) :
    Leads (Sound configuration owners)
      (addParameter (interfaceOf configuration.basePackage owner) method methodName location key p)
        fun _ => Sound configuration owners := by
  refine (declareParameter_leads isOwner inOwner methodName location key p).bind fun declared =>
    Leads.assuming fun place => ?_
  have outermost : method.type.inner = [] := by
    rw [inOwner]
    rfl
  refine (constrain_leads p _ ?_).bind fun _ =>
    change_leads fun _ => growsModel_modifyMethodDoc outermost _
  rw [typePathOf, place]
  exact outermost

/-! ### Interfaces -/

theorem describe_leads (description : Option String) {add : String → Model → Model}
    (grown : ∀ text model, GrowsModel configuration.basePackage model (add text model)) :
    Leads (Sound configuration owners) (describe description add)
      fun _ => Sound configuration owners := by
  unfold describe
  split
  · exact change_leads (grown _)
  · exact Leads.pure fun _ sound => sound

theorem openMethod_leads (owner interfacePath : String) (action : Raml.Action) :
    Leads (Sound configuration owners)
      (openMethod (interfaceOf configuration.basePackage owner) interfacePath action)
        fun method session => Sound configuration owners session ∧
          method.type = interfaceOf configuration.basePackage owner := by
  refine (createMethod_leads rfl _).bind fun method => Leads.assuming fun inOwner => ?_
  have outermost : method.type.inner = [] := by
    rw [inOwner]
    rfl
  refine (annotateVerb_leads action.verb inOwner).bind fun _ => ?_
  refine (annotate_platform_leads (.method method) outermost ["javax.ws.rs.Path"] rfl
    (by decide)).bind fun _ => ?_
  refine (describe_leads action.description fun _ _ =>
    growsModel_modifyMethodDoc outermost _).bind fun _ => ?_
  exact Leads.pure fun _ sound => ⟨sound, inOwner⟩

theorem addMethod_leads {owner : String} (isOwner : owner ∈ owners) (interfacePath : String)
    (resource : Raml.Resource) (action : Raml.Action) : Leads (Sound configuration owners)
      (addMethod (interfaceOf configuration.basePackage owner) interfacePath resource action)
        fun _ => Sound configuration owners := by
  refine (openMethod_leads owner interfacePath action).bind fun method =>
    Leads.assuming fun inOwner => ?_
  refine (Leads.forIn fun item _ => ?_).bind fun _ => Leads.pure fun _ sound => sound
  exact addParameter_leads isOwner inOwner _ _ _ _

/-- The methods of a resource and of all below it keep a session sound. -/
theorem addMethods_leads {owner : String} (isOwner : owner ∈ owners) (interfacePath : String)
    (resource : Raml.Resource) : Leads (Sound configuration owners)
      (addMethods (interfaceOf configuration.basePackage owner) interfacePath resource)
        fun _ => Sound configuration owners := by
  rw [addMethods_eq_forM, ← loop_eq_forM]
  exact Leads.forIn fun entry _ => addMethod_leads isOwner interfacePath entry.1 entry.2

theorem isPlain_interfaceName (displayName : Option String) (relativePath : String) :
    IsPlain (interfaceName displayName relativePath) := by
  unfold interfaceName
  extract_lets source name
  by_cases empty : name.isEmpty = true
  · rw [if_pos empty]
    decide
  · rw [if_neg empty]
    exact isPlain_typeName source

theorem openInterface_leads (resource : Raml.Resource) : Leads (Sound configuration owners)
    (openInterface resource) fun owner session => ∃ name,
      Sound configuration (name :: owners) session ∧
        owner = interfaceOf configuration.basePackage name := by
  refine (createInterface_leads (isPlain_interfaceName _ _)).bind fun owner =>
    Leads.assuming fun isOwner => ?_
  have outermost : owner.inner = [] := by
    rw [isOwner]
    rfl
  have noted {owners : List String} : Leads (Sound configuration owners)
      (modify fun session : Session => { session with current := some owner })
      fun _ => Sound configuration owners :=
    Leads.modify fun _ sound => sound.congr rfl rfl rfl rfl
  refine noted.bind fun _ => ?_
  refine (annotate_platform_leads (.type owner) outermost ["javax.ws.rs.Path"] rfl
    (by decide)).bind fun _ => ?_
  refine (describe_leads resource.description fun _ _ =>
    growsModel_modifyTypeDoc outermost _).bind fun _ => ?_
  exact (report_leads _ _).bind fun _ => Leads.pure fun _ sound => ⟨_, sound, isOwner⟩

theorem buildInterface_leads (resource : Raml.Resource) : Leads (Sound configuration owners)
    (buildInterface resource) fun _ => Sound configuration owners := by
  refine (openInterface_leads resource).bind fun owner session result final holds ran => ?_
  obtain ⟨name, sound, rfl⟩ := holds
  have later := addMethods_leads List.mem_cons_self _ resource session result final sound ran
  exact { later with
    owned := fun other member => later.owned other (List.mem_cons_of_mem _ member) }

theorem buildInterfaces_leads (description : Raml.Description) :
    Leads (Sound configuration []) (buildInterfaces description)
      fun _ => Sound configuration [] :=
  (Leads.forIn fun resource _ => buildInterface_leads resource).bind fun _ =>
    Leads.pure fun _ sound => sound

/-- **The session in which the model of a description was built is sound.** -/
theorem buildModel_sound {description : Raml.Description}
    (built : buildModel configuration description = .ok session) :
    Sound configuration [] session :=
  (buildInterfaces_leads description).buildModel (sound_start configuration) built

end RamlInterfaces.Generation
