/-
**Limits that are not finite.**

The annotation with the limit of an integer has no element where the limit is an infinity or no
number.  This is the one way in which building fails other than by a refusal of the model.

* `HasInfiniteLimit`: an integer with such a limit;
* `constrain_fails_iff`: the constraints of a parameter fail exactly for such a limit;
* `ComesToParameter`: the parameters that building comes to;
* `buildModel_error`, `buildModel_defect_iff`: **what building fails with, and when it fails for
  such a limit**.
-/

import RamlInterfaces.Proofs.Generation.Failures
import RamlInterfaces.Proofs.Generation.Soundness

namespace RamlInterfaces.Generation

open Java
open Settings (Configuration)

variable {session : Session} {failure : Failure}

/-! ### Limits that are not finite -/

/-- The number is neither infinite nor none. -/
def isFinite : Binary64 → Bool
  | .finite _ _ _ => true
  | .nan | .infinite _ => false

theorem ceil?_eq_none_iff {bound : Binary64} : bound.ceil? = none ↔ isFinite bound = false := by
  cases bound with
  | finite negative significand exponent =>
    unfold Binary64.ceil? isFinite
    simp only
    split <;> simp
  | _ => exact iff_of_true rfl rfl

theorem floor?_eq_none_iff {bound : Binary64} : bound.floor? = none ↔ isFinite bound = false := by
  cases bound with
  | finite negative significand exponent =>
    unfold Binary64.floor? isFinite
    simp only
    split <;> simp
  | _ => exact iff_of_true rfl rfl

/-- The parameter is a single integer with a limit that is not finite. -/
def HasInfiniteLimit (p : Raml.Parameter) : Prop :=
  hasEnum p = false ∧ p.repeated = false ∧ p.kind = some "integer" ∧
    ∃ bound, (p.minimum = some bound ∨ p.maximum = some bound) ∧ isFinite bound = false

theorem boundElements_error_iff {bound : Option Int} {defect : Defect} :
    boundElements bound = .error defect ↔ bound = none ∧ defect = .unboundedLimit := by
  cases bound with
  | none => simp [boundElements, eq_comm]
  | some n => simp [boundElements]

/-- A constraint has no annotation exactly when it is a limit that is not finite. -/
theorem elements_error_iff {c : Constraint} {defect : Defect} : c.elements = .error defect ↔
    defect = .unboundedLimit ∧ ∃ bound, (c = .min bound ∨ c = .max bound) ∧
      isFinite bound = false := by
  cases c with
  | min bound => simp [Constraint.elements, boundElements_error_iff, ceil?_eq_none_iff, and_comm]
  | max bound => simp [Constraint.elements, boundElements_error_iff, floor?_eq_none_iff, and_comm]
  | _ => simp [Constraint.elements]

/-- The limits of an integer are among the constraints of its kind. -/
theorem mem_kindConstraints_iff {p : Raml.Parameter} {bound : Binary64} :
    (.min bound ∈ kindConstraints p ∨ .max bound ∈ kindConstraints p) ↔
      p.kind = some "integer" ∧ (p.minimum = some bound ∨ p.maximum = some bound) := by
  have text : .min bound ∉ textConstraints p ∧ .max bound ∉ textConstraints p := by
    unfold textConstraints
    cases p.pattern with
    | none => split <;> simp
    | some expression => split <;> by_cases empty : expression.isEmpty = true <;> simp [empty]
  unfold kindConstraints
  split
  · rename_i undeclared
    simp [text, undeclared]
  · rename_i isString
    simp [text, isString]
  · rename_i isInteger
    simp [isInteger]
  · rename_i isNumber
    simp [isNumber]
  · rename_i other _ notInteger _ isOther
    simpa [isOther] using fun same => (notInteger same).elim

/-- The limits of a single integer are among its constraints. -/
theorem mem_constraints_iff {p : Raml.Parameter} {bound : Binary64} :
    (.min bound ∈ constraints p ∨ .max bound ∈ constraints p) ↔
      hasEnum p = false ∧ p.repeated = false ∧ p.kind = some "integer" ∧
        (p.minimum = some bound ∨ p.maximum = some bound) := by
  have required (c : Constraint) (other : c ≠ .notNull) : c ∈ constraints p ↔
      hasEnum p = false ∧ p.repeated = false ∧ c ∈ kindConstraints p := by
    unfold constraints
    by_cases needed : (p.required && p.default.isNone) = true <;>
      cases hasEnum p <;> cases p.repeated <;> simp [needed, other]
  rw [required _ (by simp), required _ (by simp), ← mem_kindConstraints_iff]
  constructor
  · rintro (⟨noEnum, single, limit⟩ | ⟨noEnum, single, limit⟩)
    · exact ⟨noEnum, single, .inl limit⟩
    · exact ⟨noEnum, single, .inr limit⟩
  · rintro ⟨noEnum, single, limit | limit⟩
    · exact .inl ⟨noEnum, single, limit⟩
    · exact .inr ⟨noEnum, single, limit⟩

theorem hasInfiniteLimit_iff {p : Raml.Parameter} : HasInfiniteLimit p ↔
    ∃ bound, (.min bound ∈ constraints p ∨ .max bound ∈ constraints p) ∧
      isFinite bound = false := by
  constructor
  · rintro ⟨noEnum, single, isInteger, bound, limit, infinite⟩
    exact ⟨bound, mem_constraints_iff.mpr ⟨noEnum, single, isInteger, limit⟩, infinite⟩
  · rintro ⟨bound, member, infinite⟩
    obtain ⟨noEnum, single, isInteger, limit⟩ := mem_constraints_iff.mp member
    exact ⟨noEnum, single, isInteger, bound, limit, infinite⟩

theorem annotateConstraint_fails_iff {site : Site} {c : Constraint} :
    Fails (annotateConstraint site c) session failure ↔ failure = .defect .unboundedLimit ∧
      ∃ bound, (c = .min bound ∨ c = .max bound) ∧ isFinite bound = false := by
  unfold annotateConstraint
  split
  · rename_i elements made
    refine iff_of_false (fun failed => ?_) ?_
    · cases failed
    · rintro ⟨_, infinite⟩
      rw [elements_error_iff.mpr ⟨rfl, infinite⟩] at made
      cases made
  · rename_i defect made
    obtain ⟨rfl, infinite⟩ := elements_error_iff.mp made
    constructor
    · intro failed
      cases failed
      exact ⟨rfl, infinite⟩
    · rintro ⟨rfl, _⟩
      rfl

/-- **The constraints of a parameter fail exactly where they are wanted and a limit is not
finite.** -/
theorem constrain_fails_iff {p : Raml.Parameter} {site : Site} :
    Fails (constrain p site) session failure ↔ session.configuration.constraints = true ∧
      failure = .defect .unboundedLimit ∧ HasInfiniteLimit p := by
  have loop : Fails (annotateConstraints p site) session failure ↔
      failure = .defect .unboundedLimit ∧ HasInfiniteLimit p := by
    unfold annotateConstraints
    rw [fails_bind_last_iff fun _ => FailsOnly.pure _, forIn_fails_iff, hasInfiniteLimit_iff]
    constructor
    · rintro ⟨c, there, arrives, failed⟩
      obtain ⟨same, bound, limit, infinite⟩ := annotateConstraint_fails_iff.mp failed
      refine ⟨same, bound, ?_, infinite⟩
      rcases limit with rfl | rfl
      · exact .inl arrives.mem
      · exact .inr arrives.mem
    · rintro ⟨rfl, bound, member, infinite⟩
      obtain ⟨c, isLimit, member⟩ : ∃ c : Constraint, (c = .min bound ∨ c = .max bound) ∧
          c ∈ constraints p := by
        rcases member with least | greatest
        · exact ⟨_, .inl rfl, least⟩
        · exact ⟨_, .inr rfl, greatest⟩
      have each : ∀ session, ∃ failure, Fails (annotateConstraint site c) session failure :=
        fun _ => ⟨_, annotateConstraint_fails_iff.mpr ⟨rfl, bound, isLimit, infinite⟩⟩
      obtain ⟨other, there, failure, arrives, failed⟩ := exists_arrives_of_fails member each
      obtain ⟨rfl, _⟩ := annotateConstraint_fails_iff.mp failed
      exact ⟨other, there, arrives, failed⟩
  have either : Fails (constrain p site) session failure ↔
      Fails (if session.configuration.constraints then annotateConstraints p site else pure ())
        session failure := Iff.rfl
  rw [either]
  split
  · rename_i wanted
    rw [loop, wanted]
    simp
  · rename_i unwanted
    refine iff_of_false (fun failed => ?_) fun wanted => unwanted wanted.1
    cases failed

/-! ### What building comes to -/

/-- The building of a description comes to a parameter: the interfaces, methods and parameters
before it are built, those that it stands in are opened, and it is declared itself, which leaves the
given session. -/
inductive ComesToParameter (configuration : Configuration) (description : Raml.Description)
    (p : Raml.Parameter) (session : Session) : Prop where
  | intro {resource below : Raml.Resource} {action : Raml.Action} {location : Location}
    {key : String} {owner : TypePath} {method : MethodPath} {declared : String × ParameterPath}
    {first second third fourth fifth : Session}
    (interface : Arrives buildInterface description.resources { configuration } resource first)
    (opened : (openInterface resource).run first = (.ok owner, second))
    (inInterface : Arrives (methodRound owner (interfacePath resource.relativePath))
      (actionsFrom resource) second (below, action) third)
    (openedMethod : (openMethod owner (interfacePath resource.relativePath) action).run third =
      (.ok method, fourth))
    (inMethod : Arrives (parameterRound owner method (actionName action))
      (actionParameters below action) fourth (location, key, p) fifth)
    (isDeclared : (declareParameter owner method (actionName action) location key p).run fifth =
      (.ok declared, session))

theorem addMethods_fails_iff {owner : TypePath} {path : String} {resource : Raml.Resource} :
    Fails (addMethods owner path resource) session failure ↔
      ∃ entry there, Arrives (methodRound owner path) (actionsFrom resource) session entry there ∧
        Fails (methodRound owner path entry) there failure := by
  rw [addMethods_eq_forM, ← loop_eq_forM, forIn_fails_iff]

theorem addMethod_fails_iff {owner : TypePath} {path : String} {resource : Raml.Resource}
    {action : Raml.Action} {cause : Defect} :
    Fails (addMethod owner path resource action) session (.defect cause) ↔
      ∃ method middle entry there, (openMethod owner path action).run session =
          (.ok method, middle) ∧
        Arrives (parameterRound owner method (actionName action))
          (actionParameters resource action) middle entry there ∧
        Fails (parameterRound owner method (actionName action) entry) there (.defect cause) := by
  unfold addMethod
  rw [(openMethod_refuses owner path action).fails_bind_iff]
  constructor
  · rintro ⟨method, middle, opened, failed⟩
    rw [fails_bind_last_iff fun _ => FailsOnly.pure _] at failed
    obtain ⟨entry, there, arrives, failed⟩ := forIn_fails_iff.mp failed
    exact ⟨method, middle, entry, there, opened, arrives, failed⟩
  · rintro ⟨method, middle, entry, there, opened, arrives, failed⟩
    refine ⟨method, middle, opened, ?_⟩
    rw [fails_bind_last_iff fun _ => FailsOnly.pure _]
    exact forIn_fails_iff.mpr ⟨entry, there, arrives, failed⟩

theorem addParameter_fails_iff {owner : TypePath} {method : MethodPath} {methodName : String}
    {location : Location} {key : String} {p : Raml.Parameter} {cause : Defect} :
    Fails (addParameter owner method methodName location key p) session (.defect cause) ↔
      ∃ declared middle, (declareParameter owner method methodName location key p).run session =
          (.ok declared, middle) ∧
        middle.configuration.constraints = true ∧ cause = .unboundedLimit ∧
          HasInfiniteLimit p := by
  unfold addParameter
  rw [(declareParameter_refuses owner method methodName location key p).fails_bind_iff]
  have tail (declared : String × ParameterPath) (middle : Session) :
      Fails (do
        constrain p (.parameter declared.2)
        Build.change fun model =>
          model.modifyMethodDoc method (·.addTag declared.1 (parameterDoc p))) middle
        (.defect cause) ↔ middle.configuration.constraints = true ∧ cause = .unboundedLimit ∧
          HasInfiniteLimit p := by
    rw [fails_bind_last_iff fun _ => FailsOnly.change _, constrain_fails_iff]
    simp
  constructor
  · rintro ⟨declared, middle, isDeclared, failed⟩
    exact ⟨declared, middle, isDeclared, (tail declared middle).mp failed⟩
  · rintro ⟨declared, middle, isDeclared, infinite⟩
    exact ⟨declared, middle, isDeclared, (tail declared middle).mpr infinite⟩

/-! ### The building of a description -/

variable {configuration : Configuration} {description : Raml.Description}

/-- Building goes on under the configuration that it starts with. -/
theorem ComesToParameter.settings {p : Raml.Parameter}
    (comes : ComesToParameter configuration description p session) :
    session.configuration = configuration := by
  obtain @⟨_, _, _, _, _, _, _, _, first, second, third, fourth, fifth, interface, opened,
    inInterface, openedMethod, inMethod, isDeclared⟩ := comes
  have atInterface : Sound configuration [] first :=
    interface.keeps buildInterface_leads (sound_start configuration)
  obtain ⟨name, inside, rfl⟩ := openInterface_leads _ _ _ _ atInterface opened
  have isOwner : name ∈ [name] := List.mem_cons_self
  have atMethod : Sound configuration [name] third := by
    refine inInterface.keeps (fun entry => ?_) inside
    exact addMethod_leads isOwner _ entry.1 entry.2
  obtain ⟨inside, place⟩ := openMethod_leads _ _ _ _ _ _ atMethod openedMethod
  have atParameter : Sound configuration [name] fifth := by
    refine inMethod.keeps (fun entry => ?_) inside
    exact addParameter_leads isOwner place _ entry.1 entry.2.1 entry.2.2
  obtain ⟨sound, _⟩ :=
    declareParameter_leads isOwner place _ _ _ _ _ _ _ atParameter isDeclared
  exact sound.settings

/-- **Building fails otherwise than by a refusal exactly when constraints are wanted and it comes to
an integer with a limit that is not finite.** -/
theorem buildInterfaces_fails_iff {cause : Defect} :
    Fails (buildInterfaces description) { configuration } (.defect cause) ↔
      configuration.constraints = true ∧ cause = .unboundedLimit ∧
        ∃ p session, ComesToParameter configuration description p session ∧
          HasInfiniteLimit p := by
  unfold buildInterfaces
  rw [fails_bind_last_iff fun _ => FailsOnly.pure _, forIn_fails_iff]
  constructor
  · rintro ⟨resource, first, interface, failed⟩
    obtain ⟨owner, second, opened, failed⟩ :=
      (openInterface_refuses resource).fails_bind_iff.mp failed
    obtain ⟨⟨below, action⟩, third, inInterface, failed⟩ := addMethods_fails_iff.mp failed
    obtain ⟨method, fourth, ⟨location, key, p⟩, fifth, openedMethod, inMethod, failed⟩ :=
      addMethod_fails_iff.mp failed
    obtain ⟨declared, session, isDeclared, wanted, rfl, infinite⟩ :=
      addParameter_fails_iff.mp failed
    have comes : ComesToParameter configuration description p session :=
      ⟨interface, opened, inInterface, openedMethod, inMethod, isDeclared⟩
    rw [comes.settings] at wanted
    exact ⟨wanted, rfl, p, session, comes, infinite⟩
  · rintro ⟨wanted, rfl, p, session, comes, infinite⟩
    rw [← comes.settings] at wanted
    obtain ⟨interface, opened, inInterface, openedMethod, inMethod, isDeclared⟩ := comes
    refine ⟨_, _, interface, (openInterface_refuses _).fails_bind_iff.mpr ⟨_, _, opened, ?_⟩⟩
    refine addMethods_fails_iff.mpr ⟨_, _, inInterface, ?_⟩
    refine addMethod_fails_iff.mpr ⟨_, _, _, _, openedMethod, inMethod, ?_⟩
    exact addParameter_fails_iff.mpr ⟨_, _, isDeclared, wanted, rfl, infinite⟩

/-- The model refuses, or the limit of an integer is not finite. -/
def IsRefusalOrLimit (failure : Failure) : Prop :=
  IsRefusal failure ∨ failure = .defect .unboundedLimit

theorem addParameter_failsOnly (owner : TypePath) (method : MethodPath) (methodName : String)
    (location : Location) (key : String) (p : Raml.Parameter) :
    FailsOnly IsRefusalOrLimit (addParameter owner method methodName location key p) := by
  refine ((declareParameter_refuses _ _ _ _ _ _).mono fun _ => .inl).bind fun declared => ?_
  refine FailsOnly.bind (fun session failure failed => ?_) fun _ => FailsOnly.change _
  exact .inr (constrain_fails_iff.mp failed).2.1

/-- **Building fails only with refusals and for want of a finite limit.** -/
theorem buildInterfaces_failsOnly (description : Raml.Description) :
    FailsOnly IsRefusalOrLimit (buildInterfaces description) :=
  (stepwise_failsOnly fun failure refused => .inl (refused.isRefusal failure)).buildInterfaces
    addParameter_failsOnly description

theorem buildModel_eq_error_iff (based : configuration.basePackage.isEmpty = false) :
    buildModel configuration description = .error failure ↔
      Fails (buildInterfaces description) { configuration } failure := by
  unfold buildModel Session.start Fails
  rw [based]
  cases ran : (buildInterfaces description).run { configuration } with
  | mk result session => cases result <;> simp [ran, bind, Except.bind]

/-- **A model that cannot be built is refused, or asks for a limit that is not finite.** -/
theorem buildModel_error (based : configuration.basePackage.isEmpty = false)
    (failed : buildModel configuration description = .error failure) : IsRefusalOrLimit failure :=
  buildInterfaces_failsOnly description _ _ ((buildModel_eq_error_iff based).mp failed)

/-- **A model fails otherwise than by a refusal exactly when constraints are wanted and building
comes to an integer with a limit that is not finite.** -/
theorem buildModel_defect_iff (based : configuration.basePackage.isEmpty = false) :
    (∃ cause, buildModel configuration description = .error (.defect cause)) ↔
      configuration.constraints = true ∧ ∃ p session,
        ComesToParameter configuration description p session ∧ HasInfiniteLimit p := by
  simp only [buildModel_eq_error_iff based, buildInterfaces_fails_iff]
  constructor
  · rintro ⟨cause, wanted, _, reached⟩
    exact ⟨wanted, reached⟩
  · rintro ⟨wanted, reached⟩
    exact ⟨.unboundedLimit, wanted, rfl, reached⟩

end RamlInterfaces.Generation
