/-
**The limits of an integer parameter.**

A minimum or maximum that is declared becomes a floating-point number, and the bound that an
annotation has is the next integer inwards of that number.  Rounding inwards loses no integer, and
what is written as a floating-point number is its own value.  But an integer of more than 53 binary
digits is first rounded to the nearest floating-point number, which may lie outwards of it.

* `emitted`, `annotateConstraints_run`: **the annotations that are put on a site**;
* `Emits`, `emits_constraintMarks`: all of them are put, unless a limit is not finite;
* `MeetsMin`, `MeetsMax`, `meetsMin_iff`, `meetsMax_iff`: the integers that satisfy the annotations;
* `Becomes`, `becomes_of_givesField`: the number that a limit becomes;
* `IsAtLeast`, `IsAtMost`, `respects_iff_isKept`: the integers that satisfy what is declared;
* `integerLimits_exact_iff`: **the annotations say what is declared, except for an integer that is
  not representable**.
-/

import RamlInterfaces.Proofs.Generation.Declarations
import RamlInterfaces.Proofs.Raml.DeclaredLimits

namespace RamlInterfaces.Generation

open Java
open Raml (Succeeds extractParameter facetsOf parameterProblems DeclaresFinite HaveTexts
  LimitsInRange)

/-! ### The annotations that are put on a site -/

/-- The session after annotations are put on a site. -/
def Session.annotated (session : Session) (site : Site) (marks : List Annotation) : Session :=
  { session with model := marks.foldl (fun model mark => model.annotate site mark) session.model }

/-- The annotations are those for the constraints of a parameter, on whatever site they are put. -/
def Emits (p : Raml.Parameter) (marks : List Annotation) : Prop :=
  ∀ site session,
    (annotateConstraints p site).run session = (.ok (), Session.annotated session site marks)

variable {p : Raml.Parameter} {site : Site} {session : Session}

/-- The annotations that are put for constraints, one after the other; after one without a finite
bound there are no more. -/
def emitted : List Constraint → List Annotation
  | [] => []
  | c :: rest => constraintMark c :: if c.elements.isOk then emitted rest else []

theorem exists_of_mem_emitted {all : List Constraint} {mark : Annotation}
    (member : mark ∈ emitted all) : ∃ c ∈ all, mark = constraintMark c := by
  induction all with
  | nil => cases member
  | cons c rest ih =>
    unfold emitted at member
    rcases List.mem_cons.mp member with here | later
    · exact ⟨c, List.mem_cons_self, here⟩
    · split at later
      · obtain ⟨other, isOther, same⟩ := ih later
        exact ⟨other, List.mem_cons_of_mem c isOther, same⟩
      · cases later

/-- A constraint without a finite bound is put as well. -/
theorem annotateConstraint_run (c : Constraint) : (annotateConstraint site c).run session =
    (c.annotation.map fun _ => (), session.annotated site [constraintMark c]) := by
  unfold annotateConstraint Constraint.annotation constraintMark Session.annotated
  cases c.elements <;> rfl

/-- **The annotations for the constraints of a parameter are put on a site in their order**, up to
the first that cannot be made, and then annotating the site fails as that does. -/
theorem annotateConstraints_run (p : Raml.Parameter) (site : Site) (session : Session) :
    (annotateConstraints p site).run session =
      ((constraintAnnotations p).map fun _ => (),
        session.annotated site (emitted (constraints p))) := by
  unfold annotateConstraints constraintAnnotations
  rw [loop_eq_forM]
  induction constraints p generalizing session with
  | nil => rfl
  | cons c rest ih =>
    have first : (annotateConstraint site c).run session = _ := annotateConstraint_run c
    rw [List.mapM_cons, List.forM_cons, bind_assoc, emitted]
    cases made : c.elements with
    | error defect =>
      have refused : c.annotation = .error (.defect defect) := by
        unfold Constraint.annotation
        rw [made]
      rw [refused] at first ⊢
      exact run_bind_error _ first
    | ok elements =>
      have isMade : c.annotation = .ok { type := c.type, elements } := by
        unfold Constraint.annotation
        rw [made]
      rw [isMade] at first ⊢
      rw [run_bind_ok _ first, ih]
      cases rest.mapM Constraint.annotation <;> rfl

theorem exists_elements (finite : ¬ HasInfiniteLimit p) :
    ∀ c ∈ constraints p, ∃ elements, c.elements = .ok elements := by
  intro c member
  cases made : c.elements with
  | ok elements => exact ⟨elements, rfl⟩
  | error defect =>
    obtain ⟨-, bound, isLimit, infinite⟩ := elements_error_iff.mp made
    refine absurd (hasInfiniteLimit_iff.mpr ⟨bound, ?_, infinite⟩) finite
    rcases isLimit with rfl | rfl
    · exact .inl member
    · exact .inr member

/-- **All annotations of a parameter are made** and put, unless a limit is not finite. -/
theorem constraintAnnotations_eq_ok (finite : ¬ HasInfiniteLimit p) :
    constraintAnnotations p = .ok ((constraints p).map constraintMark) := by
  refine mapM_eq_ok_iff.mpr ?_
  rw [List.map_map]
  refine List.map_congr_left fun c member => ?_
  obtain ⟨elements, made⟩ := exists_elements finite c member
  simp [Constraint.annotation, constraintMark, made, Except.toOption]

theorem emitted_eq_map {all : List Constraint}
    (each : ∀ c ∈ all, ∃ elements, c.elements = .ok elements) :
    emitted all = all.map constraintMark := by
  induction all with
  | nil => rfl
  | cons c rest ih =>
    obtain ⟨⟨elements, made⟩, others⟩ := List.forall_mem_cons.mp each
    rw [emitted, made, ih others]
    rfl

theorem emits_constraintMarks (finite : ¬ HasInfiniteLimit p) :
    Emits p ((constraints p).map constraintMark) := by
  intro site session
  rw [annotateConstraints_run, constraintAnnotations_eq_ok finite,
    emitted_eq_map (exists_elements finite)]
  rfl

/-! ### The integers that satisfy the annotations -/

/-- Among the annotations there is one of a name with an integer as its value. -/
def HasBound (marks : List Annotation) (name : String) (bound : Int) : Prop :=
  ∃ mark ∈ marks, mark.type = .named ("javax.validation.constraints." ++ name) ∧
    ("value", ElementValue.scalar (.int bound)) ∈ mark.elements

/-- The integer is at least the minimum among the annotations, if there is one. -/
def MeetsMin (marks : List Annotation) (n : Int) : Prop :=
  ∀ bound, HasBound marks "Min" bound → bound ≤ n

/-- The integer is at most the maximum among the annotations, if there is one. -/
def MeetsMax (marks : List Annotation) (n : Int) : Prop :=
  ∀ bound, HasBound marks "Max" bound → n ≤ bound

/-- The parameter is an integer, neither of an enum nor repeated. -/
structure IsSingleInteger (p : Raml.Parameter) : Prop where
  kind : p.kind = some "integer"
  noEnum : hasEnum p = false
  single : p.repeated = false

theorem constraints_of_singleInteger (integer : IsSingleInteger p) : constraints p =
    (if p.required && p.default.isNone then [.notNull] else []) ++
      ((p.minimum.map .min).toList ++ (p.maximum.map .max).toList) := by
  unfold constraints kindConstraints
  rw [integer.noEnum, integer.single, integer.kind]
  rfl

theorem mem_boundElements_iff {bound : Option Int} {n : Int} :
    ("value", ElementValue.scalar (.int n)) ∈ (boundElements bound).toOption.getD [] ↔
      bound = some n := by
  cases bound with
  | none => simp [boundElements, Except.toOption]
  | some m => simp [boundElements, Except.toOption, eq_comm]

/-- The annotation for a constraint tells its simple name. -/
theorem constraintMark_type_iff {c : Constraint} {name : String} :
    (constraintMark c).type = .named ("javax.validation.constraints." ++ name) ↔
      c.simpleName = name := by
  simp [constraintMark, Constraint.type]

theorem hasBound_iff {all : List Constraint} {name : String} {bound : Int} :
    HasBound (all.map constraintMark) name bound ↔ ∃ c ∈ all, c.simpleName = name ∧
      ("value", ElementValue.scalar (.int bound)) ∈ (constraintMark c).elements := by
  unfold HasBound
  simp only [List.mem_map, exists_exists_and_eq_and, constraintMark_type_iff]

/-- The constraints of one kind have the bounds that a limit is rounded to. -/
theorem hasBound_iff_of_kind {name : String} {wrap : Binary64 → Constraint}
    {rounded : Binary64 → Option Int} {limit : Option Binary64} {bound : Int}
    (elements : ∀ x, (wrap x).elements = boundElements (rounded x))
    (kind : ∀ c : Constraint, c.simpleName = name ↔ ∃ x, c = wrap x)
    (isLimit : ∀ x, wrap x ∈ constraints p ↔ limit = some x) :
    HasBound ((constraints p).map constraintMark) name bound ↔ limit.bind rounded = some bound := by
  have isBound (x : Binary64) :
      ("value", ElementValue.scalar (.int bound)) ∈ (constraintMark (wrap x)).elements ↔
        rounded x = some bound := by
    unfold constraintMark
    rw [elements, mem_boundElements_iff]
  rw [hasBound_iff, Option.bind_eq_some_iff]
  constructor
  · rintro ⟨c, member, named, hasBound⟩
    obtain ⟨x, rfl⟩ := (kind c).mp named
    exact ⟨x, (isLimit x).mp member, (isBound x).mp hasBound⟩
  · rintro ⟨x, same, isRounded⟩
    exact ⟨wrap x, (isLimit x).mpr same, (kind _).mpr ⟨x, rfl⟩, (isBound x).mpr isRounded⟩

/-- **A minimum is rounded upwards, which loses no integer.** -/
theorem meetsMin_iff (integer : IsSingleInteger p) {n : Int} :
    MeetsMin ((constraints p).map constraintMark) n ↔
      ∀ exactly, p.minimum.bind Binary64.value? = some exactly → exactly ≤ n := by
  have isLimit (x : Binary64) : .min x ∈ constraints p ↔ p.minimum = some x := by
    rw [constraints_of_singleInteger integer]
    split <;> simp
  have isBound (bound : Int) : HasBound ((constraints p).map constraintMark) "Min" bound ↔
      p.minimum.bind Binary64.ceil? = some bound :=
    hasBound_iff_of_kind (fun _ => rfl) (fun c => by cases c <;> simp [Constraint.simpleName])
      isLimit
  unfold MeetsMin
  simp only [isBound]
  cases p.minimum with
  | none => simp
  | some x => simp [Binary64.ceil?_eq, Int.ceil_le]

/-- **A maximum is rounded downwards, which loses no integer.** -/
theorem meetsMax_iff (integer : IsSingleInteger p) {n : Int} :
    MeetsMax ((constraints p).map constraintMark) n ↔
      ∀ exactly, p.maximum.bind Binary64.value? = some exactly → n ≤ exactly := by
  have isLimit (x : Binary64) : .max x ∈ constraints p ↔ p.maximum = some x := by
    rw [constraints_of_singleInteger integer]
    split <;> simp
  have isBound (bound : Int) : HasBound ((constraints p).map constraintMark) "Max" bound ↔
      p.maximum.bind Binary64.floor? = some bound :=
    hasBound_iff_of_kind (fun _ => rfl) (fun c => by cases c <;> simp [Constraint.simpleName])
      isLimit
  unfold MeetsMax
  simp only [isBound]
  cases p.maximum with
  | none => simp
  | some x => simp [Binary64.floor?_eq, Int.le_floor]

/-! ### What a limit becomes -/

/-- What a declared limit becomes: a floating-point number as it is, or the number nearest to an
integer. -/
inductive Becomes : Value → Option Binary64 → Prop where
  | nothing : Becomes .null none
  | whole {n : Int} {x : Binary64} (nearest : x.value? = some (Binary64.nearestInt n : ℚ)) :
    Becomes (.scalar (.int n)) (some x)
  | float {x : Binary64} {exactly : ℚ} (isFinite : x.value? = some exactly) :
    Becomes (.scalar (.float x)) (some x)

theorem becomes_of_givesField {value : Value} {limit : Option Binary64}
    (gives : Raml.GivesField Raml.coerceNumber value limit) (finite : Raml.IsFiniteLimit value) :
    Becomes value limit := by
  cases finite with
  | nothing =>
    cases gives with
    | nothing => exact .nothing
    | fitted something => cases something
  | whole =>
    cases gives with
    | nothing isNull => cases isNull
    | fitted something fits =>
      unfold Raml.coerceNumber at fits
      dsimp only at fits
      split at fits
      · cases fits
      · rename_i bounded
        cases fits
        exact .whole (Binary64.value?_ofInt bounded)
  | float isFinite =>
    cases gives with
    | nothing isNull => cases isNull
    | fitted something fits =>
      cases fits
      exact .float isFinite

theorem Becomes.isFinite {value : Value} {limit : Option Binary64} (becomes : Becomes value limit)
    {x : Binary64} (isLimit : limit = some x) : isFinite x = true := by
  have exactly : ∃ exactly, x.value? = some exactly := by
    cases becomes with
    | nothing => cases isLimit
    | whole nearest => exact ⟨_, Option.some.inj isLimit ▸ nearest⟩
    | float isFinite => exact ⟨_, Option.some.inj isLimit ▸ isFinite⟩
  obtain ⟨_, isValue⟩ := exactly
  cases x with
  | finite => rfl
  | _ => cases isValue

/-- A parameter whose declared limits are finite has no limit that is not. -/
theorem not_hasInfiniteLimit {value : Value} {requiredDefault : Bool}
    (finite : DeclaresFinite (facetsOf value))
    (extracted : extractParameter requiredDefault value = .ok p) : ¬ HasInfiniteLimit p := by
  have limits := Raml.limits_of_extractParameter extracted
  rintro ⟨-, -, -, x, isMinimum | isMaximum, infinite⟩
  · have becomes := becomes_of_givesField limits.minimum finite.minimum
    cases (becomes.isFinite isMinimum).symm.trans infinite
  · have becomes := becomes_of_givesField limits.maximum finite.maximum
    cases (becomes.isFinite isMaximum).symm.trans infinite

/-! ### What is declared -/

/-- The number that a limit declares, exactly. -/
def declared? : Value → Option ℚ
  | .scalar (.int n) => some n
  | .scalar (.float x) => x.value?
  | _ => none

/-- The limit is not an integer that the nearest floating-point number differs from. -/
def IsKept : Value → Prop
  | .scalar (.int n) => Binary64.IsRepresentable n
  | _ => True

/-- The integer is on its side of a limit, if there is one. -/
def Respects (side : ℚ → Int → Prop) (limit : Option ℚ) (n : Int) : Prop :=
  ∀ bound, limit = some bound → side bound n

/-- The integer is at least what is declared, if anything is. -/
def IsAtLeast (limit : Value) (n : Int) : Prop :=
  Respects (fun bound n => bound ≤ n) (declared? limit) n

/-- The integer is at most what is declared, if anything is. -/
def IsAtMost (limit : Value) (n : Int) : Prop :=
  Respects (fun bound n => n ≤ bound) (declared? limit) n

/-- **What a limit becomes says what is declared exactly when the limit is kept**, on both sides. -/
theorem respects_iff_isKept {side : ℚ → Int → Prop} {value : Value} {limit : Option Binary64}
    (determines : ∀ a b : Int, (∀ n, side a n ↔ side b n) → a = b) (becomes : Becomes value limit) :
    (∀ n, Respects side (limit.bind Binary64.value?) n ↔ Respects side (declared? value) n) ↔
      IsKept value := by
  cases becomes with
  | nothing => exact iff_of_true (fun n => Iff.rfl) trivial
  | float isFinite => exact iff_of_true (fun n => Iff.rfl) trivial
  | @whole m x nearest =>
    have single (bound : ℚ) (n : Int) : Respects side (some bound) n ↔ side bound n := by
      simp [Respects]
    rw [Option.bind_some, nearest]
    show _ ↔ Binary64.IsRepresentable m
    rw [← Binary64.nearestInt_eq_self_iff]
    simp only [declared?, single]
    exact ⟨determines _ _, fun same n => by rw [same]⟩

/-- **The annotations say what is declared, except for an integer that is not representable.**  A
declaration without problems makes a parameter if its limits are in the range of floating-point
numbers and what is written of it has a text.  The parameter of an integer whose limits are finite
gets its annotations, and an integer satisfies the minimum and the maximum among them exactly when
it satisfies those that are declared, unless the nearest floating-point number differs from an
integer that is declared. -/
theorem integerLimits_exact_iff {value : Value} (finite : DeclaresFinite (facetsOf value))
    (requiredDefault : Bool) :
    (∀ path, parameterProblems path value = .ok [] → LimitsInRange (facetsOf value) →
      HaveTexts (facetsOf value) → Succeeds (extractParameter requiredDefault value)) ∧
      ∀ p, extractParameter requiredDefault value = .ok p → IsSingleInteger p →
        ∃ marks, Emits p marks ∧
          ((∀ n, MeetsMin marks n ↔ IsAtLeast ((facetsOf value).get "minimum") n) ↔
            IsKept ((facetsOf value).get "minimum")) ∧
          ((∀ n, MeetsMax marks n ↔ IsAtMost ((facetsOf value).get "maximum") n) ↔
            IsKept ((facetsOf value).get "maximum")) := by
  refine ⟨fun path valid inRange texts =>
    Raml.succeeds_of_problems valid inRange texts requiredDefault, ?_⟩
  intro p extracted integer
  have limits := Raml.limits_of_extractParameter extracted
  have minimum := becomes_of_givesField limits.minimum finite.minimum
  have maximum := becomes_of_givesField limits.maximum finite.maximum
  refine ⟨_, emits_constraintMarks (not_hasInfiniteLimit finite extracted), ?_, ?_⟩
  · simp only [meetsMin_iff integer]
    refine respects_iff_isKept (fun a b same => ?_) minimum
    exact le_antisymm (Int.cast_le.mp ((same b).mpr le_rfl)) (Int.cast_le.mp ((same a).mp le_rfl))
  · simp only [meetsMax_iff integer]
    refine respects_iff_isKept (fun a b same => ?_) maximum
    exact le_antisymm (Int.cast_le.mp ((same a).mp le_rfl)) (Int.cast_le.mp ((same b).mpr le_rfl))

/-- A page size from one to a hundred and a half. -/
def pageSize : Value :=
  .map [(.text "type", .text "integer"), (.text "minimum", .scalar (.int 1)),
    (.text "maximum", .scalar (.float (Binary64.ofRatio false 201 2)))]

theorem integerLimits_pageSize : DeclaresFinite (facetsOf pageSize) ∧
    ∃ p marks, extractParameter false pageSize = .ok p ∧ IsSingleInteger p ∧ Emits p marks ∧
      (∀ n, MeetsMin marks n ↔ IsAtLeast (.scalar (.int 1)) n) ∧
        ∀ n, MeetsMax marks n ↔ IsAtMost (.scalar (.float (Binary64.ofRatio false 201 2))) n := by
  have half : Binary64.ofRatio false 201 2 = .finite false 7072058789855232 (-46) := by
    decide +kernel
  have value : (Binary64.ofRatio false 201 2).value? = some (201 / 2 : ℚ) := by
    rw [half]
    norm_num [Binary64.value?, Binary64.signed]
  have finite : DeclaresFinite (facetsOf pageSize) := ⟨.whole, .float value⟩
  let p : Raml.Parameter :=
    { kind := some "integer", minimum := some (Binary64.ofInt 1)
      maximum := some (Binary64.ofRatio false 201 2) }
  have extracted : extractParameter false pageSize = .ok p := by rfl
  have integer : IsSingleInteger p := ⟨rfl, rfl, rfl⟩
  obtain ⟨-, each⟩ := integerLimits_exact_iff finite false
  obtain ⟨marks, emits, minimum, maximum⟩ := each p extracted integer
  exact ⟨finite, p, marks, extracted, integer, emits,
    minimum.mpr (Binary64.isRepresentable_of_le (by decide)), maximum.mpr trivial⟩

/-- A least number just above the odd numbers that are representable. -/
def oddLimit : Value :=
  .map [(.text "type", .text "integer"), (.text "minimum", .scalar (.int 9007199254740993))]

/-- **A minimum is rounded outwards where it is not representable**: the annotation admits an
integer below it. -/
theorem minimum_outwards : parameterProblems "n" oddLimit = .ok [] ∧
    ∃ p marks, extractParameter false oddLimit = .ok p ∧ IsSingleInteger p ∧ Emits p marks ∧
      MeetsMin marks 9007199254740992 ∧
        ¬ IsAtLeast ((facetsOf oddLimit).get "minimum") 9007199254740992 := by
  let p : Raml.Parameter :=
    { kind := some "integer", minimum := some (.finite false 4503599627370496 1) }
  have valid : parameterProblems "n" oddLimit = .ok [] := by decide +kernel
  have extracted : extractParameter false oddLimit = .ok p := by rfl
  have integer : IsSingleInteger p := ⟨rfl, rfl, rfl⟩
  have finite : DeclaresFinite (facetsOf oddLimit) := ⟨.whole, .nothing⟩
  refine ⟨valid, p, _, extracted, integer,
    emits_constraintMarks (not_hasInfiniteLimit finite extracted), ?_, ?_⟩
  · refine (meetsMin_iff integer).mpr fun exactly same => ?_
    cases same
    norm_num [Binary64.signed]
  · intro above
    have admitted : ((9007199254740993 : Int) : ℚ) ≤ (9007199254740992 : Int) := above _ rfl
    exact absurd (Int.cast_le.mp admitted) (by decide)

end RamlInterfaces.Generation
