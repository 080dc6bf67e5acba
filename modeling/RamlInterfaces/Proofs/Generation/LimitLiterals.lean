/-
**The literals of limits.**

The lengths of a text are elements of type `int`, and the limits of an integer are elements of type
`long`.  Both are written with a suffix from a magnitude on, whatever the type of the element, so a
length of 32 bits or more is written as a `long`, and a limit beyond 64 bits as a literal that is
too large.  All other literals are legal.

* `elementType?`, `IsLegalMark`: the types of elements, and annotations with legal literals;
* `LegalBounds`, `isLegalMark_iff`: the constraints whose annotations are legal;
* `FitsLong`, `forall_admits_iff_fitsLong`: the declared limits that fit when they are rounded;
* `FitDeclared`, `limitLiterals_legal_iff`: **all literals are legal exactly when the lengths and
  limits that are declared fit**.
-/

import RamlInterfaces.Java.Source
import RamlInterfaces.Proofs.Generation.IntegerLimits
import RamlInterfaces.Proofs.Java.IntegerLiteral

namespace RamlInterfaces.Generation

open Java
open Raml (Succeeds extractParameter facetsOf parameterProblems DeclaresFinite HaveTexts
  LimitsInRange)

/-! ### Legal annotations -/

/-- The type of an element of an annotation for a constraint, if it is one of integers. -/
def elementType? : String → String → Option IntegerType
  | "Size", "min" | "Size", "max" => some .int
  | "Min", "value" | "Max", "value" => some .long
  | _, _ => none

/-- Every integer in the annotation is rendered as a literal that is legal for its element. -/
def IsLegalMark (mark : Annotation) : Prop :=
  ∀ element n, (element, ElementValue.scalar (.int n)) ∈ mark.elements →
    ∃ name type text, mark.type = .named ("javax.validation.constraints." ++ name) ∧
      elementType? name element = some type ∧ renderValue (.scalar (.int n)) = pure text ∧
        Takes type text n

/-- The bounds of a constraint fit the types of their elements. -/
def LegalBounds : Constraint → Prop
  | .size least greatest =>
    (∀ n, least = some n → IntegerType.int.Admits n) ∧
      ∀ n, greatest = some n → IntegerType.int.Admits n
  | .min bound => ∀ n, bound.ceil? = some n → IntegerType.long.Admits n
  | .max bound => ∀ n, bound.floor? = some n → IntegerType.long.Admits n
  | _ => True

variable {p : Raml.Parameter} {value : Value}

theorem renderValue_int_iff {n : Int} {text : List Char} :
    renderValue (.scalar (.int n)) = pure text ↔ integerLiteral? n = some text := by
  rw [renderValue, scalarLiteral?]
  cases integerLiteral? n with
  | none =>
    refine iff_of_false (fun rendered => ?_) (fun same => ?_)
    · cases congrFun rendered ⟨"", "", [], []⟩
    · cases same
  | some other =>
    constructor
    · intro rendered
      have ran : Except.ok (other, _) = Except.ok (text, _) :=
        congrFun rendered ⟨"", "", [], []⟩
      rw [(Prod.mk.inj (Except.ok.inj ran)).1]
    · rintro ⟨⟩
      rfl

theorem isLegalMark_constraintMark_iff {c : Constraint} : IsLegalMark (constraintMark c) ↔
    ∀ element n, (element, ElementValue.scalar (.int n)) ∈ (constraintMark c).elements →
      ∃ type, elementType? c.simpleName element = some type ∧ type.Admits n := by
  have named (name : String) : (constraintMark c).type =
      .named ("javax.validation.constraints." ++ name) ↔ c.simpleName = name := by
    simp [constraintMark, Constraint.type]
  unfold IsLegalMark
  refine forall_congr' fun element => forall_congr' fun n => imp_congr_right fun _ => ?_
  simp only [named]
  constructor
  · rintro ⟨_, type, text, rfl, isType, rendered, takes⟩
    obtain ⟨-, rfl⟩ := integerLiteral?_eq_some_iff.mp (renderValue_int_iff.mp rendered)
    exact ⟨type, isType, (takes_integerLiteral_iff.mp takes).2⟩
  · rintro ⟨type, isType, admits⟩
    have rendered := integerLiteral?_eq_some_iff.mpr ⟨admits.hasDecimals, rfl⟩
    exact ⟨_, type, _, rfl, isType, renderValue_int_iff.mpr rendered,
      takes_integerLiteral_iff.mpr ⟨rfl, admits⟩⟩

/-- The annotation with the bound of an integer is legal when the bound fits. -/
theorem forall_boundElements_iff {name : String} {bound : Option Int}
    (isLong : elementType? name "value" = some .long) :
    (∀ element n, (element, ElementValue.scalar (.int n)) ∈
        (boundElements bound).toOption.getD [] →
      ∃ type, elementType? name element = some type ∧ type.Admits n) ↔
      ∀ n, bound = some n → IntegerType.long.Admits n := by
  cases bound with
  | none => simp [boundElements, Except.toOption]
  | some m => simp [boundElements, Except.toOption, isLong]

/-- **The annotation for a constraint is legal exactly when its bounds fit.** -/
theorem isLegalMark_iff {c : Constraint} : IsLegalMark (constraintMark c) ↔ LegalBounds c := by
  rw [isLegalMark_constraintMark_iff]
  cases c with
  | size least greatest =>
    have isElement (element : String) (n : Int) :
        (element, ElementValue.scalar (.int n)) ∈ (constraintMark (.size least greatest)).elements ↔
          element = "min" ∧ least = some n ∨ element = "max" ∧ greatest = some n := by
      cases least <;> cases greatest <;>
        simp [constraintMark, Constraint.elements, Except.toOption, eq_comm]
    simp only [isElement]
    constructor
    · intro each
      refine ⟨fun n isLeast => ?_, fun n isGreatest => ?_⟩
      · obtain ⟨_, isInt, admits⟩ := each "min" n (.inl ⟨rfl, isLeast⟩)
        cases isInt
        exact admits
      · obtain ⟨_, isInt, admits⟩ := each "max" n (.inr ⟨rfl, isGreatest⟩)
        cases isInt
        exact admits
    · rintro ⟨admitsLeast, admitsGreatest⟩ _ n (⟨rfl, isLeast⟩ | ⟨rfl, isGreatest⟩)
      · exact ⟨.int, rfl, admitsLeast n isLeast⟩
      · exact ⟨.int, rfl, admitsGreatest n isGreatest⟩
  | min bound => exact forall_boundElements_iff rfl
  | max bound => exact forall_boundElements_iff rfl
  | _ => simp [constraintMark, Constraint.elements, Except.toOption, LegalBounds]

/-! ### The constraints of a parameter -/

/-- The parameter is a text, neither of an enum nor repeated. -/
structure IsSingleText (p : Raml.Parameter) : Prop where
  kind : p.kind = none ∨ p.kind = some "string"
  noEnum : hasEnum p = false
  single : p.repeated = false

theorem forall_textConstraints_iff : (∀ c ∈ textConstraints p, LegalBounds c) ↔
    LegalBounds (.size p.minLength p.maxLength) := by
  unfold textConstraints
  rw [List.forall_mem_append]
  -- a pattern has no bounds
  refine (and_iff_left fun c member => ?_).trans ?_
  · split at member
    · split at member
      · cases member
      · rw [List.mem_singleton.mp member]
        trivial
    · cases member
  · split
    · exact List.forall_mem_singleton
    · rename_i undeclared
      rw [Bool.not_eq_true, Bool.or_eq_false_iff, Option.isSome_eq_false_iff,
        Option.isSome_eq_false_iff, Option.isNone_iff_eq_none,
        Option.isNone_iff_eq_none] at undeclared
      simp [undeclared, LegalBounds]

/-- The bounds of the constraints for a kind fit exactly when those of a text or an integer do. -/
theorem forall_kindConstraints_iff : (∀ c ∈ kindConstraints p, LegalBounds c) ↔
    (p.kind = none ∨ p.kind = some "string" → LegalBounds (.size p.minLength p.maxLength)) ∧
      (p.kind = some "integer" → (∀ x, p.minimum = some x → LegalBounds (.min x)) ∧
        ∀ x, p.maximum = some x → LegalBounds (.max x)) := by
  unfold kindConstraints
  split
  · rename_i kind
    simp [kind, forall_textConstraints_iff]
  · rename_i kind
    simp [kind, forall_textConstraints_iff]
  · rename_i kind
    rw [List.forall_mem_append]
    simp [kind]
  · rename_i kind
    rw [List.forall_mem_append]
    simp [kind, LegalBounds]
  · rename_i other noString noInteger noNumber kind
    have notString : other ≠ "string" := noString
    have notInteger : other ≠ "integer" := noInteger
    simp [kind, notString, notInteger]

/-- **The bounds of all constraints of a parameter fit** exactly when the lengths of a text and the
limits of an integer do. -/
theorem forall_legalBounds_iff : (∀ c ∈ constraints p, LegalBounds c) ↔
    (IsSingleText p → LegalBounds (.size p.minLength p.maxLength)) ∧
      (IsSingleInteger p → (∀ x, p.minimum = some x → LegalBounds (.min x)) ∧
        ∀ x, p.maximum = some x → LegalBounds (.max x)) := by
  have front : ∀ c ∈ (if p.required && p.default.isNone then [Constraint.notNull] else []),
      LegalBounds c := by
    split <;> simp [LegalBounds]
  unfold constraints
  rw [List.forall_mem_append]
  by_cases apart : (hasEnum p || p.repeated) = true
  · rw [if_pos apart]
    refine iff_of_true ⟨front, nofun⟩ ⟨fun text => ?_, fun integer => ?_⟩
    · rw [text.noEnum, text.single] at apart
      cases apart
    · rw [integer.noEnum, integer.single] at apart
      cases apart
  · rw [if_neg apart, and_iff_right front, forall_kindConstraints_iff]
    rw [Bool.not_eq_true, Bool.or_eq_false_iff] at apart
    obtain ⟨noEnum, single⟩ := apart
    have isText : IsSingleText p ↔ p.kind = none ∨ p.kind = some "string" :=
      ⟨IsSingleText.kind, fun kind => ⟨kind, noEnum, single⟩⟩
    have isInteger : IsSingleInteger p ↔ p.kind = some "integer" :=
      ⟨IsSingleInteger.kind, fun kind => ⟨kind, noEnum, single⟩⟩
    rw [isText, isInteger]

/-! ### What is declared -/

/-- A limit that is declared fits 64 bits when it is rounded: an integer to the nearest
floating-point number, and a floating-point number inwards. -/
def FitsLong (inwards : ℚ → Int) : Value → Prop
  | .scalar (.int n) => -(2 ^ 63 + 2 ^ 10) ≤ n ∧ n < 2 ^ 63 - 2 ^ 9
  | .scalar (.float x) => ∀ exactly, x.value? = some exactly →
      -2 ^ 63 ≤ inwards exactly ∧ inwards exactly < 2 ^ 63
  | _ => True

/-- A length that is declared fits 31 bits. -/
def FitsLength (length : Value) : Prop := ∀ n, length = .scalar (.int n) → n < 2 ^ 31

/-- The lengths and limits that are declared, as far as they count for a parameter, fit the types of
the elements that they become. -/
structure FitDeclared (p : Raml.Parameter) (facets : Entries) : Prop where
  lengths : IsSingleText p →
    FitsLength (facets.get "minLength") ∧ FitsLength (facets.get "maxLength")
  limits : IsSingleInteger p →
    FitsLong Int.ceil (facets.get "minimum") ∧ FitsLong Int.floor (facets.get "maximum")

/-- The bound that a declared limit is rounded to fits exactly when the limit does. -/
theorem forall_admits_iff_fitsLong {inwards : ℚ → Int} {rounded : Binary64 → Option Int}
    {limit : Option Binary64} (isRounded : ∀ x : Binary64, rounded x = x.value?.map inwards)
    (keeps : ∀ n : Int, inwards n = n) (becomes : Becomes value limit) :
    (∀ x, limit = some x → ∀ n, rounded x = some n → IntegerType.long.Admits n) ↔
      FitsLong inwards value := by
  have single {x : Binary64} {exactly : ℚ} (isValue : x.value? = some exactly) :
      (∀ y, some x = some y → ∀ n, rounded y = some n → IntegerType.long.Admits n) ↔
        IntegerType.long.Admits (inwards exactly) := by
    simp [isRounded, isValue]
  cases becomes with
  | nothing => exact iff_of_true nofun trivial
  | whole nearest =>
    rw [single nearest, keeps]
    exact Binary64.nearestInt_fits_iff
  | @float x exactly isFinite =>
    rw [single isFinite]
    show _ ↔ ∀ other, x.value? = some other → -2 ^ 63 ≤ inwards other ∧ inwards other < 2 ^ 63
    rw [isFinite]
    simp [IntegerType.Admits]

/-- A length fits exactly when what is declared does. -/
theorem forall_admits_iff_fitsLength {length : Option Int}
    (gives : Raml.GivesField Raml.coerceInt value length)
    (isLength : value.isNull = false → ∃ n : Nat, value = .scalar (.int n)) :
    (∀ n, length = some n → IntegerType.int.Admits n) ↔ FitsLength value := by
  cases gives with
  | nothing isNull =>
    refine iff_of_true nofun fun n declared => ?_
    rw [declared] at isNull
    cases isNull
  | fitted something fits =>
    obtain ⟨n, rfl⟩ := isLength something
    cases fits
    simp [FitsLength, IntegerType.Admits]
    omega

/-- **All integers in the annotations of a parameter are rendered as legal literals exactly when
what is declared fits.**  A declaration without problems makes a parameter if its limits are in the
range of floating-point numbers and what is written of it has a text, and the parameter gets its
annotations if its limits are finite.
A length of a text must be less than `2 ^ 31`, and a limit of an integer must fit 64 bits when it
is rounded. -/
theorem limitLiterals_legal_iff {path : String} (valid : parameterProblems path value = .ok [])
    (finite : DeclaresFinite (facetsOf value)) (requiredDefault : Bool) :
    (LimitsInRange (facetsOf value) → HaveTexts (facetsOf value) →
      Succeeds (extractParameter requiredDefault value)) ∧
      ∀ p, extractParameter requiredDefault value = .ok p → ∃ marks, Emits p marks ∧
        ((∀ mark ∈ marks, IsLegalMark mark) ↔ FitDeclared p (facetsOf value)) := by
  refine ⟨fun inRange texts => Raml.succeeds_of_problems valid inRange texts requiredDefault, ?_⟩
  intro p extracted
  have limits := Raml.limits_of_extractParameter extracted
  have minimum := forall_admits_iff_fitsLong Binary64.ceil?_eq Int.ceil_intCast
    (becomes_of_givesField limits.minimum finite.minimum)
  have maximum := forall_admits_iff_fitsLong Binary64.floor?_eq Int.floor_intCast
    (becomes_of_givesField limits.maximum finite.maximum)
  have minLength := forall_admits_iff_fitsLength limits.minLength
    (Raml.exists_length valid (by decide))
  have maxLength := forall_admits_iff_fitsLength limits.maxLength
    (Raml.exists_length valid (by decide))
  refine ⟨_, emits_constraintMarks (not_hasInfiniteLimit finite extracted), ?_⟩
  rw [List.forall_mem_map]
  simp only [isLegalMark_iff]
  rw [forall_legalBounds_iff]
  simp only [LegalBounds, minimum, maximum, minLength, maxLength]
  exact ⟨fun both => ⟨both.1, both.2⟩, fun fit => ⟨fit.lengths, fit.limits⟩⟩

/-- A name with the greatest length that an element can have. -/
def longestName : Value :=
  .map [(.text "minLength", .scalar (.int 1)), (.text "maxLength", .scalar (.int 2147483647))]

theorem limitLiterals_longestName : parameterProblems "name" longestName = .ok [] ∧
    DeclaresFinite (facetsOf longestName) ∧
      ∃ p marks, extractParameter true longestName = .ok p ∧ Emits p marks ∧
        ∀ mark ∈ marks, IsLegalMark mark := by
  have valid : parameterProblems "name" longestName = .ok [] := by decide +kernel
  have finite : DeclaresFinite (facetsOf longestName) := ⟨.nothing, .nothing⟩
  obtain ⟨succeeds, each⟩ := limitLiterals_legal_iff valid finite true
  have inRange : LimitsInRange (facetsOf longestName) := fun name isLimit n declared => by
    rcases List.mem_cons.mp isLimit with rfl | isLimit
    · cases declared
    · rw [List.mem_singleton.mp isLimit] at declared
      cases declared
  have texts : HaveTexts (facetsOf longestName) := by
    unfold HaveTexts
    decide
  obtain ⟨p, extracted⟩ := succeeds inRange texts
  obtain ⟨marks, emits, legal⟩ := each p extracted
  refine ⟨valid, finite, p, marks, extracted, emits, legal.mpr ⟨fun _ => ⟨?_, ?_⟩, ?_⟩⟩
  · intro n declared
    cases declared
    decide
  · intro n declared
    cases declared
    decide
  · exact fun _ => ⟨trivial, trivial⟩

/-- A declaration without problems, with limits that are finite, gets an annotation with an integer
that is not legal. -/
def IsRenderedIllegally (value : Value) : Prop :=
  parameterProblems "p" value = .ok [] ∧ DeclaresFinite (facetsOf value) ∧
    ∃ p marks, extractParameter false value = .ok p ∧ Emits p marks ∧
      ∃ mark ∈ marks, ¬ IsLegalMark mark

/-- A text of up to three thousand million characters. -/
def hugeText : Value := .map [(.text "maxLength", .scalar (.int 3000000000))]

/-- An integer up to the greatest one of 64 bits. -/
def lastLong : Value :=
  .map [(.text "type", .text "integer"), (.text "maximum", .scalar (.int 9223372036854775807))]

/-- **A length of 32 bits and the greatest integer of 64 bits are rendered illegally.** -/
theorem limits_illegal : IsRenderedIllegally hugeText ∧ IsRenderedIllegally lastLong := by
  constructor
  · have finite : DeclaresFinite (facetsOf hugeText) := ⟨.nothing, .nothing⟩
    have extracted : extractParameter false hugeText = .ok { maxLength := some 3000000000 } := by
      rfl
    refine ⟨by decide +kernel, finite, _, _, extracted,
      emits_constraintMarks (not_hasInfiniteLimit finite extracted),
      constraintMark (.size none (some 3000000000)), List.mem_map_of_mem List.mem_cons_self, ?_⟩
    rw [isLegalMark_iff]
    exact fun legal => absurd (legal.2 _ rfl).2 (by decide)
  · -- The greatest integer of 64 bits is rounded to the next power of two.
    let rounded : Binary64 := .finite false 4503599627370496 11
    have finite : DeclaresFinite (facetsOf lastLong) := ⟨.nothing, .whole⟩
    have extracted : extractParameter false lastLong =
        .ok { kind := some "integer", maximum := some rounded } := by
      rfl
    refine ⟨by decide +kernel, finite, _, _, extracted,
      emits_constraintMarks (not_hasInfiniteLimit finite extracted),
      constraintMark (.max rounded), List.mem_map_of_mem List.mem_cons_self, ?_⟩
    rw [isLegalMark_iff]
    exact fun legal => absurd (legal _ rfl).2 (by decide)

end RamlInterfaces.Generation
