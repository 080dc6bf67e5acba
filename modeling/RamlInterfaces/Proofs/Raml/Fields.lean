/-
**Parameters whose fields fit.**

The extraction of a parameter takes its facets for typed fields, and fails where one does not fit.
The facets of a parameter of the grammar fit, up to integers that are out of the range of
floating-point numbers and those whose texts are taken but have too many digits.

* `FieldKind`, `fieldKinds`, `FitsField`: what a field accepts;
* `succeeds_parameterOfFields`: fields that fit make a parameter;
* `LimitsInRange`: the limits of a parameter that are integers;
* `succeeds_extractParameter`: **a parameter of the grammar is extracted**.
-/

import RamlInterfaces.Proofs.Number.Exact
import RamlInterfaces.Proofs.Raml.Grammar

namespace RamlInterfaces.Raml

/-- There is a result. -/
def Succeeds {ε α : Type} (result : Except ε α) : Prop := ∃ value, result = .ok value

/-! ### Fields -/

/-- The kinds of typed fields. -/
inductive FieldKind where
  | text
  | flag
  | length
  | limit
  | texts
deriving DecidableEq

/-- What a field of a kind accepts. -/
def FieldKind.Accepts : FieldKind → Value → Prop
  | .text, value => Succeeds (coerceText value)
  | .flag, value => Succeeds (coerceBool value)
  | .length, value => Succeeds (coerceInt value)
  | .limit, value => Succeeds (coerceNumber value)
  | .texts, value => ∃ items, value = .list items ∧ ∀ item ∈ items, Succeeds (coerceText item)

/-- The fields of a parameter. -/
def fieldKinds : List (String × FieldKind) :=
  [("display_name", .text), ("description", .text), ("type", .text), ("required", .flag),
    ("repeat", .flag), ("default", .text), ("example", .text), ("enum_values", .texts),
    ("pattern", .text), ("min_length", .length), ("max_length", .length), ("minimum", .limit),
    ("maximum", .limit)]

/-- A field of a name has a value that it accepts. -/
def FitsField (name : Option String) (value : Value) : Prop :=
  ∀ field kind, name = some field → (field, kind) ∈ fieldKinds → kind.Accepts value

variable {fields facets : Entries} {name : String} {kind : FieldKind} {value : Value}

theorem fitsField_of_accepts (isKind : (name, kind) ∈ fieldKinds) (accepts : kind.Accepts value) :
    FitsField (some name) value := by
  intro field other same isOther
  cases same
  have distinct : (fieldKinds.map Prod.fst).Nodup := by decide
  obtain rfl : kind = other :=
    congrArg Prod.snd (List.inj_on_of_nodup_map distinct isKind isOther rfl)
  exact accepts

section Fitted

variable {α β : Type}

theorem succeeds_both {first : Fitted α} {second : Fitted β} (isFirst : Succeeds first)
    (isSecond : Succeeds second) : Succeeds (Fitted.both first second) := by
  obtain ⟨a, rfl⟩ := isFirst
  obtain ⟨b, rfl⟩ := isSecond
  exact ⟨(a, b), rfl⟩

theorem succeeds_map {fitted : Fitted α} (succeeds : Succeeds fitted) (change : α → β) :
    Succeeds (fitted.map change) := by
  obtain ⟨a, rfl⟩ := succeeds
  exact ⟨change a, rfl⟩

theorem succeeds_fitAt {place : List RamlInterfaces.Place} {coerce : Value → Except Mismatch α}
    (accepts : Succeeds (coerce value)) : Succeeds (fitAt place coerce value) := by
  obtain ⟨fitted, done⟩ := accepts
  unfold fitAt
  rw [done]
  exact ⟨fitted, rfl⟩

theorem succeeds_fieldOr {default : α} {coerce : Value → Except Mismatch α}
    (accepts : ∀ value, fields.find? (.text name) = some value → Succeeds (coerce value)) :
    Succeeds (fieldOr fields name default coerce) := by
  unfold fieldOr
  split
  · exact ⟨default, rfl⟩
  · exact succeeds_fitAt (accepts _ ‹_›)

theorem succeeds_optionalField {coerce : Value → Except Mismatch α}
    (accepts : ∀ value, fields.find? (.text name) = some value → Succeeds (coerce value)) :
    Succeeds (optionalField fields name coerce) := by
  unfold optionalField
  split
  · exact ⟨none, rfl⟩
  · exact ⟨none, rfl⟩
  · exact succeeds_map (succeeds_fitAt (accepts _ ‹_›)) some

theorem succeeds_textsFrom (name : String) (index : Nat) {items : List Value}
    (accepts : ∀ item ∈ items, Succeeds (coerceText item)) :
    Succeeds (textsFrom name index items) := by
  induction items generalizing index with
  | nil => exact ⟨[], rfl⟩
  | cons item rest ih =>
    obtain ⟨here, further⟩ := List.forall_mem_cons.mp accepts
    exact succeeds_map (succeeds_both (succeeds_fitAt here) (ih (index + 1) further)) _

theorem succeeds_optionalTexts (accepts : ∀ value, fields.find? (.text name) = some value →
    FieldKind.texts.Accepts value) : Succeeds (optionalTexts fields name) := by
  unfold optionalTexts
  split
  · exact ⟨none, rfl⟩
  · exact ⟨none, rfl⟩
  · rename_i found
    obtain ⟨_, same, each⟩ := accepts _ found
    cases same
    exact succeeds_map (succeeds_textsFrom name 0 each) some
  · rename_i noList found
    obtain ⟨items, rfl, _⟩ := accepts _ found
    exact absurd rfl (noList items)

end Fitted

/-- **Fields that fit make a parameter.** -/
theorem succeeds_parameterOfFields (fits : Everywhere FitsField fields) :
    Succeeds (parameterOfFields fields) := by
  have accepts (kind : FieldKind) {name : String} (isKind : (name, kind) ∈ fieldKinds)
      (value : Value) (found : fields.find? (.text name) = some value) : kind.Accepts value :=
    fits.find? found name kind rfl isKind
  have text {name : String} (isKind : (name, .text) ∈ fieldKinds) :
      Succeeds (optionalField fields name coerceText) :=
    succeeds_optionalField (accepts .text isKind)
  have flag {name : String} (isKind : (name, .flag) ∈ fieldKinds) :
      Succeeds (fieldOr fields name false coerceBool) :=
    succeeds_fieldOr (accepts .flag isKind)
  have length {name : String} (isKind : (name, .length) ∈ fieldKinds) :
      Succeeds (optionalField fields name coerceInt) :=
    succeeds_optionalField (accepts .length isKind)
  have limit {name : String} (isKind : (name, .limit) ∈ fieldKinds) :
      Succeeds (optionalField fields name coerceNumber) :=
    succeeds_optionalField (accepts .limit isKind)
  have texts : Succeeds (optionalTexts fields "enum_values") :=
    succeeds_optionalTexts (accepts .texts (by decide))
  refine succeeds_map (succeeds_both ?_ (succeeds_both ?_ (succeeds_both ?_ (succeeds_both ?_ ?_))))
    _
  · exact succeeds_both (text (by decide)) (succeeds_both (text (by decide)) (text (by decide)))
  · exact succeeds_both (flag (by decide)) (flag (by decide))
  · exact succeeds_both (text (by decide))
      (succeeds_both (text (by decide)) (succeeds_both texts (text (by decide))))
  · exact succeeds_both (length (by decide)) (length (by decide))
  · exact succeeds_both (limit (by decide)) (limit (by decide))

/-! ### Facets -/

/-- What is declared and not nothing is read as a text. -/
theorem accepts_documentTextValue {read : Value} (something : value.isNull = false)
    (done : documentTextValue value = .ok read) : Succeeds (coerceText read) := by
  obtain ⟨found, isFound, done⟩ := bind_eq_ok_iff.mp done
  cases found with
  | some text =>
    cases done
    exact ⟨text, rfl⟩
  | none =>
    unfold documentText at isFound
    split at isFound
    · cases something
    · cases isFound
    · obtain ⟨_, _, same⟩ := map_eq_ok_iff.mp isFound
      cases same

/-- Fields that are put among others, where they fit. -/
theorem fitsField_putFields {read : Value → Except Failure Value} {names : List (String × String)}
    {final : Entries} (fits : Everywhere FitsField fields)
    (each : ∀ pair ∈ names, (facets.get pair.1).isNull = false →
      ∀ value, read (facets.get pair.1) = .ok value → FitsField (some pair.2) value)
    (done : putFields facets read names fields = .ok final) : Everywhere FitsField final := by
  unfold putFields at done
  induction names generalizing fields with
  | nil =>
    cases done
    exact fits
  | cons pair rest ih =>
    obtain ⟨here, further⟩ := List.forall_mem_cons.mp each
    rw [List.foldlM_cons] at done
    obtain ⟨next, step, done⟩ := bind_eq_ok_iff.mp done
    refine ih ?_ further done
    dsimp only at step
    split at step
    · cases step
      exact fits
    · rename_i something
      obtain ⟨value, isRead, rfl⟩ := map_eq_ok_iff.mp step
      exact fits.put (here (Bool.eq_false_iff.mpr something) value isRead)

/-- The limits of a parameter that are integers are in the range of floating-point numbers. -/
def LimitsInRange (facets : Entries) : Prop :=
  ∀ name ∈ ["minimum", "maximum"], ∀ n, facets.get name = .scalar (.int n) → Binary64.IsInRange n

variable {names : Scalar → Prop} {templates : Templates}

theorem accepts_number {n : Int} (inRange : Binary64.IsInRange n) :
    FieldKind.limit.Accepts (.scalar (.int n)) := by
  obtain ⟨significand, exponent, finite⟩ := Binary64.exists_ofInt inRange
  refine ⟨.finite (n < 0) significand exponent, ?_⟩
  unfold coerceNumber
  dsimp only
  rw [finite]

/-- A facet whose value is taken as it is fits its field. -/
theorem fitsField_valueField (isFacets : ∀ entry ∈ facets, Belongs names templates .parameter entry)
    (inRange : LimitsInRange facets) :
    ∀ pair ∈ valueFields, (facets.get pair.1).isNull = false →
      FitsField (some pair.2) (facets.get pair.1) := by
  rintro ⟨facet, field⟩ isPair something
  have kinds : ∀ pair ∈ valueFields,
      (pair.1, .length) ∈ Symbol.parameter.members ∧ (pair.2, .length) ∈ fieldKinds ∨
      (pair.1, .number) ∈ Symbol.parameter.members ∧ (pair.2, .limit) ∈ fieldKinds ∧
        pair.1 ∈ ["minimum", "maximum"] ∨
      (pair.1, .flag) ∈ Symbol.parameter.members ∧ (pair.2, .flag) ∈ fieldKinds := by
    decide
  rcases kinds _ isPair with ⟨isListed, isKind⟩ | ⟨isListed, isKind, isLimit⟩ | ⟨isListed, isKind⟩
  · have derived := derives_get isFacets isListed something
    refine fitsField_of_accepts isKind ?_
    generalize facets.get facet = value at derived
    cases derived with
    | length => exact ⟨_, rfl⟩
    | nothing isMapping | mapping isMapping => cases isMapping
  · have derived := derives_get isFacets isListed something
    have range := inRange facet isLimit
    refine fitsField_of_accepts isKind ?_
    generalize facets.get facet = value at derived range
    cases derived with
    | whole => exact accepts_number (range _ rfl)
    | float => exact ⟨_, rfl⟩
    | nothing isMapping | mapping isMapping => cases isMapping
  · have derived := derives_get isFacets isListed something
    refine fitsField_of_accepts isKind ?_
    generalize facets.get facet = value at derived
    cases derived with
    | flag => exact ⟨_, rfl⟩
    | nothing isMapping | mapping isMapping => cases isMapping

/-- The fields of a parameter of the grammar can be taken from its facets, if those that are written
can be. -/
theorem succeeds_parameterFields
    (isFacets : ∀ entry ∈ facets, Belongs names templates .parameter entry)
    (texts : HaveTexts facets) (requiredDefault : Bool) :
    Succeeds (parameterFields requiredDefault facets) := by
  cases done : parameterFields requiredDefault facets with
  | ok fields => exact ⟨fields, rfl⟩
  | error failure =>
    rcases parameterFields_error_iff.mp ⟨failure, done⟩ with
      ⟨declared, none⟩ | ⟨value, isIn, noText⟩
    · have derived := derives_get isFacets
        (by decide : ("enum", .choices) ∈ Symbol.parameter.members) declared
      generalize facets.get "enum" = values at derived none
      cases derived with
      | choices => cases none
      | nothing isMapping | mapping isMapping => cases isMapping
    · exact absurd noText (texts value isIn)

/-- **The facets of a parameter of the grammar become fields that fit.** -/
theorem fits_parameterFields
    (isFacets : ∀ entry ∈ facets, Belongs names templates .parameter entry)
    (inRange : LimitsInRange facets) {requiredDefault : Bool}
    (done : parameterFields requiredDefault facets = .ok fields) :
    Everywhere FitsField fields := by
  have start : Everywhere FitsField [(.text "required", .scalar (.bool requiredDefault))] :=
    Everywhere.cons (fitsField_of_accepts (by decide : ("required", .flag) ∈ fieldKinds) ⟨_, rfl⟩)
      Everywhere.nil
  obtain ⟨plain, isPlain, done⟩ := bind_eq_ok_iff.mp done
  obtain ⟨kind, isKind, done⟩ := bind_eq_ok_iff.mp done
  obtain ⟨shown, isShown, done⟩ := bind_eq_ok_iff.mp done
  have valued : Everywhere FitsField plain := by
    refine fitsField_putFields start (fun pair isPair something value same => ?_) isPlain
    cases same
    exact fitsField_valueField isFacets inRange pair isPair something
  have typed : Everywhere FitsField kind := by
    refine fitsField_putFields valued (fun pair isPair _ value read => ?_) isKind
    rw [List.mem_singleton.mp isPair]
    obtain ⟨text, _, rfl⟩ := map_eq_ok_iff.mp read
    exact fitsField_of_accepts (by decide : ("type", .text) ∈ fieldKinds) ⟨text, rfl⟩
  have texts : ∀ pair ∈ textFields, (pair.2, .text) ∈ fieldKinds := by decide
  have fits : Everywhere FitsField shown :=
    fitsField_putFields typed (fun pair isPair something value read =>
      fitsField_of_accepts (texts pair isPair) (accepts_documentTextValue something read)) isShown
  unfold putEnumValues at done
  dsimp only at done
  split at done
  · cases done
    exact fits
  · rename_i something
    have derived := derives_get isFacets (by decide : ("enum", .choices) ∈ Symbol.parameter.members)
      (Bool.eq_false_iff.mpr something)
    generalize facets.get "enum" = values at derived done
    cases derived with
    | @choices items nonempty each =>
      obtain ⟨read, isRead, same⟩ := bind_eq_ok_iff.mp done
      cases same
      refine fits.put
        (fitsField_of_accepts (by decide : ("enum_values", .texts) ∈ fieldKinds) ?_)
      refine ⟨_, rfl, fun item member => ?_⟩
      obtain ⟨value, isItem, step⟩ := exists_of_mem_mapM isRead member
      exact accepts_documentTextValue (each value isItem).2 step
    | nothing isMapping | mapping isMapping => cases isMapping

theorem succeeds_parameterOfFacets
    (isFacets : ∀ entry ∈ facets, Belongs names templates .parameter entry)
    (inRange : LimitsInRange facets)
    (texts : HaveTexts facets) (requiredDefault : Bool) :
    Succeeds (parameterOfFacets requiredDefault facets) := by
  obtain ⟨fields, done⟩ := succeeds_parameterFields isFacets texts requiredDefault
  obtain ⟨parameter, made⟩ := succeeds_parameterOfFields
    (fits_parameterFields isFacets inRange done)
  refine ⟨parameter, bind_eq_ok_iff.mpr ⟨fields, done, ?_⟩⟩
  rw [made]
  rfl

/-- What counts of a parameter of the grammar is nothing or a mapping of facets. -/
theorem firstAlternative_of_derives (derived : Derives names templates .parameter value) :
    firstAlternative value = .null ∨ ∃ facets, firstAlternative value = .map facets ∧
      ∀ entry ∈ facets, Belongs names templates .parameter entry := by
  have mapping {value : Value} (derived : Derives names templates .parameter value)
      (isMap : value.isMap = true) : ∃ facets, value = .map facets ∧
        ∀ entry ∈ facets, Belongs names templates .parameter entry := by
    cases value with
    | map facets => exact ⟨facets, rfl, (derives_map_iff rfl).mp derived⟩
    | _ => cases isMap
  cases derived with
  | nothing => exact .inl rfl
  | mapping isMapping known each => exact .inr (mapping (.mapping isMapping known each) rfl)
  | @alternatives items each =>
    show (items.find? Value.isMap).getD .null = .null ∨
      ∃ facets, (items.find? Value.isMap).getD .null = .map facets ∧ _
    cases found : items.find? Value.isMap with
    | none => exact .inl rfl
    | some item =>
      exact .inr (mapping (each item (List.mem_of_find?_eq_some found)) (List.find?_some found))

/-- **A parameter of the grammar is extracted**, if its limits are in the range and what is written
of it can be. -/
theorem succeeds_extractParameter (derived : Derives names templates .parameter value)
    (inRange : ∀ facets, firstAlternative value = .map facets → LimitsInRange facets)
    (writable : ¬ IsUnwritableParameter value) (requiredDefault : Bool) :
    Succeeds (extractParameter requiredDefault value) := by
  unfold extractParameter
  dsimp only
  split
  · exact ⟨_, rfl⟩
  · rename_i something
    rcases firstAlternative_of_derives derived with nothing | ⟨facets, isMap, isFacets⟩
    · rw [nothing] at something
      exact absurd rfl something
    · have range := inRange facets isMap
      have texts : HaveTexts facets :=
        fun value member noText => writable ⟨facets, isMap, value, member, noText⟩
      rw [isMap]
      exact succeeds_parameterOfFacets isFacets range texts requiredDefault

end RamlInterfaces.Raml
