/-
**How the extraction of a description fails.**

The extraction takes the entries of some nodes without a look at what they are, so what is no
mapping there ends it otherwise than by a refusal.  So does what it cannot write, an integer of too
many digits.

* `failure?_parameterFields`: **the fields of a parameter fail as the first value that cannot be
  written**;
* `Node.IsShapeless`, `Node.IsUnwritable`, `Node.failure?_defect_iff`: the nodes in question;
* `Meets`, `extractDescription_eq_error_iff`: the node that the walk comes to when it fails;
* `extractDescription_defect_iff`: **when it fails otherwise than by a refusal**.
-/

import RamlInterfaces.Proofs.Raml.Extraction

namespace RamlInterfaces.Raml

/-! ### Failures that are no refusals -/

/-- The declaration of a parameter has content that is no mapping, or values that are none. -/
def IsShapelessParameter (value : Value) : Prop :=
  (firstAlternative value).isEmptyLike = false ∧ ∀ facets, firstAlternative value = .map facets →
    (Entries.get facets "enum").isNull = false ∧ items? (Entries.get facets "enum") = none

/-- The values among facets that a parameter has the texts of. -/
def writtenValues (facets : Entries) : List Value :=
  facets.get "type" :: textFields.map (fun field => facets.get field.1) ++
    (items? (facets.get "enum")).getD []

/-- What is written of the facets has a text. -/
def HaveTexts (facets : Entries) : Prop := ∀ value ∈ writtenValues facets, value.toText? ≠ none

/-- The declaration of a parameter has a value that cannot be written. -/
def IsUnwritableParameter (value : Value) : Prop :=
  ∃ facets, firstAlternative value = .map facets ∧
    ∃ written ∈ writtenValues facets, written.toText? = none

/-- The extraction takes the entries or the values of a node that has none. -/
def Node.IsShapeless : Node → Prop
  | .resource _ _ | .text _ => False
  | .method value | .parameters value => isMappingLike value = false
  | .parameter _ value => IsShapelessParameter value

/-- The extraction writes a value of the node that cannot be written. -/
def Node.IsUnwritable : Node → Prop
  | .text value => value.toText? = none
  | .parameter _ value => IsUnwritableParameter value
  | .resource _ _ | .method _ | .parameters _ => False

theorem failure?_documentTextValue (value : Value) :
    failure? (documentTextValue value) = textFailure? value := by
  rw [← failure?_documentText]
  unfold documentTextValue
  cases documentText value with
  | error failure => rfl
  | ok found => cases found <;> rfl

theorem failure?_textOfValue (value : Value) :
    failure? (textOfValue value) = textFailure? value := by
  unfold textOfValue textFailure?
  cases value.toText? <;> rfl

/-- Fields that hold the texts of values fail as the first value that cannot be written. -/
theorem failure?_putFields {facets : Entries} {read : Value → Except Failure Value}
    (writes : ∀ value, failure? (read value) = textFailure? value)
    (names : List (String × String)) (fields : Entries) :
    failure? (putFields facets read names fields) =
      (names.map fun name => facets.get name.1).findSome? textFailure? := by
  rw [List.findSome?_map]
  refine failure?_foldlM (fun fields name => ?_) names fields
  dsimp only
  split
  · rename_i nothing
    rw [Function.comp_apply, Value.isNull_iff.mp nothing]
    rfl
  · rw [Function.comp_apply, ← writes]
    cases read (facets.get name.1) <;> rfl

theorem failure?_putFields_ok (facets : Entries) (names : List (String × String))
    (fields : Entries) : failure? (putFields facets .ok names fields) = none := by
  have kept : failure? (putFields facets .ok names fields) = names.findSome? fun _ => none :=
    failure?_foldlM (fun fields name => by dsimp only; split <;> rfl) names fields
  rw [kept]
  exact List.findSome?_eq_none_iff.mpr fun _ _ => rfl

/-- What is wrong with the enum values among facets. -/
def enumFailure? (facets : Entries) : Option Failure :=
  let values := facets.get "enum"
  if values.isNull then none
  else match items? values with
    | some items => items.findSome? textFailure?
    | none => some (.defect .notIterable)

theorem failure?_putEnumValues (facets fields : Entries) :
    failure? (putEnumValues facets fields) = enumFailure? facets := by
  unfold putEnumValues enumFailure?
  dsimp only
  split
  · rfl
  · cases items? (facets.get "enum") with
    | none => rfl
    | some items =>
      refine (failure?_bind_pure _ _).trans ((failure?_mapM items).trans ?_)
      exact congrArg (List.findSome? · items) (funext failure?_documentTextValue)

/-- **The fields of a parameter fail as the first value that cannot be written**, or else as its
enum values do. -/
theorem failure?_parameterFields (requiredDefault : Bool) (facets : Entries) :
    failure? (parameterFields requiredDefault facets) =
      ((facets.get "type" :: textFields.map fun field => facets.get field.1).findSome?
        textFailure?).or (enumFailure? facets) := by
  have texts (kind : Entries) : failure? (putFields facets documentTextValue textFields kind >>=
      putEnumValues facets) = ((textFields.map fun field => facets.get field.1).findSome?
        textFailure?).or (enumFailure? facets) := by
    rw [← failure?_putFields failure?_documentTextValue textFields kind]
    exact failure?_bind _ fun texts _ => failure?_putEnumValues facets texts
  have kinds (plain : Entries) : failure? (putFields facets textOfValue [("type", "type")] plain >>=
      fun kind => putFields facets documentTextValue textFields kind >>= putEnumValues facets) =
        ([facets.get "type"].findSome? textFailure?).or
          (((textFields.map fun field => facets.get field.1).findSome? textFailure?).or
            (enumFailure? facets)) := by
    refine (failure?_bind _ fun kind _ => texts kind).trans ?_
    rw [failure?_putFields failure?_textOfValue]
    rfl
  refine (failure?_bind _ fun plain _ => kinds plain).trans ?_
  rw [failure?_putFields_ok, Option.none_or, ← Option.or_assoc, ← List.findSome?_append]
  rfl

/-- A value of a list cannot be written. -/
theorem findSome?_textFailure?_eq_some_iff {values : List Value} {failure : Failure} :
    values.findSome? textFailure? = some failure ↔
      (∃ value ∈ values, value.toText? = none) ∧ failure = .defect .tooManyDigits := by
  induction values with
  | nil => simp
  | cons value rest ih =>
    rw [List.findSome?_cons]
    simp only [List.mem_cons, or_and_right, exists_or, exists_eq_left]
    cases wrong : textFailure? value with
    | none =>
      have isText : value.toText? ≠ none := fun none => by
        rw [textFailure?_eq_some_iff.mpr ⟨none, rfl⟩] at wrong
        cases wrong
      simp [isText, ih]
    | some other =>
      obtain ⟨noText, rfl⟩ := textFailure?_eq_some_iff.mp wrong
      simp [noText, eq_comm]

theorem enumFailure?_eq_some_iff {facets : Entries} {failure : Failure} :
    enumFailure? facets = some failure ↔
      ((facets.get "enum").isNull = false ∧ items? (facets.get "enum") = none ∧
        failure = .defect .notIterable) ∨
      ((∃ item ∈ (items? (facets.get "enum")).getD [], item.toText? = none) ∧
        failure = .defect .tooManyDigits) := by
  unfold enumFailure?
  dsimp only
  split
  · rename_i nothing
    rw [Value.isNull_iff.mp nothing]
    simp [items?, Scalar.string?, Value.isNull]
  · rename_i declared
    cases found : items? (facets.get "enum") with
    | none => simp [declared, eq_comm]
    | some items => simpa [declared] using findSome?_textFailure?_eq_some_iff

/-- **When the fields of a parameter fail**: its enum values are none, or a value cannot be
written. -/
theorem parameterFields_error_iff {requiredDefault : Bool} {facets : Entries} :
    (∃ failure, parameterFields requiredDefault facets = .error failure) ↔
      ((facets.get "enum").isNull = false ∧ items? (facets.get "enum") = none) ∨
        ∃ value ∈ writtenValues facets, value.toText? = none := by
  have first (failure : Failure) : parameterFields requiredDefault facets = .error failure ↔
      (facets.get "type" :: textFields.map fun field => facets.get field.1).findSome?
        textFailure? = some failure ∨
      (facets.get "type" :: textFields.map fun field => facets.get field.1).findSome?
        textFailure? = none ∧ enumFailure? facets = some failure := by
    rw [← failure?_eq_some, failure?_parameterFields, Option.or_eq_some_iff]
  have parts : (∃ value ∈ writtenValues facets, value.toText? = none) ↔
      (∃ value ∈ facets.get "type" :: textFields.map fun field => facets.get field.1,
        value.toText? = none) ∨
      ∃ item ∈ (items? (facets.get "enum")).getD [], item.toText? = none := by
    simp only [writtenValues, List.mem_append, or_and_right, exists_or]
  rw [parts]
  simp only [first]
  constructor
  · rintro ⟨failure, unwritten | ⟨-, wrong⟩⟩
    · exact .inr (.inl (findSome?_textFailure?_eq_some_iff.mp unwritten).1)
    · rcases enumFailure?_eq_some_iff.mp wrong with ⟨declared, none, -⟩ | ⟨unwritten, -⟩
      · exact .inl ⟨declared, none⟩
      · exact .inr (.inr unwritten)
  · intro wrong
    cases texts : (facets.get "type" :: textFields.map fun field => facets.get field.1).findSome?
        textFailure? with
    | some failure => exact ⟨failure, .inl rfl⟩
    | none =>
      rcases wrong with ⟨declared, none⟩ | unwritten | unwritten
      · exact ⟨_, .inr ⟨rfl, enumFailure?_eq_some_iff.mpr (.inl ⟨declared, none, rfl⟩)⟩⟩
      · rw [findSome?_textFailure?_eq_some_iff.mpr ⟨unwritten, rfl⟩] at texts
        cases texts
      · exact ⟨_, .inr ⟨rfl, enumFailure?_eq_some_iff.mpr (.inr ⟨unwritten, rfl⟩)⟩⟩

theorem parameterFields_error {requiredDefault : Bool} {facets : Entries} {failure : Failure}
    (failed : parameterFields requiredDefault facets = .error failure) :
    ∃ cause, failure = .defect cause := by
  rw [← failure?_eq_some, failure?_parameterFields, Option.or_eq_some_iff] at failed
  rcases failed with unwritten | ⟨-, wrong⟩
  · exact ⟨_, (findSome?_textFailure?_eq_some_iff.mp unwritten).2⟩
  · rcases enumFailure?_eq_some_iff.mp wrong with ⟨-, -, same⟩ | ⟨-, same⟩
    · exact ⟨_, same⟩
    · exact ⟨_, same⟩

/-- A parameter fails as its fields do, or because one does not fit. -/
theorem parameterOfFacets_error {requiredDefault : Bool} {facets : Entries} {failure : Failure}
    (failed : parameterOfFacets requiredDefault facets = .error failure) :
    parameterFields requiredDefault facets = .error failure ∨
      ∃ details, failure = .unfit details := by
  rcases bind_eq_error_iff.mp failed with unread | ⟨fields, _, unfit⟩
  · exact .inl unread
  · split at unfit
    · cases unfit
    · cases unfit
      exact .inr ⟨_, rfl⟩

/-- A parameter fails otherwise than by a field that does not fit exactly when it is shapeless, or
has a value that cannot be written. -/
theorem extractParameter_defect_iff {requiredDefault : Bool} {value : Value} :
    (∃ cause, extractParameter requiredDefault value = .error (.defect cause)) ↔
      IsShapelessParameter value ∨ IsUnwritableParameter value := by
  unfold extractParameter IsShapelessParameter IsUnwritableParameter
  simp only
  generalize firstAlternative value = declaration
  cases empty : declaration.isEmptyLike with
  | true =>
    have writable (facets : Entries) (same : declaration = .map facets) : HaveTexts facets := by
      subst same
      have none : facets = [] := List.isEmpty_iff.mp empty
      rw [none, HaveTexts]
      decide
    simp only [if_true, Bool.true_eq_false, false_and, false_or]
    refine iff_of_false ?_ ?_
    · rintro ⟨_, same⟩
      cases same
    · rintro ⟨facets, same, written, member, noText⟩
      exact writable facets same written member noText
  | false =>
    cases declaration with
    | map facets =>
      simp only [Bool.false_eq_true, if_false, true_and, Value.map.injEq, forall_eq',
        exists_eq_left']
      rw [← @parameterFields_error_iff requiredDefault]
      constructor
      · rintro ⟨cause, failed⟩
        rcases parameterOfFacets_error failed with unread | ⟨_, same⟩
        · exact ⟨_, unread⟩
        · cases same
      · rintro ⟨failure, unread⟩
        obtain ⟨cause, rfl⟩ := parameterFields_error unread
        exact ⟨cause, bind_eq_error_iff.mpr (.inl unread)⟩
    | _ => simp

/-- What is wrong with a parameter: it has no fields, or one does not fit. -/
theorem extractParameter_error {requiredDefault : Bool} {value : Value} {failure : Failure}
    (failed : extractParameter requiredDefault value = .error failure) :
    (∃ cause, failure = .defect cause) ∨ ∃ details, failure = .unfit details := by
  unfold extractParameter at failed
  simp only at failed
  split at failed
  · cases failed
  · split at failed
    · rcases parameterOfFacets_error failed with unread | unfit
      · exact .inl (parameterFields_error unread)
      · exact .inr unfit
    · cases failed
      exact .inl ⟨_, rfl⟩

/-- **What is wrong with a node is no refusal exactly when the node is shapeless, or has a value
that cannot be written.** -/
theorem Node.failure?_defect_iff (node : Node) :
    (∃ cause, node.failure? = some (.defect cause)) ↔ node.IsShapeless ∨ node.IsUnwritable := by
  cases node with
  | parameter requiredDefault value =>
    unfold Node.failure? Node.IsShapeless Node.IsUnwritable
    simp only [failure?_eq_some]
    exact extractParameter_defect_iff
  | text value =>
    unfold Node.failure? Node.IsShapeless Node.IsUnwritable
    simp only [textFailure?_eq_some_iff, false_or]
    exact ⟨fun ⟨_, noText, _⟩ => noText, fun noText => ⟨_, noText, rfl⟩⟩
  | _ =>
    unfold Node.failure? Node.IsShapeless Node.IsUnwritable
    split <;> simp_all

theorem Node.failure?_refusal {node : Node} {failure : Failure}
    (wrong : node.failure? = some failure) : (∃ cause, failure = .defect cause) ∨
      ∃ fault, asDescriptionFailure failure = .raml fault := by
  cases node with
  | resource path value =>
    simp only [Node.failure?, Option.ite_none_left_eq_some, Option.some.injEq] at wrong
    exact .inr ⟨.resourceNotMapping path, wrong.2 ▸ rfl⟩
  | method value =>
    simp only [Node.failure?, Option.ite_none_left_eq_some, Option.some.injEq] at wrong
    exact .inl ⟨.notMapping, wrong.2.symm⟩
  | parameters value =>
    simp only [Node.failure?, Option.ite_none_left_eq_some, Option.some.injEq] at wrong
    exact .inl ⟨.notMapping, wrong.2.symm⟩
  | parameter requiredDefault value =>
    rcases extractParameter_error (failure?_eq_some.mp wrong) with defect | ⟨details, rfl⟩
    · exact .inl defect
    · exact .inr ⟨.unfit details, rfl⟩
  | text value => exact .inl ⟨_, (textFailure?_eq_some_iff.mp wrong).2⟩

/-- A walk through nodes comes to one: there is nothing wrong with those before it. -/
def Meets (nodes : List Node) (node : Node) : Prop :=
  ∃ before after, nodes = before ++ node :: after ∧ ∀ earlier ∈ before, earlier.failure? = none

theorem firstFailure?_eq_some_iff {nodes : List Node} {failure : Failure} :
    firstFailure? nodes = some failure ↔
      ∃ node, Meets nodes node ∧ node.failure? = some failure := by
  unfold firstFailure?
  rw [List.findSome?_eq_some_iff]
  constructor
  · rintro ⟨before, node, after, split, wrong, earlier⟩
    exact ⟨node, ⟨before, after, split, earlier⟩, wrong⟩
  · rintro ⟨node, ⟨before, after, split, earlier⟩, wrong⟩
    exact ⟨before, node, after, split, wrong, earlier⟩

/-- What the extraction of a description fails with: what is wrong with the first node that does not
fit, or with the keys of the root. -/
theorem extractDescription_eq_error_iff {root : Entries} {failure : Failure} :
    extractDescription root = .error failure ↔
      (∃ node cause, Meets (documentNodes root) node ∧ node.failure? = some cause ∧
        failure = asDescriptionFailure cause) ∨
      firstFailure? (documentNodes root) = none ∧ keysFailure? root = some failure := by
  rw [← failure?_eq_some, failure?_extractDescription, Option.or_eq_some_iff,
    Option.map_eq_none_iff,
    Option.map_eq_some_iff]
  refine or_congr_left ⟨?_, ?_⟩
  · rintro ⟨cause, first, rfl⟩
    obtain ⟨node, meets, wrong⟩ := firstFailure?_eq_some_iff.mp first
    exact ⟨node, cause, meets, wrong, rfl⟩
  · rintro ⟨node, cause, meets, wrong, rfl⟩
    exact ⟨cause, firstFailure?_eq_some_iff.mpr ⟨node, meets, wrong⟩, rfl⟩

theorem keysFailure?_eq_some {root : Entries} {failure : Failure}
    (wrong : keysFailure? root = some failure) : ∃ fault, failure = .raml fault := by
  unfold keysFailure? at wrong
  split at wrong <;> cases wrong
  exact ⟨_, rfl⟩

/-- A document is refused, or the walk through it comes to a node with a defect. -/
theorem extractDescription_error {root : Entries} {failure : Failure}
    (failed : extractDescription root = .error failure) :
    (∃ cause, failure = .defect cause) ∨ ∃ fault, failure = .raml fault := by
  rcases extractDescription_eq_error_iff.mp failed with ⟨node, cause, _, wrong, rfl⟩ | ⟨_, keys⟩
  · rcases Node.failure?_refusal wrong with ⟨defect, rfl⟩ | refused
    · exact .inl ⟨defect, rfl⟩
    · exact .inr refused
  · exact .inr (keysFailure?_eq_some keys)

/-- **The extraction of a description fails otherwise than by a refusal exactly when the walk
through the document comes to a shapeless node, or to a value that cannot be written.** -/
theorem extractDescription_defect_iff {root : Entries} :
    (∃ cause, extractDescription root = .error (.defect cause)) ↔
      ∃ node, Meets (documentNodes root) node ∧ (node.IsShapeless ∨ node.IsUnwritable) := by
  constructor
  · rintro ⟨cause, failed⟩
    rcases extractDescription_eq_error_iff.mp failed with
      ⟨node, other, meets, wrong, same⟩ | ⟨_, keys⟩
    · have isDefect : other = .defect cause := by
        cases other <;> cases same
        rfl
      exact ⟨node, meets, node.failure?_defect_iff.mp ⟨cause, isDefect ▸ wrong⟩⟩
    · obtain ⟨fault, same⟩ := keysFailure?_eq_some keys
      cases same
  · rintro ⟨node, meets, defective⟩
    obtain ⟨cause, wrong⟩ := node.failure?_defect_iff.mpr defective
    exact ⟨cause, extractDescription_eq_error_iff.mpr (.inl ⟨node, _, meets, wrong, rfl⟩)⟩

end RamlInterfaces.Raml
