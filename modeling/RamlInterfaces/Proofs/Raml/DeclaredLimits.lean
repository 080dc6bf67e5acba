/-
**The limits that a declaration gives a parameter.**

A parameter is made from the facets of its declaration in two steps: the facets that are declared
are put together as fields, and each field is fitted to its type.  Neither step mixes one facet with
another, so a limit of the parameter is what its own facet is fitted to.

* `facetsOf`: the facets that count of a declaration;
* `find?_putFields`, `find?_putFields_other`: what is found among fields that are put together;
* `GivesField`, `givesField_of_optionalField`: a facet that may be left out, and the field of it;
* `Limits`, `limits_of_extractParameter`: **a parameter has the limits of its declaration**;
* `DeclaresFinite`: the limits that are declared are finite;
* `succeeds_of_problems`: **a declaration without problems makes a parameter**, if its limits are in
  the range of floating-point numbers.
-/

import RamlInterfaces.Proofs.Number.Exact
import RamlInterfaces.Proofs.Raml.Fields
import RamlInterfaces.Proofs.Raml.Keyed

namespace RamlInterfaces.Raml

/-- The facets that count of a declaration. -/
def facetsOf (value : Value) : Entries :=
  match firstAlternative value with
  | .map facets => facets
  | _ => []

variable {facets fields result : Entries} {facet field name : String} {value : Value}
  {p : Parameter} {requiredDefault : Bool}

/-! ### Fields that are put together -/

theorem string?_text_ne (other : name ≠ field) : (Scalar.text name).string? ≠ some field :=
  fun same => other (Option.some.inj same)

section Fields

variable {read : Value → Except Failure Value} {names : List (String × String)}

/-- Fields of other names change nothing. -/
theorem find?_putFields_other (other : field ∉ names.map Prod.snd)
    (done : putFields facets read names fields = .ok result) :
    result.find? (.text field) = fields.find? (.text field) := by
  unfold putFields at done
  induction names generalizing fields with
  | nil =>
    cases done
    rfl
  | cons pair rest ih =>
    rw [List.map_cons, List.mem_cons, not_or] at other
    rw [List.foldlM_cons] at done
    obtain ⟨next, step, done⟩ := bind_eq_ok_iff.mp done
    rw [ih other.2 done]
    dsimp only at step
    split at step
    · cases step
      rfl
    · obtain ⟨value, _, rfl⟩ := map_eq_ok_iff.mp step
      exact find?_put_other (string?_text_ne (Ne.symm other.1)) fields _

/-- A facet that is declared becomes its field, and one that is not leaves the field as it was. -/
theorem find?_putFields_ok (isPair : (facet, field) ∈ names) (distinct : (names.map Prod.snd).Nodup)
    (done : putFields facets .ok names fields = .ok result) : result.find? (.text field) =
      if (facets.get facet).isNull then fields.find? (.text field)
      else some (facets.get facet) := by
  unfold putFields at done
  induction names generalizing fields with
  | nil => cases isPair
  | cons pair rest ih =>
    obtain ⟨fresh, others⟩ := List.nodup_cons.mp distinct
    rw [List.foldlM_cons] at done
    obtain ⟨next, step, later⟩ := bind_eq_ok_iff.mp done
    dsimp only at step
    rcases List.mem_cons.mp isPair with rfl | further
    · refine (find?_putFields_other fresh later).trans ?_
      dsimp only at step
      split at step
      · cases step
        rw [if_pos ‹_›]
      · obtain ⟨_, same, rfl⟩ := map_eq_ok_iff.mp step
        cases same
        rw [if_neg ‹_›]
        exact Entries.find?_put_self _ _ _
    · have notHere : pair.2 ≠ field := fun same =>
        fresh (same ▸ List.mem_map_of_mem further)
      have kept : next.find? (.text field) = fields.find? (.text field) := by
        split at step
        · cases step
          rfl
        · obtain ⟨_, _, rfl⟩ := map_eq_ok_iff.mp step
          exact find?_put_other (string?_text_ne notHere) fields _
      rw [ih further others later, kept]

end Fields

theorem find?_putEnumValues (other : "enum_values" ≠ field)
    (done : putEnumValues facets fields = .ok result) :
    result.find? (.text field) = fields.find? (.text field) := by
  unfold putEnumValues at done
  dsimp only at done
  split at done
  · rw [Except.ok.inj done]
  · split at done
    · obtain ⟨texts, _, same⟩ := bind_eq_ok_iff.mp done
      cases same
      exact find?_put_other (string?_text_ne other) fields _
    · cases done

/-- The fields that hold the limits of a parameter, with their names as facets. -/
def limitFields : List (String × String) := valueFields.take 4

/-- A limit that is declared becomes its field. -/
theorem find?_parameterFields (isLimit : (facet, field) ∈ limitFields)
    (done : parameterFields requiredDefault facets = .ok fields) : fields.find? (.text field) =
      if (facets.get facet).isNull then none else some (facets.get facet) := by
  have distinct : (valueFields.map Prod.snd).Nodup := by decide
  have apart : ∀ pair ∈ limitFields, "enum_values" ≠ pair.2 ∧ ("required" == pair.2) = false ∧
      pair.2 ∉ textFields.map Prod.snd ∧ pair.2 ∉ [("type", "type")].map Prod.snd := by
    decide
  obtain ⟨noEnum, noFlag, noText, noKind⟩ := apart _ isLimit
  obtain ⟨plain, isPlain, done⟩ := bind_eq_ok_iff.mp done
  obtain ⟨kind, isKind, done⟩ := bind_eq_ok_iff.mp done
  obtain ⟨texts, areTexts, done⟩ := bind_eq_ok_iff.mp done
  rw [find?_putEnumValues noEnum done, find?_putFields_other noText areTexts,
    find?_putFields_other noKind isKind,
    find?_putFields_ok (List.mem_of_mem_take isLimit) distinct isPlain, Entries.find?_cons,
    Scalar.alike_text rfl rfl, noFlag]
  rfl

/-! ### Fields that are fitted -/

/-- A facet that may be left out gives a field: none, or what its value is fitted to. -/
inductive GivesField {α : Type} (coerce : Value → Except Mismatch α) : Value → Option α → Prop where
  | nothing {value : Value} (nothing : value.isNull = true) : GivesField coerce value none
  | fitted {value : Value} {result : α} (something : value.isNull = false)
    (fits : coerce value = .ok result) : GivesField coerce value (some result)

section Fitted

variable {α β : Type}

theorem both_eq_ok_iff {first : Fitted α} {second : Fitted β} {a : α} {b : β} :
    Fitted.both first second = .ok (a, b) ↔ first = .ok a ∧ second = .ok b := by
  unfold Fitted.both
  split <;> simp

theorem givesField_of_optionalField {coerce : Value → Except Mismatch α} {result : Option α}
    (found : fields.find? (.text field) = if value.isNull then none else some value)
    (done : optionalField fields field coerce = .ok result) : GivesField coerce value result := by
  unfold optionalField at done
  rw [found] at done
  by_cases isNull : value.isNull = true
  · rw [if_pos isNull] at done
    cases done
    exact .nothing isNull
  · rw [if_neg isNull] at done
    split at done
    · cases ‹some value = none›
    · cases ‹some value = some (.scalar .null)›
      exact absurd rfl isNull
    · rename_i same
      cases same
      obtain ⟨fitted, fits, rfl⟩ := map_eq_ok_iff.mp done
      unfold fitAt at fits
      split at fits
      · cases fits
        exact .fitted (Bool.eq_false_iff.mpr isNull) ‹_›
      · cases fits

end Fitted

/-- The limits of a parameter are given by its facets. -/
structure Limits (facets : Entries) (p : Parameter) : Prop where
  minLength : GivesField coerceInt (facets.get "minLength") p.minLength
  maxLength : GivesField coerceInt (facets.get "maxLength") p.maxLength
  minimum : GivesField coerceNumber (facets.get "minimum") p.minimum
  maximum : GivesField coerceNumber (facets.get "maximum") p.maximum

theorem limits_of_parameterOfFields
    (found : ∀ pair ∈ limitFields, fields.find? (.text pair.2) =
      if (facets.get pair.1).isNull then none else some (facets.get pair.1))
    (made : parameterOfFields fields = .ok p) : Limits facets p := by
  unfold parameterOfFields at made
  dsimp only at made
  obtain ⟨⟨_, _, _, ⟨minLength, maxLength⟩, ⟨minimum, maximum⟩⟩, fitted, rfl⟩ :=
    map_eq_ok_iff.mp made
  simp only [both_eq_ok_iff] at fitted
  obtain ⟨-, -, -, ⟨isMinLength, isMaxLength⟩, isMinimum, isMaximum⟩ := fitted
  exact ⟨givesField_of_optionalField (found ("minLength", "min_length") (by decide)) isMinLength,
    givesField_of_optionalField (found ("maxLength", "max_length") (by decide)) isMaxLength,
    givesField_of_optionalField (found ("minimum", "minimum") (by decide)) isMinimum,
    givesField_of_optionalField (found ("maximum", "maximum") (by decide)) isMaximum⟩

theorem limits_of_parameterOfFacets (made : parameterOfFacets requiredDefault facets = .ok p) :
    Limits facets p := by
  obtain ⟨fields, done, made⟩ := bind_eq_ok_iff.mp made
  split at made
  · rename_i fitted
    cases made
    exact limits_of_parameterOfFields (fun pair isLimit => find?_parameterFields isLimit done)
      fitted
  · cases made

/-- **The limits of a parameter are those of its declaration.** -/
theorem limits_of_extractParameter (extracted : extractParameter requiredDefault value = .ok p) :
    Limits (facetsOf value) p := by
  unfold extractParameter at extracted
  unfold facetsOf
  dsimp only at extracted
  generalize firstAlternative value = declaration at extracted ⊢
  by_cases isEmpty : declaration.isEmptyLike = true
  · rw [if_pos isEmpty] at extracted
    cases extracted
    have noFacets : (match declaration with
        | .map facets => facets
        | _ => []) = [] := by
      cases declaration with
      | map facets => exact List.isEmpty_iff.mp isEmpty
      | _ => rfl
    rw [noFacets]
    exact ⟨.nothing rfl, .nothing rfl, .nothing rfl, .nothing rfl⟩
  · rw [if_neg isEmpty] at extracted
    cases declaration with
    | map facets => exact limits_of_parameterOfFacets extracted
    | _ => cases extracted

/-! ### Declarations without problems -/

/-- A limit that is declared is an integer, or a floating-point number that is finite. -/
inductive IsFiniteLimit : Value → Prop where
  | nothing : IsFiniteLimit .null
  | whole {n : Int} : IsFiniteLimit (.scalar (.int n))
  | float {x : Binary64} {exactly : ℚ} (isFinite : x.value? = some exactly) :
    IsFiniteLimit (.scalar (.float x))

/-- The limits that the facets declare are finite. -/
structure DeclaresFinite (facets : Entries) : Prop where
  minimum : IsFiniteLimit (facets.get "minimum")
  maximum : IsFiniteLimit (facets.get "maximum")

/-- The facets of a declaration without problems belong to a parameter. -/
theorem belongs_facetsOf {path : String} (valid : parameterProblems path value = .ok []) :
    ∀ entry ∈ facetsOf value, Belongs IsNameable (Templates.ofRoot []) .parameter entry := by
  unfold facetsOf
  rcases firstAlternative_of_derives ((parameterProblems_eq_nil_iff path value).mp valid) with
    nothing | ⟨facets, isMap, belongs⟩
  · rw [nothing]
    exact nofun
  · rw [isMap]
    exact belongs

/-- A length that a declaration without problems declares is a natural number. -/
theorem exists_length {path : String} (valid : parameterProblems path value = .ok [])
    (isListed : (name, .length) ∈ Symbol.parameter.members)
    (something : ((facetsOf value).get name).isNull = false) :
    ∃ n : Nat, (facetsOf value).get name = .scalar (.int n) := by
  have derived := derives_get (belongs_facetsOf valid) isListed something
  generalize (facetsOf value).get name = length at derived
  cases derived with
  | length => exact ⟨_, rfl⟩
  | nothing isMapping | mapping isMapping => cases isMapping

/-- **A declaration without problems makes a parameter**, if its limits are in the range of
floating-point numbers and what is written of it can be. -/
theorem succeeds_of_problems {path : String} (valid : parameterProblems path value = .ok [])
    (inRange : LimitsInRange (facetsOf value))
    (texts : HaveTexts (facetsOf value)) (requiredDefault : Bool) :
    Succeeds (extractParameter requiredDefault value) := by
  have derived : Derives IsNameable (Templates.ofRoot []) .parameter value :=
    (parameterProblems_eq_nil_iff path value).mp valid
  have isFacets (facets : Entries) (declares : firstAlternative value = .map facets) :
      facetsOf value = facets := by
    unfold facetsOf
    rw [declares]
  refine succeeds_extractParameter derived (fun facets declares => ?_) ?_ requiredDefault
  · rwa [isFacets facets declares] at inRange
  · rintro ⟨facets, declares, written, member, noText⟩
    rw [isFacets facets declares] at texts
    exact texts written member noText

end RamlInterfaces.Raml
