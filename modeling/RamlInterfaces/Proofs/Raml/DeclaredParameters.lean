/-
**Declared parameters.**

The keys of a mapping of parameters are scalars of any kind.  A parameter is named by the text of
its key, and keys that differ may have the same text: the integer `1` and the text `1`, a truth
value and the word for it, nothing and `None`.  Declarations of which the keys have the same text
make one parameter.  It stands where the first of them was declared, and it is made of the last.  A
declaration with an integer of too many digits in the place of a text makes none.

* `Faithful`: one parameter for each declaration, in order, made of that declaration;
* `gathered`: the parameters that are left of such a list when they are put one after the other;
* `lookup_gathered`: **of parameters with the same name, the last one counts**;
* `gathered_eq_iff`: **none of them is lost exactly if the names differ**;
* `faithful_of_strings`: **none is lost where the keys are strings**;
* `faithful_iff_nodup`: **what a mapping without problems makes of its declarations**.
-/

import RamlInterfaces.Proofs.Raml.DeclaredLimits
import RamlInterfaces.Proofs.Raml.Keyed
import RamlInterfaces.Proofs.Raml.Placeholders

namespace RamlInterfaces.Raml

variable {declarations : Entries} {parameters before own : Parameters} {name : String}
  {requiredDefault : Bool}

/-! ### Parameters put one after the other -/

theorem lookup_putParameter (parameters : Parameters) (name other : String)
    (parameter : Parameter) : (putParameter parameters name parameter).lookup other =
      if other == name then some parameter else parameters.lookup other := by
  induction parameters with
  | nil =>
    unfold putParameter
    cases isIt : other == name <;> simp [List.lookup_cons, isIt]
  | cons first rest ih =>
    obtain ⟨key, old⟩ := first
    unfold putParameter
    by_cases same : key = name
    · subst same
      cases isIt : other == key <;> simp [List.lookup_cons, isIt]
    · rw [if_neg same, List.lookup_cons, List.lookup_cons, ih]
      cases found : other == key with
      | true =>
        have elsewhere : (other == name) = false := by
          rw [beq_iff_eq.mp found]
          exact beq_eq_false_iff_ne.mpr same
        rw [elsewhere]
        rfl
      | false => rfl

theorem putParameter_of_new {parameter : Parameter} (new : name ∉ parameters.map (·.1)) :
    putParameter parameters name parameter = parameters ++ [(name, parameter)] := by
  induction parameters with
  | nil => rfl
  | cons first rest ih =>
    obtain ⟨key, old⟩ := first
    obtain ⟨other, further⟩ := List.ne_and_not_mem_of_not_mem_cons new
    unfold putParameter
    rw [if_neg (Ne.symm other), ih further]
    rfl

/-- The parameters with others put after them. -/
def putAll (before own : Parameters) : Parameters :=
  own.foldl (fun parameters named => putParameter parameters named.1 named.2) before

/-- Parameters put one after the other. -/
def gathered (own : Parameters) : Parameters := putAll [] own

theorem gathered_concat (own : Parameters) (named : String × Parameter) :
    gathered (own ++ [named]) = putParameter (gathered own) named.1 named.2 :=
  List.foldl_concat _ _ _ _

/-- The names are those that were put, each once. -/
theorem keys_gathered (own : Parameters) :
    (gathered own).map (·.1) = (own.map (·.1)).eraseDups := by
  induction own using List.reverseRecOn with
  | nil => rfl
  | append_singleton own named ih =>
    rw [gathered_concat, keys_putParameter, ih, List.map_append, List.map_singleton,
      eraseDups_concat]
    simp only [List.mem_eraseDups]

/-- **Of parameters with the same name, the last one counts.** -/
theorem lookup_gathered (own : Parameters) (name : String) :
    (gathered own).lookup name = own.reverse.lookup name := by
  induction own using List.reverseRecOn with
  | nil => rfl
  | append_singleton own named ih =>
    obtain ⟨last, parameter⟩ := named
    rw [gathered_concat, lookup_putParameter, List.reverse_concat, List.lookup_cons, ih]
    cases name == last <;> rfl

theorem gathered_of_nodup (distinct : (own.map (·.1)).Nodup) : gathered own = own := by
  induction own using List.reverseRecOn with
  | nil => rfl
  | append_singleton own named ih =>
    rw [List.map_append, List.map_singleton, ← List.concat_eq_append] at distinct
    obtain ⟨new, earlier⟩ := List.nodup_concat _ _ |>.mp distinct
    have whole := ih earlier
    rw [gathered_concat, whole]
    exact putParameter_of_new new

/-- **No parameter is lost exactly if their names differ.** -/
theorem gathered_eq_iff : gathered own = own ↔ (own.map (·.1)).Nodup := by
  refine ⟨fun whole => ?_, gathered_of_nodup⟩
  rw [← whole, keys_gathered]
  exact nodup_eraseDups _

/-! ### Declarations -/

/-- The parameter has the text of the key for its name, and is made of the declaration. -/
structure MadeOf (requiredDefault : Bool) (declared : Scalar × Value)
    (named : String × Parameter) : Prop where
  name : declared.1.toText? = some named.1
  made : extractParameter requiredDefault declared.2 = .ok named.2

/-- There is one parameter for each declaration, in order, and it is made of that declaration. -/
def Faithful (requiredDefault : Bool) (declarations : Entries) (parameters : Parameters) : Prop :=
  List.Forall₂ (MadeOf requiredDefault) declarations parameters

/-- What is written of the declarations has texts. -/
def DeclaresTexts (declarations : Entries) : Prop :=
  ∀ entry ∈ declarations, HaveTexts (facetsOf entry.2)

namespace Faithful

theorem names (faithful : Faithful requiredDefault declarations own) :
    own.map (·.1) = entryNames (.map declarations) := by
  show own.map (·.1) = declarations.filterMap (·.1.toText?)
  induction faithful with
  | nil => rfl
  | cons here _ ih => rw [List.map_cons, ih, List.filterMap_cons, here.name]

theorem unique (faithful : Faithful requiredDefault declarations own)
    (other : Faithful requiredDefault declarations parameters) : own = parameters := by
  induction faithful generalizing parameters with
  | nil =>
    cases other
    rfl
  | cons here _ ih =>
    cases other with
    | cons there rest =>
      have name := Option.some.inj (here.name.symm.trans there.name)
      have same := Except.ok.inj (here.made.symm.trans there.made)
      rw [ih rest, Prod.ext name same]

/-- What is written of a declaration that makes a parameter has a text. -/
theorem declaresTexts (faithful : Faithful requiredDefault declarations own) :
    DeclaresTexts declarations := by
  have each {value : Value} {parameter : Parameter}
      (made : extractParameter requiredDefault value = .ok parameter) :
      HaveTexts (facetsOf value) := by
    intro written member noText
    unfold facetsOf at member
    split at member
    · rename_i facets declares
      obtain ⟨cause, failed⟩ := extractParameter_defect_iff.mpr
        (.inr ⟨facets, declares, written, member, noText⟩)
      cases made.symm.trans failed
    · have texts : HaveTexts [] := by
        rw [HaveTexts]
        decide
      exact texts written member noText
  induction faithful with
  | nil => exact fun entry member => absurd member List.not_mem_nil
  | cons here _ ih => exact List.forall_mem_cons.mpr ⟨each here.made, ih⟩

/-- The walk over the declarations puts the parameters one after the other. -/
theorem foldlM_eq_ok_iff {after : Parameters} : declarations.foldlM
    (fun parameters (entry : Scalar × Value) => do
      let name ← written entry.1.toText?
      let parameter ← extractParameter requiredDefault entry.2
      pure (putParameter parameters name parameter)) before = Except.ok after ↔
        ∃ own, Faithful requiredDefault declarations own ∧ after = putAll before own := by
  induction declarations generalizing before with
  | nil =>
    refine ⟨fun same => ⟨[], .nil, (Except.ok.inj same).symm⟩, ?_⟩
    rintro ⟨own, faithful, rfl⟩
    cases faithful
    rfl
  | cons entry rest ih =>
    rw [List.foldlM_cons, bind_eq_ok_iff]
    constructor
    · rintro ⟨middle, step, walk⟩
      obtain ⟨name, named, step⟩ := bind_eq_ok_iff.mp step
      obtain ⟨parameter, made, step⟩ := bind_eq_ok_iff.mp step
      cases step
      obtain ⟨own, faithful, rfl⟩ := ih.mp walk
      exact ⟨(name, parameter) :: own, .cons ⟨written_eq_ok_iff.mp named, made⟩ faithful, rfl⟩
    · rintro ⟨_, faithful, rfl⟩
      cases faithful with
      | cons here further =>
        refine ⟨_, bind_eq_ok_iff.mpr ⟨_, written_eq_ok_iff.mpr here.name, ?_⟩,
          ih.mpr ⟨_, further, rfl⟩⟩
        exact bind_eq_ok_iff.mpr ⟨_, here.made, rfl⟩

/-- **The parameters of a mapping** are those of its declarations, put one after the other. -/
theorem extractParameters_eq_ok_iff :
    extractParameters requiredDefault (.map declarations) = .ok parameters ↔
      ∃ own, Faithful requiredDefault declarations own ∧ parameters = gathered own := by
  have entries : mappingEntries (.map declarations) = .ok declarations := by
    unfold mappingEntries
    split
    · rename_i isEmpty
      exact congrArg _ (List.isEmpty_iff.mp isEmpty).symm
    · rfl
  unfold extractParameters
  rw [entries]
  exact foldlM_eq_ok_iff

end Faithful

/-- The limits that the declarations give are in the range of floating-point numbers. -/
def DeclaresInRange (declarations : Entries) : Prop :=
  ∀ entry ∈ declarations, LimitsInRange (facetsOf entry.2)

/-- Each declaration of a mapping without problems makes a parameter. -/
theorem exists_faithful (requiredDefault : Bool) (inRange : DeclaresInRange declarations)
    (texts : DeclaresTexts declarations) {path : String}
    (valid : parametersProblems path (.map declarations) = .ok []) :
    ∃ own, Faithful requiredDefault declarations own := by
  have each : ∀ entry ∈ declarations, ∃ named, MadeOf requiredDefault entry named := by
    intro entry member
    have here := Findings.inEach_eq_nil_iff.mp valid entry member
    obtain ⟨name, named, noProblem⟩ := Findings.atKey_eq_nil_iff.mp here
    obtain ⟨parameter, made⟩ :=
      succeeds_of_problems noProblem (inRange entry member) (texts entry member) requiredDefault
    exact ⟨(name, parameter), named, made⟩
  clear valid inRange texts
  induction declarations with
  | nil => exact ⟨[], .nil⟩
  | cons entry rest ih =>
    obtain ⟨here, further⟩ := List.forall_mem_cons.mp each
    obtain ⟨named, isMade⟩ := here
    obtain ⟨own, faithful⟩ := ih further
    exact ⟨named :: own, .cons isMade faithful⟩

/-- **Keys that are strings and differ have texts that differ.** -/
theorem nodup_texts_of_strings (distinct : Distinct declarations)
    (strings : ∀ entry ∈ declarations, entry.1.string?.isSome = true) :
    (entryNames (.map declarations)).Nodup := by
  unfold Distinct at distinct
  rw [List.pairwise_map] at distinct
  refine List.pairwise_filterMap.mpr
    (distinct.imp_of_mem fun {first second} isFirst isSecond apart name named other called => ?_)
  obtain ⟨text, isText⟩ := Option.isSome_iff_exists.mp (strings first isFirst)
  obtain ⟨further, isFurther⟩ := Option.isSome_iff_exists.mp (strings second isSecond)
  cases (Scalar.toText?_of_string? isText).symm.trans named
  cases (Scalar.toText?_of_string? isFurther).symm.trans called
  rw [Scalar.alike_text isText isFurther] at apart
  exact beq_eq_false_iff_ne.mp apart

/-- **No parameter is lost where the keys are strings.** -/
theorem faithful_of_strings {path : String}
    (valid : parametersProblems path (.map declarations) = .ok [])
    (inRange : DeclaresInRange declarations) (texts : DeclaresTexts declarations)
    (distinct : Distinct declarations)
    (strings : ∀ entry ∈ declarations, entry.1.string?.isSome = true) (requiredDefault : Bool) :
    ∃ parameters, extractParameters requiredDefault (.map declarations) = .ok parameters ∧
      Faithful requiredDefault declarations parameters := by
  obtain ⟨own, faithful⟩ := exists_faithful requiredDefault inRange texts valid
  have apart : (own.map (·.1)).Nodup := faithful.names ▸ nodup_texts_of_strings distinct strings
  refine ⟨own, Faithful.extractParameters_eq_ok_iff.mpr ⟨own, faithful, ?_⟩, faithful⟩
  exact (gathered_of_nodup apart).symm

/-- **What a mapping without problems makes of its declarations.**  It makes parameters exactly if
what is written of the declarations has texts.  Every declaration makes a parameter then, and of
those with the same name the last one stands in the place of the first.  So there is one parameter
for each declaration, made of it, exactly if the texts of the keys differ. -/
theorem faithful_iff_nodup {path : String}
    (valid : parametersProblems path (.map declarations) = .ok [])
    (inRange : DeclaresInRange declarations) (requiredDefault : Bool) :
    (Succeeds (extractParameters requiredDefault (.map declarations)) ↔
      DeclaresTexts declarations) ∧
    ∀ parameters, extractParameters requiredDefault (.map declarations) = .ok parameters →
      ∃ own, Faithful requiredDefault declarations own ∧
      parameters.map (·.1) = (entryNames (.map declarations)).eraseDups ∧
      (∀ name, parameters.lookup name = own.reverse.lookup name) ∧
      (Faithful requiredDefault declarations parameters ↔
        (entryNames (.map declarations)).Nodup) := by
  refine ⟨⟨?_, fun texts => ?_⟩, fun parameters extracted => ?_⟩
  · rintro ⟨parameters, extracted⟩
    obtain ⟨own, faithful, -⟩ := Faithful.extractParameters_eq_ok_iff.mp extracted
    exact faithful.declaresTexts
  · obtain ⟨own, faithful⟩ := exists_faithful requiredDefault inRange texts valid
    exact ⟨_, Faithful.extractParameters_eq_ok_iff.mpr ⟨own, faithful, rfl⟩⟩
  · obtain ⟨own, faithful, rfl⟩ := Faithful.extractParameters_eq_ok_iff.mp extracted
    refine ⟨own, faithful, ?_, lookup_gathered own, ?_⟩
    · rw [keys_gathered, faithful.names]
    · rw [← faithful.names, ← gathered_eq_iff]
      constructor
      · exact fun other => other.unique faithful
      · intro whole
        rwa [whole]

/-- A mapping of which the last key has the text of the first, and another holds limits. -/
def numbered : Entries :=
  [(.int 1, .map [(.text "type", .text "integer")]),
    (.null, .list [.null, .map [(.text "type", .text "number"),
      (.text "minimum", .scalar (.int (-5)))]]),
    (.text "1", .map [(.text "type", .text "string")])]

theorem declaresInRange_numbered : DeclaresInRange numbered := by
  have noLimit (kind name : String) (isLimit : name ∈ ["minimum", "maximum"]) :
      Entries.get [(.text "type", .text kind)] name = .null := by
    simp only [List.mem_cons, List.not_mem_nil, or_false] at isLimit
    rcases isLimit with rfl | rfl <;> rfl
  intro entry member name isLimit n same
  simp only [numbered, List.mem_cons, List.not_mem_nil, or_false] at member
  rcases member with rfl | rfl | rfl
  · cases (noLimit "integer" name isLimit).symm.trans same
  · simp only [List.mem_cons, List.not_mem_nil, or_false] at isLimit
    rcases isLimit with rfl | rfl
    · cases same
      unfold Binary64.IsInRange
      decide
    · cases same
  · cases (noLimit "string" name isLimit).symm.trans same

theorem declaresTexts_numbered : DeclaresTexts numbered := by
  unfold DeclaresTexts HaveTexts
  decide +kernel

theorem faithful_iff_nodup_numbered : ∃ own parameters, Faithful false numbered own ∧
    extractParameters false (.map numbered) = .ok parameters ∧
    parameters.map (·.1) = (entryNames (.map numbered)).eraseDups ∧
    (∀ name, parameters.lookup name = own.reverse.lookup name) ∧
    (Faithful false numbered parameters ↔ (entryNames (.map numbered)).Nodup) := by
  have valid : parametersProblems "queryParameters" (.map numbered) = .ok [] := by decide +kernel
  obtain ⟨succeeds, all⟩ := faithful_iff_nodup valid declaresInRange_numbered false
  obtain ⟨parameters, extracted⟩ := succeeds.mpr declaresTexts_numbered
  obtain ⟨own, faithful, names, last, each⟩ := all parameters extracted
  exact ⟨own, parameters, faithful, extracted, names, last, each⟩

/-- A number and a text, of which the texts are the same. -/
def twice : Entries :=
  [(.int 1, .map [(.text "type", .text "integer")]),
    (.text "1", .map [(.text "type", .text "string")])]

/-- **A parameter is lost.**  The keys differ and there is no problem, but two declarations make one
parameter, in the place of the first and of the kind of the second. -/
theorem not_faithful_twice : Distinct twice ∧
    parametersProblems "queryParameters" (.map twice) = .ok [] ∧
    extractParameters false (.map twice) = .ok [("1", { kind := some "string" })] ∧
    ¬ ∃ parameters, extractParameters false (.map twice) = .ok parameters ∧
      Faithful false twice parameters := by
  have extracted :
      extractParameters false (.map twice) = .ok [("1", { kind := some "string" })] := by rfl
  refine ⟨?_, by decide +kernel, extracted, ?_⟩
  · unfold Distinct
    decide
  · rintro ⟨parameters, same, faithful⟩
    cases extracted.symm.trans same
    cases faithful with
    | cons _ rest => cases rest

end RamlInterfaces.Raml
