/-
**Arguments of methods.**

The parameters of an action become the parameters of its method one after the other.  Each has its
variable, the annotation that binds it, and a tag in the comment of the method.

* `Argument`, `argumentsOf`: the parameters of a method under the names of their variables;
* `declareParameter_decides`: **a parameter is declared unless its variable is taken or its enum
  cannot be asked for**;
* `constrain_decides`: its constraints need finite limits;
* `addParameters_decides`: **the parameters of an action are added exactly if each is clear after
  those before it**.
-/

import RamlInterfaces.Proofs.Generation.Enums

namespace RamlInterfaces.Generation

open Java
open Settings (Configuration)

/-! ### Arguments -/

/-- A parameter of a method under the name of its variable. -/
structure Argument where
  name : String
  location : Location
  key : String
  parameter : Raml.Parameter

/-- The annotation that binds a parameter. -/
def bindingMark (location : Location) (key : String) : Annotation :=
  ⟨location.binding, [("value", .text key)]⟩

namespace Argument

/-- The variable with the annotation that binds it. -/
def outline (argument : Argument) : String × List Annotation :=
  (argument.name, [bindingMark argument.location argument.key])

/-- The tag in the comment of the method. -/
def tag (argument : Argument) : String × String :=
  (argument.name, parameterDoc argument.parameter)

/-- The enum that is asked for. -/
def requests (argument : Argument) : List Request := requestsOf argument.name argument.parameter

/-- The argument for a parameter after the given number of others. -/
def ofEntry (index : Nat) (entry : Location × String × Raml.Parameter) : Argument where
  name := argumentName entry.2.1 (index + 1)
  location := entry.1
  key := entry.2.1
  parameter := entry.2.2

/-- A declared parameter is what its argument has, and the name is that of its place. -/
theorem exists_ofEntry (index : Nat) (entry : Location × String × Raml.Parameter) :
    ∃ argument, ofEntry index entry = argument ∧
      entry = (argument.location, argument.key, argument.parameter) ∧
      argumentName argument.key (index + 1) = argument.name := by
  refine ⟨_, rfl, rfl, ?_⟩
  simp only [ofEntry]

end Argument

/-- The arguments for parameters, in order. -/
def argumentsOf (entries : List (Location × String × Raml.Parameter)) : List Argument :=
  entries.mapIdx Argument.ofEntry

theorem argumentsOf_concat (entries : List (Location × String × Raml.Parameter))
    (entry : Location × String × Raml.Parameter) :
    argumentsOf (entries ++ [entry]) =
      argumentsOf entries ++ [Argument.ofEntry (argumentsOf entries).length entry] := by
  unfold argumentsOf
  rw [List.mapIdx_concat, List.length_mapIdx]

/-- The outline of a method with the given arguments. -/
def MethodOutline.withArguments (method : MethodOutline) (arguments : List Argument) :
    MethodOutline :=
  { method with parameters := arguments.map (·.outline), tags := arguments.map (·.tag) }

/-- The name of a variable is not empty. -/
theorem argumentName_isEmpty (key : String) (position : Nat) :
    (argumentName key position).isEmpty = false := by
  unfold argumentName
  extract_lets name
  by_cases empty : name.isEmpty = true
  · rw [if_pos empty]
    simp
  · rw [if_neg empty]
    exact Bool.not_eq_true _ ▸ empty

/-! ### Adding a parameter -/

variable {configuration : Configuration} {done : List Outline} {outline : Outline}
  {method : MethodOutline}

theorem isBinding_bindingMark (location : Location) (key : String) :
    isBinding (bindingMark location key) = true := by
  cases location <;> rfl

theorem isBinding_constraint (c : Constraint) (elements : List (String × ElementValue)) :
    isBinding ⟨c.type, elements⟩ = false := by
  cases c <;> rfl

theorem parameterCount_decides :
    Decides (Reached configuration (done ++ [outline.addMethod method]))
      (parameterCount (lastMethod configuration.basePackage outline)) True fun count session =>
        count = method.parameters.length ∧
          Reached configuration (done ++ [outline.addMethod method]) session := by
  refine Decides.get_bind fun seen holds => Decides.pure fun session same => ?_
  rw [same]
  exact ⟨holds.outlined.parameterCount, holds⟩

theorem reportFallback_decides {outlines : List Outline} (methodName : String)
    (location : Location) (key name : String) :
    Decides (Reached configuration outlines) (reportFallback methodName location key name) True
      fun _ => Reached configuration outlines := by
  unfold reportFallback
  split
  · exact report_decides _ _
  · exact Decides.pure fun _ holds => holds

/-- The place of a parameter of the last method. -/
def parameterPlace (base : String) (outline : Outline) (method : MethodOutline) : ParameterPath :=
  ⟨lastMethod base outline, method.parameters.length⟩

theorem annotateParameter_decides {parameter : String × List Annotation} (type : TypeRef)
    (elements : List (String × ElementValue)) :
    Decides (Reached configuration (done ++ [outline.addMethod (method.addParameter parameter)]))
      (Build.annotate (.parameter (parameterPlace configuration.basePackage outline method)) type
        elements) True
      fun _ => Reached configuration (done ++ [outline.addMethod (method.addParameter
        (parameter.1, parameter.2 ++ [⟨type, elements⟩].filter isBinding))]) :=
  change_decides rfl rfl fun _ _ outlined => outlined.annotateParameter ⟨type, elements⟩

/-- An annotation that does not bind a parameter is not in the outline. -/
theorem annotatePlain_decides {parameter : String × List Annotation} {type : TypeRef}
    {elements : List (String × ElementValue)} (plain : isBinding ⟨type, elements⟩ = false) :
    Decides (Reached configuration (done ++ [outline.addMethod (method.addParameter parameter)]))
      (Build.annotate (.parameter (parameterPlace configuration.basePackage outline method)) type
        elements) True
      fun _ => Reached configuration
        (done ++ [outline.addMethod (method.addParameter parameter)]) := by
  have unchanged : (parameter.1, parameter.2 ++ [⟨type, elements⟩].filter isBinding) =
      parameter := by
    rw [List.filter_cons_of_neg (by rw [plain]; exact Bool.false_ne_true), List.filter_nil,
      List.append_nil]
  refine (annotateParameter_decides type elements).mono (fun _ holds => holds)
    fun _ session there => ?_
  rw [unchanged] at there
  exact there

/-- A variable is added unless the method has one of its name. -/
theorem addVariable_decides {arguments : List Argument} {name : String}
    (named : name.isEmpty = false) (type : TypeRef) :
    Decides (Reached configuration (done ++ [outline.addMethod (method.withArguments arguments)]))
      (Build.attempt fun model =>
        model.addParameter (lastMethod configuration.basePackage outline) type name)
      (name ∉ arguments.map (·.name)) fun place session =>
        place = parameterPlace configuration.basePackage outline (method.withArguments arguments) ∧
          Reached configuration (done ++ [outline.addMethod
            ((method.withArguments arguments).addParameter (name, []))]) session := by
  have names : (method.withArguments arguments).parameters.map Prod.fst =
      arguments.map (·.name) := List.map_map
  rw [← names]
  refine Decides.attempt fun session holds => ?_
  exact (holds.outlined.addParameter named type).mono fun next _ outlined =>
    ⟨outlined.1, Reached.change holds outlined.2 rfl rfl⟩

/-- The annotation that binds a parameter is put on it. -/
theorem bindParameter_decides (name : String) (location : Location) (key : String) :
    Decides
      (Reached configuration (done ++ [outline.addMethod (method.addParameter (name, []))]))
      (Build.annotate (.parameter (parameterPlace configuration.basePackage outline method))
        location.binding [("value", .text key)]) True
      fun _ => Reached configuration
        (done ++ [outline.addMethod (method.addParameter (name, [bindingMark location key]))]) := by
  refine (annotateParameter_decides _ _).mono (fun _ holds => holds) fun _ session there => ?_
  have binds : [bindingMark location key].filter isBinding = [bindingMark location key] :=
    List.filter_cons_of_pos (isBinding_bindingMark location key)
  rw [← binds]
  exact there

theorem annotateDefault_decides {parameter : String × List Annotation} (p : Raml.Parameter) :
    Decides (Reached configuration (done ++ [outline.addMethod (method.addParameter parameter)]))
      (annotateDefault p (.parameter (parameterPlace configuration.basePackage outline method)))
        True
      fun _ =>
        Reached configuration (done ++ [outline.addMethod (method.addParameter parameter)]) := by
  unfold annotateDefault
  split
  · exact annotatePlain_decides rfl
  · exact Decides.pure fun _ holds => holds

section Declaration

variable (asked : List Request) (arguments : List Argument) {argument : Argument}

/-- The type of a parameter is there exactly when its enum can be asked for. -/
theorem typeArgument_decides (argument : Argument) :
    Decides (Reached configuration
        (done ++ [(outline.withEnums asked).addMethod (method.withArguments arguments)]))
      (inferType argument.parameter argument.name
        (some (interfaceOf configuration.basePackage outline.name)))
      (Throughout (Admits outline.name) asked argument.requests)
      fun _ => Reached configuration (done ++
        [(outline.withEnums (asked ++ argument.requests)).addMethod
          (method.withArguments arguments)]) :=
  inferType_decides (outline.addMethod (method.withArguments arguments)) asked argument.parameter
    argument.name

/-- The variable of a parameter is added unless it is taken. -/
theorem addArgument_decides (named : argument.name.isEmpty = false) (type : TypeRef) :
    Decides (Reached configuration (done ++
        [(outline.withEnums asked).addMethod (method.withArguments arguments)]))
      (Build.attempt fun model =>
        model.addParameter (lastMethod configuration.basePackage outline) type argument.name)
      (argument.name ∉ arguments.map (·.name)) fun result session =>
        result = parameterPlace configuration.basePackage outline (method.withArguments arguments) ∧
          Reached configuration (done ++ [(outline.withEnums asked).addMethod
            ((method.withArguments arguments).addParameter (argument.name, []))]) session :=
  addVariable_decides named type

/-- **A parameter is declared unless its variable is taken or its enum cannot be asked for.** -/
theorem declareParameter_decides (methodName : String)
    (position : argumentName argument.key (arguments.length + 1) = argument.name) :
    Decides (Reached configuration
        (done ++ [(outline.withEnums asked).addMethod (method.withArguments arguments)]))
      (declareParameter (interfaceOf configuration.basePackage outline.name)
        (lastMethod configuration.basePackage outline) methodName argument.location argument.key
        argument.parameter)
      (Throughout (Admits outline.name) asked argument.requests ∧
        argument.name ∉ arguments.map (·.name))
      fun declared session => declared = (argument.name,
          parameterPlace configuration.basePackage outline (method.withArguments arguments)) ∧
        Reached configuration (done ++ [(outline.withEnums (asked ++ argument.requests)).addMethod
          ((method.withArguments arguments).addParameter argument.outline)]) session := by
  have named : argument.name.isEmpty = false := position ▸ argumentName_isEmpty _ _
  refine parameterCount_decides.andThen fun count => Decides.assuming fun isCount => ?_
  have counted : count = arguments.length := isCount.trans (List.length_map _)
  rw [counted, position]
  refine (reportFallback_decides _ _ _ _).andThen fun _ =>
    (typeArgument_decides asked arguments argument).bind fun type => ?_
  refine (addArgument_decides (asked ++ argument.requests) arguments named type).close
    fun result => Decides.assuming fun isPlace => ?_
  rw [isPlace]
  refine (bindParameter_decides argument.name argument.location argument.key).andThen fun _ => ?_
  refine (annotateDefault_decides argument.parameter).andThen fun _ => ?_
  exact Decides.pure fun _ holds => ⟨rfl, holds⟩

end Declaration

/-- The constraints of a parameter are not in the outline. -/
theorem constrain_leads_reached {parameter : String × List Annotation} (p : Raml.Parameter) :
    let reached :=
      Reached configuration (done ++ [outline.addMethod (method.addParameter parameter)])
    Leads reached
      (constrain p (.parameter (parameterPlace configuration.basePackage outline method)))
      fun _ => reached := by
  intro reached
  let site : Site := .parameter (parameterPlace configuration.basePackage outline method)
  have round (c : Constraint) : Leads reached (annotateConstraint site c) fun _ => reached := by
    have annotated (elements : List (String × ElementValue)) :
        Leads reached (Build.annotate site c.type elements) fun _ => reached :=
      (annotatePlain_decides (isBinding_constraint c elements)).leads
    unfold annotateConstraint
    split
    · exact annotated _
    · exact (annotated _).bind fun _ => Leads.throw _
  refine Leads.get_bind fun seen holds => ?_
  split
  · exact ((Leads.forIn fun c _ => round c).start holds).bind fun _ =>
      Leads.pure fun _ there => there
  · refine Leads.pure fun session same => ?_
    rw [same]
    exact holds

/-- **The constraints of a parameter need finite limits where they are wanted.** -/
theorem constrain_decides {parameter : String × List Annotation} (p : Raml.Parameter) :
    Decides (Reached configuration (done ++ [outline.addMethod (method.addParameter parameter)]))
      (constrain p (.parameter (parameterPlace configuration.basePackage outline method)))
      (¬ (configuration.constraints = true ∧ HasInfiniteLimit p))
      fun _ =>
        Reached configuration (done ++ [outline.addMethod (method.addParameter parameter)]) := by
  refine (constrain_leads_reached p).decides fun session failure holds => ?_
  rw [constrain_fails_iff, holds.settings, not_not]
  constructor
  · rintro ⟨wanted, isLimit, infinite⟩
    exact ⟨isLimit, wanted, infinite⟩
  · rintro ⟨isLimit, wanted, infinite⟩
    exact ⟨wanted, isLimit, infinite⟩

/-- **A parameter is added** if it is declared and its limits are finite. -/
theorem addParameter_decides (asked : List Request) (arguments : List Argument)
    (methodName : String) {argument : Argument}
    (position : argumentName argument.key (arguments.length + 1) = argument.name) :
    Decides (Reached configuration
        (done ++ [(outline.withEnums asked).addMethod (method.withArguments arguments)]))
      (addParameter (interfaceOf configuration.basePackage outline.name)
        (lastMethod configuration.basePackage outline) methodName argument.location argument.key
        argument.parameter)
      ((Throughout (Admits outline.name) asked argument.requests ∧
        argument.name ∉ arguments.map (·.name)) ∧
          ¬ (configuration.constraints = true ∧ HasInfiniteLimit argument.parameter))
      fun _ => Reached configuration (done ++ [(outline.withEnums
        (asked ++ argument.requests)).addMethod
          (method.withArguments (arguments ++ [argument]))]) := by
  let before := method.withArguments arguments
  let later := outline.withEnums (asked ++ argument.requests)
  let doc := parameterDoc argument.parameter
  have closed : (before.addParameter argument.outline).addTag argument.name doc =
      method.withArguments (arguments ++ [argument]) := by
    unfold MethodOutline.withArguments
    rw [List.map_append, List.map_append]
    rfl
  have tagged (fresh : argument.name ∉ arguments.map (·.name)) :
      Decides
        (Reached configuration (done ++ [later.addMethod (before.addParameter argument.outline)]))
        (Build.change fun model => model.modifyMethodDoc
          (lastMethod configuration.basePackage outline) (·.addTag argument.name doc)) True
        fun _ => Reached configuration
          (done ++ [later.addMethod (method.withArguments (arguments ++ [argument]))]) := by
    have names : before.tags.map Prod.fst = arguments.map (·.name) := List.map_map
    rw [← names] at fresh
    rw [← closed]
    exact change_decides rfl rfl fun _ _ outlined => outlined.addTag fresh doc
  refine (declareParameter_decides asked arguments methodName position).keep.bind fun declared => ?_
  refine Decides.assuming fun free => Decides.assuming fun isDeclared => ?_
  rw [isDeclared]
  exact (constrain_decides argument.parameter).close fun _ => tagged free.2

/-! ### The parameters of an action -/

/-- An argument is clear after others of its method and what was asked for before these: its enum
can be asked for, its variable is new, and its limits are finite where constraints are wanted. -/
def ClearArgument (constrained : Bool) (owner : String) (asked : List Request)
    (arguments : List Argument) (argument : Argument) : Prop :=
  (Throughout (Admits owner) (asked ++ arguments.flatMap (·.requests)) argument.requests ∧
    argument.name ∉ arguments.map (·.name)) ∧
      ¬ (constrained = true ∧ HasInfiniteLimit argument.parameter)

/-- A parameter is clear after others. -/
def ClearParameter (constrained : Bool) (owner : String) (asked : List Request)
    (earlier : List (Location × String × Raml.Parameter))
    (entry : Location × String × Raml.Parameter) : Prop :=
  ClearArgument constrained owner asked (argumentsOf earlier)
    (.ofEntry (argumentsOf earlier).length entry)

/-- The outline of an interface after a method with the given arguments was filled. -/
def Outline.fill (outline : Outline) (asked : List Request) (method : MethodOutline)
    (arguments : List Argument) : Outline :=
  (outline.withEnums (asked ++ arguments.flatMap (·.requests))).addMethod
    (method.withArguments arguments)

/-- A parameter is added if it is clear after the others. -/
theorem parameterRound_decides (asked : List Request) (methodName : String)
    (earlier : List (Location × String × Raml.Parameter))
    (entry : Location × String × Raml.Parameter) :
    Decides (Reached configuration (done ++ [outline.fill asked method (argumentsOf earlier)]))
      (parameterRound (interfaceOf configuration.basePackage outline.name)
        (lastMethod configuration.basePackage outline) methodName entry)
      (ClearParameter configuration.constraints outline.name asked earlier entry) fun _ =>
        Reached configuration
          (done ++ [outline.fill asked method (argumentsOf (earlier ++ [entry]))]) := by
  unfold ClearParameter parameterRound
  rw [argumentsOf_concat]
  obtain ⟨argument, isArgument, isEntry, position⟩ :=
    Argument.exists_ofEntry (argumentsOf earlier).length entry
  have later : outline.fill asked method (argumentsOf earlier ++ [argument]) =
      (outline.withEnums (asked ++ (argumentsOf earlier).flatMap (·.requests) ++
        argument.requests)).addMethod
          (method.withArguments (argumentsOf earlier ++ [argument])) := by
    unfold Outline.fill
    rw [List.flatMap_append, List.flatMap_singleton, List.append_assoc]
  rw [isArgument, later, isEntry]
  exact addParameter_decides _ (argumentsOf earlier) methodName position

/-- **The parameters of an action are added exactly if each is clear after those before it.** -/
theorem addParameters_decides (asked : List Request) (methodName : String)
    (entries : List (Location × String × Raml.Parameter)) :
    Decides (Reached configuration (done ++ [outline.fill asked method []]))
      (forM entries (parameterRound (interfaceOf configuration.basePackage outline.name)
        (lastMethod configuration.basePackage outline) methodName))
      (Throughout (ClearParameter configuration.constraints outline.name asked) [] entries)
      fun _ => Reached configuration (done ++ [outline.fill asked method (argumentsOf entries)]) :=
  Decides.forM (parameterRound_decides asked methodName) [] entries

end RamlInterfaces.Generation
