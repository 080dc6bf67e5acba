/-
**The declarations of parameters.**

A parameter is declared in the method that was begun last: its type, for which an enum may be nested
in the interface, what binds it, its constraints and its default.

* `createEnum_made`, `inferType_made`: **the type of a parameter**;
* `annotateConstraints_made`, `annotateDefault_made`: the annotations of the parameter declared
  last;
* `Filling`: the sessions in which the last interface is filled;
* `addParameter_made`, `addParameters_made`: **the parameters of a method are added**.
-/

import RamlInterfaces.Proofs.Generation.Declarations

namespace RamlInterfaces.Generation

open Java
open Settings (Configuration)

variable {configuration : Configuration} {done : List TypeDecl} {decl : TypeDecl}
  {verbs : List Verb} {outlines : List Outline} {outline : Outline}

/-! ### Types of parameters -/

/-- An interface with the enums that are declared for what is asked for. -/
def withEnums (decl : TypeDecl) (asked : List Request) : TypeDecl :=
  { decl with nested := enumsOf asked }

section Enums

variable {name : String} (fresh : decl.name ∉ done.map (·.name))

include fresh

theorem nest_made (kind : Kind) : Leads (Made configuration (done ++ [decl]) verbs)
    (Build.nest (interfaceOf configuration.basePackage decl.name) name kind) fun path session =>
      Made configuration (done ++ [withNested decl { name, kind }]) verbs session ∧
        path = (interfaceOf configuration.basePackage decl.name).nested name := by
  refine Leads.attempt_map fun session next made nested => ?_
  obtain ⟨-, rfl⟩ := Model.nest_eq_ok_iff.mp nested
  exact ⟨made.change (made.declares.modifyInterface fresh [] (withNested · { name, kind })), rfl⟩

/-- The constants of the enum that was nested last are added. -/
theorem addConstants_made (unknown : name ∉ decl.nested.map (·.name)) (literals : List String) :
    Leads (Made configuration (done ++ [withNested decl (enumDecl name [])]) verbs)
      (forM literals fun literal => Build.attempt fun model =>
        (model.addConstant ((interfaceOf configuration.basePackage decl.name).nested name)
          (constantName literal) literal).map fun model => ((), model))
      fun _ => Made configuration (done ++ [withNested decl (enumDecl name literals)]) verbs := by
  let holds (before : List String) : Session → Prop :=
    Made configuration (done ++ [withNested decl (enumDecl name before)]) verbs
  have round (before : List String) (literal : String) :
      Leads (holds before) (Build.attempt fun model =>
        (model.addConstant ((interfaceOf configuration.basePackage decl.name).nested name)
          (constantName literal) literal).map fun model => ((), model))
        fun _ => holds (before ++ [literal]) := by
    refine Leads.attempt_map fun session next made added => ?_
    obtain ⟨_, -, -, -, rfl⟩ := Model.addConstant_eq_ok_iff.mp added
    have changed := made.declares.modifyInterface fresh [name] fun inner =>
      { inner with constants := inner.constants ++ [⟨constantName literal, literal⟩] }
    rw [modify_withNested_enumDecl unknown] at changed
    exact made.change changed
  exact Leads.forM round [] literals

end Enums

/-- **The enum that is asked for is there**, declared if it was not asked for before. -/
theorem createEnum_made (named : decl.name = outline.name) (fresh : decl.name ∉ done.map (·.name))
    (asked : List Request) (request : Request) :
    Leads
      (fun session => Reached configuration (outlines ++ [outline.withEnums asked]) session ∧
        Made configuration (done ++ [withEnums decl asked]) verbs session)
      (createEnum (interfaceOf configuration.basePackage outline.name) request.name
        request.literals)
      fun path session =>
        Made configuration (done ++ [withEnums decl (asked ++ [request])]) verbs session ∧
          path = (interfaceOf configuration.basePackage outline.name).nested request.name := by
  refine Leads.get_bind fun seen holds => ?_
  obtain ⟨reached, made⟩ := holds
  dsimp only
  rw [reached.find?_asked]
  cases found : asked.find? (·.name == request.name) with
  | some known =>
    have isName : known.name = request.name := by simpa using List.find?_some found
    have same : enumsOf (asked ++ [request]) = enumsOf asked :=
      congrArg Outline.nested (withEnums_concat_of_some outline found)
    show Leads _ (if (enumDecl known.name known.literals).constants.map (·.literal) =
      request.literals then _ else _) _
    split
    · refine Leads.pure fun session isSeen => ?_
      unfold withEnums at made ⊢
      rw [isSeen, same, ← isName]
      exact ⟨made, rfl⟩
    · exact Leads.throw _
  | none =>
    obtain ⟨unknown, later⟩ := withEnums_concat_of_none outline found
    have declared : enumsOf (asked ++ [request]) =
        enumsOf asked ++ [enumDecl request.name request.literals] :=
      congrArg Outline.nested later
    let owner := interfaceOf configuration.basePackage outline.name
    let before := withEnums decl asked
    have noted : Leads
        (Made configuration
          (done ++ [withNested before (enumDecl request.name request.literals)]) verbs)
        (modify fun session : Session => { session with enums := session.enums ++
          [⟨owner.qualifiedName, request.name, request.literals, owner.nested request.name⟩] })
        fun _ => Made configuration (done ++ [withEnums decl (asked ++ [request])]) verbs := by
      unfold withEnums
      rw [declared]
      exact Leads.modify fun _ made => ⟨made.settings, made.known, made.declares⟩
    have nested : Leads (Made configuration (done ++ [before]) verbs)
        (Build.nest owner request.name .enum) fun path session =>
          Made configuration (done ++ [withNested before (enumDecl request.name [])])
            verbs session ∧
            path = owner.nested request.name := by
      have isFresh : before.name ∉ done.map (·.name) := fresh
      unfold owner
      rw [← named]
      exact nest_made isFresh .enum
    have added : Leads
        (Made configuration (done ++ [withNested before (enumDecl request.name [])]) verbs)
        (forM request.literals fun literal => Build.attempt fun model =>
          (model.addConstant (owner.nested request.name) (constantName literal) literal).map
            fun model => ((), model))
        fun _ => Made configuration
          (done ++ [withNested before (enumDecl request.name request.literals)]) verbs := by
      have isFresh : before.name ∉ done.map (·.name) := fresh
      have isUnknown : request.name ∉ before.nested.map (·.name) := unknown
      unfold owner
      rw [← named]
      exact addConstants_made isFresh isUnknown request.literals
    refine (nested.start made).bind fun path => Leads.assuming fun isPath => ?_
    rw [isPath, loop_eq_forM]
    refine added.bind fun _ => noted.bind fun _ => Leads.pure fun _ made => ⟨made, rfl⟩

/-- **The type of a parameter is that of its values.** -/
theorem inferType_made (named : decl.name = outline.name) (fresh : decl.name ∉ done.map (·.name))
    (asked : List Request) (p : Raml.Parameter) (name : String) :
    Leads
      (fun session => Reached configuration (outlines ++ [outline.withEnums asked]) session ∧
        Made configuration (done ++ [withEnums decl asked]) verbs session)
      (inferType p name (some (interfaceOf configuration.basePackage outline.name)))
      fun type session =>
        Made configuration (done ++ [withEnums decl (asked ++ requestsOf name p)]) verbs session ∧
          type = argumentType (interfaceOf configuration.basePackage outline.name) name p := by
  let owner := interfaceOf configuration.basePackage outline.name
  unfold inferType
  split
  · rename_i first rest values
    have requests : requestsOf name p = [⟨typeName name, first :: rest⟩] := by
      unfold requestsOf
      rw [values]
    have type : argumentType owner name p = .declared (owner.nested (typeName name)) := by
      unfold argumentType
      rw [values]
    rw [requests, type]
    refine Leads.get_bind fun seen holds => ?_
    refine ((createEnum_made named fresh asked ⟨typeName name, first :: rest⟩).start holds).bind
      fun path => Leads.pure fun session there => ⟨there.1, ?_⟩
    rw [there.2]
  · rename_i plain
    have scalar : Leads
        (fun session => Reached configuration (outlines ++ [outline.withEnums asked]) session ∧
          Made configuration (done ++ [withEnums decl asked]) verbs session)
        (scalarType p) fun type session =>
          Made configuration (done ++ [withEnums decl asked]) verbs session ∧
            type = (scalarType? p).getD (.named "java.lang.Object") := by
      unfold scalarType
      cases scalarType? p with
      | some type => exact Leads.pure fun _ holds => ⟨holds.2, rfl⟩
      | none =>
        refine ((made_report _ _).mono (fun _ holds => holds.2) fun _ _ made => made).bind
          fun _ => Leads.pure fun _ made => ⟨made, rfl⟩
    refine scalar.bind fun type => Leads.pure fun session there => ?_
    have type : argumentType owner name p =
        (let type := (scalarType? p).getD (.named "java.lang.Object")
          if p.repeated then .narrow "java.util.List" [type] else type) := by
      unfold argumentType
      split
      · rename_i first rest values
        exact (plain first rest values).elim
      · rfl
    rw [there.2, requestsOf_of_plain plain, List.append_nil]
    exact ⟨there.1, type.symm⟩

/-! ### Parameters -/

/-- The place of the next parameter of the method that was declared last. -/
def nextParameter (base : String) (decl : TypeDecl) (method : Method) : ParameterPath :=
  ⟨methodPlace base decl, method.parameters.length⟩

section Parameters

variable {method : Method} (fresh : decl.name ∉ done.map (·.name))

include fresh

theorem addVariable_made (name : String) (type : TypeRef) :
    Leads (Made configuration (done ++ [withMethod decl method]) verbs)
      (Build.attempt fun model =>
        model.addParameter (methodPlace configuration.basePackage decl) type name)
      fun _ => Made configuration
        (done ++ [withMethod decl (withParameter method { name, type })]) verbs := by
  refine Leads.attempt fun session _ model made added => ?_
  obtain ⟨_, -, -, -, -, rfl⟩ := Model.addParameter_eq_ok_iff.mp added
  exact made.change (made.declares.modifyMethod fresh (withParameter · { name, type }))

/-- A parameter with one more annotation. -/
theorem annotateParameter_made {parameter : Parameter} (mark : Annotation) :
    Leads
      (Made configuration (done ++ [withMethod decl (withParameter method parameter)]) verbs)
      (Build.annotate (.parameter (nextParameter configuration.basePackage decl method)) mark.type
        mark.elements)
      fun _ => Made configuration (done ++ [withMethod decl (withParameter method
        { parameter with annotations := parameter.annotations ++ [mark] })]) verbs :=
  made_changeParameter fresh fun declared =>
    { declared with annotations := declared.annotations ++ [mark] }

/-- The annotations for constraints are put on a parameter one after the other. -/
theorem annotateConstraints_made {parameter : Parameter} (p : Raml.Parameter) :
    Leads
      (Made configuration (done ++ [withMethod decl (withParameter method parameter)]) verbs)
      (annotateConstraints p
        (.parameter (nextParameter configuration.basePackage decl method)))
      fun _ => Made configuration (done ++ [withMethod decl (withParameter method
        { parameter with annotations :=
          parameter.annotations ++ (constraints p).map constraintMark })]) verbs := by
  let site : Site := .parameter (nextParameter configuration.basePackage decl method)
  let holds (before : List Constraint) : Session → Prop :=
    Made configuration (done ++ [withMethod decl (withParameter method
      { parameter with annotations := parameter.annotations ++ before.map constraintMark })]) verbs
  have round (before : List Constraint) (c : Constraint) :
      Leads (holds before) (annotateConstraint site c) fun _ => holds (before ++ [c]) := by
    have annotated : Leads (holds before)
        (Build.annotate site c.type (constraintMark c).elements)
        fun _ => holds (before ++ [c]) := by
      unfold holds
      rw [List.map_append, ← List.append_assoc]
      exact annotateParameter_made fresh (constraintMark c)
    unfold annotateConstraint
    unfold constraintMark at annotated
    split
    · rename_i elements isElements
      rw [isElements] at annotated
      exact annotated
    · rename_i defect isDefect
      rw [isDefect] at annotated
      exact annotated.bind fun _ => Leads.throw _
  have start : holds [] =
      Made configuration (done ++ [withMethod decl (withParameter method parameter)]) verbs := by
    unfold holds
    rw [List.map_nil, List.append_nil]
  unfold annotateConstraints
  rw [← start, loop_eq_forM]
  exact (Leads.forM round [] (constraints p)).bind fun _ => Leads.pure fun _ made => made

/-- The constraints of a parameter are put on it where they are wanted. -/
theorem constrain_made {parameter : Parameter} (p : Raml.Parameter) :
    Leads
      (Made configuration (done ++ [withMethod decl (withParameter method parameter)]) verbs)
      (constrain p (.parameter (nextParameter configuration.basePackage decl method)))
      fun _ => Made configuration (done ++ [withMethod decl (withParameter method
        { parameter with annotations := parameter.annotations ++
          if configuration.constraints then (constraints p).map constraintMark else [] })])
            verbs := by
  refine Leads.get_bind fun seen made => ?_
  rw [made.settings]
  split
  · exact (annotateConstraints_made fresh p).start made
  · refine Leads.pure fun session same => ?_
    rw [same, List.append_nil]
    exact made

theorem annotateDefault_made {parameter : Parameter} (p : Raml.Parameter) :
    Leads
      (Made configuration (done ++ [withMethod decl (withParameter method parameter)]) verbs)
      (annotateDefault p (.parameter (nextParameter configuration.basePackage decl method)))
      fun _ => Made configuration (done ++ [withMethod decl (withParameter method
        { parameter with annotations :=
          parameter.annotations ++ (p.default.map defaultMark).toList })]) verbs := by
  unfold annotateDefault
  cases p.default with
  | some default => exact annotateParameter_made fresh (defaultMark default)
  | none =>
    refine Leads.pure fun session made => ?_
    rw [Option.map_none, Option.toList_none, List.append_nil]
    exact made

end Parameters

/-- A session that fills the last method of its last interface. -/
def Filling (configuration : Configuration) (outlines : List Outline) (outline : Outline)
    (done : List TypeDecl) (decl : TypeDecl) (verbs : List Verb) (session : Session) : Prop :=
  Reached configuration (outlines ++ [outline]) session ∧
    Made configuration (done ++ [decl]) verbs session

/-- A variable is declared with its type. -/
theorem declareVariable_made (shows : Shows outline decl) (fresh : decl.name ∉ done.map (·.name))
    {shown : MethodOutline} {method : Method} (asked : List Request) (arguments : List Argument)
    (counts : method.parameters.length = arguments.length) {name : String}
    (named : name.isEmpty = false) (p : Raml.Parameter) :
    let owner := interfaceOf configuration.basePackage outline.name
    Leads
      (Filling configuration outlines
        ((outline.withEnums asked).addMethod (shown.withArguments arguments))
        done (withMethod (withEnums decl asked) method) verbs)
      (do
        let type ← inferType p name (some owner)
        Build.attempt fun model =>
          model.addParameter (lastMethod configuration.basePackage outline) type name)
      fun place session =>
        Made configuration (done ++ [withMethod (withEnums decl (asked ++ requestsOf name p))
          (withParameter method { name, type := argumentType owner name p })]) verbs session ∧
        place = nextParameter configuration.basePackage decl method := by
  intro owner
  let base := configuration.basePackage
  let later := asked ++ requestsOf name p
  let type := argumentType owner name p
  let shownBefore := shown.withArguments arguments
  have place : parameterPlace base outline shownBefore = nextParameter base decl method := by
    unfold parameterPlace nextParameter
    rw [shows.place, counts]
    exact congrArg _ (List.length_map _)
  have typed : Leads
      (Filling configuration outlines ((outline.withEnums asked).addMethod shownBefore)
        done (withMethod (withEnums decl asked) method) verbs)
      (inferType p name (some owner)) fun result session =>
        Filling configuration outlines ((outline.withEnums later).addMethod shownBefore)
          done (withMethod (withEnums decl later) method) verbs session ∧ result = type := by
    have reached : Leads
        (Reached configuration (outlines ++ [(outline.withEnums asked).addMethod shownBefore]))
        (inferType p name (some owner)) fun _ =>
          Reached configuration (outlines ++ [(outline.withEnums later).addMethod shownBefore]) :=
      (inferType_decides (outline.addMethod shownBefore) asked p name).leads
    have sameName : (withMethod decl method).name = (outline.addMethod shownBefore).name :=
      shows.name
    have made : Leads
        (Filling configuration outlines ((outline.withEnums asked).addMethod shownBefore)
          done (withMethod (withEnums decl asked) method) verbs)
        (inferType p name (some owner)) fun result session =>
          Made configuration (done ++ [withMethod (withEnums decl later) method]) verbs session ∧
            result = type :=
      inferType_made sameName fresh asked p name
    exact (reached.and made).mono (fun _ holds => holds)
      fun result session there => ⟨⟨there.1, there.2.1⟩, there.2.2⟩
  have added : Leads
      (Filling configuration outlines ((outline.withEnums later).addMethod shownBefore)
        done (withMethod (withEnums decl later) method) verbs)
      (Build.attempt fun model => model.addParameter (lastMethod base outline) type name)
      fun result session => Made configuration
        (done ++ [withMethod (withEnums decl later) (withParameter method { name, type })]) verbs
          session ∧ result = nextParameter base decl method := by
    have reached : Leads
        (Reached configuration (outlines ++ [(outline.withEnums later).addMethod shownBefore]))
        (Build.attempt fun model =>
          model.addParameter (lastMethod base (outline.withEnums later)) type name)
        fun result _ => result = parameterPlace base (outline.withEnums later) shownBefore :=
      (addVariable_decides named type).leads.mono (fun _ holds => holds) fun _ _ there => there.1
    have made : Leads
        (Filling configuration outlines ((outline.withEnums later).addMethod shownBefore)
          done (withMethod (withEnums decl later) method) verbs)
        (Build.attempt fun model => model.addParameter (lastMethod base outline) type name)
        fun _ => Made configuration
          (done ++ [withMethod (withEnums decl later) (withParameter method { name, type })])
            verbs := by
      have isFresh : (withEnums decl later).name ∉ done.map (·.name) := fresh
      rw [shows.place]
      exact (addVariable_made isFresh name type).mono (fun _ holds => holds.2) fun _ _ made => made
    exact (reached.and made).mono (fun _ holds => holds)
      fun result session there => ⟨there.2, there.1.trans place⟩
  refine typed.bind fun result => Leads.assuming fun isType => ?_
  rw [isType]
  exact added

/-- The declaration of a parameter without its constraints. -/
def Argument.declared (owner : TypePath) (argument : Argument) : Parameter where
  name := argument.name
  type := argumentType owner argument.name argument.parameter
  annotations := [bindingMark argument.location argument.key] ++
    (argument.parameter.default.map defaultMark).toList

/-- **A parameter is declared** with its type, the annotation that binds it and its default. -/
theorem declareParameter_made (shows : Shows outline decl) (fresh : decl.name ∉ done.map (·.name))
    {shown : MethodOutline} {method : Method} (asked : List Request) (arguments : List Argument)
    (counts : method.parameters.length = arguments.length) (methodName : String)
    {argument : Argument}
    (position : argumentName argument.key (arguments.length + 1) = argument.name) :
    let owner := interfaceOf configuration.basePackage outline.name
    Leads
      (Filling configuration outlines
        ((outline.withEnums asked).addMethod (shown.withArguments arguments)) done
        (withMethod (withEnums decl asked) method) verbs)
      (declareParameter owner (lastMethod configuration.basePackage outline) methodName
        argument.location argument.key argument.parameter)
      fun result session =>
        Made configuration (done ++ [withMethod (withEnums decl (asked ++ argument.requests))
          (withParameter method (argument.declared owner))]) verbs session ∧
        result = (argument.name, nextParameter configuration.basePackage decl method) := by
  intro owner
  let base := configuration.basePackage
  let p := argument.parameter
  let later := withEnums decl (asked ++ argument.requests)
  let place := nextParameter base decl method
  let filling := Filling configuration outlines
    ((outline.withEnums asked).addMethod (shown.withArguments arguments)) done
    (withMethod (withEnums decl asked) method) verbs
  let made (annotations : List Annotation) : Session → Prop :=
    Made configuration (done ++ [withMethod later (withParameter method
      { name := argument.name, type := argumentType owner argument.name p, annotations })]) verbs
  let binding := [bindingMark argument.location argument.key]
  have isFresh : later.name ∉ done.map (·.name) := fresh
  have named : argument.name.isEmpty = false := position ▸ argumentName_isEmpty _ _
  have counted : Leads filling (parameterCount (lastMethod base outline)) fun count session =>
      filling session ∧ count = arguments.length := by
    refine Leads.get_bind fun seen holds => Leads.pure fun session same => ?_
    rw [same]
    exact ⟨holds, holds.1.outlined.parameterCount.trans (List.length_map _)⟩
  have reported : Leads filling
      (reportFallback methodName argument.location argument.key argument.name)
      fun _ => filling := by
    refine (reportFallback_decides _ _ _ _).leads.and ?_
    unfold reportFallback
    split
    · exact (made_report _ _).mono (fun _ holds => holds.2) fun _ _ made => made
    · exact Leads.pure fun _ holds => holds.2
  have declared : Leads filling
      (do
        let type ← inferType p argument.name (some owner)
        Build.attempt fun model =>
          model.addParameter (lastMethod base outline) type argument.name)
      fun result session => made [] session ∧ result = place :=
    declareVariable_made shows fresh asked arguments counts named p
  have bound : Leads (made [])
      (Build.annotate (.parameter place) argument.location.binding
        [("value", .text argument.key)]) fun _ => made binding :=
    annotateParameter_made isFresh (bindingMark argument.location argument.key)
  have defaulted : Leads (made binding) (annotateDefault p (.parameter place))
      fun _ => made (binding ++ (p.default.map defaultMark).toList) :=
    annotateDefault_made isFresh p
  have whole : declareParameter owner (lastMethod base outline) methodName argument.location
      argument.key p = (do
        let count ← parameterCount (lastMethod base outline)
        let name := argumentName argument.key (count + 1)
        reportFallback methodName argument.location argument.key name
        let parameter ← (do
          let type ← inferType p name (some owner)
          Build.attempt fun model => model.addParameter (lastMethod base outline) type name)
        Build.annotate (.parameter parameter) argument.location.binding
          [("value", .text argument.key)]
        annotateDefault p (.parameter parameter)
        return (name, parameter)) := by
    unfold declareParameter
    simp only [bind_assoc]
  rw [whole]
  refine counted.bind fun count => Leads.assuming fun isCount => ?_
  rw [isCount]
  dsimp only
  rw [position]
  refine reported.bind fun _ => declared.bind fun result => Leads.assuming fun isPlace => ?_
  rw [isPlace]
  exact bound.bind fun _ => defaulted.bind fun _ => Leads.pure fun _ made => ⟨made, rfl⟩

/-- **A parameter is added** with its constraints and its tag. -/
theorem addParameter_made (shows : Shows outline decl) (fresh : decl.name ∉ done.map (·.name))
    {shown : MethodOutline} {method : Method} (asked : List Request) (arguments : List Argument)
    (methodName : String) {argument : Argument}
    (position : argumentName argument.key (arguments.length + 1) = argument.name) :
    let owner := interfaceOf configuration.basePackage outline.name
    let constrained := configuration.constraints
    Leads
      (Filling configuration outlines
        ((outline.withEnums asked).addMethod (shown.withArguments arguments)) done
        (withMethod (withEnums decl asked) (withArguments owner constrained method arguments))
          verbs)
      (addParameter owner (lastMethod configuration.basePackage outline) methodName
        argument.location argument.key argument.parameter)
      fun _ => Made configuration (done ++ [withMethod (withEnums decl (asked ++ argument.requests))
        (withArguments owner constrained method (arguments ++ [argument]))]) verbs := by
  intro owner constrained
  let base := configuration.basePackage
  let before := withArguments owner constrained method arguments
  let later := withEnums decl (asked ++ argument.requests)
  let doc := parameterDoc argument.parameter
  let made (parameter : Parameter) : Session → Prop :=
    Made configuration (done ++ [withMethod later (withParameter before parameter)]) verbs
  have isFresh : later.name ∉ done.map (·.name) := fresh
  have limited : Leads (made (argument.declared owner))
      (constrain argument.parameter (.parameter (nextParameter base decl before)))
      fun _ => made (argument.declaration owner constrained) :=
    constrain_made isFresh argument.parameter
  have closed : withArguments owner constrained method (arguments ++ [argument]) =
      let added := withParameter before (argument.declaration owner constrained)
      { added with doc := added.doc.addTag argument.name doc } := by
    unfold withArguments
    rw [List.map_append, List.foldl_append]
    rfl
  have tagged : Leads (made (argument.declaration owner constrained))
      (Build.change fun model => model.modifyMethodDoc (lastMethod base outline)
        (·.addTag argument.name doc))
      fun _ => Made configuration
        (done ++
          [withMethod later (withArguments owner constrained method (arguments ++ [argument]))])
          verbs := by
    rw [shows.place, closed]
    exact made_changeMethod isFresh fun declared =>
      { declared with doc := declared.doc.addTag argument.name doc }
  refine (declareParameter_made shows fresh asked arguments (List.length_map _) methodName
    position).bind fun result => Leads.assuming fun isResult => ?_
  rw [isResult]
  exact limited.bind fun _ => tagged

/-- The parameters of an action are added one after the other. -/
theorem addParameters_made (shows : Shows outline decl) (fresh : decl.name ∉ done.map (·.name))
    {shown : MethodOutline} {method : Method} (asked : List Request) (methodName : String)
    (entries : List (Location × String × Raml.Parameter)) :
    let owner := interfaceOf configuration.basePackage outline.name
    let filled (arguments : List Argument) : TypeDecl :=
      withMethod (withEnums decl (asked ++ arguments.flatMap (·.requests)))
        (withArguments owner configuration.constraints method arguments)
    Leads
      (Filling configuration outlines (outline.fill asked shown []) done (filled []) verbs)
      (forM entries
        (parameterRound owner (lastMethod configuration.basePackage outline) methodName))
      fun _ => Made configuration (done ++ [filled (argumentsOf entries)]) verbs := by
  intro owner filled
  let holds (earlier : List (Location × String × Raml.Parameter)) : Session → Prop :=
    Filling configuration outlines (outline.fill asked shown (argumentsOf earlier)) done
      (filled (argumentsOf earlier)) verbs
  have round (earlier : List (Location × String × Raml.Parameter))
      (entry : Location × String × Raml.Parameter) :
      Leads (holds earlier)
        (parameterRound owner (lastMethod configuration.basePackage outline) methodName entry)
        fun _ => holds (earlier ++ [entry]) := by
    refine (parameterRound_decides asked methodName earlier entry).leads.and ?_
    rw [argumentsOf_concat]
    obtain ⟨argument, isArgument, isEntry, position⟩ :=
      Argument.exists_ofEntry (argumentsOf earlier).length entry
    have later : filled (argumentsOf earlier ++ [argument]) =
        withMethod (withEnums decl
          (asked ++ (argumentsOf earlier).flatMap (·.requests) ++ argument.requests))
          (withArguments owner configuration.constraints method
            (argumentsOf earlier ++ [argument])) := by
      unfold filled
      rw [List.flatMap_append, List.flatMap_singleton, List.append_assoc]
    unfold parameterRound
    rw [isArgument, later, isEntry]
    exact addParameter_made shows fresh _ (argumentsOf earlier) methodName position
  exact (Leads.forM round [] entries).mono (fun _ holds => holds) fun _ _ holds => holds.2

end RamlInterfaces.Generation
