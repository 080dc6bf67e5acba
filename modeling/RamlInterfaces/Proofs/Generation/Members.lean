/-
**Members of the interface that was declared last.**

* `Outline.addMethod`, `Outline.addNested`, `MethodOutline.addParameter`: outlines with one more
  member;
* `Outlined.modifyMethod`, `Outlined.annotateParameter`: **a change in the last method or its last
  parameter**;
* `Outlined.addMethod`, `Outlined.addParameter`: a new method and a new parameter;
* `Outlined.nest`, `Outlined.addConstant`: a new nested type and a new constant of it.
-/

import RamlInterfaces.Proofs.Generation.Outline

namespace RamlInterfaces.Generation

open Java

/-- The outline with one more method. -/
def Outline.addMethod (outline : Outline) (method : MethodOutline) : Outline :=
  { outline with methods := outline.methods ++ [method] }

/-- The outline with one more nested type. -/
def Outline.addNested (outline : Outline) (inner : TypeDecl) : Outline :=
  { outline with nested := outline.nested ++ [inner] }

/-- The outline with one more annotation. -/
def Outline.annotate (outline : Outline) (mark : Annotation) : Outline :=
  { outline with annotations := outline.annotations ++ [mark] }

namespace MethodOutline

/-- The outline with one more annotation. -/
def annotate (method : MethodOutline) (mark : Annotation) : MethodOutline :=
  { method with annotations := method.annotations ++ [mark] }

/-- The outline with one more parameter. -/
def addParameter (method : MethodOutline) (parameter : String × List Annotation) : MethodOutline :=
  { method with parameters := method.parameters ++ [parameter] }

/-- The outline with one more tag. -/
def addTag (method : MethodOutline) (name text : String) : MethodOutline :=
  { method with tags := method.tags ++ [(name, text)] }

end MethodOutline

/-- A tag for a name that has none comes last. -/
theorem putNamed_of_notMem {α : Type} {entries : List (String × α)} {name : String} {value : α}
    (fresh : name ∉ entries.map Prod.fst) :
    putNamed entries name value = entries ++ [(name, value)] := by
  induction entries with
  | nil => rfl
  | cons entry rest ih =>
    obtain ⟨first, old⟩ := entry
    rw [List.map_cons, List.mem_cons, not_or] at fresh
    unfold putNamed
    rw [if_neg fun same => fresh.1 same.symm, ih fresh.2]
    rfl

theorem outlineOf_methods (decl : TypeDecl) (methods : List Method) :
    outlineOf { decl with methods } =
      { outlineOf decl with methods := methods.map methodOutline } := rfl

theorem methodOutline_parameters (method : Method) (parameters : List Parameter) :
    methodOutline { method with parameters } =
      { methodOutline method with parameters := parameters.map parameterOutline } := rfl

variable {base : String} {done : List Outline} {outline : Outline} {supports : List String}
  {model : Model}

/-! ### The interface itself -/

section Interface

variable (outlined : Outlined base (done ++ [outline]) supports model)

include outlined

/-- The interface that was declared last is found. -/
theorem Outlined.last : ∃ decl,
    model.type? (interfaceOf base outline.name) = some decl ∧ outlineOf decl = outline :=
  outlined.type? (List.mem_append_right _ List.mem_cons_self)

theorem Outlined.annotate (mark : Annotation) :
    Outlined base (done ++ [outline.annotate mark]) supports
      (model.annotate (.type (interfaceOf base outline.name)) mark) :=
  outlined.modifyInterface rfl (fun decl same => by rw [← same]; rfl) fun _ => rfl

/-- The comment of an interface is not in its outline. -/
theorem Outlined.modifyTypeDoc (change : DocComment → DocComment) :
    Outlined base (done ++ [outline]) supports
      (model.modifyTypeDoc (interfaceOf base outline.name) change) :=
  outlined.modifyInterface rfl (fun decl same => by rw [← same]; rfl) fun _ => rfl

/-! ### Methods -/

theorem Outlined.methodCount :
    model.methodCount (interfaceOf base outline.name) = outline.methods.length := by
  obtain ⟨decl, found, same⟩ := outlined.last
  unfold Model.methodCount
  rw [found, ← same]
  exact List.length_map _ |>.symm

/-- The methods of a name in the interface that was declared last. -/
theorem Outlined.methodsNamed_isEmpty (name : String) :
    (model.methodsNamed (interfaceOf base outline.name) name).isEmpty = true ↔
      name ∉ outline.methods.map (·.name) := by
  obtain ⟨decl, found, same⟩ := outlined.last
  unfold Model.methodsNamed
  rw [found, ← same]
  show (decl.methods.filter (·.name == name)).isEmpty = true ↔
    name ∉ (decl.methods.map methodOutline).map (·.name)
  rw [List.map_map, List.isEmpty_iff, List.filter_eq_nil_iff]
  constructor
  · intro none member
    obtain ⟨method, isMethod, same⟩ := List.mem_map.mp member
    exact none method isMethod (beq_iff_eq.mpr same)
  · intro fresh method isMethod same
    exact fresh (List.mem_map.mpr ⟨method, isMethod, beq_iff_eq.mp same⟩)

/-- **A new method.** -/
theorem Outlined.addMethod (name : String) (returnType : TypeRef) :
    Outlined base (done ++ [outline.addMethod { name }]) supports
      (model.addMethod (interfaceOf base outline.name) name returnType).2 :=
  outlined.modifyInterface rfl
    (fun decl same => by
      let added : Method := { name, returnType }
      have split : (decl.methods ++ [added]).map methodOutline =
          decl.methods.map methodOutline ++ [({ name } : MethodOutline)] := List.map_append
      rw [← same]
      show outlineOf { decl with methods := decl.methods ++ [added] } = _
      rw [outlineOf_methods, split]
      rfl)
    fun _ => rfl

end Interface

/-- A change of the last item of a list. -/
theorem map_modify_last {α β : Type} {view : α → β} {change : α → α} {items : List α}
    {earlier : List β} {last later : β} (split : items.map view = earlier ++ [last])
    (effect : ∀ item, view item = last → view (change item) = later) :
    (items.modify earlier.length change).map view = earlier ++ [later] := by
  induction earlier generalizing items with
  | nil =>
    obtain ⟨item, rfl, same⟩ := List.map_eq_singleton_iff.mp split
    exact congrArg ([·]) (effect item same)
  | cons first rest ih =>
    obtain ⟨item, others, rfl, same, further⟩ := List.map_eq_cons_iff.mp split
    show view item :: (others.modify rest.length change).map view = _
    rw [same, ih further]
    rfl

section Method

variable {method later : MethodOutline}
  (outlined : Outlined base (done ++ [outline.addMethod method]) supports model)

/-- The place of the method that was declared last. -/
def lastMethod (base : String) (outline : Outline) : MethodPath :=
  ⟨interfaceOf base outline.name, outline.methods.length⟩

include outlined

/-- **A change in the last method.** -/
theorem Outlined.modifyMethod {change : Method → Method}
    (effect : ∀ declared, methodOutline declared = method →
      methodOutline (change declared) = later) :
    Outlined base (done ++ [outline.addMethod later]) supports
      (model.modifyMethod (lastMethod base outline) change) :=
  outlined.modifyInterface rfl
    (fun decl same => by
      have split : decl.methods.map methodOutline = outline.methods ++ [method] :=
        congrArg Outline.methods same
      have changed := map_modify_last split effect
      show outlineOf { decl with methods := decl.methods.modify outline.methods.length change } = _
      rw [outlineOf_methods, changed, same]
      rfl)
    fun _ => rfl

/-- The last method is found. -/
theorem Outlined.method? : ∃ declared,
    model.method? (lastMethod base outline) = some declared ∧ methodOutline declared = method := by
  obtain ⟨decl, found, same⟩ := outlined.last
  have split : decl.methods.map methodOutline = outline.methods ++ [method] :=
    congrArg Outline.methods same
  have mapped : (decl.methods.map methodOutline)[outline.methods.length]? = some method := by
    rw [split, List.getElem?_append_right (Nat.le_refl _), Nat.sub_self]
    rfl
  rw [List.getElem?_map, Option.map_eq_some_iff] at mapped
  obtain ⟨declared, isDeclared, isOutline⟩ := mapped
  refine ⟨declared, ?_, isOutline⟩
  show (model.type? (interfaceOf base outline.name)).bind _ = _
  rw [show model.type? (interfaceOf base outline.name) = some decl from found]
  exact isDeclared

theorem Outlined.annotateMethod (mark : Annotation) :
    Outlined base (done ++ [outline.addMethod (method.annotate mark)]) supports
      (model.annotate (.method (lastMethod base outline)) mark) :=
  outlined.modifyMethod fun declared same => by rw [← same]; rfl

/-- The paragraphs of the comment of a method are not in its outline. -/
theorem Outlined.describeMethod (text : String) :
    Outlined base (done ++ [outline.addMethod method]) supports
      (model.modifyMethodDoc (lastMethod base outline) (·.add text)) :=
  outlined.modifyMethod fun declared same => by rw [← same]; rfl

/-- A new tag. -/
theorem Outlined.addTag {name : String} (fresh : name ∉ method.tags.map Prod.fst) (text : String) :
    Outlined base (done ++ [outline.addMethod (method.addTag name text)]) supports
      (model.modifyMethodDoc (lastMethod base outline) (·.addTag name text)) :=
  outlined.modifyMethod fun declared same => by
    have isNew : name ∉ declared.doc.tags.map Prod.fst := by
      rw [← same] at fresh
      exact fresh
    show ({ methodOutline declared with tags := putNamed declared.doc.tags name text } :
      MethodOutline) = _
    rw [putNamed_of_notMem isNew, ← same]
    rfl

/-! ### Parameters -/

/-- The parameters of the last method are counted. -/
theorem Outlined.parameterCount :
    ((model.method? (lastMethod base outline)).map (·.parameters.length)).getD 0 =
      method.parameters.length := by
  obtain ⟨declared, found, same⟩ := outlined.method?
  rw [found, ← same]
  exact List.length_map _ |>.symm

/-- **A new parameter**, unless the method has one of its name. -/
theorem Outlined.addParameter {name : String} (named : name.isEmpty = false) (type : TypeRef) :
    Settles (model.addParameter (lastMethod base outline) type name)
      (name ∉ method.parameters.map Prod.fst) fun added =>
        added.1 = ⟨lastMethod base outline, method.parameters.length⟩ ∧
          Outlined base (done ++ [outline.addMethod (method.addParameter (name, []))]) supports
            added.2 := by
  obtain ⟨declared, found, same⟩ := outlined.method?
  have isNamed : name ≠ "" := fun empty => Bool.eq_false_iff.mp named (String.isEmpty_iff.mpr empty)
  have names : method.parameters.map Prod.fst = declared.parameters.map (·.name) := by
    rw [← same]
    exact List.map_map
  have count : declared.parameters.length = method.parameters.length := by
    rw [← same]
    exact List.length_map _ |>.symm
  rw [names]
  constructor
  · intro fresh
    refine ⟨_, Model.addParameter_eq_ok_iff.mpr ⟨declared, found, isNamed, fresh, rfl, rfl⟩,
      by rw [count], outlined.modifyMethod fun declared same => ?_⟩
    let added : Parameter := { name, type }
    have split : (declared.parameters ++ [added]).map parameterOutline =
        declared.parameters.map parameterOutline ++ [(name, [])] := List.map_append
    rw [methodOutline_parameters, split, ← same]
    rfl
  · intro isTaken
    exact ⟨_, Model.addParameter_eq_error_iff.mpr
      (.inr ⟨declared, found, .inr ⟨isNamed, not_not.mp isTaken, rfl⟩⟩), rfl⟩

end Method

section Parameter

variable {method : MethodOutline} {parameter : String × List Annotation}

/-- **An annotation of the last parameter**, which matters if it binds the parameter. -/
theorem Outlined.annotateParameter
    (outlined : Outlined base (done ++ [outline.addMethod (method.addParameter parameter)]) supports
      model) (mark : Annotation) :
    Outlined base (done ++ [outline.addMethod (method.addParameter
        (parameter.1, parameter.2 ++ [mark].filter isBinding))]) supports
      (model.annotate (.parameter ⟨lastMethod base outline, method.parameters.length⟩) mark) :=
  outlined.modifyMethod fun declared same => by
    let change (parameter : Parameter) : Parameter :=
      { parameter with annotations := parameter.annotations ++ [mark] }
    have split : declared.parameters.map parameterOutline = method.parameters ++ [parameter] :=
      congrArg MethodOutline.parameters same
    have changed : (declared.parameters.modify method.parameters.length change).map
        parameterOutline = method.parameters ++
          [(parameter.1, parameter.2 ++ [mark].filter isBinding)] := by
      refine map_modify_last split fun item same => ?_
      rw [← same]
      exact congrArg (Prod.mk _) (List.filter_append _ _)
    rw [methodOutline_parameters, changed, same]
    rfl

end Parameter

/-! ### Nested types -/

/-- **A new nested type**, unless the interface or one nested in it has its name. -/
theorem Outlined.nest (outlined : Outlined base (done ++ [outline]) supports model) (name : String)
    (kind : Kind) :
    Settles (model.nest (interfaceOf base outline.name) name kind)
      (name ∉ outline.nested.map (·.name) ∧ name ≠ outline.name)
      (Outlined base (done ++ [outline.addNested { name, kind }]) supports) := by
  obtain ⟨decl, found, same⟩ := outlined.last
  have nested : decl.nested = outline.nested := congrArg Outline.nested same
  have free : model.MayNest (interfaceOf base outline.name) name ↔
      name ∉ outline.nested.map (·.name) ∧ name ≠ outline.name := by
    rw [Model.mayNest_iff_of_type? found, nested]
    exact and_comm
  rw [← free]
  constructor
  · intro fresh
    exact ⟨_, Model.nest_eq_ok_iff.mpr ⟨fresh, rfl⟩,
      outlined.modifyInterface rfl (fun decl same => by rw [← same]; rfl) fun _ => rfl⟩
  · intro isTaken
    exact ⟨_, Model.nest_eq_error_iff.mpr ⟨isTaken, rfl⟩, rfl⟩

section Nested

variable {inner : TypeDecl}
  (outlined : Outlined base (done ++ [outline.addNested inner]) supports model)
  (fresh : inner.name ∉ outline.nested.map (·.name))

include outlined fresh

/-- The type that was nested last is found. -/
theorem Outlined.lastNested :
    model.type? ((interfaceOf base outline.name).nested inner.name) = some inner := by
  obtain ⟨decl, found, same⟩ := outlined.last
  have found : model.type? (interfaceOf base outline.name) = some decl := found
  have nested : decl.nested = outline.nested ++ [inner] := congrArg Outline.nested same
  rw [Model.type?_nested, found, Option.bind_some, nested]
  exact find?_concat_key fresh

/-- A change of the type that was nested last. -/
theorem Outlined.modifyNested {change : TypeDecl → TypeDecl} {later : TypeDecl}
    (effect : change inner = later) :
    Outlined base (done ++ [outline.addNested later]) supports
      (model.modifyType ((interfaceOf base outline.name).nested inner.name) change) := by
  let step (other : TypeDecl) : TypeDecl :=
    if other.name = inner.name then change other else other
  have others : outline.nested.map step = outline.nested := by
    refine (List.map_congr_left fun other member => ?_).trans (List.map_id _)
    exact if_neg fun same => fresh (List.mem_map.mpr ⟨other, member, same⟩)
  have mine : step inner = later := (if_pos rfl).trans effect
  refine outlined.modifyInterface rfl (fun decl same => ?_) fun _ => rfl
  have nested : decl.nested = outline.nested ++ [inner] := congrArg Outline.nested same
  show ({ outlineOf decl with nested := decl.nested.map step } : Outline) = _
  rw [nested, List.map_append, others, List.map_singleton, mine, same]
  rfl

/-- **A new constant of the enum that was nested last**, unless it has one of that name. -/
theorem Outlined.addConstant (isEnum : inner.kind = .enum) (name literal : String) :
    Settles (model.addConstant ((interfaceOf base outline.name).nested inner.name) name literal)
      (name ∉ inner.constants.map (·.name))
      (Outlined base (done ++ [outline.addNested
        { inner with constants := inner.constants ++ [⟨name, literal⟩] }]) supports) := by
  have found := outlined.lastNested fresh
  constructor
  · intro isNew
    exact ⟨_, Model.addConstant_eq_ok_iff.mpr ⟨inner, found, isEnum, isNew, rfl⟩,
      outlined.modifyNested fresh rfl⟩
  · intro isTaken
    exact ⟨_, Model.addConstant_eq_error_iff.mpr
      (.inr ⟨inner, found, isEnum, not_not.mp isTaken, rfl⟩), rfl⟩

end Nested

end RamlInterfaces.Generation
