/-
**Source text as a function of the spelling of classes.**

Rendering a type names its classes in order and lays out their spellings.  The two come apart: the
text is a plain function of how the naming at the end spells classes.

* `valueText`, `annotationText`, `enumBodyText`, `methodText`, `typeText`: the text of each element
  under a spelling of classes;
* `valueClasses`, `annotationClasses`, `methodClasses`, `typeClasses`: the classes that each element
  names, in order;
* `typeText_congr`: **the text of a type depends on the spellings of its classes alone**;
* `TypeDecl.isWritable`: the annotations of a type hold no integer of too many digits;
* `renderType_spells`: rendering a type names its classes, and gives its text;
* `renderUnit_eq_ok_iff`: **the source of a unit is its text under the naming that its classes
  leave**.
-/

import RamlInterfaces.Java.Source
import RamlInterfaces.Proofs.Java.Spelling

namespace RamlInterfaces.Java

/-! ### Texts -/

section Texts

variable (spell : TypeRef → String)

/-- The value of an element of an annotation. -/
def valueText : ElementValue → List Char
  | .scalar s => (scalarLiteral? s).getD []
  | .constant type name => (spell (.named type)).toList ++ '.' :: name.toList
  | .list items => '\x7b' :: Text.join [',', ' '] (valueTexts items) ++ ['\x7d']
  | .map entries => ((ElementValue.map entries).listing?.map literal).getD []
where
  /-- The values of a list. -/
  valueTexts : List ElementValue → List (List Char)
    | [] => []
    | item :: rest => valueText item :: valueTexts rest

/-- An element of an annotation with its name. -/
def elementText (element : String × ElementValue) : List Char :=
  element.1.toList ++ [' ', '=', ' '] ++ valueText spell element.2

/-- The elements of an annotation in parentheses; the name of the only one is left out where it is
`value`. -/
def elementsText (elements : List (String × ElementValue)) : List Char :=
  match elements with
  | [] => []
  | [("value", value)] => '(' :: valueText spell value ++ [')']
  | elements => '(' :: Text.join [',', ' '] (elements.map (elementText spell)) ++ [')']

/-- A use of an annotation. -/
def annotationText (mark : Annotation) : List Char :=
  '@' :: (spellType spell mark.type).toList ++ elementsText spell mark.elements

/-- The members of an enum. -/
def enumBodyText (decl : TypeDecl) : List Char :=
  renderConstants decl.constants ++
    enumMembers decl (spell (.named "java.lang.String")) (spell (.named "java.lang.Override"))
      (spell (.named "java.lang.IllegalArgumentException"))

/-- A parameter with its annotations. -/
def parameterText (ending : List Char) (parameter : Parameter) : List Char :=
  layOutParameter ending (parameter.annotations.map (annotationText spell))
    (spellType spell parameter.type) parameter.name

/-- The parameters of a method, the last one closing the list. -/
def parameterTexts : List Parameter → List (List Char)
  | [] => []
  | [last] => [parameterText spell [')', ';'] last]
  | next :: rest => parameterText spell [','] next :: parameterTexts rest

/-- A method. -/
def methodText (method : Method) : List Char :=
  layOutMethod method.doc (method.annotations.map (annotationText spell))
    (spellType spell method.returnType) method.name (parameterTexts spell method.parameters)

/-- The members of an enum as members of its type; other types have none of them. -/
def bodyTexts (decl : TypeDecl) : List (List Char) :=
  if decl.kind = .enum then [enumBodyText spell decl] else []

/-- A type with all its members. -/
def typeText (topLevel : Bool) : TypeDecl → List Char
  | ⟨name, kind, annotations, doc, methods, nested, constants⟩ =>
    layOutType topLevel doc (annotations.map (annotationText spell)) kind name
      (bodyTexts spell { name, kind, constants } ++ methods.map (methodText spell) ++
        typeTexts nested)
where
  /-- The types nested in a type. -/
  typeTexts : List TypeDecl → List (List Char)
    | [] => []
    | decl :: rest => typeText false decl :: typeTexts rest

theorem valueTexts_eq (items : List ElementValue) :
    valueText.valueTexts spell items = items.map (valueText spell) := by
  induction items with
  | nil => rfl
  | cons item rest ih => rw [valueText.valueTexts, ih, List.map_cons]

theorem typeTexts_eq (decls : List TypeDecl) :
    typeText.typeTexts spell decls = decls.map (typeText spell false) := by
  induction decls with
  | nil => rfl
  | cons decl rest ih => rw [typeText.typeTexts, ih, List.map_cons]

end Texts

/-! ### Classes -/

/-- The classes that the value of an element names. -/
def valueClasses : ElementValue → List TypeRef
  | .scalar _ | .map _ => []
  | .constant type _ => [.named type]
  | .list items => valuesClasses items
where
  /-- The classes that the values of a list name. -/
  valuesClasses : List ElementValue → List TypeRef
    | [] => []
    | item :: rest => valueClasses item ++ valuesClasses rest

/-- The classes that a use of an annotation names. -/
def annotationClasses (mark : Annotation) : List TypeRef :=
  mark.type.classes ++ mark.elements.flatMap fun element => valueClasses element.2

/-- The classes that the members of every enum name. -/
def enumClasses : List TypeRef :=
  [.named "java.lang.String", .named "java.lang.Override",
    .named "java.lang.IllegalArgumentException"]

/-- The classes that a parameter names. -/
def parameterClasses (parameter : Parameter) : List TypeRef :=
  parameter.annotations.flatMap annotationClasses ++ parameter.type.classes

/-- The classes that a method names. -/
def methodClasses (method : Method) : List TypeRef :=
  method.annotations.flatMap annotationClasses ++ method.returnType.classes ++
    method.parameters.flatMap parameterClasses

/-- The classes that a type and all types nested in it name. -/
def typeClasses : TypeDecl → List TypeRef
  | ⟨_, kind, annotations, _, methods, nested, _⟩ =>
    annotations.flatMap annotationClasses ++ (if kind = .enum then enumClasses else []) ++
      methods.flatMap methodClasses ++ typesClasses nested
where
  /-- The classes that nested types name. -/
  typesClasses : List TypeDecl → List TypeRef
    | [] => []
    | decl :: rest => typeClasses decl ++ typesClasses rest

theorem valuesClasses_eq (items : List ElementValue) :
    valueClasses.valuesClasses items = items.flatMap valueClasses := by
  induction items with
  | nil => rfl
  | cons item rest ih => rw [valueClasses.valuesClasses, ih, List.flatMap_cons]

theorem typesClasses_eq (decls : List TypeDecl) :
    typeClasses.typesClasses decls = decls.flatMap typeClasses := by
  induction decls with
  | nil => rfl
  | cons decl rest ih => rw [typeClasses.typesClasses, ih, List.flatMap_cons]

/-- A type names the classes of its annotations, of the members of an enum, of its methods and of
the types nested in it. -/
theorem mem_typeClasses {decl : TypeDecl} {type : TypeRef} : type ∈ typeClasses decl ↔
    (∃ mark ∈ decl.annotations, type ∈ annotationClasses mark) ∨
      (decl.kind = .enum ∧ type ∈ enumClasses) ∨
        (∃ method ∈ decl.methods, type ∈ methodClasses method) ∨
          ∃ inner ∈ decl.nested, type ∈ typeClasses inner := by
  obtain ⟨name, kind, annotations, doc, methods, nested, constants⟩ := decl
  rw [typeClasses, typesClasses_eq]
  by_cases isEnum : kind = .enum
  · simp [isEnum]
  · simp [isEnum]

/-! ### What can be written -/

/-- The value of an element can be written: it holds no integer of too many digits. -/
def ElementValue.isWritable : ElementValue → Bool
  | .scalar s => (scalarLiteral? s).isSome
  | .constant _ _ => true
  | .list items => areWritable items
  | .map entries => ((ElementValue.map entries).listing?.map literal).isSome
where
  /-- The values of a list can be written. -/
  areWritable : List ElementValue → Bool
    | [] => true
    | item :: rest => item.isWritable && areWritable rest

/-- The elements of an annotation can be written. -/
def Annotation.isWritable (mark : Annotation) : Bool :=
  mark.elements.all fun element => element.2.isWritable

/-- The annotations of a parameter can be written. -/
def Parameter.isWritable (parameter : Parameter) : Bool :=
  parameter.annotations.all Annotation.isWritable

/-- The annotations of a method and of its parameters can be written. -/
def Method.isWritable (method : Method) : Bool :=
  method.annotations.all Annotation.isWritable && method.parameters.all Parameter.isWritable

/-- All annotations in a type and in the types nested in it can be written. -/
def TypeDecl.isWritable : TypeDecl → Bool
  | ⟨_, _, annotations, _, methods, nested, _⟩ =>
    annotations.all Annotation.isWritable && methods.all Method.isWritable && areWritable nested
where
  /-- The annotations in nested types can be written. -/
  areWritable : List TypeDecl → Bool
    | [] => true
    | decl :: rest => decl.isWritable && areWritable rest

/-! ### The classes of a text -/

section Agreeing

variable {spell other : TypeRef → String}

mutual

theorem spellType_congr : (type : TypeRef) → (∀ named ∈ type.classes, spell named = other named) →
    spellType spell type = spellType other type
  | .primitive _, _ => rfl
  | .declared path, same => same _ List.mem_cons_self
  | .unnamed text, same => same _ List.mem_cons_self
  | .outside name [], same => same _ List.mem_cons_self
  | .outside name (first :: rest), same => by
    have base := same _ List.mem_cons_self
    have arguments := spellTypes_congr (first :: rest) fun named member =>
      same named (List.mem_cons_of_mem _ member)
    rw [spellType.spellTypes, spellType.spellTypes] at arguments
    rw [spellType, spellType, base, arguments]

theorem spellTypes_congr : (types : List TypeRef) →
    (∀ named ∈ TypeRef.classes.classesOf types, spell named = other named) →
      spellType.spellTypes spell types = spellType.spellTypes other types
  | [], _ => rfl
  | type :: rest, same => by
    rw [spellType.spellTypes, spellType.spellTypes,
      spellType_congr type fun named member => same named (List.mem_append_left _ member),
      spellTypes_congr rest fun named member => same named (List.mem_append_right _ member)]

end

mutual

theorem valueText_congr : (value : ElementValue) →
    (∀ named ∈ valueClasses value, spell named = other named) →
      valueText spell value = valueText other value
  | .scalar _, _ => rfl
  | .map _, _ => rfl
  | .constant type name, same => by
    rw [valueText, valueText, same _ List.mem_cons_self]
  | .list items, same => by
    rw [valueText, valueText, valueTexts_congr items same]

theorem valueTexts_congr : (items : List ElementValue) →
    (∀ named ∈ valueClasses.valuesClasses items, spell named = other named) →
      valueText.valueTexts spell items = valueText.valueTexts other items
  | [], _ => rfl
  | item :: rest, same => by
    rw [valueText.valueTexts, valueText.valueTexts,
      valueText_congr item fun named member => same named (List.mem_append_left _ member),
      valueTexts_congr rest fun named member => same named (List.mem_append_right _ member)]

end

/-- Texts of items are alike where each of them is. -/
theorem map_congr_of_flatMap {α β : Type} {classes : α → List TypeRef}
    {text : (TypeRef → String) → α → β}
    (each : ∀ item, (∀ named ∈ classes item, spell named = other named) →
      text spell item = text other item)
    {items : List α} (same : ∀ named ∈ items.flatMap classes, spell named = other named) :
    items.map (text spell) = items.map (text other) :=
  List.map_congr_left fun item member =>
    each item fun named isClass => same named (List.mem_flatMap_of_mem member isClass)

theorem annotationText_congr (mark : Annotation)
    (same : ∀ named ∈ annotationClasses mark, spell named = other named) :
    annotationText spell mark = annotationText other mark := by
  obtain ⟨type, elements⟩ := mark
  have named := spellType_congr type fun named member => same named (List.mem_append_left _ member)
  have each : ∀ element ∈ elements, valueText spell element.2 = valueText other element.2 :=
    fun element member => valueText_congr element.2 fun named isClass =>
      same named (List.mem_append_right _ (List.mem_flatMap_of_mem member isClass))
  have all : elementsText spell elements = elementsText other elements := by
    unfold elementsText
    split
    · rfl
    · rw [each _ List.mem_cons_self]
    · have texts : elements.map (elementText spell) = elements.map (elementText other) :=
        List.map_congr_left fun element member => by
          rw [elementText, elementText, each element member]
      rw [texts]
  rw [annotationText, annotationText, named, all]

theorem parameterText_congr (ending : List Char) (parameter : Parameter)
    (same : ∀ named ∈ parameterClasses parameter, spell named = other named) :
    parameterText spell ending parameter = parameterText other ending parameter := by
  rw [parameterText, parameterText,
    map_congr_of_flatMap annotationText_congr fun named member =>
      same named (List.mem_append_left _ member),
    spellType_congr parameter.type fun named member => same named (List.mem_append_right _ member)]

theorem parameterTexts_congr (parameters : List Parameter)
    (same : ∀ named ∈ parameters.flatMap parameterClasses, spell named = other named) :
    parameterTexts spell parameters = parameterTexts other parameters := by
  induction parameters with
  | nil => rfl
  | cons parameter rest ih =>
    have first (ending : List Char) := parameterText_congr ending parameter fun named member =>
      same named (List.mem_append_left _ member)
    cases rest with
    | nil => rw [parameterTexts, parameterTexts, first]
    | cons next rest =>
      show parameterText spell [','] parameter :: parameterTexts spell (next :: rest) =
        parameterText other [','] parameter :: parameterTexts other (next :: rest)
      rw [first, ih fun named member => same named (List.mem_append_right _ member)]

theorem methodText_congr (method : Method)
    (same : ∀ named ∈ methodClasses method, spell named = other named) :
    methodText spell method = methodText other method := by
  rw [methodText, methodText,
    map_congr_of_flatMap annotationText_congr fun named member =>
      same named (List.mem_append_left _ (List.mem_append_left _ member)),
    spellType_congr method.returnType fun named member =>
      same named (List.mem_append_left _ (List.mem_append_right _ member)),
    parameterTexts_congr method.parameters fun named member =>
      same named (List.mem_append_right _ member)]

theorem bodyTexts_congr (decl : TypeDecl)
    (same : decl.kind = .enum → ∀ named ∈ enumClasses, spell named = other named) :
    bodyTexts spell decl = bodyTexts other decl := by
  unfold bodyTexts
  split
  · rename_i isEnum
    have each := same isEnum
    rw [enumBodyText, enumBodyText, each (.named "java.lang.String") (by simp [enumClasses]),
      each (.named "java.lang.Override") (by simp [enumClasses]),
      each (.named "java.lang.IllegalArgumentException") (by simp [enumClasses])]
  · rfl

mutual

/-- **The text of a type depends on the spellings of its classes alone.** -/
theorem typeText_congr (topLevel : Bool) : (decl : TypeDecl) →
    (∀ named ∈ typeClasses decl, spell named = other named) →
      typeText spell topLevel decl = typeText other topLevel decl
  | ⟨name, kind, annotations, doc, methods, nested, constants⟩, same => by
    have marks : annotations.map (annotationText spell) = annotations.map (annotationText other) :=
      map_congr_of_flatMap annotationText_congr fun named member =>
        same named (by simp only [typeClasses, List.mem_append]; exact .inl (.inl (.inl member)))
    have body : bodyTexts spell { name, kind, constants } =
        bodyTexts other { name, kind, constants } :=
      bodyTexts_congr _ fun isEnum named member => same named (by
        simp only [typeClasses, List.mem_append, show kind = .enum from isEnum]
        exact .inl (.inl (.inr member)))
    have texts : methods.map (methodText spell) = methods.map (methodText other) :=
      map_congr_of_flatMap methodText_congr fun named member =>
        same named (by simp only [typeClasses, List.mem_append]; exact .inl (.inr member))
    have inner := typeTexts_congr nested fun named member =>
      same named (by simp only [typeClasses, List.mem_append]; exact .inr member)
    rw [typeText, typeText, marks, body, texts, inner]

theorem typeTexts_congr : (decls : List TypeDecl) →
    (∀ named ∈ typeClasses.typesClasses decls, spell named = other named) →
      typeText.typeTexts spell decls = typeText.typeTexts other decls
  | [], _ => rfl
  | decl :: rest, same => by
    rw [typeText.typeTexts, typeText.typeTexts,
      typeText_congr false decl fun named member => same named (List.mem_append_left _ member),
      typeTexts_congr rest fun named member => same named (List.mem_append_right _ member)]

end

end Agreeing

/-! ### Rendering -/

mutual

theorem renderValue_spells : (value : ElementValue) →
    Spells (renderValue value) (value.isWritable = true) (valueClasses value) fun spell =>
      valueText spell value
  | .scalar s => Spells.written (scalarLiteral? s) []
  | .map entries => by
    have all := Spells.written ((ElementValue.map entries).listing?.map literal) []
    unfold renderValue ElementValue.isWritable valueText
    cases listed : (ElementValue.map entries).listing? with
    | none =>
      rw [listed] at all
      exact all
    | some text =>
      rw [listed] at all
      exact all
  | .constant type name =>
    ((nameType_spells (.named type)).map fun spelled =>
      spelled.toList ++ '.' :: name.toList).of_iff (by simp [ElementValue.isWritable])
  | .list items =>
    (renderValues_spells items).map fun rendered =>
      '\x7b' :: Text.join [',', ' '] rendered ++ ['\x7d']

theorem renderValues_spells : (items : List ElementValue) →
    Spells (renderValue.renderValues items) (ElementValue.isWritable.areWritable items = true)
      (valueClasses.valuesClasses items) fun spell => valueText.valueTexts spell items
  | [] => (Spells.pure []).of_iff (by simp [ElementValue.isWritable.areWritable])
  | item :: rest => by
    have all := (renderValue_spells item).bind fun first =>
      (renderValues_spells rest).map fun others => first :: others
    exact all.of_iff (by simp [ElementValue.isWritable.areWritable])

end

theorem renderElement_spells (element : String × ElementValue) :
    Spells (do
      let text ← renderValue element.2
      return element.1.toList ++ [' ', '=', ' '] ++ text) (element.2.isWritable = true)
        (valueClasses element.2) fun spell => elementText spell element :=
  (renderValue_spells element.2).map fun text => element.1.toList ++ [' ', '=', ' '] ++ text

theorem renderAnnotation_spells (mark : Annotation) :
    Spells ( renderAnnotation mark) (mark.isWritable = true) (annotationClasses mark) fun spell =>
      annotationText spell mark := by
  obtain ⟨type, elements⟩ := mark
  unfold renderAnnotation annotationText elementsText annotationClasses Annotation.isWritable
  dsimp only
  split
  · have all := (nameType_spells type).map fun spelled => '@' :: spelled.toList
    simpa using all
  · rename_i value
    have all := (nameType_spells type).bind fun spelled =>
      (renderValue_spells value).map fun rendered =>
        '@' :: spelled.toList ++ '(' :: rendered ++ [')']
    simpa using all
  · have all := (nameType_spells type).bind fun spelled =>
      (Spells.mapM renderElement_spells elements).map fun rendered =>
        '@' :: spelled.toList ++ '(' :: Text.join [',', ' '] rendered ++ [')']
    simpa using all

/-- The same annotations one after the other. -/
theorem renderAnnotations_spells (marks : List Annotation) :
    Spells (marks.mapM renderAnnotation) (marks.all Annotation.isWritable = true)
      (marks.flatMap annotationClasses) fun spell => marks.map (annotationText spell) :=
  (Spells.mapM renderAnnotation_spells marks).of_iff List.all_eq_true.symm

theorem renderEnumBody_spells (decl : TypeDecl) :
    Spells (renderEnumBody decl) True enumClasses fun spell => enumBodyText spell decl := by
  have all := (nameType_spells (.named "java.lang.String")).bind fun string =>
    (nameType_spells (.named "java.lang.Override")).bind fun override =>
      (nameType_spells (.named "java.lang.IllegalArgumentException")).map fun illegalArgument =>
        renderConstants decl.constants ++ enumMembers decl string override illegalArgument
  exact all.of_iff (by simp)

theorem renderParameter_spells (ending : List Char) (parameter : Parameter) :
    Spells (renderParameter ending parameter) (parameter.isWritable = true)
      (parameterClasses parameter) fun spell => parameterText spell ending parameter := by
  have all := (renderAnnotations_spells parameter.annotations).bind fun annotations =>
    (nameType_spells parameter.type).map fun type =>
      layOutParameter ending annotations type parameter.name
  exact all.of_iff (and_iff_left trivial)

theorem renderParameters_spells (parameters : List Parameter) :
    Spells (renderParameters parameters) (parameters.all Parameter.isWritable = true)
      (parameters.flatMap parameterClasses) fun spell => parameterTexts spell parameters := by
  induction parameters with
  | nil => exact (Spells.pure []).of_iff (by simp)
  | cons parameter rest ih =>
    cases rest with
    | nil =>
      have all := (renderParameter_spells [')', ';'] parameter).map fun rendered => [rendered]
      rw [List.flatMap_singleton]
      exact all.of_iff (by simp)
    | cons next others =>
      have all := (renderParameter_spells [','] parameter).bind fun rendered =>
        ih.map fun others => rendered :: others
      exact all.of_iff (by simp)

theorem renderMethod_spells (method : Method) :
    Spells (renderMethod method) (method.isWritable = true) (methodClasses method) fun spell =>
      methodText spell method := by
  have all := (renderAnnotations_spells method.annotations).bind fun annotations =>
    (nameType_spells method.returnType).bind fun returnType =>
      (renderParameters_spells method.parameters).map fun parameters =>
        layOutMethod method.doc annotations returnType method.name parameters
  unfold methodClasses
  rw [List.append_assoc]
  exact all.of_iff (by simp [Method.isWritable])

theorem renderBody_spells (decl : TypeDecl) :
    Spells (renderBody decl) True (if decl.kind = .enum then enumClasses else []) fun spell =>
      bodyTexts spell decl := by
  unfold renderBody bodyTexts
  split
  · exact (renderEnumBody_spells decl).map fun rendered => [rendered]
  · exact Spells.pure []

mutual

/-- **Rendering a type names its classes, and gives its text under their spellings**, if its
annotations can be written. -/
theorem renderType_spells (topLevel : Bool) : (decl : TypeDecl) →
    Spells (renderType topLevel decl) (decl.isWritable = true) (typeClasses decl) fun spell =>
      typeText spell topLevel decl
  | ⟨name, kind, annotations, doc, methods, nested, constants⟩ => by
    have all := (renderAnnotations_spells annotations).bind fun annotations =>
      (renderBody_spells { name, kind, constants }).bind fun body =>
        (Spells.mapM renderMethod_spells methods).bind fun methods =>
          (renderTypes_spells nested).map fun nested =>
            layOutType topLevel doc annotations kind name (body ++ methods ++ nested)
    unfold typeClasses
    rw [List.append_assoc, List.append_assoc]
    exact all.of_iff (by simp [TypeDecl.isWritable, and_assoc])

theorem renderTypes_spells : (decls : List TypeDecl) →
    Spells (renderType.renderTypes decls) (TypeDecl.isWritable.areWritable decls = true)
      (typeClasses.typesClasses decls) fun spell => typeText.typeTexts spell decls
  | [] => (Spells.pure []).of_iff (by simp [TypeDecl.isWritable.areWritable])
  | decl :: rest => by
    have all := (renderType_spells false decl).bind fun rendered =>
      (renderTypes_spells rest).map fun others => rendered :: others
    exact all.of_iff (by simp [TypeDecl.isWritable.areWritable])

end

/-- A type whose classes all have names and whose annotations can be written is rendered to its text
under the naming that its classes leave. -/
theorem renderType_run {path : TypePath} {decl : TypeDecl} {naming : Naming}
    (isWritable : decl.isWritable = true)
    (adopted : (Naming.ofUnit path decl).adoptAll (typeClasses decl) = .ok naming) :
    (renderType true decl).run (Naming.ofUnit path decl) =
      .ok (typeText naming.spell true decl, naming) :=
  ((renderType_spells true decl).run_eq_ok_iff _ _ _).mpr ⟨isWritable, adopted, rfl⟩

/-- **The source of a unit is the text of its type under the naming that its classes leave**; there
is none where one of them has no name, or an annotation cannot be written. -/
theorem renderUnit_eq_ok_iff {path : TypePath} {decl : TypeDecl} {source : String} :
    renderUnit path decl = .ok source ↔ decl.isWritable = true ∧
      ∃ naming, (Naming.ofUnit path decl).adoptAll (typeClasses decl) = .ok naming ∧
        source = String.ofList
          (layOutUnit path.package naming.sortedImports (typeText naming.spell true decl)) := by
  unfold renderUnit
  rw [bind_eq_ok_iff]
  constructor
  · rintro ⟨⟨body, naming⟩, ran, laidOut⟩
    obtain ⟨isWritable, adopted, rfl⟩ := ((renderType_spells true decl).run_eq_ok_iff _ _ _).mp ran
    cases laidOut
    exact ⟨isWritable, naming, adopted, rfl⟩
  · rintro ⟨isWritable, naming, adopted, rfl⟩
    exact ⟨_, renderType_run isWritable adopted, rfl⟩

end RamlInterfaces.Java
