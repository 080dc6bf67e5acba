/-
**Where the literal of a text stands in the source.**

Texts are elements of annotations and literals of enum constants.  Each place of one is a
declaration with a gap.  The source with the gap filled is the literal between two texts that do not
depend on what fills it; the literal is moved in once for each type around it.

* `ValuePlace`, `AnnotationPlace`, `ParameterPlace`, `MethodPlace`, `TypePlace`: the places of a
  text, with the number of times that the literal is moved in;
* `Frames`: the source holds the literal of a text between two fixed texts;
* `typeText_frames`: the source of a type does;
* `isLiteralOf_iterate_iff`: a literal outlives being moved in exactly if its text holds no line end
  that Java has no escape for;
* `literal_at_place_iff`: **so the source of a unit holds a literal of the text at its place exactly
  then, or where the place is an annotation of the unit's own type**.
-/

import RamlInterfaces.Proofs.Java.Indentation
import RamlInterfaces.Proofs.Java.Lexical
import RamlInterfaces.Proofs.Java.SourceText

namespace RamlInterfaces.Java

open Text

/-! ### Places -/

/-- The places of a text in the value of an element. -/
inductive ValuePlace : (String → ElementValue) → Prop
  | text : ValuePlace .text
  | item (before after : List ElementValue) {place : String → ElementValue} :
    ValuePlace place → ValuePlace fun text => .list (before ++ place text :: after)

/-- The places of a text in a use of an annotation. -/
inductive AnnotationPlace : (String → Annotation) → Prop
  | element (type : TypeRef) (before after : List (String × ElementValue)) (name : String)
    {place : String → ElementValue} : ValuePlace place →
      AnnotationPlace fun text => ⟨type, before ++ (name, place text) :: after⟩

/-- The places of a text in a parameter. -/
inductive ParameterPlace : (String → Parameter) → Prop
  | mark (parameter : Parameter) (before after : List Annotation) {place : String → Annotation} :
    AnnotationPlace place →
      ParameterPlace fun text => { parameter with annotations := before ++ place text :: after }

/-- The places of a text in a method. -/
inductive MethodPlace : (String → Method) → Prop
  | mark (method : Method) (before after : List Annotation) {place : String → Annotation} :
    AnnotationPlace place →
      MethodPlace fun text => { method with annotations := before ++ place text :: after }
  | parameter (method : Method) (before after : List Parameter) {place : String → Parameter} :
    ParameterPlace place →
      MethodPlace fun text => { method with parameters := before ++ place text :: after }

/-- The places of a text in a type, with the number of times that its literal is moved in. -/
inductive TypePlace : Nat → (String → TypeDecl) → Prop
  | mark (decl : TypeDecl) (before after : List Annotation) {place : String → Annotation} :
    AnnotationPlace place →
      TypePlace 0 fun text => { decl with annotations := before ++ place text :: after }
  | method (decl : TypeDecl) (before after : List Method) {place : String → Method} :
    MethodPlace place →
      TypePlace 1 fun text => { decl with methods := before ++ place text :: after }
  | constant (decl : TypeDecl) (isEnum : decl.kind = .enum) (before after : List Constant)
    (name : String) :
      TypePlace 1 fun text => { decl with constants := before ++ ⟨name, text⟩ :: after }
  | nested (decl : TypeDecl) (before after : List TypeDecl) {depth : Nat}
    {place : String → TypeDecl} : TypePlace depth place →
      TypePlace (depth + 1) fun text => { decl with nested := before ++ place text :: after }

/-! ### Literals between fixed texts -/

theorem endsOpen_literal (text : String) : EndsOpen (literal text) := by
  unfold literal
  exact endsOpen_concat _ rfl

theorem endsOpen_iterate {text : List Char} (ends : EndsOpen text) (times : Nat) :
    EndsOpen (shifted^[times] text) := by
  induction times generalizing text with
  | zero => exact ends
  | succ times ih => exact ih ends.shifted

/-- Each source holds the literal of its text, moved in so many times, between two texts that are
the same for all of them. -/
def Frames (depth : Nat) (source : String → List Char) : Prop :=
  ∃ before after, EndsOpen before ∧
    ∀ text, source text = before ++ (shifted^[depth] (literal text) ++ after)

namespace Frames

variable {depth : Nat} {source : String → List Char}

protected theorem of_eq (framed : Frames depth source) {other : String → List Char}
    (same : ∀ text, other text = source text) : Frames depth other := by
  obtain ⟨before, after, ends, holds⟩ := framed
  exact ⟨before, after, ends, fun text => (same text).trans (holds text)⟩

protected theorem surround (framed : Frames depth source) (left right : List Char) :
    Frames depth fun text => left ++ (source text ++ right) := by
  obtain ⟨before, after, ends, holds⟩ := framed
  exact ⟨left ++ before, after ++ right, ends.append left, fun text => by simp [holds]⟩

/-- One more time in. -/
protected theorem indented (framed : Frames depth source) :
    Frames (depth + 1) fun text => indented (source text) := by
  obtain ⟨before, after, ends, holds⟩ := framed
  refine ⟨margin ++ shifted before, shifted (line after), ends.shifted.append margin,
    fun text => ?_⟩
  show indented (source text) = _
  rw [holds, indented_append ends (endsOpen_iterate (endsOpen_literal text) depth),
    Function.iterate_succ_apply']

/-- One of the pieces of a text that is joined. -/
protected theorem join (framed : Frames depth source) (separator : List Char)
    (before after : List (List Char)) :
    Frames depth fun text => join separator (before ++ source text :: after) := by
  have all := framed.surround (before.flatMap fun other => other ++ separator)
    (join separator ([] :: after))
  simpa only [join_around] using all

/-- One of several lines. -/
protected theorem line (framed : Frames depth source) (before after : List (List Char)) :
    Frames depth fun text => (before ++ source text :: after).flatMap line := by
  have all := framed.surround (before.flatMap line) (['\n'] ++ after.flatMap line)
  simpa [line] using all

end Frames

/-! ### Annotations -/

section Texts

variable (spell : TypeRef → String)

/-- The value of an element, after a text that ends open. -/
theorem valueText_frames {place : String → ElementValue} (isPlace : ValuePlace place)
    {left : List Char} (ends : EndsOpen left) :
    Frames 0 fun text => left ++ valueText spell (place text) := by
  induction isPlace generalizing left with
  | text => exact ⟨left, [], ends, fun text => by simp [valueText, scalarLiteral?, Scalar.toText?]⟩
  | @item before after place isPlace ih =>
    have opened : EndsOpen (left ++ ['\x7b']) := endsOpen_concat left rfl
    have comma : EndsOpen [',', ' '] := ⟨' ', rfl, rfl⟩
    have inside := ih (opened.flatMap comma (valueText spell) before)
    have all := inside.surround [] (join [',', ' '] ([] :: after.map (valueText spell)) ++ ['\x7d'])
    simpa [valueText, valueTexts_eq, join_around, List.flatMap_map] using all

/-- Elements are joined between parentheses, unless the only one is `value`. -/
theorem elementsText_eq {elements : List (String × ElementValue)} (some : elements ≠ [])
    (notValue : ∀ value, elements ≠ [("value", value)]) : elementsText spell elements =
      '(' :: join [',', ' '] (elements.map (elementText spell)) ++ [')'] := by
  unfold elementsText
  split
  · exact absurd rfl some
  · exact absurd rfl (notValue _)
  · rfl

theorem annotationText_frames {place : String → Annotation} (isPlace : AnnotationPlace place) :
    Frames 0 fun text => annotationText spell (place text) := by
  obtain ⟨type, before, after, name, isPlace⟩ := isPlace
  rename_i place
  let opening := '@' :: (spellType spell type).toList ++ ['(']
  have opened : EndsOpen opening := endsOpen_concat _ rfl
  by_cases only : before = [] ∧ after = [] ∧ name = "value"
  · obtain ⟨rfl, rfl, rfl⟩ := only
    have all := (valueText_frames spell isPlace opened).surround [] [')']
    simpa [annotationText, elementsText, opening] using all
  · have several (text : String) :
        elementsText spell (before ++ (name, place text) :: after) = '(' :: join [',', ' ']
          ((before ++ (name, place text) :: after).map (elementText spell)) ++ [')'] := by
      refine elementsText_eq spell (by simp) fun value same => only ?_
      cases before with
      | nil =>
        rw [List.nil_append, List.cons.injEq, Prod.mk.injEq] at same
        exact ⟨rfl, same.2, same.1.1⟩
      | cons first rest => simp at same
    have sign : EndsOpen [' ', '=', ' '] := ⟨' ', rfl, rfl⟩
    have named := (sign.append name.toList).append
      (before.flatMap fun item => elementText spell item ++ [',', ' '])
    have all := (valueText_frames spell isPlace (named.append opening)).surround []
      (join [',', ' '] ([] :: after.map (elementText spell)) ++ [')'])
    simpa [annotationText, several, elementText, join_around, List.flatMap_map, opening] using all

/-! ### Members -/

/-- One of several annotations, each on a line of its own. -/
theorem marks_frames {place : String → Annotation} (isPlace : AnnotationPlace place)
    (before after : List Annotation) : Frames 0 fun text =>
      ((before ++ place text :: after).map (annotationText spell)).flatMap line := by
  have all := (annotationText_frames spell isPlace).line (before.map (annotationText spell))
    (after.map (annotationText spell))
  simpa using all

theorem parameterText_frames {place : String → Parameter} (isPlace : ParameterPlace place)
    (ending : List Char) : Frames 0 fun text => parameterText spell ending (place text) := by
  obtain ⟨parameter, before, after, isPlace⟩ := isPlace
  have moved := (annotationText_frames spell isPlace).surround margin []
  have all := (moved.line (before.map fun mark => margin ++ annotationText spell mark)
    (after.map fun mark => margin ++ annotationText spell mark)).surround []
      (margin ++ ((spellType spell parameter.type).toList ++ ' ' :: parameter.name.toList ++
        ending))
  simpa [parameterText, layOutParameter, List.flatMap_map, line] using all

/-- The parameters before one that is not the last. -/
theorem parameterTexts_append (before after : List Parameter) (parameter : Parameter) :
    parameterTexts spell (before ++ parameter :: after) =
      before.map (parameterText spell [',']) ++ parameterTexts spell (parameter :: after) := by
  induction before with
  | nil => rfl
  | cons first rest ih =>
    rw [List.map_cons, List.cons_append, List.cons_append, ← ih]
    cases rest <;> rfl

/-- What follows a parameter, and the parameters after it. -/
theorem parameterTexts_cons (after : List Parameter) :
    ∃ ending others, ∀ parameter, parameterTexts spell (parameter :: after) =
      parameterText spell ending parameter :: others := by
  cases after with
  | nil => exact ⟨[')', ';'], [], fun _ => rfl⟩
  | cons next rest => exact ⟨[','], parameterTexts spell (next :: rest), fun _ => rfl⟩

theorem methodText_frames {place : String → Method} (isPlace : MethodPlace place) :
    Frames 0 fun text => methodText spell (place text) := by
  cases isPlace with
  | mark method before after isPlace =>
    have opening := (marks_frames spell isPlace before after).surround (docComment method.doc)
      ((spellType spell method.returnType).toList ++ ' ' :: method.name.toList ++ ['('])
    cases written : parameterTexts spell method.parameters with
    | nil =>
      have all := opening.surround [] [')', ';']
      simpa [methodText, layOutMethod, written] using all
    | cons first others =>
      have all := opening.surround [] ('\n' :: join ['\n'] (first :: others))
      simpa [methodText, layOutMethod, written, line] using all
  | parameter method before after isPlace =>
    obtain ⟨ending, others, written⟩ := parameterTexts_cons spell after
    have parameters := (parameterText_frames spell isPlace ending).join ['\n']
      (before.map (parameterText spell [','])) others
    have all := parameters.surround (line (docComment method.doc ++
      (method.annotations.map (annotationText spell)).flatMap line ++
      (spellType spell method.returnType).toList ++ ' ' :: method.name.toList ++ ['('])) []
    refine all.of_eq fun text => ?_
    unfold methodText layOutMethod
    rw [parameterTexts_append, written]
    cases before <;> simp

/-- The constants of an enum before one of them. -/
theorem renderConstants_append (before after : List Constant) (constant : Constant) :
    renderConstants (before ++ constant :: after) =
      (before.flatMap fun other =>
        line (other.name.toList ++ '(' :: literal other.literal ++ [')', ','])) ++
        renderConstants (constant :: after) := by
  induction before with
  | nil => rfl
  | cons first rest ih =>
    rw [List.flatMap_cons, List.append_assoc, ← ih, List.cons_append]
    cases rest <;> rfl

theorem enumBodyText_frames (decl : TypeDecl) (before after : List Constant) (name : String) :
    Frames 0 fun text =>
      enumBodyText spell { decl with constants := before ++ ⟨name, text⟩ :: after } := by
  have members (text : String) :
      enumMembers { decl with constants := before ++ ⟨name, text⟩ :: after } =
        enumMembers { decl with constants := before ++ ⟨name, ""⟩ :: after } := by
    funext string override illegalArgument
    simp [enumMembers, literalField]
  have opened : EndsOpen ((before.flatMap fun other =>
      line (other.name.toList ++ '(' :: literal other.literal ++ [')', ','])) ++
        (name.toList ++ ['('])) := (endsOpen_concat name.toList rfl).append _
  cases after with
  | nil => exact ⟨_, _, opened, fun text => by
      simp [enumBodyText, renderConstants_append, members, renderConstants, line]; rfl⟩
  | cons next rest => exact ⟨_, _, opened, fun text => by
      simp [enumBodyText, renderConstants_append, members, renderConstants, line]; rfl⟩

/-! ### Types -/

/-- One of the members of a type. -/
theorem layOutType_frames {depth : Nat} {source : String → List Char} (framed : Frames depth source)
    (topLevel : Bool) (doc : DocComment) (marks : List (List Char)) (kind : Kind) (name : String)
    (before after : List (List Char)) : Frames (depth + 1) fun text =>
      layOutType topLevel doc marks kind name (before ++ source text :: after) := by
  have member := framed.indented.surround [] ['\n']
  have body := member.join ['\n'] (before.map fun other => line (indented other))
    (after.map fun other => line (indented other))
  have all := body.surround (docComment doc ++ marks.flatMap line ++
    line ((if topLevel then "public ".toList else []) ++ kind.keyword.toList ++
      ' ' :: name.toList ++ [' ', '\x7b'])) ['\x7d']
  refine all.of_eq fun text => ?_
  unfold layOutType separated
  rw [List.map_append, List.map_cons, List.append_assoc]
  rfl

/-- The text of a type lists the members of an enum, its methods and the types nested in it. -/
theorem typeText_eq (topLevel : Bool) (decl : TypeDecl) : typeText spell topLevel decl =
    layOutType topLevel decl.doc (decl.annotations.map (annotationText spell)) decl.kind decl.name
      (bodyTexts spell ⟨decl.name, decl.kind, [], {}, [], [], decl.constants⟩ ++
        (decl.methods.map (methodText spell) ++ decl.nested.map (typeText spell false))) := by
  obtain ⟨name, kind, annotations, doc, methods, inner, constants⟩ := decl
  rw [typeText, typeTexts_eq, List.append_assoc]

/-- **The literal of a text at a place in a type stands between two fixed texts**, moved in once for
each type around it. -/
theorem typeText_frames {depth : Nat} {place : String → TypeDecl} (isPlace : TypePlace depth place)
    (topLevel : Bool) : Frames depth fun text => typeText spell topLevel (place text) := by
  induction isPlace generalizing topLevel with
  | mark decl before after isPlace =>
    have marks := (marks_frames spell isPlace before after).surround (docComment decl.doc)
      (line ((if topLevel then "public ".toList else []) ++ decl.kind.keyword.toList ++
        ' ' :: decl.name.toList ++ [' ', '\x7b']))
    have all := marks.surround [] (separated ['\n']
      ((bodyTexts spell ⟨decl.name, decl.kind, [], {}, [], [], decl.constants⟩ ++
        (decl.methods.map (methodText spell) ++ decl.nested.map (typeText spell false))).map
          fun member => line (indented member)) ++ ['\x7d'])
    refine all.of_eq fun text => ?_
    rw [typeText_eq, layOutType]
    simp only [List.nil_append, List.append_assoc]
  | method decl before after isPlace =>
    have all := layOutType_frames (methodText_frames spell isPlace) topLevel decl.doc
      (decl.annotations.map (annotationText spell)) decl.kind decl.name
      (bodyTexts spell ⟨decl.name, decl.kind, [], {}, [], [], decl.constants⟩ ++
        before.map (methodText spell))
      (after.map (methodText spell) ++ decl.nested.map (typeText spell false))
    refine all.of_eq fun text => ?_
    rw [typeText_eq]
    simp only [List.map_append, List.map_cons, List.append_assoc, List.cons_append]
  | constant decl isEnum before after name =>
    have all := layOutType_frames
      (enumBodyText_frames spell ⟨decl.name, decl.kind, [], {}, [], [], []⟩ before after name)
      topLevel decl.doc (decl.annotations.map (annotationText spell)) decl.kind decl.name []
      (decl.methods.map (methodText spell) ++ decl.nested.map (typeText spell false))
    refine all.of_eq fun text => ?_
    rw [typeText_eq, bodyTexts, if_pos isEnum, List.singleton_append, List.nil_append]
  | @nested decl before after depth place isPlace ih =>
    have all := layOutType_frames (ih false) topLevel decl.doc
      (decl.annotations.map (annotationText spell)) decl.kind decl.name
      (bodyTexts spell ⟨decl.name, decl.kind, [], {}, [], [], decl.constants⟩ ++
        decl.methods.map (methodText spell) ++ before.map (typeText spell false))
      (after.map (typeText spell false))
    refine all.of_eq fun text => ?_
    rw [typeText_eq]
    simp only [List.map_append, List.map_cons, List.append_assoc]

end Texts

/-! ### Classes named around a place -/

theorem valueClasses_place {place : String → ElementValue} (isPlace : ValuePlace place)
    (text other : String) : valueClasses (place text) = valueClasses (place other) := by
  induction isPlace with
  | text => rfl
  | item before after isPlace ih =>
    simp only [valueClasses, valuesClasses_eq, List.flatMap_append, List.flatMap_cons, ih]

theorem annotationClasses_place {place : String → Annotation} (isPlace : AnnotationPlace place)
    (text other : String) : annotationClasses (place text) = annotationClasses (place other) := by
  obtain ⟨type, before, after, name, isPlace⟩ := isPlace
  simp only [annotationClasses, List.flatMap_append, List.flatMap_cons,
    valueClasses_place isPlace text other]

theorem methodClasses_place {place : String → Method} (isPlace : MethodPlace place)
    (text other : String) : methodClasses (place text) = methodClasses (place other) := by
  cases isPlace with
  | mark method before after isPlace =>
    simp only [methodClasses, List.flatMap_append, List.flatMap_cons,
      annotationClasses_place isPlace text other]
  | parameter method before after isPlace =>
    obtain ⟨parameter, first, last, isPlace⟩ := isPlace
    simp only [methodClasses, parameterClasses, List.flatMap_append, List.flatMap_cons,
      annotationClasses_place isPlace text other]

/-- A type names the same classes whatever text stands at a place in it. -/
theorem typeClasses_place {depth : Nat} {place : String → TypeDecl}
    (isPlace : TypePlace depth place) (text other : String) :
    typeClasses (place text) = typeClasses (place other) := by
  induction isPlace with
  | mark decl before after isPlace =>
    simp only [typeClasses, List.flatMap_append, List.flatMap_cons,
      annotationClasses_place isPlace text other]
  | method decl before after isPlace =>
    simp only [typeClasses, List.flatMap_append, List.flatMap_cons,
      methodClasses_place isPlace text other]
  | constant => rfl
  | nested decl before after isPlace ih =>
    simp only [typeClasses, typesClasses_eq, List.flatMap_append, List.flatMap_cons, ih]

theorem name_place {depth : Nat} {place : String → TypeDecl} (isPlace : TypePlace depth place)
    (text other : String) : (place text).name = (place other).name := by
  cases isPlace <;> rfl

theorem claimNames_place {depth : Nat} {place : String → TypeDecl}
    (isPlace : TypePlace depth place) (text other : String) (owners : List (String × String))
    (name : String) :
    claimNames owners name (place text) = claimNames owners name (place other) := by
  induction isPlace generalizing owners name with
  | mark => rfl
  | method => rfl
  | constant => rfl
  | nested decl before after isPlace ih =>
    simp only [claimNames, claimNested_eq, List.foldl_append, List.foldl_cons, ih,
      name_place isPlace text other]

/-! ### Literals that are moved in -/

/-- A literal that is moved in denotes its text as long as that holds no line end without an
escape in Java. -/
theorem isLiteralOf_iterate_iff (depth : Nat) (text : String) :
    IsLiteralOf (shifted^[depth] (literal text)) text ↔
      depth = 0 ∨ ∀ c ∈ text.toList, isLineEnd c = true → c = '\n' ∨ c = '\r' := by
  cases depth with
  | zero => exact ⟨fun _ => .inl rfl, fun _ => literal_isLiteralOf text⟩
  | succ times =>
    have single := lineFeed_notMem_iterate_iff (endsOpen_literal text) times
    have escaped : (∀ c ∈ literal text, isLineEnd c = false) ↔
        ∀ c ∈ text.toList, isLineEnd c = true → c = '\n' ∨ c = '\r' := by
      constructor
      · intro none c member closes
        by_contra other
        rw [not_or] at other
        have there := (mem_literal_iff closes).mpr ⟨member, other⟩
        exact Bool.eq_false_iff.mp (none c there) closes
      · intro breaks c member
        by_contra closes
        rw [Bool.not_eq_false] at closes
        obtain ⟨inside, feed, carriage⟩ := (mem_literal_iff closes).mp member
        rcases breaks c inside closes with same | same
        · exact feed same
        · exact carriage same
    constructor
    · intro reads
      exact .inr (escaped.mp (single.mp reads.1))
    · intro fine
      have none := escaped.mpr (fine.resolve_left (Nat.succ_ne_zero times))
      rw [Function.iterate_fixed (shifted_eq_self none)]
      exact literal_isLiteralOf text

/-- **The source of a unit holds, at the place of a text, one literal on one line that denotes the
text, exactly if no type around it moves it in or the text holds no line end without an escape in
Java.**  The texts before and after the place are the same for all texts. -/
theorem literal_at_place_iff {depth : Nat} {place : String → TypeDecl}
    (isPlace : TypePlace depth place) (path : TypePath) :
    ∃ before after : List Char, ∀ text source : String,
      renderUnit path (place text) = .ok source →
        ((∃ written, source.toList = before ++ (written ++ after) ∧ IsLiteralOf written text) ↔
          depth = 0 ∨ ∀ c ∈ text.toList, isLineEnd c = true → c = '\n' ∨ c = '\r') := by
  have naming (text : String) : (Naming.ofUnit path (place text)).adoptAll
      (typeClasses (place text)) =
        (Naming.ofUnit path (place "")).adoptAll (typeClasses (place "")) := by
    unfold Naming.ofUnit
    rw [claimNames_place isPlace text "", typeClasses_place isPlace text ""]
  cases named : (Naming.ofUnit path (place "")).adoptAll (typeClasses (place "")) with
  | error fault =>
    refine ⟨[], [], fun text source rendered => ?_⟩
    obtain ⟨-, _, adopted, _⟩ := renderUnit_eq_ok_iff.mp rendered
    rw [naming, named] at adopted
    cases adopted
  | ok final =>
    obtain ⟨head, laidOut⟩ : ∃ head, ∀ body,
        layOutUnit path.package final.sortedImports body = head ++ (body ++ ['\n']) :=
      ⟨_, fun _ => rfl⟩
    obtain ⟨before, after, -, holds⟩ :=
      (typeText_frames final.spell isPlace true).surround head ['\n']
    dsimp only at holds
    refine ⟨before, after, fun text source rendered => ?_⟩
    obtain ⟨-, _, adopted, rfl⟩ := renderUnit_eq_ok_iff.mp rendered
    rw [naming, named] at adopted
    cases adopted
    rw [String.toList_ofList, laidOut, holds, ← isLiteralOf_iterate_iff]
    constructor
    · rintro ⟨written, same, reads⟩
      rw [List.append_cancel_right (List.append_cancel_left same)]
      exact reads
    · exact fun reads => ⟨_, rfl, reads⟩

/-- The path of an interface of users. -/
def usersPath : TypePath := ⟨"demo.resource", "Users", []⟩

/-- An interface with a parameter whose default is given. -/
def usersWithDefault (text : String) : TypeDecl where
  name := "Users"
  kind := .interface
  methods := [{
    name := "getUsers"
    returnType := .primitive .void
    parameters := [{
      name := "order"
      type := .named "java.lang.String"
      annotations := [⟨.named "javax.ws.rs.DefaultValue", [("value", .text text)]⟩] }] }]

theorem usersWithDefault_isPlace : TypePlace 1 usersWithDefault :=
  .method { name := "Users", kind := .interface } [] []
    (.parameter { name := "getUsers", returnType := .primitive .void } [] []
      (.mark { name := "order", type := .named "java.lang.String" } [] []
        (.element (.named "javax.ws.rs.DefaultValue") [] [] "value" .text)))

/-- A default with a line feed is written on one line. -/
theorem literal_at_default : ∃ source,
    renderUnit usersPath (usersWithDefault "a\nb") = .ok source ∧
      ∃ before written after, source.toList = before ++ (written ++ after) ∧
        IsLiteralOf written "a\nb" := by
  obtain ⟨source, rendered⟩ : ∃ source,
      renderUnit usersPath (usersWithDefault "a\nb") = .ok source :=
    ⟨_, renderUnit_eq_ok_iff.mpr ⟨rfl, _, rfl, rfl⟩⟩
  obtain ⟨before, after, holds⟩ := literal_at_place_iff usersWithDefault_isPlace usersPath
  have ends : ∀ c ∈ "a\nb".toList, isLineEnd c = true → c = '\n' ∨ c = '\r' := by
    rw [String.toList_ofList]
    simp [isLineEnd]
  obtain ⟨written, same, reads⟩ := (holds "a\nb" source rendered).mpr (.inr ends)
  exact ⟨source, rendered, before, written, after, same, reads⟩

/-- **A default with a line separator has no literal in the source at all.** -/
theorem no_literal_of_lineSeparator : ∃ source,
    renderUnit usersPath (usersWithDefault "a\u2028b") = .ok source ∧
      ∀ before written after, source.toList = before ++ (written ++ after) →
        ¬ IsLiteralOf written "a\u2028b" := by
  refine ⟨_, renderUnit_eq_ok_iff.mpr ⟨rfl, _, rfl, rfl⟩, fun before written after same reads => ?_⟩
  rw [String.toList_ofList] at same
  have absent : ∀ c ∈ before ++ (written ++ after), (c != '\\' && c != '\u2028') = true := by
    rw [← same, ← List.all_eq_true]
    decide +kernel
  have backslash : '\\' ∉ written := fun member =>
    absurd (absent '\\' (by simp [member])) (by decide)
  have there := mem_of_isLiteralOf reads backslash '\u2028' (by decide)
  exact absurd (absent '\u2028' (by simp [there])) (by decide)

end RamlInterfaces.Java
