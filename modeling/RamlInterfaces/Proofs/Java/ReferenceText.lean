/-
**Reading a reference back from its text.**

A type is written as the spelling of its class, followed by its arguments in angle brackets.  Where
no spelling holds a bracket or a comma, the text can be cut into its parts again, so it gives the
type as far as the spellings give the classes.

* `IsPlainName`: a spelling that shows where it ends, and that no primitive type has;
* `argumentsText`, `toList_text`: the text of a type in two parts;
* `cancel_name`: a name can be cut off what follows it;
* `isReadable`: **the text of a type, whatever follows it, gives the type**;
* `text_of_spellType`: two types with one text are one type.
-/

import RamlInterfaces.Proofs.Java.Spelling
import RamlInterfaces.Proofs.Text.Runs

namespace RamlInterfaces.Java

/-! ### Parts of a text -/

/-- A character that stands around or between type arguments. -/
def isMark (c : Char) : Bool := c == '<' || c == '>' || c == ','

/-- The name holds no mark, and is not the keyword of a primitive type. -/
structure IsPlainName (name : String) : Prop where
  unmarked : ∀ c ∈ name.toList, isMark c = false
  notKeyword : ∀ primitive : Primitive, name ≠ primitive.keyword

/-- What is written after the first of some type arguments. -/
def laterArguments : List (List Char) → List Char
  | [] => ['>']
  | argument :: rest => ',' :: ' ' :: (argument ++ laterArguments rest)

/-- What is written after the spelling of a class. -/
def argumentsText : List (List Char) → List Char
  | [] => []
  | first :: rest => '<' :: (first ++ laterArguments rest)

/-- The spelling of the class itself. -/
def headText (spell : TypeRef → String) : TypeRef → String
  | .primitive type => type.keyword
  | other => spell other

theorem flatMap_laterArguments (arguments : List String) :
    (arguments.flatMap fun argument => ", ".toList ++ argument.toList) ++ ['>'] =
      laterArguments (arguments.map String.toList) := by
  induction arguments with
  | nil => rfl
  | cons first rest ih =>
    rw [List.flatMap_cons, List.append_assoc, ih, List.append_assoc]
    rfl

theorem spellTypes_eq (spell : TypeRef → String) (types : List TypeRef) :
    spellType.spellTypes spell types = types.map (spellType spell) := by
  induction types with
  | nil => rfl
  | cons type rest ih => rw [spellType.spellTypes, ih, List.map_cons]

/-- The text of a type. -/
def spelledText (spell : TypeRef → String) (type : TypeRef) : List Char :=
  (spellType spell type).toList

/-- **The text of a type** is the spelling of its class, and its arguments. -/
theorem spelledText_eq (spell : TypeRef → String) (type : TypeRef) : spelledText spell type =
    (headText spell type).toList ++ argumentsText (type.arguments.map (spelledText spell)) := by
  unfold spelledText
  cases type with
  | primitive | declared | unnamed =>
    unfold spellType
    exact (List.append_nil _).symm
  | outside name arguments =>
    cases arguments with
    | nil =>
      unfold spellType
      exact (List.append_nil _).symm
    | cons first rest =>
      have closed := flatMap_laterArguments (rest.map (spellType spell))
      rw [List.map_map] at closed
      rw [spellType, String.toList_append, String.toList_append, String.toList_append,
        spellTypes_eq, Text.toList_intercalate_cons, List.append_assoc, List.append_assoc,
        List.append_assoc]
      exact congrArg (fun later => (spell (.outside name (first :: rest))).toList ++
        '<' :: ((spellType spell first).toList ++ later)) closed

mutual

theorem text_eq_spellType : (type : TypeRef) → type.text = spellType TypeRef.qualifiedName type
  | .primitive _ | .declared _ | .unnamed _ | .outside _ [] => rfl
  | .outside name (first :: rest) => by
    unfold TypeRef.text spellType
    rw [text_eq_spellType first, texts_eq_spellTypes rest]
    rfl

theorem texts_eq_spellTypes : (types : List TypeRef) →
    TypeRef.text.texts types = spellType.spellTypes TypeRef.qualifiedName types
  | [] => rfl
  | type :: rest => by
    unfold TypeRef.text.texts spellType.spellTypes
    rw [text_eq_spellType type, texts_eq_spellTypes rest]

end

/-- **The qualified text of a type** is the qualified name of its class, and its arguments. -/
theorem toList_text (type : TypeRef) : type.text.toList = type.qualifiedName.toList ++
    argumentsText ((type.arguments.map TypeRef.text).map String.toList) := by
  have head : headText TypeRef.qualifiedName type = type.qualifiedName := by cases type <;> rfl
  have arguments : (type.arguments.map TypeRef.text).map String.toList =
      type.arguments.map (spelledText TypeRef.qualifiedName) := by
    rw [List.map_map]
    refine List.map_congr_left fun argument _ => ?_
    exact congrArg String.toList (text_eq_spellType argument)
  rw [arguments, text_eq_spellType]
  exact (spelledText_eq TypeRef.qualifiedName type).trans (by rw [head])

/-! ### Cutting a text -/

/-- What follows does not continue a name. -/
def Follows (rest : List Char) : Prop := ∀ c ∈ rest.head?, isMark c = true

/-- What follows does not continue a type. -/
def FollowsType (rest : List Char) : Prop := ∀ c ∈ rest.head?, c = '>' ∨ c = ','

theorem cancel_name {name other rest further : List Char}
    (unmarked : ∀ c ∈ name, isMark c = false) (otherUnmarked : ∀ c ∈ other, isMark c = false)
    (follows : Follows rest) (furtherFollows : Follows further)
    (same : name ++ rest = other ++ further) : name = other ∧ rest = further := by
  induction name generalizing other with
  | nil =>
    cases other with
    | nil => exact ⟨rfl, same⟩
    | cons c cs =>
      rw [List.nil_append] at same
      subst same
      cases (otherUnmarked c List.mem_cons_self).symm.trans (follows c rfl)
  | cons c cs ih =>
    cases other with
    | nil =>
      rw [List.nil_append] at same
      subst same
      cases (unmarked c List.mem_cons_self).symm.trans (furtherFollows c rfl)
    | cons d ds =>
      obtain ⟨rfl, later⟩ := List.cons.inj same
      obtain ⟨rfl, sameRest⟩ := ih (fun e member => unmarked e (List.mem_cons_of_mem _ member))
        (fun e member => otherUnmarked e (List.mem_cons_of_mem _ member)) later
      exact ⟨rfl, sameRest⟩

theorem follows_argumentsText {rest : List Char} (follows : FollowsType rest)
    (arguments : List (List Char)) : Follows (argumentsText arguments ++ rest) := by
  intro c member
  cases arguments with
  | nil =>
    rcases follows c member with rfl | rfl
    · rfl
    · rfl
  | cons first others =>
    cases member
    rfl

theorem followsType_laterArguments (arguments : List (List Char)) (rest : List Char) :
    FollowsType (laterArguments arguments ++ rest) := by
  intro c member
  cases arguments with
  | nil =>
    cases member
    exact .inl rfl
  | cons first others =>
    cases member
    exact .inr rfl

/-! ### Types -/

section Reading

variable {spell : TypeRef → String} {known : TypeRef → Prop}
  (plain : ∀ type, known type → IsPlainName (spell type))
  (injective : ∀ first second, known first → known second → spell first = spell second →
    first.qualifiedName = second.qualifiedName)

/-- All classes of the type are known. -/
def Knows (known : TypeRef → Prop) (type : TypeRef) : Prop := ∀ named ∈ type.classes, known named

/-- The text of the type, whatever follows it, gives the type. -/
def IsReadable (spell : TypeRef → String) (known : TypeRef → Prop) (type : TypeRef) : Prop :=
  Knows known type → ∀ other rest further, Knows known other → FollowsType rest →
    FollowsType further →
      spelledText spell type ++ rest = spelledText spell other ++ further →
        type.text = other.text ∧ rest = further

/-- The texts of types one after the other, up to the closing bracket, give the types. -/
theorem texts_readable {type other : TypeRef} {types others : List TypeRef}
    {rest further : List Char}
    (each : ∀ argument ∈ type :: types, IsReadable spell known argument)
    (knows : ∀ argument ∈ type :: types, Knows known argument)
    (othersKnown : ∀ argument ∈ other :: others, Knows known argument)
    (same : spelledText spell type ++ (laterArguments (types.map (spelledText spell)) ++ rest) =
      spelledText spell other ++ (laterArguments (others.map (spelledText spell)) ++ further)) :
    (type :: types).map TypeRef.text = (other :: others).map TypeRef.text ∧ rest = further := by
  induction types generalizing type other others with
  | nil =>
    obtain ⟨first, following⟩ := each type List.mem_cons_self (knows type List.mem_cons_self) other
      _ _ (othersKnown other List.mem_cons_self) (followsType_laterArguments _ _)
      (followsType_laterArguments _ _) same
    cases others with
    | nil => exact ⟨congrArg (fun text => [text]) first, (List.cons.inj following).2⟩
    | cons => cases (List.cons.inj following).1
  | cons next types ih =>
    obtain ⟨here, later⟩ := List.forall_mem_cons.mp each
    obtain ⟨knowsHere, knowsLater⟩ := List.forall_mem_cons.mp knows
    obtain ⟨otherKnown, moreKnown⟩ := List.forall_mem_cons.mp othersKnown
    obtain ⟨first, following⟩ := here knowsHere other _ _ otherKnown
      (followsType_laterArguments _ _) (followsType_laterArguments _ _) same
    cases others with
    | nil => cases (List.cons.inj following).1
    | cons another others =>
      have tails := (List.cons.inj (List.cons.inj following).2).2
      simp only [List.append_eq, List.append_assoc] at tails
      obtain ⟨texts, ends⟩ := ih later knowsLater moreKnown tails
      exact ⟨List.cons_eq_cons.mpr ⟨first, texts⟩, ends⟩

theorem argumentsText_readable {types others : List TypeRef} {rest further : List Char}
    (each : ∀ type ∈ types, IsReadable spell known type) (knows : ∀ type ∈ types, Knows known type)
    (othersKnown : ∀ type ∈ others, Knows known type) (follows : FollowsType rest)
    (furtherFollows : FollowsType further)
    (same : argumentsText (types.map (spelledText spell)) ++ rest =
      argumentsText (others.map (spelledText spell)) ++ further) :
    types.map TypeRef.text = others.map TypeRef.text ∧ rest = further := by
  cases types with
  | nil =>
    cases others with
    | nil => exact ⟨rfl, same⟩
    | cons other more =>
      obtain rfl : rest = '<' :: _ := same
      exact absurd (follows _ rfl) (by decide)
  | cons type types =>
    cases others with
    | nil =>
      obtain rfl : '<' :: _ = further := same
      exact absurd (furtherFollows _ rfl) (by decide)
    | cons other more =>
      have tails := (List.cons.inj same).2
      simp only [List.append_eq, List.append_assoc] at tails
      exact texts_readable each knows othersKnown tails

theorem mem_classesOf {types : List TypeRef} {type named : TypeRef} (member : type ∈ types)
    (isClass : named ∈ type.classes) : named ∈ TypeRef.classes.classesOf types := by
  induction types with
  | nil => cases member
  | cons first rest ih =>
    rw [TypeRef.classes.classesOf]
    rcases List.mem_cons.mp member with rfl | further
    · exact List.mem_append_left _ isClass
    · exact List.mem_append_right _ (ih further)

/-- The classes of a type are the one at its head, unless it is primitive, and those of its
arguments. -/
theorem Knows.arguments {type : TypeRef} (knows : Knows known type) :
    ∀ argument ∈ type.arguments, Knows known argument := by
  cases type with
  | primitive | declared | unnamed => exact fun argument member => absurd member List.not_mem_nil
  | outside name arguments =>
    intro argument member named isClass
    exact knows named (List.mem_cons_of_mem _ (mem_classesOf member isClass))

theorem Knows.head {type : TypeRef} (knows : Knows known type)
    (noPrimitive : type.isPrimitive = false) : known type := by
  cases type with
  | primitive => cases noPrimitive
  | outside | declared | unnamed => exact knows _ List.mem_cons_self

theorem headText_of_class {type : TypeRef} (noPrimitive : type.isPrimitive = false) :
    headText spell type = spell type := by
  cases type with
  | primitive => cases noPrimitive
  | outside | declared | unnamed => rfl

include plain injective

/-- The spelling of the class of a type gives the class. -/
theorem qualifiedName_of_headText {type other : TypeRef} (knows : Knows known type)
    (otherKnown : Knows known other) (same : headText spell type = headText spell other) :
    type.qualifiedName = other.qualifiedName := by
  cases isPrimitive : type.isPrimitive with
  | false =>
    rw [headText_of_class isPrimitive] at same
    cases otherPrimitive : other.isPrimitive with
    | false =>
      rw [headText_of_class otherPrimitive] at same
      exact injective type other (knows.head isPrimitive) (otherKnown.head otherPrimitive) same
    | true =>
      cases other with
      | primitive keyword => exact absurd same ((plain type (knows.head isPrimitive)).notKeyword _)
      | _ => cases otherPrimitive
  | true =>
    cases type with
    | primitive keyword =>
      cases otherPrimitive : other.isPrimitive with
      | false =>
        rw [headText_of_class otherPrimitive] at same
        exact absurd same.symm ((plain other (otherKnown.head otherPrimitive)).notKeyword _)
      | true =>
        cases other with
        | primitive => exact same
        | _ => cases otherPrimitive
    | _ => cases isPrimitive

omit injective in
theorem unmarked_headText {type : TypeRef} (knows : Knows known type) :
    ∀ c ∈ (headText spell type).toList, isMark c = false := by
  cases isPrimitive : type.isPrimitive with
  | false =>
    rw [headText_of_class isPrimitive]
    exact (plain type (knows.head isPrimitive)).unmarked
  | true =>
    cases type with
    | primitive keyword =>
      have unmarked : (keyword.keyword.toList.all fun c => !isMark c) = true := by
        cases keyword <;> decide
      exact fun c member => by simpa using List.all_eq_true.mp unmarked c member
    | _ => cases isPrimitive

/-- A type is readable if its arguments are. -/
theorem isReadable_of_arguments {type : TypeRef}
    (each : ∀ argument ∈ type.arguments, IsReadable spell known argument) :
    IsReadable spell known type := by
  intro knows other rest further otherKnown follows furtherFollows same
  rw [spelledText_eq, spelledText_eq, List.append_assoc, List.append_assoc] at same
  obtain ⟨head, later⟩ := cancel_name (unmarked_headText plain knows)
    (unmarked_headText plain otherKnown) (follows_argumentsText follows _)
    (follows_argumentsText furtherFollows _) same
  obtain ⟨arguments, ends⟩ := argumentsText_readable each knows.arguments otherKnown.arguments
    follows furtherFollows later
  refine ⟨String.toList_injective ?_, ends⟩
  rw [toList_text, toList_text, arguments,
    qualifiedName_of_headText plain injective knows otherKnown (String.toList_injective head)]

omit plain injective in
theorem sizeOf_lt_of_mem_arguments {type argument : TypeRef} (member : argument ∈ type.arguments) :
    sizeOf argument < sizeOf type := by
  cases type with
  | primitive | declared | unnamed => cases member
  | outside name arguments =>
    have inside := List.sizeOf_lt_of_mem (show argument ∈ arguments from member)
    rw [TypeRef.outside.sizeOf_spec]
    omega

/-- **The text of a type, whatever follows it, gives the type.** -/
theorem isReadable (type : TypeRef) : IsReadable spell known type :=
  isReadable_of_arguments plain injective fun argument _ => isReadable argument
termination_by sizeOf type
decreasing_by exact sizeOf_lt_of_mem_arguments (by assumption)

/-- **Two types with one text are one type**, where the spellings of their classes are plain and
give the classes. -/
theorem text_of_spellType {type other : TypeRef} (knows : Knows known type)
    (otherKnown : Knows known other) (same : spellType spell type = spellType spell other) :
    type.text = other.text := by
  have nothing : FollowsType [] := fun _ member => nomatch member
  refine (isReadable plain injective type knows other [] [] otherKnown nothing nothing ?_).1
  unfold spelledText
  rw [same]

end Reading

end RamlInterfaces.Java
