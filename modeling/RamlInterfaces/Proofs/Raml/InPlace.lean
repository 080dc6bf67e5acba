/-
**Passing a value is writing it in place.**

A value that is passed to a trait is filled in as its text.  Where a placeholder is the whole of a
description, a default, an example, a pattern or a value of an enum, nothing but the text is kept of
what is filled in.  So a document describes the same with the value written there instead, unless it
is a truth value: its text is `True` when it is filled in, and `true` when it is read.

* `segments_placeholderText`, `substitute_placeholderText`: a placeholder that is a whole text
  becomes the text of its argument;
* `IsPassable`, `inPlace`: a scalar that can be passed, and what is written in its place;
* `WrittenInPlace`: the placeholder of a parameter against what is written in its place;
* `extractDescription_in_place`: **passing a value is writing it in place**;
* `truth_value_in_place`: a truth value reads otherwise where it is passed.
-/

import RamlInterfaces.Proofs.Raml.AlikeTraits

namespace RamlInterfaces.Raml

/-! ### Placeholders -/

/-- The placeholder of a parameter. -/
def placeholderText (parameter : String) : String := "<<" ++ parameter ++ ">>"

/-- The text names a parameter: a placeholder can hold it. -/
def IsParameterName (parameter : String) : Prop :=
  parameter.toList ≠ [] ∧ ∀ c ∈ parameter.toList, isNameChar c = true

variable {parameter : String} {argument : Scalar} {arguments : Entries}

theorem segmentsAfter_of_le {skip : Nat} {cs : List Char} (short : cs.length ≤ skip) :
    segmentsAfter skip cs = [] := by
  induction cs generalizing skip with
  | nil => rfl
  | cons c rest ih =>
    obtain ⟨fewer, rfl⟩ := Nat.exists_eq_add_one_of_ne_zero (Nat.ne_zero_of_lt short)
    exact ih (Nat.le_of_succ_le_succ short)

theorem dropBlanks_of_isNameChar {cs : List Char} (nonempty : cs ≠ [])
    (isName : ∀ c ∈ cs, isNameChar c = true) (rest : List Char) :
    Text.dropBlanks (cs ++ rest) = cs ++ rest := by
  cases cs with
  | nil => exact absurd rfl nonempty
  | cons c others =>
    have here : isNameChar c = true := isName c List.mem_cons_self
    have noBlank : Text.isBlank c = false := by
      unfold isNameChar at here
      simp only [Bool.and_eq_true, Bool.not_eq_true'] at here
      exact here.2
    exact List.dropWhile_cons_of_neg (Bool.eq_false_iff.mp noBlank)

theorem toList_placeholderText (parameter : String) :
    (placeholderText parameter).toList = '<' :: '<' :: (parameter.toList ++ ['>', '>']) := by
  unfold placeholderText
  rw [String.toList_append, String.toList_append]
  rfl

theorem readPlaceholder?_of_isParameterName (isName : IsParameterName parameter) :
    readPlaceholder? (placeholderText parameter).toList = some (⟨parameter, none⟩, []) := by
  obtain ⟨nonempty, isName⟩ := isName
  have name : (parameter.toList ++ ['>', '>']).takeWhile isNameChar = parameter.toList :=
    (List.takeWhile_append_of_pos isName).trans (List.append_nil _)
  have later : (parameter.toList ++ ['>', '>']).dropWhile isNameChar = ['>', '>'] :=
    List.dropWhile_append_of_pos isName
  rw [toList_placeholderText, readPlaceholder?]
  simp only [dropBlanks_of_isNameChar nonempty isName, name, later, String.ofList_toList,
    List.isEmpty_eq_false_iff.mpr nonempty]
  rfl

/-- The placeholder of a parameter is all that its text holds. -/
theorem segments_placeholderText (isName : IsParameterName parameter) :
    segments (placeholderText parameter).toList = [.placeholder ⟨parameter, none⟩] := by
  have read := readPlaceholder?_of_isParameterName isName
  rw [toList_placeholderText] at read ⊢
  unfold segments segmentsAfter
  rw [read]
  exact congrArg (Segment.placeholder ⟨parameter, none⟩ :: ·) (segmentsAfter_of_le (Nat.le_refl _))

/-- **A placeholder that is the whole text becomes the text of its argument.** -/
theorem substitute_placeholderText {value : Value} {text : String}
    (isName : IsParameterName parameter)
    (passed : arguments.find? (.text parameter) = some value) (isText : value.toText? = some text) :
    substitute arguments (.text (placeholderText parameter)) = .ok (.text text) := by
  have filled : Placeholder.fill arguments ⟨parameter, none⟩ = .ok text := by
    unfold Placeholder.fill
    rw [passed]
    dsimp only
    rw [isText]
    rfl
  have whole : substituteText arguments (placeholderText parameter) = .ok text := by
    have whole : String.ofList (text.toList ++ []) = text := by
      rw [List.append_nil, String.ofList_toList]
    unfold substituteText
    rw [segments_placeholderText isName]
    unfold fillSegments
    rw [filled]
    exact congrArg Except.ok whole
  have opens : mayHoldPlaceholder (placeholderText parameter).toList = true := by
    rw [toList_placeholderText]
    rfl
  have scalar : substituteScalar arguments (.text (placeholderText parameter)) =
      .ok (.text text) := by
    unfold substituteScalar Scalar.string?
    dsimp only
    rw [if_pos opens, whole]
    rfl
  unfold substitute
  rw [scalar]
  rfl

/-! ### Written values -/

/-- A scalar that can be passed to a trait: a value of its own, which can be written, without
placeholders. -/
structure IsPassable (argument : Scalar) : Prop where
  something : argument ≠ .null
  isText : argument.toText?.isSome = true
  ended : ∀ isMapping, argument ≠ .enclosing isMapping
  plain : ∀ text, argument.string? = some text → mayHoldPlaceholder text.toList = false

/-- What is written in the place of a placeholder: the argument, or the text of a truth value as it
is filled in. -/
def inPlace : Scalar → Scalar
  | .bool value => .text (if value then "True" else "False")
  | other => other

/-- The values are the same, or the placeholder of a parameter and what is written in its place. -/
def WrittenInPlace (parameter : String) (argument : Scalar) (value other : Value) : Prop :=
  value = other ∨
    value = .text (placeholderText parameter) ∧ other = .scalar (inPlace argument)

/-- What is written in place holds no placeholder, and so it is left as it is. -/
theorem substitute_inPlace (passable : IsPassable argument) :
    substitute arguments (.scalar (inPlace argument)) = .ok (.scalar (inPlace argument)) := by
  have kept : substituteScalar arguments (inPlace argument) = .ok (inPlace argument) := by
    refine substituteScalar_of_plain fun text string => ?_
    cases argument with
    | bool value =>
      cases string
      cases value <;> decide
    | _ => exact passable.plain text string
  unfold substitute
  rw [kept]
  rfl

/-- The text of an argument reads the same as what is written in place. -/
theorem readsAlike_inPlace {text : String} (something : argument ≠ .null)
    (isText : argument.toText? = some text) :
    ReadsAlike (.text text) (.scalar (inPlace argument)) := by
  have reads (other : Scalar) (same : other.toText? = some text) :
      (Except.ok (some text) : Except Failure (Option String)) =
        (written other.toText?).map some := by
    rw [same]
    rfl
  refine .inr ⟨_, _, rfl, rfl, nofun, ?_, ?_⟩
  · cases argument with
    | null => exact absurd rfl something
    | _ => nofun
  · cases argument with
    | null => exact absurd rfl something
    | bool value => cases value <;> cases isText <;> rfl
    | _ => exact reads _ isText

theorem fillsAlike_writtenInPlace (isName : IsParameterName parameter)
    (passable : IsPassable argument)
    (passed : arguments.find? (.text parameter) = some (.scalar argument)) :
    FillsAlike arguments (WrittenInPlace parameter argument) := by
  rintro value other (rfl | ⟨rfl, rfl⟩)
  · exact .refl readsAlike_refl _
  · obtain ⟨text, isText⟩ := Option.isSome_iff_exists.mp passable.isText
    rw [substitute_placeholderText isName passed isText, substitute_inPlace passable]
    exact .ok (readsAlike_inPlace passable.something isText)

theorem WrittenInPlace.isEndless_eq (passable : IsPassable argument) {value other : Value}
    (written : WrittenInPlace parameter argument value other) :
    value.isEndless = other.isEndless := by
  rcases written with rfl | ⟨rfl, rfl⟩
  · rfl
  · cases argument with
    | enclosing isMapping => exact absurd rfl (passable.ended isMapping)
    | _ => rfl

/-! ### Documents -/

/-- **Passing a value is writing it in place**: a document in which a value is passed to a trait,
wherever the application comes to it, describes the same, or fails in the same way, as one that has
the value written in the trait, in the place of placeholders that are the whole of a description, a
default, an example, a pattern or a value of an enum. -/
theorem extractDescription_in_place {root other : Entries} {trait : String} {depth : Nat}
    (isName : IsParameterName parameter) (passable : IsPassable argument)
    (written : EntriesAlike (EntryAlike trait (WrittenInPlace parameter argument)) root other)
    (passed : ∀ arguments, RefersTo root trait arguments →
      arguments.find? (.text parameter) = some (.scalar argument)) :
    (applyTemplatesWithin depth root >>= extractDescription) =
      (applyTemplatesWithin depth other >>= extractDescription) := by
  have alike : EndAlike (EntriesAlike RootMemberAlike) (applyTemplatesWithin depth root)
      (applyTemplatesWithin depth other) :=
    applyTemplatesWithin_alike written (fun _ _ here => here.isEndless_eq passable)
      fun arguments refers => fillsAlike_writtenInPlace isName passable (passed arguments refers)
  refine (alike.bind fun resolved another same => ?_).eq
  rw [extractDescription_alike same]
  exact .refl (fun _ => rfl) _

/-- The facets of a parameter of which a value is the default, and one of those of the enum. -/
def startFacets (written : Value) : Entries :=
  [(.text "default", written), (.text "enum", .list [.text "last", written])]

/-- A trait of which a value is the description, and which declares that parameter. -/
def pagedTrait (written : Value) : Entries :=
  [(.text "description", written),
    (.text "queryParameters", .map [(.text "page", .map (startFacets written))])]

/-- A resource whose only method passes an argument to the trait. -/
def pagedMembers (argument : Scalar) : Entries :=
  [(.text "get", .map [
    (.text "is", .list [.map [(.text "paged", .map [(.text "start", .scalar argument)])]])])]

/-- A document with that trait and that resource. -/
def pagedDocument (argument : Scalar) (written : Value) : Entries :=
  [(.text "title", .text "t"),
    (.text "traits", .list [.map [(.text "paged", .map (pagedTrait written))]]),
    (.text "/books", .map (pagedMembers argument))]

theorem entryAlike_pagedDocument {text : Value → Value → Prop} {before after : Value}
    (same : ∀ value, text value value) (here : text before after) (argument : Scalar) :
    EntriesAlike (EntryAlike "paged" text) (pagedDocument argument before)
      (pagedDocument argument after) := by
  have values : ListsAlike text (.list [.text "last", before]) (.list [.text "last", after]) :=
    .inr ⟨_, _, rfl, rfl, .cons (same _) (.cons here .nil)⟩
  have facets : EntriesAlike (FacetAlike text) (startFacets before) (startFacets after) :=
    .cons here (.cons values .nil)
  have alternatives :
      AlternativesAlike text (.map (startFacets before)) (.map (startFacets after)) :=
    .inl (.inr ⟨_, _, rfl, rfl, facets⟩)
  have parameters : MapsAlike (fun _ => AlternativesAlike text)
      (.map [(.text "page", .map (startFacets before))])
      (.map [(.text "page", .map (startFacets after))]) :=
    .inr ⟨_, _, rfl, rfl, .cons alternatives .nil⟩
  have body : EntriesAlike (BodyAlike text) (pagedTrait before) (pagedTrait after) :=
    .cons here (.cons parameters .nil)
  have members : MapsAlike (BodyAlike text) (.map (pagedTrait before)) (.map (pagedTrait after)) :=
    .inr ⟨_, _, rfl, rfl, body⟩
  have declared : MapsAlike (TraitAlike "paged" text)
      (.map [(.text "paged", .map (pagedTrait before))])
      (.map [(.text "paged", .map (pagedTrait after))]) :=
    .inr ⟨_, _, rfl, rfl, .cons members .nil⟩
  exact .cons rfl (.cons (.inr (.inr ⟨_, _, rfl, rfl, .cons declared .nil⟩)) (.cons rfl .nil))

/-- The application to that document comes to the one resource only. -/
theorem visits_pagedDocument {argument : Scalar} {written : Value} {path : String}
    {resource : Entries} (visits : Visits (pagedDocument argument written) path resource) :
    resource = pagedMembers argument := by
  induction visits with
  | @top key value _ _ member named content =>
    have isResource : (key, value) = (.text "/books", .map (pagedMembers argument)) := by
      rcases List.mem_cons.mp member with same | member
      · cases same
        cases named
      rcases List.mem_cons.mp member with same | member
      · cases same
        cases named
      · exact List.mem_singleton.mp member
    cases isResource
    exact Except.ok.inj (content.symm.trans (composed_of_untyped rfl))
  | within above member named content ih =>
    subst ih
    cases List.mem_singleton.mp member
    cases named

theorem refersTo_pagedDocument {argument : Scalar} {written : Value} {trait : String}
    {arguments : Entries} (refers : RefersTo (pagedDocument argument written) trait arguments) :
    arguments.find? (.text "start") = some (.scalar argument) := by
  obtain ⟨visits, member, named, content, refers, isReference, isTrait, rfl⟩ := refers
  cases visits_pagedDocument visits
  cases List.mem_singleton.mp member
  cases content
  cases List.mem_singleton.mp refers
  cases isReference
  rfl

theorem number_in_place :
    IsParameterName "start" ∧ IsPassable (.int 5) ∧
      EntriesAlike (EntryAlike "paged" (WrittenInPlace "start" (.int 5)))
        (pagedDocument (.int 5) (.text "<<start>>"))
        (pagedDocument (.int 5) (.scalar (.int 5))) ∧
      (∀ arguments, RefersTo (pagedDocument (.int 5) (.text "<<start>>")) "paged" arguments →
        arguments.find? (.text "start") = some (.scalar (.int 5))) ∧
      (applyTemplatesWithin nestingLimit (pagedDocument (.int 5) (.text "<<start>>")) >>=
          extractDescription) =
        (applyTemplatesWithin nestingLimit (pagedDocument (.int 5) (.scalar (.int 5))) >>=
          extractDescription) := by
  have isName : IsParameterName "start" := ⟨by decide, List.all_eq_true.mp (by decide)⟩
  have passable : IsPassable (.int 5) := ⟨nofun, rfl, nofun, nofun⟩
  have written : EntriesAlike (EntryAlike "paged" (WrittenInPlace "start" (.int 5)))
      (pagedDocument (.int 5) (.text "<<start>>")) (pagedDocument (.int 5) (.scalar (.int 5))) :=
    entryAlike_pagedDocument (fun _ => .inl rfl) (.inr ⟨rfl, rfl⟩) (.int 5)
  have passed (arguments : Entries)
      (refers : RefersTo (pagedDocument (.int 5) (.text "<<start>>")) "paged" arguments) :
      arguments.find? (.text "start") = some (.scalar (.int 5)) := refersTo_pagedDocument refers
  exact ⟨isName, passable, written, passed,
    extractDescription_in_place isName passable written passed⟩

/-- The defaults of the query parameters of the resources at the top. -/
def topDefaults (description : Description) : List (Option String) :=
  description.resources.flatMap fun resource => resource.actions.flatMap fun action =>
    action.queryParameters.map fun entry => entry.2.default

/-- **A truth value reads otherwise where it is passed**: its text is filled in with a capital
letter. -/
theorem truth_value_in_place :
    problems (pagedDocument (.bool true) (.text "<<start>>")) = .ok [] ∧
      problems (pagedDocument (.bool true) (.scalar (.bool true))) = .ok [] ∧
      topDefaults <$> (applyTemplates (pagedDocument (.bool true) (.text "<<start>>")) >>=
        extractDescription) = .ok [some "True"] ∧
      topDefaults <$> (applyTemplates (pagedDocument (.bool true) (.scalar (.bool true))) >>=
        extractDescription) = .ok [some "true"] := by
  decide +kernel

end RamlInterfaces.Raml
