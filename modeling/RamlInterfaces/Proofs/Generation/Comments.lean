/-
**The comments of a model.**

The comments of a generated model show the descriptions of resources and actions, and the
descriptions and samples of parameters.  Each of them ends where it is meant to end, but a Unicode
escape in one of these texts is still one in the source.

* `documentedTexts`: the texts of a description that are shown in comments;
* `documents_interfaceDecl_iff`: the comments of an interface;
* `parameterDoc_untouched_iff`: what is shown for a parameter is untouched if its texts are;
* `ReadsComment`: how Java reads a comment in a source;
* `buildModel_comments`: **the comments of a model, and when all of them are one comment for Java**.
-/

import RamlInterfaces.Proofs.Generation.Independence
import RamlInterfaces.Proofs.Generation.Legality
import RamlInterfaces.Proofs.Generation.References
import RamlInterfaces.Proofs.Java.CommentPlace
import RamlInterfaces.Raml.Extraction

namespace RamlInterfaces.Generation

open Java
open Settings (Configuration)

/-! ### Texts -/

/-- A text that is shown unless it is blank. -/
def shownText (text : Option String) : List String := (text.filter (!Text.isAllBlank ·)).toList

/-- The texts that are shown for a parameter: its description, and its sample unless it is blank. -/
def argumentTexts (p : Raml.Parameter) : List String := p.description.toList ++ shownText p.sample

/-- The texts that are shown for the parameters of an action and for the action itself. -/
def actionTexts (entry : Raml.Resource × Raml.Action) : List String :=
  shownText entry.2.description ++
    (actionParameters entry.1 entry.2).flatMap fun bound => argumentTexts bound.2.2

/-- The texts that are shown for the resources of a description and for their actions. -/
def documentedTexts (description : Raml.Description) : List String :=
  description.resources.flatMap fun resource =>
    shownText resource.description ++ (actionsFrom resource).flatMap actionTexts

theorem describedDoc_eq (description : Option String) :
    describedDoc description = { paragraphs := shownText description } := by
  unfold describedDoc shownText
  cases description.filter (!Text.isAllBlank ·) <;> rfl

/-- **What is shown for a parameter is untouched exactly if its texts are.** -/
theorem parameterDoc_untouched_iff (p : Raml.Parameter) :
    Untouched (parameterDoc p).toList ↔ ∀ text ∈ argumentTexts p, Untouched text.toList := by
  have described : holdsEscape false (p.description.getD "").toList =
      p.description.toList.any (holdsEscape false ·.toList) := by
    cases p.description <;> simp [holdsEscape]
  have whole : holdsEscape false (parameterDoc p).toList =
      (argumentTexts p).any (holdsEscape false ·.toList) := by
    unfold parameterDoc argumentTexts shownText hasText
    rw [List.any_append, ← described]
    cases p.sample with
    | none => simp
    | some sample =>
      by_cases blank : Text.isAllBlank sample = true
      · simp [Option.filter, blank]
      · have joined : (p.description.getD "" ++ " e.g. " ++ sample).toList =
            (p.description.getD "").toList ++ ' ' :: ("e.g. ".toList ++ sample.toList) := by
          simp
        simp only [blank, Bool.not_false, if_true, Option.getD_some, Text.trimStart,
          String.toList_ofList, holdsEscape_dropBlanks]
        rw [joined, holdsEscape_append_cons (by decide) (by decide),
          holdsEscape_append_of_notMem (by decide)]
        simp [Option.filter, blank]
  rw [untouched_iff, whole, List.any_eq_false]
  simp only [untouched_iff, Bool.not_eq_true]

/-! ### Comments of a method -/

theorem parameter_argumentsFrom (entry : Raml.Resource × Raml.Action) :
    (argumentsFrom entry).map (·.parameter) =
      (actionParameters entry.1 entry.2).map fun bound => bound.2.2 := by
  unfold argumentsFrom argumentsOf
  exact List.ext_getElem (by simp) fun index _ _ => by simp [Argument.ofEntry]

/-- A comment with tags for arguments keeps its paragraphs. -/
theorem paragraphs_foldl_addTag (arguments : List Argument) (doc : DocComment) :
    (arguments.foldl (fun doc argument => doc.addTag argument.name argument.tag.2) doc).paragraphs =
      doc.paragraphs := by
  induction arguments generalizing doc with
  | nil => rfl
  | cons argument rest ih => exact ih _

section Model

variable {configuration : Configuration} {description : Raml.Description} {session : Session}
  {resource : Raml.Resource}

/-- The comment of the method of an action. -/
def actionDoc (entry : Raml.Resource × Raml.Action) : DocComment where
  paragraphs := shownText entry.2.description
  tags := (argumentsFrom entry).map (·.tag)

/-- **The interfaces of a model have the outlines of their resources.** -/
theorem outlineOf_interfaceDecl (built : buildModel configuration description = .ok session)
    (member : resource ∈ description.resources) :
    outlineOf (interfaceDecl configuration.basePackage configuration.constraints resource) =
      interfaceOutline configuration.basePackage resource := by
  have declared : (session.model.units.filter (isResource configuration.basePackage)).map
      (outlineOf ·.type) = (description.resources.map
        (interfaceDecl configuration.basePackage configuration.constraints)).map outlineOf := by
    rw [← (buildModel_made built).declares.interfaces, List.map_map]
    rfl
  have outlines := declared.symm.trans (buildModel_reached built).outlined.interfaces
  rw [List.map_map] at outlines
  exact List.map_inj_left.mp outlines resource member

/-- The comment of a method shows the description of its action and has a tag for each argument. -/
theorem methodDecl_doc (built : buildModel configuration description = .ok session)
    (member : resource ∈ description.resources) {entry : Raml.Resource × Raml.Action}
    (isAction : entry ∈ actionsFrom resource) (owner : TypePath) (path : String) :
    (methodDecl configuration.basePackage configuration.constraints owner path entry).doc =
      actionDoc entry := by
  let doc := (argumentsFrom entry).foldl
    (fun doc argument => doc.addTag argument.name argument.tag.2) (describedDoc entry.2.description)
  have paragraphs : doc.paragraphs = shownText entry.2.description := by
    unfold doc
    rw [paragraphs_foldl_addTag, describedDoc_eq]
  have tags : doc.tags = (argumentsFrom entry).map (·.tag) := by
    have methods := congrArg Outline.methods (outlineOf_interfaceDecl built member)
    unfold outlineOf interfaceOutline Outline.withActions at methods
    rw [interfaceDecl_methods, List.map_map] at methods
    exact congrArg MethodOutline.tags (List.map_inj_left.mp methods entry isAction)
  show doc = ⟨shownText entry.2.description, (argumentsFrom entry).map (·.tag)⟩
  rw [← paragraphs, ← tags]

theorem actionDoc_named (entry : Raml.Resource × Raml.Action) : (actionDoc entry).Named := by
  intro tag member
  obtain ⟨argument, isArgument, rfl⟩ := List.mem_map.mp member
  obtain ⟨position, named⟩ := exists_argumentName isArgument
  show isIdentifier argument.name.toList = true
  rw [named]
  exact (isLegal_argumentName argument.key position).identifier

/-- What is shown for an action is untouched exactly if its texts are. -/
theorem actionDoc_untouched_iff (entry : Raml.Resource × Raml.Action) :
    (∀ text ∈ (actionDoc entry).texts, Untouched text.toList) ↔
      ∀ text ∈ actionTexts entry, Untouched text.toList := by
  have shown : (argumentsFrom entry).map (·.tag.2) =
      (actionParameters entry.1 entry.2).map fun bound => parameterDoc bound.2.2 := by
    have parameters := congrArg (List.map parameterDoc) (parameter_argumentsFrom entry)
    rwa [List.map_map, List.map_map] at parameters
  have texts : (actionDoc entry).texts = shownText entry.2.description ++
      (actionParameters entry.1 entry.2).map fun bound => parameterDoc bound.2.2 := by
    rw [← shown]
    unfold DocComment.texts actionDoc
    rw [List.map_map]
    rfl
  unfold actionTexts
  rw [texts, List.forall_mem_append, List.forall_mem_append, List.forall_mem_map]
  simp only [parameterDoc_untouched_iff, List.mem_flatMap]
  refine and_congr_right fun _ => ⟨?_, ?_⟩
  · rintro all text ⟨bound, isBound, isText⟩
    exact all bound isBound text isText
  · exact fun all bound isBound text isText => all text ⟨bound, isBound, isText⟩

/-! ### Comments of a unit -/

theorem isEmpty_of_mem_texts {doc : DocComment} {text : String} (member : text ∈ doc.texts) :
    doc.isEmpty = false := by
  obtain ⟨paragraphs, tags⟩ := doc
  cases paragraphs with
  | cons => rfl
  | nil =>
    cases tags with
    | cons => rfl
    | nil => cases member

/-- Enums have no comments. -/
theorem isEmpty_of_documents_enumDecl {name : String} {literals : List String} {depth : Nat}
    {doc : DocComment} (documents : Documents (enumDecl name literals) depth doc) :
    doc.isEmpty = true := by
  rcases documents_iff.mp documents with ⟨_, rfl⟩ | ⟨_, _, none, _⟩ | ⟨_, none, _⟩
  · rfl
  · cases none
  · cases none

/-- The annotation type of a verb has its own comment only. -/
theorem eq_of_documents_verbDecl {verb : Verb} {depth : Nat} {doc : DocComment}
    (documents : Documents (verbDecl verb) depth doc) : doc = (verbDecl verb).doc := by
  rcases documents_iff.mp documents with ⟨_, same⟩ | ⟨_, _, none, _⟩ | ⟨_, none, _⟩
  · exact same
  · cases none
  · cases none

theorem verbDecl_untouched (verb : Verb) :
    ∀ text ∈ (verbDecl verb).doc.texts, Untouched text.toList := by
  intro text member
  have same : text = "Indicates that the annotated method responds to HTTP " ++ verb.name ++
      " requests." := List.mem_singleton.mp member
  have none : '\\' ∉ text.toList := by
    rw [same, String.toList_append, String.toList_append, List.mem_append, List.mem_append]
    rintro ((inStart | inName) | inEnd)
    · exact absurd inStart (by decide)
    · exact (isPlain_verb verb).notMem (by decide) inName
    · exact absurd inEnd (by decide)
  exact (untouched_iff _).mpr (holdsEscape_of_notMem none)

/-- **The comments of an interface** are those of its resource and of the actions of it. -/
theorem documents_interfaceDecl_iff (built : buildModel configuration description = .ok session)
    (member : resource ∈ description.resources) {depth : Nat} {doc : DocComment}
    (filled : doc.isEmpty = false) :
    Documents (interfaceDecl configuration.basePackage configuration.constraints resource) depth
        doc ↔
      depth = 0 ∧ doc = { paragraphs := shownText resource.description } ∨
        depth = 1 ∧ ∃ entry ∈ actionsFrom resource, doc = actionDoc entry := by
  have own : (interfaceDecl configuration.basePackage configuration.constraints resource).doc =
      { paragraphs := shownText resource.description } := describedDoc_eq resource.description
  rw [documents_iff, own, interfaceDecl_methods, interfaceDecl_nested]
  refine or_congr_right ⟨?_, ?_⟩
  · rintro (⟨depth, method, isMethod, rfl⟩ | ⟨inner, isNested, below, _, inside⟩)
    · obtain ⟨entry, isAction, rfl⟩ := List.mem_map.mp isMethod
      exact ⟨depth, entry, isAction, methodDecl_doc built member isAction _ _⟩
    · obtain ⟨request, _, rfl⟩ := exists_request_of_mem_enumsOf isNested
      rw [isEmpty_of_documents_enumDecl inside] at filled
      cases filled
  · rintro ⟨depth, entry, isAction, rfl⟩
    exact .inl ⟨depth, _, List.mem_map_of_mem isAction,
      (methodDecl_doc built member isAction _ _).symm⟩

theorem mem_units_iff (built : buildModel configuration description = .ok session)
    {unit : CompilationUnit} : unit ∈ session.model.units ↔
      (∃ resource ∈ description.resources, interfaceUnit configuration resource = unit) ∨
        ∃ verb ∈ verbsOf (description.resources.flatMap actionsFrom),
          verbUnit configuration verb = unit := by
  rw [(units_perm built).mem_iff, List.mem_append, List.mem_map, List.mem_map]

/-- The tags in the comments of a model are for variables. -/
theorem named_of_documents (built : buildModel configuration description = .ok session)
    {unit : CompilationUnit} (member : unit ∈ session.model.units) {depth : Nat} {doc : DocComment}
    (documents : Documents unit.type depth doc) (filled : doc.isEmpty = false) : doc.Named := by
  rcases (mem_units_iff built).mp member with ⟨resource, isResource, rfl⟩ | ⟨verb, _, rfl⟩
  · rcases (documents_interfaceDecl_iff built isResource filled).mp documents with
      ⟨_, rfl⟩ | ⟨_, entry, _, rfl⟩
    · exact fun _ none => absurd none List.not_mem_nil
    · exact actionDoc_named entry
  · rw [eq_of_documents_verbDecl documents]
    exact fun _ none => absurd none List.not_mem_nil

/-- The texts in the comments of a model are untouched exactly if those of its description are. -/
theorem untouched_comments_iff (built : buildModel configuration description = .ok session) :
    (∀ unit ∈ session.model.units, ∀ depth doc, Documents unit.type depth doc →
        doc.isEmpty = false → ∀ text ∈ doc.texts, Untouched text.toList) ↔
      ∀ text ∈ documentedTexts description, Untouched text.toList := by
  constructor
  · intro all text member
    obtain ⟨resource, isResource, inResource⟩ := List.mem_flatMap.mp member
    have isUnit := (mem_units_iff built).mpr (.inl ⟨resource, isResource, rfl⟩)
    have inDoc (depth : Nat) (doc : DocComment) (isDoc : doc.isEmpty = false → Documents
        (interfaceUnit configuration resource).type depth doc) :
        ∀ text ∈ doc.texts, Untouched text.toList := fun text isText =>
      have filled := isEmpty_of_mem_texts isText
      all _ isUnit depth doc (isDoc filled) filled text isText
    rcases List.mem_append.mp inResource with described | inAction
    · refine inDoc 0 { paragraphs := shownText resource.description } (fun filled => ?_) text
        (List.mem_append_left _ described)
      exact (documents_interfaceDecl_iff built isResource filled).mpr (.inl ⟨rfl, rfl⟩)
    · obtain ⟨entry, isAction, isText⟩ := List.mem_flatMap.mp inAction
      refine (actionDoc_untouched_iff entry).mp (inDoc 1 _ fun filled => ?_) text isText
      exact (documents_interfaceDecl_iff built isResource filled).mpr
        (.inr ⟨rfl, entry, isAction, rfl⟩)
  · intro all unit member depth doc documents filled
    rcases (mem_units_iff built).mp member with ⟨resource, isResource, rfl⟩ | ⟨verb, _, rfl⟩
    · have inResource := fun text isText =>
        all text (List.mem_flatMap.mpr ⟨resource, isResource, isText⟩)
      rw [List.forall_mem_append] at inResource
      rcases (documents_interfaceDecl_iff built isResource filled).mp documents with
        ⟨_, rfl⟩ | ⟨_, entry, isAction, rfl⟩
      · unfold DocComment.texts
        rw [List.map_nil, List.append_nil]
        exact inResource.1
      · exact (actionDoc_untouched_iff entry).mpr fun text isText =>
          inResource.2 text (List.mem_flatMap.mpr ⟨entry, isAction, isText⟩)
    · rw [eq_of_documents_verbDecl documents]
      exact verbDecl_untouched verb

/-! ### Comments of a model -/

/-- A comment that is written for a declaration so many types inside the type of a source stands in
it on lines of its own and ends at its last mark; it is one comment for Java exactly if no Unicode
escape begins in any of its texts. -/
structure ReadsComment (source : String) (depth : Nat) (doc : DocComment) : Prop where
  stands : Stands depth doc source.toList
  closed : IsClosedComment (commentText depth doc)
  isComment_iff : IsComment (commentText depth doc) ↔ ∀ text ∈ doc.texts, Untouched text.toList

/-- **Every unit of a model that was built is rendered if its annotations can be written, and every
comment in its source ends where it is meant to.  All comments of the model are comments for Java,
which replaces nothing in them, exactly if no Unicode escape begins in any text of the description
that is shown.** -/
theorem buildModel_comments (built : buildModel configuration description = .ok session) :
    (∀ unit ∈ session.model.units,
      ((∃ source, renderUnit unit.path unit.type = .ok source) ↔ unit.type.isWritable = true) ∧
      ∀ source, renderUnit unit.path unit.type = .ok source →
        ∀ depth doc, Documents unit.type depth doc → doc.isEmpty = false →
          ReadsComment source depth doc) ∧
    ((∀ unit ∈ session.model.units, ∀ depth doc, Documents unit.type depth doc →
        doc.isEmpty = false → IsComment (commentText depth doc)) ↔
      ∀ text ∈ documentedTexts description, Untouched text.toList) := by
  constructor
  · intro unit member
    have sound := (buildModel_sound built).units unit member
    obtain ⟨naming, adopted⟩ := (Naming.ofUnit unit.path unit.type).exists_adoptAll
      fun type isClass => (sound.classes type isClass).importName
    refine ⟨⟨fun ⟨source, rendered⟩ => (renderUnit_eq_ok_iff.mp rendered).1,
      fun writable => ⟨_, ((rendered_iff adopted).mpr writable).source⟩⟩, ?_⟩
    intro source rendered depth doc documents filled
    have named := named_of_documents built member documents filled
    exact ⟨renderUnit_stands rendered documents filled named,
      commentText_isClosedComment named depth, commentText_isComment_iff named depth⟩
  · rw [← untouched_comments_iff built]
    refine forall₂_congr fun unit member => forall₂_congr fun depth doc =>
      forall₂_congr fun documents filled => ?_
    exact commentText_isComment_iff (named_of_documents built member documents filled) depth

end Model

/-- A document whose texts hold marks that close comments, and backslashes. -/
def helpPages : Entries :=
  [(.text "title", .text "t"),
    (.text "/help", .map [
      (.text "description", .text "Ends */ here\r\nor in C:\\temp."),
      (.text "get", .map [
        (.text "description", .text "*/"),
        (.text "queryParameters", .map [
          (.text "word", .map [
            (.text "description", .text "A word"), (.text "example", .text "\\\\u0041")])])])])]

theorem comments_helpPages : ∃ description session,
    Raml.extractDescription helpPages = .ok description ∧
    buildModel { basePackage := "api" } description = .ok session ∧
    ((∀ unit ∈ session.model.units, ∃ source, renderUnit unit.path unit.type = .ok source ∧
      ∀ depth doc, Documents unit.type depth doc → doc.isEmpty = false →
        ReadsComment source depth doc) ∧
      ((∀ unit ∈ session.model.units, ∀ depth doc, Documents unit.type depth doc →
          doc.isEmpty = false → IsComment (commentText depth doc)) ↔
        ∀ text ∈ documentedTexts description, Untouched text.toList)) ∧
    session.model.units.map (fun unit => unit.type.methods.map (·.doc)) =
      [[⟨["*/"], [("word", "A word e.g. \\\\u0041")]⟩]] ∧
    documentedTexts description =
      ["Ends */ here\r\nor in C:\\temp.", "*/", "A word", "\\\\u0041"] ∧
    ∀ text ∈ documentedTexts description, Untouched text.toList := by
  have shown : ((Raml.extractDescription helpPages).toOption.bind fun description =>
      (buildModel { basePackage := "api" } description).toOption.map fun session =>
        (session.model.units.map fun unit => unit.type.methods.map (·.doc),
          documentedTexts description, session.model.units.all (·.type.isWritable))) =
      some ([[⟨["*/"], [("word", "A word e.g. \\\\u0041")]⟩]],
        ["Ends */ here\r\nor in C:\\temp.", "*/", "A word", "\\\\u0041"], true) := by
    decide +kernel
  obtain ⟨description, isDescription, shown⟩ := Option.bind_eq_some_iff.mp shown
  obtain ⟨session, isSession, shown⟩ := Option.map_eq_some_iff.mp shown
  simp only [Prod.mk.injEq] at shown
  obtain ⟨docs, texts, writable⟩ := shown
  have built := toOption_eq_some_iff.mp isSession
  obtain ⟨sources, isComment⟩ := buildModel_comments built
  refine ⟨description, session, toOption_eq_some_iff.mp isDescription, built,
    ⟨fun unit member => ?_, isComment⟩, docs, texts, ?_⟩
  · obtain ⟨rendered, reads⟩ := sources unit member
    obtain ⟨source, isSource⟩ := rendered.mpr (List.all_eq_true.mp writable unit member)
    exact ⟨source, isSource, reads source isSource⟩
  rw [texts]
  decide

/-- A document with a text in which a Unicode escape begins. -/
def accountPages : Entries :=
  [(.text "title", .text "t"), (.text "/a", .map [(.text "description", .text "C:\\users")])]

/-- **A comment that Java does not read**: its text holds a backslash before the letter `u`. -/
theorem no_comment_of_backslash : ∃ description session,
    Raml.extractDescription accountPages = .ok description ∧
    buildModel { basePackage := "api" } description = .ok session ∧
    ∃ unit ∈ session.model.units, ∃ depth doc, Documents unit.type depth doc ∧
      doc.isEmpty = false ∧ ¬ IsComment (commentText depth doc) := by
  have shown : ((Raml.extractDescription accountPages).toOption.bind fun description =>
      (buildModel { basePackage := "api" } description).toOption.map fun session =>
        session.model.units.map (·.type.doc)) = some [⟨["C:\\users"], []⟩] := by
    decide +kernel
  obtain ⟨description, isDescription, shown⟩ := Option.bind_eq_some_iff.mp shown
  obtain ⟨session, isSession, shown⟩ := Option.map_eq_some_iff.mp shown
  obtain ⟨unit, units, doc⟩ := List.map_eq_singleton_iff.mp shown
  refine ⟨description, session, toOption_eq_some_iff.mp isDescription,
    toOption_eq_some_iff.mp isSession, unit, by simp [units], 0, unit.type.doc, .type _, ?_, ?_⟩
  · rw [doc]
    rfl
  · rw [doc, commentText_isComment_iff fun _ none => absurd none List.not_mem_nil]
    decide

end RamlInterfaces.Generation
