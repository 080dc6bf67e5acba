/-
**Where comments stand in the source.**

Types and methods are documented.  The comment of each that is not empty stands in the source of its
unit on lines of its own, moved in once for each type around it.

* `Documents`: the comments in a type, with the number of types around each;
* `Stands`: a comment stands in a source on lines of its own;
* `Stands.indented`: it does so after the source is moved in;
* `typeText_stands`, `renderUnit_stands`: **the comments of a type stand in its source, and those of
  a unit in that of the unit**.
-/

import RamlInterfaces.Proofs.Java.Comment
import RamlInterfaces.Proofs.Java.LiteralPlace

namespace RamlInterfaces.Java

open Text

/-- A comment in a type, with the number of types around what it documents. -/
inductive Documents : TypeDecl → Nat → DocComment → Prop
  | type (decl : TypeDecl) : Documents decl 0 decl.doc
  | method {decl : TypeDecl} {method : Method} (member : method ∈ decl.methods) :
    Documents decl 1 method.doc
  | nested {decl inner : TypeDecl} (member : inner ∈ decl.nested) {depth : Nat} {doc : DocComment} :
    Documents inner depth doc → Documents decl (depth + 1) doc

/-- The comments in a type are its own, those of its methods, and those in the types nested in it.
-/
theorem documents_iff {decl : TypeDecl} {depth : Nat} {doc : DocComment} :
    Documents decl depth doc ↔
      (depth = 0 ∧ doc = decl.doc) ∨ (depth = 1 ∧ ∃ method ∈ decl.methods, doc = method.doc) ∨
        ∃ inner ∈ decl.nested, ∃ below, depth = below + 1 ∧ Documents inner below doc := by
  constructor
  · rintro (_ | ⟨member⟩ | ⟨member, inside⟩)
    · exact .inl ⟨rfl, rfl⟩
    · exact .inr (.inl ⟨rfl, _, member, rfl⟩)
    · exact .inr (.inr ⟨_, member, _, rfl, inside⟩)
  · rintro (⟨rfl, rfl⟩ | ⟨rfl, _, member, rfl⟩ | ⟨_, member, _, rfl, inside⟩)
    · exact .type decl
    · exact .method member
    · exact .nested member inside

/-- The text is made of whole lines. -/
def WholeLines (text : List Char) : Prop := text = [] ∨ ∃ left, text = line left

/-- A line begins after the text, moved in by spaces. -/
def AtLineStart (text : List Char) : Prop :=
  ∃ above width, text = above ++ List.replicate width ' ' ∧ WholeLines above

/-- The comment stands in the source on lines of its own, moved in for so many types. -/
def Stands (depth : Nat) (doc : DocComment) (source : List Char) : Prop :=
  ∃ before after, AtLineStart before ∧
    source = before ++ (commentText depth doc ++ '\n' :: after)

/-! ### Line ends -/

theorem wholeLines_nil : WholeLines [] := .inl rfl

theorem wholeLines_append_line (left last : List Char) : WholeLines (left ++ line last) :=
  .inr ⟨left ++ last, (List.append_assoc left last ['\n']).symm⟩

theorem wholeLines_line (text : List Char) : WholeLines (line text) := .inr ⟨text, rfl⟩

theorem WholeLines.append {left right : List Char} (before : WholeLines left)
    (after : WholeLines right) : WholeLines (left ++ right) := by
  rcases after with rfl | ⟨last, rfl⟩
  · rwa [List.append_nil]
  · exact wholeLines_append_line left last

theorem wholeLines_flatMap {α : Type} {piece : α → List Char}
    (each : ∀ item, WholeLines (piece item)) (items : List α) :
    WholeLines (items.flatMap piece) := by
  induction items with
  | nil => exact wholeLines_nil
  | cons item rest ih => exact (each item).append ih

theorem AtLineStart.append {text left : List Char} (start : AtLineStart text)
    (whole : WholeLines left) : AtLineStart (left ++ text) := by
  obtain ⟨above, width, rfl, isAbove⟩ := start
  exact ⟨left ++ above, width, (List.append_assoc _ _ _).symm, whole.append isAbove⟩

/-! ### Comments that stand in a source -/

theorem endsOpen_commentText (depth : Nat) (doc : DocComment) :
    EndsOpen (commentText depth doc) := by
  have split : commentText depth doc =
      below (spaceAt depth) "/**".toList (commentRows doc ++ [[' ', '*']]) ++ ['/'] := by
    simp [commentText, below]
  rw [split]
  exact endsOpen_concat _ rfl

/-- A comment stands where it begins a source. -/
theorem stands_docComment {doc : DocComment} (filled : doc.isEmpty = false) (after : List Char) :
    Stands 0 doc (docComment doc ++ after) := by
  refine ⟨[], after, ⟨[], 0, rfl, wholeLines_nil⟩, ?_⟩
  rw [docComment_eq filled]
  simp [line]

namespace Stands

variable {depth : Nat} {doc : DocComment} {source : List Char}

/-- A comment stands in a source with lines above it and a text after it. -/
protected theorem surround (stands : Stands depth doc source) {left : List Char}
    (whole : WholeLines left) (right : List Char) :
    Stands depth doc (left ++ (source ++ right)) := by
  obtain ⟨before, after, start, rfl⟩ := stands
  exact ⟨left ++ before, after ++ right, start.append whole, by simp⟩

/-- **One more time in.** -/
protected theorem indented (stands : Stands depth doc source) (named : doc.Named) :
    Stands (depth + 1) doc (indented source) := by
  obtain ⟨_, after, ⟨above, width, rfl, isAbove⟩, rfl⟩ := stands
  obtain ⟨below, isBelow⟩ := shifted_lineFeed (show after ++ ['\n'] ≠ [] by simp)
  let whole := List.replicate width ' ' ++ (commentText depth doc ++ '\n' :: (after ++ ['\n']))
  have moved : shifted whole =
      List.replicate width ' ' ++ (commentText (depth + 1) doc ++ '\n' :: below) := by
    rw [shifted_spaces, shifted_append (endsOpen_commentText depth doc),
      shifted_commentText named, isBelow]
  have wider : margin ++ List.replicate width ' ' = List.replicate (4 + width) ' ' :=
    List.replicate_append_replicate
  rw [indented_eq]
  rcases isAbove with rfl | ⟨left, rfl⟩
  · have same : line ([] ++ List.replicate width ' ' ++
        (commentText depth doc ++ '\n' :: after)) = whole := by
      simp [line, whole]
    refine ⟨margin ++ List.replicate width ' ', below, ⟨[], 4 + width, wider, wholeLines_nil⟩, ?_⟩
    rw [same, moved, List.append_assoc]
  · obtain ⟨c, rest, isWhole, goes⟩ : ∃ c rest, whole = c :: rest ∧ ¬ isLineEnd c = true := by
      cases width with
      | zero => exact ⟨'/', _, rfl, by decide⟩
      | succ width => exact ⟨' ', _, rfl, by decide⟩
    obtain ⟨top, isMoved⟩ := shifted_append_lineFeed left goes rest
    have same : line (line left ++ List.replicate width ' ' ++
        (commentText depth doc ++ '\n' :: after)) = left ++ '\n' :: c :: rest := by
      rw [← isWhole]
      simp [line, whole]
    -- the margin stands before the first line of the source and again before the comment
    refine ⟨margin ++ line top ++ (margin ++ List.replicate width ' '), below,
      ⟨margin ++ line top, 4 + width, by rw [wider], wholeLines_append_line margin top⟩, ?_⟩
    rw [same, isMoved, ← isWhole, moved]
    simp only [List.append_assoc]

end Stands

/-! ### Types -/

section Texts

variable (spell : TypeRef → String)

/-- A comment in one of the members of a type. -/
theorem layOutType_stands {depth : Nat} {doc : DocComment} {source : List Char}
    (stands : Stands depth doc source) (named : doc.Named) (topLevel : Bool) (own : DocComment)
    (marks : List (List Char)) (kind : Kind) (name : String) (before after : List (List Char)) :
    Stands (depth + 1) doc
      (layOutType topLevel own marks kind name (before ++ source :: after)) := by
  obtain ⟨opening, opens, isLaidOut⟩ : ∃ opening, WholeLines opening ∧ ∀ members,
      layOutType topLevel own marks kind name members =
        opening ++ (join ['\n'] (members.map fun member => line (indented member)) ++ ['\x7d']) :=
    ⟨_, wholeLines_append_line _ _, fun _ => List.append_assoc _ _ _⟩
  have ends := opens.append
    (wholeLines_flatMap (fun other => wholeLines_line (line (indented other))) before)
  have all := (stands.indented named).surround ends
    ('\n' :: (join ['\n'] ([] :: after.map fun other => line (indented other)) ++ ['\x7d']))
  have isPart : line (indented source) = indented source ++ ['\n'] := rfl
  rw [isLaidOut, List.map_append, List.map_cons, join_around, List.flatMap_map, isPart]
  simpa only [line, List.append_assoc, List.cons_append, List.nil_append] using all

/-- **The comments of a type that are not empty stand in its text.** -/
theorem typeText_stands {decl : TypeDecl} {depth : Nat} {doc : DocComment}
    (documents : Documents decl depth doc) (filled : doc.isEmpty = false) (named : doc.Named)
    (topLevel : Bool) : Stands depth doc (typeText spell topLevel decl) := by
  induction documents generalizing topLevel with
  | type decl =>
    rw [typeText_eq]
    unfold layOutType
    simp only [List.append_assoc]
    exact stands_docComment filled _
  | @method decl method member =>
    obtain ⟨before, after, split⟩ := List.append_of_mem member
    have own : Stands 0 method.doc (methodText spell method) := by
      unfold methodText layOutMethod
      dsimp only
      split <;>
      · simp only [line, List.append_assoc]
        exact stands_docComment filled _
    have all := layOutType_stands own named topLevel decl.doc
      (decl.annotations.map (annotationText spell)) decl.kind decl.name
      (bodyTexts spell ⟨decl.name, decl.kind, [], {}, [], [], decl.constants⟩ ++
        before.map (methodText spell))
      (after.map (methodText spell) ++ decl.nested.map (typeText spell false))
    rw [typeText_eq, split]
    simpa only [List.map_append, List.map_cons, List.append_assoc, List.cons_append] using all
  | @nested decl inner member depth doc documents ih =>
    obtain ⟨before, after, split⟩ := List.append_of_mem member
    have all := layOutType_stands (ih filled named false) named topLevel decl.doc
      (decl.annotations.map (annotationText spell)) decl.kind decl.name
      (bodyTexts spell ⟨decl.name, decl.kind, [], {}, [], [], decl.constants⟩ ++
        decl.methods.map (methodText spell) ++ before.map (typeText spell false))
      (after.map (typeText spell false))
    rw [typeText_eq, split]
    simpa only [List.map_append, List.map_cons, List.append_assoc, List.cons_append] using all

end Texts

/-- Whole lines stand above the type in the source of a unit. -/
theorem layOutUnit_eq (package : String) (imports : List String) (body : List Char) :
    ∃ header, WholeLines header ∧ layOutUnit package imports body = header ++ line body := by
  refine ⟨_, (WholeLines.append ?_ (wholeLines_flatMap (fun _ => wholeLines_line _) _)).append ?_,
    rfl⟩
  · split
    · exact wholeLines_nil
    · exact wholeLines_line _
  · split
    · exact wholeLines_nil
    · exact wholeLines_line []

/-- **The comments of a unit that are not empty stand in its source.** -/
theorem renderUnit_stands {path : TypePath} {decl : TypeDecl} {source : String}
    (rendered : renderUnit path decl = .ok source) {depth : Nat} {doc : DocComment}
    (documents : Documents decl depth doc) (filled : doc.isEmpty = false) (named : doc.Named) :
    Stands depth doc source.toList := by
  obtain ⟨-, naming, -, rfl⟩ := renderUnit_eq_ok_iff.mp rendered
  obtain ⟨header, whole, same⟩ := layOutUnit_eq path.package naming.sortedImports
    (typeText naming.spell true decl)
  rw [String.toList_ofList, same]
  exact (typeText_stands naming.spell documents filled named true).surround whole ['\n']

end RamlInterfaces.Java
