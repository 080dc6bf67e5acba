/-
**Comments as Java reads them.**

Java first replaces the Unicode escapes of a source text; a comment then ends at the first mark that
closes it.  A documentation comment is written line by line, and every line of it is moved in with
the declaration that it stands before.

* `afterClosing?`: what follows the first mark that closes a comment;
* `IsClosedComment`, `IsComment`: a comment that ends with its text, and one in which Java replaces
  nothing;
* `NeverCloses`: no mark that closes a comment stands in a text, as in each line of a documented
  text (`of_mem_docLines`);
* `commentText`: the comment that is written at a depth;
* `docComment_eq`, `shifted_commentText`: a comment as it is laid out, and moved in once more;
* `IsRow`, `isRow_commentRows`: the lines between the marks of a comment;
* `commentText_isClosedComment`: **every comment ends at its last mark**;
* `commentText_isComment_iff`: **Java replaces nothing in a comment exactly if no Unicode escape
  begins in any of its texts**.
-/

import Mathlib.Data.List.Chain
import RamlInterfaces.Proofs.Java.Indentation
import RamlInterfaces.Proofs.Java.Legality
import RamlInterfaces.Proofs.Java.UnicodeEscape

namespace RamlInterfaces.Java

open Text

/-- What follows the first mark that closes a comment. -/
def afterClosing? : List Char → Option (List Char)
  | '*' :: '/' :: rest => some rest
  | _ :: rest => afterClosing? rest
  | [] => none

/-- The source is a comment that ends at the first mark that closes it. -/
def IsClosedComment (source : List Char) : Prop :=
  ∃ inside, source = '/' :: '*' :: inside ∧ afterClosing? inside = some []

/-- The source is one comment for Java, which replaces nothing in it. -/
def IsComment (source : List Char) : Prop := Untouched source ∧ IsClosedComment source

/-! ### Texts that close no comment -/

/-- No mark that closes a comment stands in the text. -/
def NeverCloses (text : List Char) : Prop := text.IsChain fun c next => ¬ (c = '*' ∧ next = '/')

theorem neverCloses_cons {c : Char} {rest : List Char} (never : NeverCloses rest)
    (apart : c = '*' → rest.head? ≠ some '/') : NeverCloses (c :: rest) :=
  List.isChain_cons.mpr ⟨fun _ first both => apart both.1 (both.2 ▸ first), never⟩

theorem neverCloses_append {left right : List Char} (before : NeverCloses left)
    (after : NeverCloses right) (apart : right.head? ≠ some '/') : NeverCloses (left ++ right) :=
  List.isChain_append.mpr ⟨before, after, fun _ _ _ first both => apart (both.2 ▸ first)⟩

theorem neverCloses_of_notMem {text : List Char} (none : '/' ∉ text) : NeverCloses text := by
  induction text with
  | nil => exact List.isChain_nil
  | cons c rest ih =>
    rw [List.mem_cons, not_or] at none
    exact neverCloses_cons (ih none.2) fun _ first => none.2 (List.mem_of_mem_head? first)

/-- **A comment ends at the first mark after a text in which none stands.** -/
theorem afterClosing?_append {text : List Char} (never : NeverCloses text) (rest : List Char) :
    afterClosing? (text ++ '*' :: '/' :: rest) = some rest := by
  induction text with
  | nil => rfl
  | cons c others ih =>
    obtain ⟨apart, never⟩ := List.isChain_cons.mp never
    rw [List.cons_append, afterClosing?, ih never]
    rintro more rfl same
    cases others with
    | nil => cases same
    | cons next others =>
      rw [List.cons_append] at same
      exact apart next rfl ⟨rfl, (List.cons.inj same).1⟩

theorem head?_withoutCommentEnds (text : List Char) :
    (withoutCommentEnds text).head? = text.head? := by
  fun_cases withoutCommentEnds text <;> rfl

theorem neverCloses_withoutCommentEnds (text : List Char) :
    NeverCloses (withoutCommentEnds text) := by
  fun_induction withoutCommentEnds text with
  | case1 rest ih =>
    have mark : NeverCloses "*&#47".toList := neverCloses_of_notMem (by decide)
    have ended : NeverCloses (';' :: withoutCommentEnds rest) :=
      neverCloses_cons ih fun same => absurd same (by decide)
    have whole := neverCloses_append mark ended (by simp)
    exact whole
  | case2 c rest other ih =>
    refine neverCloses_cons ih fun star first => ?_
    rw [head?_withoutCommentEnds] at first
    obtain ⟨others, rfl⟩ := List.head?_eq_some_iff.mp first
    exact other others star rfl
  | case3 => exact List.isChain_nil

theorem holdsEscape_withoutCommentEnds (text : List Char) (odd : Bool) :
    holdsEscape odd (withoutCommentEnds text) = holdsEscape odd text := by
  fun_induction withoutCommentEnds text generalizing odd with
  | case1 rest ih =>
    have written := holdsEscape_append_cons (c := ';') (by decide) (by decide) "*&#47".toList
      (withoutCommentEnds rest) odd
    have mark := holdsEscape_append_cons (c := '/') (by decide) (by decide) ['*'] rest odd
    refine written.trans (Eq.trans ?_ mark.symm)
    rw [ih]
    cases odd <;> rfl
  | case2 c rest other ih => rw [holdsEscape, holdsEscape, ih, ih]
  | case3 => rfl

/-! ### Lines of a comment -/

/-- The first line of a text is its beginning, and each line is a part of it. -/
theorem lines_parts (text : List Char) :
    (∀ line ∈ (lines text).head?, line <+: text) ∧ ∀ line ∈ lines text, line <:+: text := by
  fun_induction lines text with
  | case1 => simp
  | case2 rest ih =>
    refine ⟨by simp, List.forall_mem_cons.mpr ⟨⟨[], _, rfl⟩, fun line member => ?_⟩⟩
    exact (ih.2 line member).trans (List.suffix_append ['\r', '\n'] rest).isInfix
  | case3 c rest single ends ih =>
    refine ⟨by simp, List.forall_mem_cons.mpr ⟨⟨[], _, rfl⟩, fun line member => ?_⟩⟩
    exact (ih.2 line member).trans (List.suffix_cons c rest).isInfix
  | case4 c rest single goes none ih =>
    have first : [c] <+: c :: rest := List.prefix_append [c] rest
    exact ⟨by simp, by simpa using first.isInfix⟩
  | case5 c rest single goes line others more ih =>
    rw [more] at ih
    have first : c :: line <+: c :: rest := (List.prefix_cons_inj c).mpr (ih.1 line rfl)
    refine ⟨fun _ same => Option.some.inj same ▸ first, List.forall_mem_cons.mpr
      ⟨first.isInfix, fun other member => ?_⟩⟩
    exact (ih.2 other (List.mem_cons_of_mem _ member)).trans (List.suffix_cons c rest).isInfix

theorem isPrefix_dropLastWhile (drop : Char → Bool) (text : List Char) :
    dropLastWhile drop text <+: text := by
  obtain ⟨dropped, cut, _⟩ := exists_dropLastWhile_append drop text
  exact ⟨dropped, cut.symm⟩

/-- Each line of a text inside a comment is one line, and closes nothing. -/
theorem of_mem_docLines {text : String} {content : List Char} (member : content ∈ docLines text) :
    NeverCloses content ∧ ∀ c ∈ content, isLineEnd c = false := by
  obtain ⟨whole, isLine, rfl⟩ := List.mem_map.mp member
  have kept := isPrefix_dropLastWhile isBlank whole
  have part := kept.isInfix.trans ((lines_parts _).2 whole isLine)
  refine ⟨?_, fun c inside => lines_noLineEnd _ whole isLine c (kept.subset inside)⟩
  obtain ⟨before, after, split⟩ := part
  have never := neverCloses_withoutCommentEnds text.toList
  rw [← split] at never
  exact List.IsChain.right_of_append (List.IsChain.left_of_append never)

/-- An escape begins in a text exactly if one begins in one of its lines inside a comment. -/
theorem any_docLines (text : String) :
    (docLines text).any (holdsEscape false) = holdsEscape false text.toList := by
  unfold docLines
  rw [List.any_map, ← holdsEscape_withoutCommentEnds, holdsEscape_eq_lines,
    linesHoldEscape_false]
  exact congrArg (List.any (lines (withoutCommentEnds text.toList)))
    (funext fun line => holdsEscape_dropLastWhile line false)

/-! ### The text of a comment -/

/-- A line of a comment: its asterisk, and what stands after it. -/
def docRow (space content : List Char) : List Char :=
  [' ', '*'] ++ if content.isEmpty then [] else space ++ content

/-- The lines of a paragraph. -/
def paragraphRows (text : String) : List (List Char) :=
  match docLines text with
  | [] => [[' ', '*']]
  | lines => lines.map (docRow [' '])

/-- The lines of the tag for a parameter. -/
def tagRows (tag : String × String) : List (List Char) :=
  let opening := " * @param ".toList ++ tag.1.toList
  match docLines tag.2 with
  | [] => [opening]
  | first :: others =>
    (opening ++ [' '] ++ first) :: others.map (docRow (List.replicate 5 ' '))

/-- The lines of the paragraphs, with an empty one between each two. -/
def paragraphsRows : List String → List (List Char)
  | [] => []
  | [text] => paragraphRows text
  | text :: others => paragraphRows text ++ [[' ', '*']] ++ paragraphsRows others

/-- The lines of a comment between its marks. -/
def commentRows (doc : DocComment) : List (List Char) :=
  paragraphsRows doc.paragraphs ++
    (if doc.paragraphs.isEmpty || doc.tags.isEmpty then [] else [[' ', '*']]) ++
    doc.tags.flatMap tagRows

/-- The space before a declaration so many types inside the outermost one. -/
def spaceAt (depth : Nat) : List Char := List.replicate (4 * depth) ' '

/-- The comment that is written for a declaration so many types inside the outermost one. -/
def commentText (depth : Nat) (doc : DocComment) : List Char :=
  below (spaceAt depth) "/**".toList (commentRows doc ++ [" */".toList])

/-- The texts that are shown in a comment. -/
def DocComment.texts (doc : DocComment) : List String := doc.paragraphs ++ doc.tags.map (·.2)

theorem docParagraph_eq (text : String) :
    docParagraph text = (paragraphRows text).flatMap line := by
  unfold docParagraph paragraphRows
  cases docLines text with
  | nil => rfl
  | cons first others =>
    show (first :: others).flatMap (docLine [' ']) = _
    exact (List.flatMap_map (docRow [' ']) line _).symm

theorem docTag_eq (tag : String × String) : docTag tag.1 tag.2 = (tagRows tag).flatMap line := by
  unfold docTag tagRows
  cases docLines tag.2 with
  | nil => exact (List.flatMap_singleton _ _).symm
  | cons first others =>
    have further := List.flatMap_map (docRow (List.replicate 5 ' ')) line others
    exact congrArg (line _ ++ ·) further.symm

theorem docParagraphs_eq (paragraphs : List String) :
    separated docGap (paragraphs.map docParagraph) = (paragraphsRows paragraphs).flatMap line := by
  unfold separated
  fun_induction paragraphsRows paragraphs with
  | case1 => rfl
  | case2 text => exact docParagraph_eq text
  | case3 text others more ih =>
    rw [List.flatMap_append, List.flatMap_append, ← docParagraph_eq, ← ih,
      List.flatMap_singleton]
    cases others with
    | nil => exact absurd rfl more
    | cons => rfl

/-- **A comment that is not empty is laid out as its text with a line end.** -/
theorem docComment_eq {doc : DocComment} (filled : doc.isEmpty = false) :
    docComment doc = line (commentText 0 doc) := by
  have gap : (if doc.paragraphs.isEmpty || doc.tags.isEmpty then [] else docGap) =
      (if doc.paragraphs.isEmpty || doc.tags.isEmpty then [] else [[' ', '*']]).flatMap line := by
    split <;> rfl
  have tags : (doc.tags.flatMap fun tag => docTag tag.1 tag.2) =
      (doc.tags.flatMap tagRows).flatMap line := by
    rw [List.flatMap_assoc]
    exact List.flatMap_congr fun tag _ => docTag_eq tag
  have parts : docComment doc = line "/**".toList ++
      separated docGap (doc.paragraphs.map docParagraph) ++
        (if doc.paragraphs.isEmpty || doc.tags.isEmpty then [] else docGap) ++
          (doc.tags.flatMap fun tag => docTag tag.1 tag.2) ++ line " */".toList := by
    unfold docComment
    rw [filled]
    rfl
  show docComment doc = line (below [] _ _)
  rw [← flatMap_line, parts, docParagraphs_eq, gap, tags, commentRows]
  simp

/-! ### The lines between the marks -/

/-- A line of a comment between its marks: it closes nothing. -/
structure IsRow (row : List Char) : Prop where
  start : row.head? = some ' '
  single : ∀ c ∈ row, isLineEnd c = false
  never : NeverCloses row

theorem IsRow.ne_nil {row : List Char} (isRow : IsRow row) : row ≠ [] := by
  rintro rfl
  cases isRow.start

/-- Whether a text is on one line can be computed. -/
theorem single_of_all {text : List Char} (all : text.all (!isLineEnd ·) = true) :
    ∀ c ∈ text, isLineEnd c = false := by
  simpa using all

theorem isRow_star : IsRow [' ', '*'] where
  start := rfl
  single := single_of_all rfl
  never := neverCloses_of_notMem (by decide)

/-- A line may go on after a space with what closes nothing. -/
theorem IsRow.append {row content : List Char} (isRow : IsRow row)
    (single : ∀ c ∈ content, isLineEnd c = false) (never : NeverCloses content) :
    IsRow (row ++ ' ' :: content) where
  start := by rw [List.head?_append, isRow.start]; rfl
  single := List.forall_mem_append.mpr ⟨isRow.single, List.forall_mem_cons.mpr ⟨rfl, single⟩⟩
  never := neverCloses_append isRow.never
    (neverCloses_cons never fun same => absurd same (by decide)) (by simp)

theorem isRow_docRow (width : Nat) {text : String} {content : List Char}
    (member : content ∈ docLines text) :
    IsRow (docRow (List.replicate (width + 1) ' ') content) := by
  obtain ⟨never, single⟩ := of_mem_docLines member
  unfold docRow
  split
  · exact isRow_star
  · have opening : IsRow ([' ', '*'] ++ List.replicate width ' ') := by
      induction width with
      | zero => exact isRow_star
      | succ width ih =>
        rw [List.replicate_succ', ← List.append_assoc]
        exact ih.append (by simp) List.isChain_nil
    rw [List.replicate_succ', List.append_assoc, ← List.append_assoc]
    exact opening.append single never

theorem isRow_paragraphRows (text : String) : ∀ row ∈ paragraphRows text, IsRow row := by
  have each : ∀ content ∈ docLines text, IsRow (docRow [' '] content) :=
    fun content member => isRow_docRow 0 member
  unfold paragraphRows
  cases written : docLines text with
  | nil => simpa using isRow_star
  | cons first others =>
    rw [written] at each
    intro row member
    obtain ⟨content, isLine, rfl⟩ := List.mem_map.mp member
    exact each content isLine

theorem isRow_paragraphsRows (paragraphs : List String) :
    ∀ row ∈ paragraphsRows paragraphs, IsRow row := by
  fun_induction paragraphsRows paragraphs with
  | case1 => simp
  | case2 text => exact isRow_paragraphRows text
  | case3 text others _ ih =>
    exact List.forall_mem_append.mpr ⟨List.forall_mem_append.mpr
      ⟨isRow_paragraphRows text, by simpa using isRow_star⟩, ih⟩

theorem ne_of_isIdentifierChar {c : Char} (identifier : isIdentifierChar c = true) :
    c ≠ '/' ∧ c ≠ '\\' := by
  constructor <;>
  · rintro rfl
    exact absurd identifier (by decide)

theorem isLineEnd_of_isIdentifierChar {c : Char} (identifier : isIdentifierChar c = true) :
    isLineEnd c = false := by
  by_contra closes
  unfold isLineEnd at closes
  unfold isIdentifierChar Char.isAlphanum Char.isAlpha Char.isUpper Char.isLower Char.isDigit
    at identifier
  simp only [Bool.or_eq_true, Bool.and_eq_true, decide_eq_true_eq, beq_iff_eq,
    UInt32.le_iff_toNat_le, Char.reduceVal, UInt32.reduceToNat, Bool.not_eq_false]
    at identifier closes
  have code : c.toNat = c.val.toNat := rfl
  rcases identifier with ((((isUpper | isLower) | isDigit) | rfl) | rfl)
  · omega
  · omega
  · omega
  · exact absurd closes (by decide)
  · exact absurd closes (by decide)

theorem isRow_tagRows {tag : String × String} (named : isIdentifier tag.1.toList = true) :
    ∀ row ∈ tagRows tag, IsRow row := by
  have chars := isIdentifierChar_of_mem named
  have opening : IsRow (" * @param ".toList ++ tag.1.toList) := by
    refine ⟨rfl, List.forall_mem_append.mpr ⟨single_of_all rfl, fun c member => ?_⟩,
      neverCloses_of_notMem fun member => ?_⟩
    · exact isLineEnd_of_isIdentifierChar (chars c member)
    · rcases List.mem_append.mp member with inMark | inName
      · exact absurd inMark (by decide)
      · exact (ne_of_isIdentifierChar (chars _ inName)).1 rfl
  have each : ∀ content ∈ docLines tag.2, IsRow (docRow (List.replicate 5 ' ') content) :=
    fun content member => isRow_docRow 4 member
  have lines : ∀ content ∈ docLines tag.2,
      NeverCloses content ∧ ∀ c ∈ content, isLineEnd c = false :=
    fun content member => of_mem_docLines member
  unfold tagRows
  cases written : docLines tag.2 with
  | nil => simpa using opening
  | cons first others =>
    rw [written, List.forall_mem_cons] at each lines
    refine List.forall_mem_cons.mpr ⟨?_, fun row member => ?_⟩
    · rw [List.append_assoc]
      exact opening.append lines.1.2 lines.1.1
    · obtain ⟨content, isLine, rfl⟩ := List.mem_map.mp member
      exact each.2 content isLine

/-- The names in the tags of a comment are identifiers. -/
def DocComment.Named (doc : DocComment) : Prop :=
  ∀ tag ∈ doc.tags, isIdentifier tag.1.toList = true

theorem isRow_commentRows {doc : DocComment} (named : doc.Named) :
    ∀ row ∈ commentRows doc, IsRow row := by
  unfold commentRows
  refine List.forall_mem_append.mpr ⟨List.forall_mem_append.mpr
    ⟨isRow_paragraphsRows doc.paragraphs, ?_⟩, fun row member => ?_⟩
  · split
    · simp
    · simpa using isRow_star
  · obtain ⟨tag, isTag, isRow⟩ := List.mem_flatMap.mp member
    exact isRow_tagRows (named tag isTag) row isRow

/-- **A comment is moved in line by line.** -/
theorem shifted_commentText {doc : DocComment} (named : doc.Named) (depth : Nat) :
    shifted (commentText depth doc) = commentText (depth + 1) doc := by
  have space : margin ++ spaceAt depth = spaceAt (depth + 1) := by
    rw [margin, spaceAt, spaceAt, List.replicate_append_replicate]
    congr 1
    omega
  have rows := isRow_commentRows named
  unfold commentText
  rw [shifted_below, space]
  · exact fun c member => List.eq_of_mem_replicate member
  · refine List.forall_mem_cons.mpr ⟨by decide, List.forall_mem_append.mpr
      ⟨fun row member => (rows row member).ne_nil, by decide⟩⟩
  · refine List.forall_mem_cons.mpr ⟨single_of_all rfl, List.forall_mem_append.mpr
      ⟨fun row member => (rows row member).single, List.forall_mem_singleton.mpr ?_⟩⟩
    exact single_of_all rfl

/-! ### Reading a comment -/

theorem neverCloses_below {space first : List Char} {rows : List (List Char)}
    (blank : ∀ c ∈ space, c = ' ') (never : NeverCloses first) (isRow : ∀ row ∈ rows, IsRow row) :
    NeverCloses (below space first rows) := by
  have spaced (row : List Char) (isRow : IsRow row) : NeverCloses ('\n' :: (space ++ row)) := by
    have moved : NeverCloses (space ++ row) :=
      neverCloses_append (neverCloses_of_notMem fun member => absurd (blank _ member) (by decide))
        isRow.never (by simp [isRow.start])
    exact neverCloses_cons moved fun same => absurd same (by decide)
  induction rows generalizing first with
  | nil => simpa [below] using never
  | cons next others ih =>
    rw [List.forall_mem_cons] at isRow
    have further := ih (neverCloses_append never (spaced next isRow.1) (by simp)) isRow.2
    have split : below space first (next :: others) =
        below space (first ++ '\n' :: (space ++ next)) others := by
      simp [below]
    rw [split]
    exact further

/-- **Every comment ends at its last mark.** -/
theorem commentText_isClosedComment {doc : DocComment} (named : doc.Named) (depth : Nat) :
    IsClosedComment (commentText depth doc) := by
  have blank : ∀ c ∈ spaceAt depth, c = ' ' := fun c member => List.eq_of_mem_replicate member
  have inside : NeverCloses (below (spaceAt depth) ['*'] (commentRows doc ++ [[' ']])) := by
    refine neverCloses_below blank (neverCloses_of_notMem (by decide))
      (List.forall_mem_append.mpr ⟨isRow_commentRows named, ?_⟩)
    simpa using IsRow.mk rfl (single_of_all rfl) (neverCloses_of_notMem (by decide))
  refine ⟨below (spaceAt depth) ['*'] (commentRows doc ++ [[' ']]) ++ ['*', '/'], ?_,
    afterClosing?_append inside []⟩
  simp [commentText, below]

/-! ### Escapes in a comment -/

theorem holdsEscape_below {space first : List Char} (none : '\\' ∉ space)
    (rows : List (List Char)) : holdsEscape false (below space first rows) =
      (first :: rows).any (holdsEscape false) := by
  induction rows generalizing first with
  | nil => simp [below]
  | cons next others ih =>
    have split : below space first (next :: others) =
        first ++ '\n' :: (space ++ below space next others) := by
      simp [below]
    rw [split, holdsEscape_append_cons (by decide) (by decide), holdsEscape_append_of_notMem none,
      ih]
    rfl

theorem holdsEscape_docRow {space : List Char} (none : '\\' ∉ space) (content : List Char) :
    holdsEscape false (docRow space content) = holdsEscape false content := by
  have opening : '\\' ∉ [' ', '*'] ++ space := by simp [none]
  unfold docRow
  cases content with
  | nil => rfl
  | cons c rest =>
    have whole := holdsEscape_append_of_notMem opening (c :: rest)
    rwa [List.append_assoc] at whole

theorem any_docRow {space : List Char} (none : '\\' ∉ space) (contents : List (List Char)) :
    (contents.map (docRow space)).any (holdsEscape false) = contents.any (holdsEscape false) := by
  rw [List.any_map]
  exact congrArg (List.any contents) (funext fun content => holdsEscape_docRow none content)

theorem any_paragraphRows (text : String) :
    (paragraphRows text).any (holdsEscape false) = holdsEscape false text.toList := by
  rw [← any_docLines]
  unfold paragraphRows
  cases docLines text with
  | nil => rfl
  | cons first others => exact any_docRow (by decide) (first :: others)

theorem any_paragraphsRows (paragraphs : List String) :
    (paragraphsRows paragraphs).any (holdsEscape false) =
      paragraphs.any (holdsEscape false ·.toList) := by
  fun_induction paragraphsRows paragraphs with
  | case1 => rfl
  | case2 text => rw [any_paragraphRows, List.any_cons, List.any_nil, Bool.or_false]
  | case3 text others _ ih =>
    rw [List.any_append, List.any_append, any_paragraphRows, ih, List.any_cons]
    simp [holdsEscape]

theorem any_tagRows {tag : String × String} (named : isIdentifier tag.1.toList = true) :
    (tagRows tag).any (holdsEscape false) = holdsEscape false tag.2.toList := by
  have opening : '\\' ∉ " * @param ".toList ++ tag.1.toList := by
    intro member
    rcases List.mem_append.mp member with inMark | inName
    · exact absurd inMark (by decide)
    · exact (ne_of_isIdentifierChar (isIdentifierChar_of_mem named _ inName)).2 rfl
  rw [← any_docLines]
  unfold tagRows
  cases docLines tag.2 with
  | nil => simpa using holdsEscape_of_notMem opening
  | cons first others =>
    have spaced : '\\' ∉ " * @param ".toList ++ tag.1.toList ++ [' '] := by
      rw [List.mem_append, not_or]
      exact ⟨opening, by decide⟩
    dsimp only
    rw [List.any_cons, List.any_cons, holdsEscape_append_of_notMem spaced, any_docRow (by decide)]

theorem any_commentRows {doc : DocComment} (named : doc.Named) :
    (commentRows doc).any (holdsEscape false) = doc.texts.any (holdsEscape false ·.toList) := by
  have gap : (if doc.paragraphs.isEmpty || doc.tags.isEmpty then [] else [[' ', '*']]).any
      (holdsEscape false) = false := by
    split <;> rfl
  have tags : (doc.tags.flatMap tagRows).any (holdsEscape false) =
      (doc.tags.map (·.2)).any (holdsEscape false ·.toList) := by
    rw [List.any_flatMap, List.any_map, Bool.eq_iff_iff, List.any_eq_true, List.any_eq_true]
    refine exists_congr fun tag => and_congr_right fun member => ?_
    rw [any_tagRows (named tag member), Function.comp_apply]
  unfold commentRows DocComment.texts
  rw [List.any_append, List.any_append, any_paragraphsRows, gap, tags, Bool.or_false,
    List.any_append]

/-- **Java replaces nothing in a comment exactly if no Unicode escape begins in any of its texts.**
-/
theorem commentText_isComment_iff {doc : DocComment} (named : doc.Named) (depth : Nat) :
    IsComment (commentText depth doc) ↔
      ∀ text ∈ doc.texts, Untouched text.toList := by
  have space : '\\' ∉ spaceAt depth := fun member =>
    absurd (List.eq_of_mem_replicate member) (by decide)
  have closed := commentText_isClosedComment named depth
  have escapes : holdsEscape false (commentText depth doc) =
      doc.texts.any (holdsEscape false ·.toList) := by
    unfold commentText
    rw [holdsEscape_below space, List.any_cons, List.any_append, any_commentRows named]
    simp [holdsEscape]
  unfold IsComment
  rw [and_iff_left closed, untouched_iff, escapes, List.any_eq_false]
  simp only [untouched_iff, Bool.not_eq_true]

end RamlInterfaces.Java
