/-
**Layout of Java source text.**

* `line`: a text as a line of its own;
* `indented`: a text with every line of it that is not empty moved in;
* `docLines`, `docComment`: the lines of a documentation comment.
-/

import RamlInterfaces.Java.Annotation
import RamlInterfaces.Text.Blank
import RamlInterfaces.Text.Lines

namespace RamlInterfaces.Java

/-- A text as a line of its own. -/
def line (text : List Char) : List Char := text ++ ['\n']

/-- The space that members of a type are moved in by. -/
def margin : List Char := List.replicate 4 ' '

/-- A text moved in: its first line, and every other line that is not empty.  Every kind of line end
in it becomes a line feed. -/
def indented (text : List Char) : List Char :=
  match Text.lines (line text) with
  | [] => margin
  | first :: others =>
    Text.join ['\n'] ((margin ++ first) ::
      others.map fun other => if other.isEmpty then [] else margin ++ other)

/-- A text in which nothing closes a comment. -/
def withoutCommentEnds : List Char → List Char
  | '*' :: '/' :: rest => "*&#47;".toList ++ withoutCommentEnds rest
  | c :: rest => c :: withoutCommentEnds rest
  | [] => []

/-- The lines of a text inside a comment, without blanks at their ends. -/
def docLines (text : String) : List (List Char) :=
  (Text.lines (withoutCommentEnds text.toList)).map (Text.dropLastWhile Text.isBlank)

/-- A line of a comment after its asterisk, moved in by the given space unless it is empty. -/
def docLine (space content : List Char) : List Char :=
  line ([' ', '*'] ++ if content.isEmpty then [] else space ++ content)

/-- The empty line of a comment. -/
def docGap : List Char := line [' ', '*']

/-- A paragraph of a comment. -/
def docParagraph (text : String) : List Char :=
  match docLines text with
  | [] => docGap
  | lines => lines.flatMap (docLine [' '])

/-- The tag for a parameter. -/
def docTag (name text : String) : List Char :=
  let opening := " * @param ".toList ++ name.toList
  match docLines text with
  | [] => line opening
  | first :: others =>
    line (opening ++ [' '] ++ first) ++ others.flatMap (docLine (List.replicate 5 ' '))

/-- The parts one after the other, with a gap between each two. -/
def separated (gap : List Char) (parts : List (List Char)) : List Char := Text.join gap parts

/-- A documentation comment with its line end; nothing for an empty one. -/
def docComment (doc : DocComment) : List Char :=
  if doc.isEmpty then []
  else
    line "/**".toList ++ separated docGap (doc.paragraphs.map docParagraph) ++
      (if doc.paragraphs.isEmpty || doc.tags.isEmpty then [] else docGap) ++
      (doc.tags.flatMap fun (name, text) => docTag name text) ++ line " */".toList

end RamlInterfaces.Java
