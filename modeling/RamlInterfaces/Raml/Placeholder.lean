/-
**Placeholders of template bodies.**

A placeholder is written `<<name>>` or `<<name | !transform>>`, with blanks allowed around the name
and the transform; the name holds no angle bracket, bar or blank.  A transform is the singular or
the plural of a word, by its ending without regard to case.

* `singularize`, `pluralize`: the singular and the plural of a word;
* `pathName`: the rightmost segment of a path that holds no placeholder;
* `Placeholder`, `Segment`: a placeholder, and a piece of text that is one or is a character;
* `segments`: the pieces of a text from left to right;
* `substituteText`: a text with its placeholders replaced;
* `substitute`: a value with the placeholders in its texts and keys replaced.
-/

import RamlInterfaces.Failure
import RamlInterfaces.Text.Alphanumeric
import RamlInterfaces.Text.Blank
import RamlInterfaces.Text.Runs
import RamlInterfaces.Value.Listing

namespace RamlInterfaces.Raml

/-- The word ends in one of the endings, case aside. -/
def endsInOneOf (word : List Char) (endings : List String) : Bool :=
  endings.any fun ending => ending.toList.isSuffixOf (word.map Char.toLower)

/-- The word without its last `count` letters. -/
def withoutLast (count : Nat) (word : List Char) : List Char := word.take (word.length - count)

/-- The singular of a word. -/
def singularChars (word : List Char) : List Char :=
  if endsInOneOf word ["ies"] && 3 < word.length then withoutLast 3 word ++ ['y']
  else if endsInOneOf word ["ses", "xes", "zes", "ches", "shes"] then withoutLast 2 word
  else if endsInOneOf word ["s"] && !endsInOneOf word ["ss"] then withoutLast 1 word
  else word

/-- A vowel letter of either case. -/
def isVowel (c : Char) : Bool := ['a', 'e', 'i', 'o', 'u'].contains c.toLower

/-- The plural of a word. -/
def pluralChars (word : List Char) : List Char :=
  match word.reverse with
  | last :: before :: _ =>
    if last.toLower = 'y' ∧ isVowel before = false then withoutLast 1 word ++ ['i', 'e', 's']
    else if endsInOneOf word ["s", "x", "z", "ch", "sh"] then word ++ ['e', 's']
    else word ++ ['s']
  | _ => if endsInOneOf word ["s", "x", "z"] then word ++ ['e', 's'] else word ++ ['s']

/-- The singular of a word. -/
def singularize (word : String) : String := String.ofList (singularChars word.toList)

/-- The plural of a word. -/
def pluralize (word : String) : String := String.ofList (pluralChars word.toList)

/-- The rightmost segment of a path that is not empty and opens no placeholder. -/
def pathName (path : String) : String :=
  let segments := (Text.pieces '/' path.toList).filter fun segment =>
    !segment.isEmpty && !segment.contains '\x7b'
  String.ofList (segments.getLast?.getD [])

/-- A placeholder of a template body. -/
structure Placeholder where
  name : String
  transform : Option String
deriving DecidableEq, Repr

/-- A piece of a text: a character or a placeholder. -/
inductive Segment where
  | char (c : Char)
  | placeholder (p : Placeholder)
deriving DecidableEq, Repr

/-- A character that the name of a placeholder may hold. -/
def isNameChar (c : Char) : Bool := c != '<' && c != '>' && c != '|' && !Text.isBlank c

/-- The transform after the name of a placeholder, if there is one, and the rest of the text. -/
def readTransform? : List Char → Option (Option String × List Char)
  | '|' :: rest =>
    match Text.dropBlanks rest with
    | '!' :: rest =>
      let word := rest.takeWhile Text.isWordChar
      if word.isEmpty then none
      else some (some (String.ofList word), Text.dropBlanks (rest.dropWhile Text.isWordChar))
    | _ => none
  | rest => some (none, rest)

/-- The placeholder at the start of a text, and the rest of the text. -/
def readPlaceholder? : List Char → Option (Placeholder × List Char)
  | '<' :: '<' :: rest =>
    let start := Text.dropBlanks rest
    let name := start.takeWhile isNameChar
    if name.isEmpty then none
    else
      match readTransform? (Text.dropBlanks (start.dropWhile isNameChar)) with
      | some (transform, '>' :: '>' :: rest) => some (⟨String.ofList name, transform⟩, rest)
      | _ => none
  | _ => none

/-- The pieces of a text after its first `skip` characters. -/
def segmentsAfter (skip : Nat) : List Char → List Segment
  | [] => []
  | c :: rest =>
    match skip with
    | skip + 1 => segmentsAfter skip rest
    | 0 =>
      match readPlaceholder? (c :: rest) with
      | some (placeholder, after) =>
        .placeholder placeholder :: segmentsAfter (rest.length - after.length) rest
      | none => .char c :: segmentsAfter 0 rest

/-- The pieces of a text: every placeholder, found from left to right, and the characters
between them. -/
def segments (cs : List Char) : List Segment := segmentsAfter 0 cs

/-- The placeholders of a text. -/
def placeholders (cs : List Char) : List Placeholder :=
  (segments cs).filterMap fun
    | .placeholder p => some p
    | .char _ => none

/-- A word changed by a transform, or as it is. -/
def transformWord (word : String) : Option String → Except Failure String
  | none => .ok word
  | some "singularize" => .ok (singularize word)
  | some "pluralize" => .ok (pluralize word)
  | some transform => .error (.raml (.unknownTransform transform))

/-- The text that stands for a placeholder under the arguments of a template. -/
def Placeholder.fill (arguments : Entries) (p : Placeholder) : Except Failure String :=
  match arguments.find? (.text p.name) with
  | none => .error (.raml (.missingArgument p.name))
  | some value => do
    let word ← written value.toText?
    transformWord word p.transform

/-- The text of the pieces, with the placeholders among them filled. -/
def fillSegments (arguments : Entries) : List Segment → Except Failure (List Char)
  | [] => .ok []
  | .char c :: rest => do
    let following ← fillSegments arguments rest
    .ok (c :: following)
  | .placeholder p :: rest => do
    let filled ← p.fill arguments
    let following ← fillSegments arguments rest
    .ok (filled.toList ++ following)

/-- The text has two opening brackets in a row, as every text with a placeholder has. -/
def mayHoldPlaceholder : List Char → Bool
  | '<' :: '<' :: _ => true
  | _ :: rest => mayHoldPlaceholder rest
  | [] => false

/-- The text with its placeholders filled. -/
def substituteText (arguments : Entries) (text : String) : Except Failure String := do
  let filled ← fillSegments arguments (segments text.toList)
  .ok (String.ofList filled)

/-- The scalar with the placeholders of its text filled; a text in which none can stand is left as
it is. -/
def substituteScalar (arguments : Entries) (s : Scalar) : Except Failure Scalar :=
  match s.string? with
  | some text =>
    if mayHoldPlaceholder text.toList then do
      let filled ← substituteText arguments text
      .ok (.text filled)
    else .ok s
  | none => .ok s

/-- The value with the placeholders of its keys and texts filled; sets and pairs are left as they
are. -/
def substitute (arguments : Entries) : Value → Except Failure Value
  | .scalar s => do
    let filled ← substituteScalar arguments s
    .ok (.scalar filled)
  | .list items => do
    let filled ← substituteItems items
    .ok (.list filled)
  | .map entries => do
    let filled ← substituteEntries entries
    .ok (.map (Entries.ofList filled))
  | .set members => .ok (.set members)
  | .pair key value => .ok (.pair key value)
where
  /-- The items of a list with their placeholders filled. -/
  substituteItems : List Value → Except Failure (List Value)
    | [] => .ok []
    | item :: rest => do
      let first ← substitute arguments item
      let others ← substituteItems rest
      .ok (first :: others)
  /-- The entries of a mapping with their placeholders filled, keys first. -/
  substituteEntries : List (Scalar × Value) → Except Failure (List (Scalar × Value))
    | [] => .ok []
    | (key, value) :: rest => do
      let key ← substituteScalar arguments key
      let value ← substitute arguments value
      let others ← substituteEntries rest
      .ok ((key, value) :: others)

end RamlInterfaces.Raml
