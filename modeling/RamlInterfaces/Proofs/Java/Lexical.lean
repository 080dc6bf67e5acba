/-
**String literals as Java reads them.**

Java first replaces the Unicode escapes of a source text and then reads its tokens.  A string
literal stands between double quotes on one line, with escapes of its own.

* `replaceUnicode`: a text with its Unicode escapes replaced;
* `readBody`: the text that a string literal denotes, read after its opening quote;
* `IsLiteralOf`: the source is one string literal, on one line, that denotes a text;
* `literal_isLiteralOf`: **the literal that is written for a text denotes it**;
* `escapeInTurn_eq`: **characters may be escaped one after the other**, each in the whole text,
  where no escape is disturbed by those after it;
* `literal_stands_alone`: **a source that begins with the literal of a text begins with no other**.
-/

import RamlInterfaces.Java.Literal
import RamlInterfaces.Text.Lines

namespace RamlInterfaces.Java

/-- What a Unicode escape denotes and its width, read after its backslash: marks, and the code of
the character in four hexadecimal digits.  Halves of characters are not read. -/
def readUnicode? (rest : List Char) : Option (Char × Nat) :=
  let marks := (rest.takeWhile (· == 'u')).length
  let digits := (rest.drop marks).take 4
  if digits.length = 4 then
    (Number.ofDigits? 16 digits).bind fun code =>
      if code.isValidChar then some (Char.ofNat code, marks + 4) else none
  else none

/-- A text with its Unicode escapes replaced, the first characters left out.  The second of two
backslashes begins no escape. -/
def replaceUnicode : Nat → List Char → Option (List Char)
  | _, [] => some []
  | skip + 1, _ :: rest => replaceUnicode skip rest
  | 0, c :: rest =>
    if c = '\\' then
      match rest with
      | '\\' :: _ => (replaceUnicode 1 rest).map fun text => '\\' :: '\\' :: text
      | 'u' :: _ => (readUnicode? rest).bind fun (denoted, width) =>
          (replaceUnicode width rest).map (denoted :: ·)
      | _ => (replaceUnicode 0 rest).map ('\\' :: ·)
    else (replaceUnicode 0 rest).map (c :: ·)

/-- What an octal escape denotes and its width: three digits up to the last code of a byte, or fewer
of them. -/
def readOctal? (rest : List Char) : Option (Char × Nat) :=
  let width := match rest with
    | first :: _ => if first ≤ '3' then 3 else 2
    | [] => 0
  let digits := (rest.take width).takeWhile fun c => '0' ≤ c && c ≤ '7'
  (Number.ofDigits? 8 digits).map fun code => (Char.ofNat code, digits.length)

/-- What an escape of a string literal denotes and its width, read after its backslash. -/
def readEscape? (rest : List Char) : Option (Char × Nat) :=
  match rest with
  | 'b' :: _ => some ('\x08', 1)
  | 's' :: _ => some (' ', 1)
  | 't' :: _ => some ('\t', 1)
  | 'n' :: _ => some ('\n', 1)
  | 'f' :: _ => some ('\x0C', 1)
  | 'r' :: _ => some ('\r', 1)
  | '"' :: _ => some ('"', 1)
  | '\'' :: _ => some ('\'', 1)
  | '\\' :: _ => some ('\\', 1)
  | _ => readOctal? rest

/-- The text that a string literal denotes, read after its opening quote, the first characters left
out; the closing quote ends the source. -/
def readBody : Nat → List Char → Option (List Char)
  | _, [] => none
  | skip + 1, _ :: rest => readBody skip rest
  | 0, c :: rest =>
    if c = '"' then if rest.isEmpty then some [] else none
    else if c = '\\' then (readEscape? rest).bind fun (denoted, width) =>
      (readBody width rest).map (denoted :: ·)
    else if c = '\n' ∨ c = '\r' then none
    else (readBody 0 rest).map (c :: ·)

/-- The text that a source denotes which is one string literal. -/
def readLiteral? (source : List Char) : Option String :=
  match replaceUnicode 0 source with
  | some ('"' :: body) => (readBody 0 body).map String.ofList
  | _ => none

/-- The source is one string literal, on one line, that denotes the text. -/
def IsLiteralOf (source : List Char) (text : String) : Prop :=
  '\n' ∉ source ∧ '\r' ∉ source ∧ readLiteral? source = some text

/-! ### Literals without escapes -/

theorem replaceUnicode_cons {c : Char} (backslash : c ≠ '\\') (rest : List Char) :
    replaceUnicode 0 (c :: rest) = (replaceUnicode 0 rest).map (c :: ·) := by
  rw [replaceUnicode.eq_def]
  exact if_neg backslash

theorem replaceUnicode_eq_self {source : List Char} (none : '\\' ∉ source) :
    replaceUnicode 0 source = some source := by
  induction source with
  | nil => rfl
  | cons c rest ih =>
    rw [List.mem_cons, not_or] at none
    rw [replaceUnicode_cons (Ne.symm none.1), ih none.2]
    rfl

theorem mem_of_readBody {source text : List Char} (none : '\\' ∉ source)
    (reads : readBody 0 source = some text) : ∀ c ∈ text, c ∈ source := by
  induction source generalizing text with
  | nil => cases reads
  | cons first rest ih =>
    rw [List.mem_cons, not_or] at none
    rw [readBody] at reads
    by_cases quote : first = '"'
    · rw [if_pos quote] at reads
      split at reads
      · cases reads
        exact fun c member => absurd member List.not_mem_nil
      · cases reads
    rw [if_neg quote, if_neg (Ne.symm none.1)] at reads
    split at reads
    · cases reads
    · obtain ⟨others, readsOn, rfl⟩ := Option.map_eq_some_iff.mp reads
      intro c member
      rcases List.mem_cons.mp member with rfl | later
      · exact List.mem_cons_self
      · exact List.mem_cons_of_mem _ (ih none.2 readsOn c later)

/-- A literal without backslashes holds every character of its text. -/
theorem mem_of_isLiteralOf {source : List Char} {text : String} (reads : IsLiteralOf source text)
    (none : '\\' ∉ source) : ∀ c ∈ text.toList, c ∈ source := by
  obtain ⟨-, -, reads⟩ := reads
  unfold readLiteral? at reads
  rw [replaceUnicode_eq_self none] at reads
  split at reads
  · rename_i body same
    cases same
    obtain ⟨inside, read, rfl⟩ := Option.map_eq_some_iff.mp reads
    rw [List.mem_cons, not_or] at none
    intro c member
    rw [String.toList_ofList] at member
    exact List.mem_cons_of_mem _ (mem_of_readBody none.2 read c member)
  · cases reads

/-! ### Literals that are written -/

/-- The characters that are escaped in a literal, with the letters that escape them. -/
def escapeMarks : List (Char × Char) :=
  [('\\', '\\'), ('"', '"'), ('\n', 'n'), ('\r', 'r'), ('\t', 't')]

/-- A character is written as a backslash with its mark, or as it is. -/
theorem literalChar_cases (c : Char) :
    (∃ mark, (c, mark) ∈ escapeMarks ∧ literalChar c = ['\\', mark]) ∨
      (c ≠ '\\' ∧ c ≠ '"' ∧ c ≠ '\n' ∧ c ≠ '\r' ∧ literalChar c = [c]) := by
  unfold literalChar
  by_cases backslash : c = '\\'
  · exact .inl ⟨'\\', by simp [escapeMarks, backslash], by simp [backslash]⟩
  by_cases quote : c = '"'
  · exact .inl ⟨'"', by simp [escapeMarks, quote], by simp [quote]⟩
  by_cases feed : c = '\n'
  · exact .inl ⟨'n', by simp [escapeMarks, feed], by simp [feed]⟩
  by_cases carriage : c = '\r'
  · exact .inl ⟨'r', by simp [escapeMarks, carriage], by simp [carriage]⟩
  by_cases tab : c = '\t'
  · exact .inl ⟨'t', by simp [escapeMarks, tab], by simp [tab]⟩
  · exact .inr ⟨backslash, quote, feed, carriage, by
      simp [backslash, quote, feed, carriage, tab]⟩

theorem readEscape?_mark {c mark : Char} (marked : (c, mark) ∈ escapeMarks) (rest : List Char) :
    readEscape? (mark :: rest) = some (c, 1) := by
  unfold escapeMarks at marked
  simp only [List.mem_cons, Prod.mk.injEq, List.not_mem_nil, or_false] at marked
  rcases marked with ⟨rfl, rfl⟩ | ⟨rfl, rfl⟩ | ⟨rfl, rfl⟩ | ⟨rfl, rfl⟩ | ⟨rfl, rfl⟩ <;> rfl

/-- No escape of a literal is a Unicode escape. -/
theorem replaceUnicode_backslash {mark : Char} (other : mark ≠ 'u') (rest : List Char) :
    replaceUnicode 0 ('\\' :: mark :: rest) =
      (replaceUnicode 0 rest).map fun text => '\\' :: mark :: text := by
  by_cases backslash : mark = '\\'
  · subst backslash
    rfl
  · simp [replaceUnicode, backslash, other, Option.map_map, Function.comp_def]

theorem mark_ne_u {c mark : Char} (marked : (c, mark) ∈ escapeMarks) : mark ≠ 'u' := by
  have all : ∀ pair ∈ escapeMarks, pair.2 ≠ 'u' := by decide
  exact all _ marked

/-- A text inside a literal holds no Unicode escape. -/
theorem replaceUnicode_literalChars (text rest : List Char) :
    replaceUnicode 0 (text.flatMap literalChar ++ rest) =
      (replaceUnicode 0 rest).map (text.flatMap literalChar ++ ·) := by
  induction text with
  | nil => simp
  | cons c others ih =>
    rw [List.flatMap_cons, List.append_assoc]
    rcases literalChar_cases c with ⟨mark, marked, written⟩ | ⟨backslash, _, _, _, written⟩
    · rw [written]
      show replaceUnicode 0 ('\\' :: mark :: (others.flatMap literalChar ++ rest)) = _
      rw [replaceUnicode_backslash (mark_ne_u marked), ih, Option.map_map]
      rfl
    · rw [written]
      show replaceUnicode 0 (c :: (others.flatMap literalChar ++ rest)) = _
      rw [replaceUnicode_cons backslash, ih, Option.map_map]
      rfl

theorem readBody_literalChars (text : List Char) :
    readBody 0 (text.flatMap literalChar ++ ['"']) = some text := by
  induction text with
  | nil => rfl
  | cons c others ih =>
    rw [List.flatMap_cons, List.append_assoc]
    rcases literalChar_cases c with ⟨mark, marked, written⟩ | ⟨backslash, quote, feed, carriage,
      written⟩
    · rw [written]
      show readBody 0 ('\\' :: mark :: (others.flatMap literalChar ++ ['"'])) = _
      rw [readBody, if_neg (by decide), if_pos rfl, readEscape?_mark marked]
      show (readBody 0 (others.flatMap literalChar ++ ['"'])).map (c :: ·) = _
      rw [ih]
      rfl
    · rw [written]
      show readBody 0 (c :: (others.flatMap literalChar ++ ['"'])) = _
      rw [readBody, if_neg quote, if_neg backslash, if_neg (by simp [feed, carriage]), ih]
      rfl

/-- Java reads the literal of a text as that text. -/
theorem readLiteral?_literal (text : String) : readLiteral? (literal text) = some text := by
  have replaced : replaceUnicode 0 (literal text) = some (literal text) := by
    have body := replaceUnicode_literalChars text.toList ['"']
    show (replaceUnicode 0 (text.toList.flatMap literalChar ++ ['"'])).map ('"' :: ·) = _
    rw [body]
    rfl
  unfold readLiteral?
  rw [replaced]
  show (readBody 0 (text.toList.flatMap literalChar ++ ['"'])).map String.ofList = some text
  rw [readBody_literalChars, Option.map_some, String.ofList_toList]

/-- The line ends in a literal are those of its text that Java has no escapes for. -/
theorem mem_literal_iff {text : String} {c : Char} (ends : Text.isLineEnd c = true) :
    c ∈ literal text ↔ c ∈ text.toList ∧ c ≠ '\n' ∧ c ≠ '\r' := by
  have quote : c ≠ '"' := by
    rintro rfl
    exact absurd ends (by decide)
  have inside (d : Char) : c ∈ literalChar d ↔ c = d ∧ c ≠ '\n' ∧ c ≠ '\r' := by
    rcases literalChar_cases d with ⟨mark, marked, written⟩ | ⟨_, _, feed, carriage, written⟩
    · have all : ∀ pair ∈ escapeMarks, Text.isLineEnd pair.2 = false ∧
          (Text.isLineEnd pair.1 = true → pair.1 = '\n' ∨ pair.1 = '\r') := by decide
      obtain ⟨markGoes, onlyBreaks⟩ := all _ marked
      rw [written]
      constructor
      · intro member
        rcases List.mem_cons.mp member with rfl | member
        · exact absurd ends (by decide)
        · rw [List.mem_singleton] at member
          rw [← member, ends] at markGoes
          cases markGoes
      · rintro ⟨rfl, feed, carriage⟩
        rcases onlyBreaks ends with same | same
        · exact absurd same feed
        · exact absurd same carriage
    · rw [written, List.mem_singleton]
      constructor
      · rintro rfl
        exact ⟨rfl, feed, carriage⟩
      · exact fun same => same.1
  unfold literal
  simp only [List.cons_append, List.mem_cons, List.mem_append, List.mem_flatMap, List.not_mem_nil,
    or_false, quote, false_or, inside]
  constructor
  · rintro ⟨d, member, rfl, breaks⟩
    exact ⟨member, breaks⟩
  · rintro ⟨member, breaks⟩
    exact ⟨c, member, rfl, breaks⟩

/-- **The literal that is written for a text denotes it, on one line.** -/
theorem literal_isLiteralOf (text : String) : IsLiteralOf (literal text) text := by
  refine ⟨fun member => ?_, fun member => ?_, readLiteral?_literal text⟩
  · exact ((mem_literal_iff rfl).mp member).2.1 rfl
  · exact ((mem_literal_iff rfl).mp member).2.2 rfl

/-! ### Escapes one after the other -/

/-- The characters of a table escaped one after the other, each in the whole text. -/
def escapeInTurn (table : List (Char × Char)) (text : List Char) : List Char :=
  table.foldl (fun escaped entry =>
    escaped.flatMap fun c => if c = entry.1 then ['\\', entry.2] else [c]) text

/-- A character escaped by the first entry of a table that is about it. -/
def escapeBy (table : List (Char × Char)) (c : Char) : List Char :=
  match table.find? (·.1 == c) with
  | some entry => ['\\', entry.2]
  | none => [c]

/-- No escape is disturbed by those after it: they are about neither the backslash nor its mark. -/
def KeepsEscapes (table : List (Char × Char)) : Prop :=
  table.Pairwise fun earlier later => later.1 ≠ '\\' ∧ later.1 ≠ earlier.2

instance (table : List (Char × Char)) : Decidable (KeepsEscapes table) :=
  inferInstanceAs (Decidable (table.Pairwise _))

theorem escapeBy_of_forall_ne {table : List (Char × Char)} {c : Char}
    (none : ∀ entry ∈ table, entry.1 ≠ c) : escapeBy table c = [c] := by
  have missing : table.find? (·.1 == c) = .none :=
    List.find?_eq_none.mpr fun entry member => by simpa using none entry member
  rw [escapeBy, missing]

/-- **Escaping characters one after the other escapes each of them once.** -/
theorem escapeInTurn_eq {table : List (Char × Char)} (keeps : KeepsEscapes table)
    (text : List Char) : escapeInTurn table text = text.flatMap (escapeBy table) := by
  induction table generalizing text with
  | nil => exact (List.flatMap_singleton' text).symm
  | cons entry others ih =>
    obtain ⟨apart, keepsOthers⟩ := List.pairwise_cons.mp keeps
    have once (c : Char) :
        (if c = entry.1 then ['\\', entry.2] else [c]).flatMap (escapeBy others) =
          escapeBy (entry :: others) c := by
      by_cases same : c = entry.1
      · have backslash : escapeBy others '\\' = ['\\'] :=
          escapeBy_of_forall_ne fun later member => (apart later member).1
        have mark : escapeBy others entry.2 = [entry.2] :=
          escapeBy_of_forall_ne fun later member => (apart later member).2
        rw [if_pos same, List.flatMap_cons, List.flatMap_singleton, backslash, mark, escapeBy,
          List.find?_cons_of_pos (by simpa using same.symm)]
        rfl
      · rw [if_neg same, List.flatMap_singleton, escapeBy, escapeBy,
          List.find?_cons_of_neg (by simpa using Ne.symm same)]
    calc escapeInTurn (entry :: others) text
        = escapeInTurn others (text.flatMap fun c =>
            if c = entry.1 then ['\\', entry.2] else [c]) := rfl
      _ = (text.flatMap fun c => if c = entry.1 then ['\\', entry.2] else [c]).flatMap
            (escapeBy others) := ih keepsOthers _
      _ = text.flatMap (escapeBy (entry :: others)) := by
          rw [List.flatMap_assoc]
          exact congrArg text.flatMap (funext once)

/-- A literal is written by escaping its characters one after the other, backslashes first. -/
theorem literal_eq_escapeInTurn (text : String) :
    literal text = '"' :: escapeInTurn escapeMarks text.toList ++ ['"'] := by
  have same (c : Char) : literalChar c = escapeBy escapeMarks c := by
    unfold literalChar escapeBy escapeMarks
    simp only [List.find?_cons, List.find?_nil]
    grind
  rw [escapeInTurn_eq (by decide), literal, funext same]

/-! ### What follows a literal -/

/-- Nothing but an empty text is replaced by one. -/
theorem replaceUnicode_ne_nil {c : Char} {rest : List Char} :
    replaceUnicode 0 (c :: rest) ≠ some [] := by
  have written {first : Char} {replaced : Option (List Char)} :
      replaced.map (first :: ·) ≠ some [] := by
    cases replaced <;> simp
  intro nothing
  by_cases backslash : c = '\\'
  · subst backslash
    match rest with
    | [] => cases nothing
    | mark :: rest =>
      by_cases isU : mark = 'u'
      · subst isU
        obtain ⟨_, -, further⟩ := Option.bind_eq_some_iff.mp nothing
        exact written further
      · rw [replaceUnicode_backslash isU] at nothing
        cases further : replaceUnicode 0 rest <;> simp [further] at nothing
  · rw [replaceUnicode_cons backslash] at nothing
    exact written nothing

/-- The body of a literal is not empty. -/
theorem exists_cons_of_readBody {source replaced text : List Char}
    (isReplaced : replaceUnicode 0 source = some replaced)
    (reads : readBody 0 replaced = some text) :
    ∃ first rest, source = first :: rest := by
  cases source with
  | nil =>
    cases isReplaced
    cases reads
  | cons first rest => exact ⟨first, rest, rfl⟩

/-- The body of a literal that begins as the body of the literal of a text does is that one. -/
theorem eq_literalChars_of_prefix {text : List Char} {source rest replaced other : List Char}
    (begins : source <+: text.flatMap literalChar ++ '"' :: rest)
    (isReplaced : replaceUnicode 0 source = some replaced)
    (reads : readBody 0 replaced = some other) :
    source = text.flatMap literalChar ++ ['"'] ∧ other = text := by
  induction text generalizing source replaced other with
  | nil =>
    obtain ⟨first, source, rfl⟩ := exists_cons_of_readBody isReplaced reads
    obtain ⟨rfl, -⟩ := List.cons_prefix_cons.mp begins
    rw [replaceUnicode_cons (by decide)] at isReplaced
    obtain ⟨further, isFurther, rfl⟩ := Option.map_eq_some_iff.mp isReplaced
    rw [readBody, if_pos rfl] at reads
    -- the literal is closed here, so nothing may follow
    cases further with
    | cons => cases reads
    | nil =>
      cases reads
      cases source with
      | nil => exact ⟨rfl, rfl⟩
      | cons => exact absurd isFurther replaceUnicode_ne_nil
  | cons c text ih =>
    obtain ⟨first, source, rfl⟩ := exists_cons_of_readBody isReplaced reads
    rw [List.flatMap_cons, List.append_assoc] at begins ⊢
    rcases literalChar_cases c with ⟨mark, marked, written⟩ | ⟨backslash, quote, feed, carriage,
      written⟩
    · rw [written, List.cons_append, List.singleton_append] at begins ⊢
      obtain ⟨rfl, marks⟩ := List.cons_prefix_cons.mp begins
      cases source with
      | nil =>
        cases isReplaced
        cases reads
      | cons second source =>
        obtain ⟨rfl, beginsOn⟩ := List.cons_prefix_cons.mp marks
        rw [replaceUnicode_backslash (mark_ne_u marked)] at isReplaced
        obtain ⟨further, isFurther, rfl⟩ := Option.map_eq_some_iff.mp isReplaced
        rw [readBody, if_neg (by decide), if_pos rfl, readEscape?_mark marked] at reads
        obtain ⟨others, readsOn, rfl⟩ := Option.map_eq_some_iff.mp reads
        obtain ⟨rfl, rfl⟩ := ih beginsOn isFurther readsOn
        exact ⟨rfl, rfl⟩
    · rw [written, List.singleton_append] at begins ⊢
      obtain ⟨rfl, beginsOn⟩ := List.cons_prefix_cons.mp begins
      rw [replaceUnicode_cons backslash] at isReplaced
      obtain ⟨further, isFurther, rfl⟩ := Option.map_eq_some_iff.mp isReplaced
      rw [readBody, if_neg quote, if_neg backslash, if_neg (by simp [feed, carriage])] at reads
      obtain ⟨others, readsOn, rfl⟩ := Option.map_eq_some_iff.mp reads
      obtain ⟨rfl, rfl⟩ := ih beginsOn isFurther readsOn
      exact ⟨rfl, rfl⟩

/-- **A source that begins with the literal of a text begins with no other string literal.** -/
theorem eq_literal_of_prefix {text other : String} {source rest : List Char}
    (begins : source <+: literal text ++ rest) (reads : IsLiteralOf source other) :
    source = literal text ∧ other = text := by
  have opened : literal text ++ rest =
      '"' :: (text.toList.flatMap literalChar ++ '"' :: rest) := by
    simp [literal]
  rw [opened] at begins
  obtain ⟨-, -, reads⟩ := reads
  cases source with
  | nil => cases reads
  | cons first source =>
    obtain ⟨rfl, beginsOn⟩ := List.cons_prefix_cons.mp begins
    rw [readLiteral?, replaceUnicode_cons (by decide)] at reads
    cases isReplaced : replaceUnicode 0 source with
    | none =>
      rw [isReplaced] at reads
      cases reads
    | some replaced =>
      rw [isReplaced] at reads
      obtain ⟨inside, isBody, rfl⟩ := Option.map_eq_some_iff.mp reads
      obtain ⟨rfl, rfl⟩ := eq_literalChars_of_prefix beginsOn isReplaced isBody
      exact ⟨rfl, String.ofList_toList⟩

/-- **The literal of a text is written by escaping its characters one after the other, holds no line
feed and no carriage return, and denotes the text; whatever follows it, a source that begins with it
begins with no other string literal.** -/
theorem literal_stands_alone (text : String) :
    literal text = '"' :: escapeInTurn escapeMarks text.toList ++ ['"'] ∧
      '\n' ∉ literal text ∧ '\r' ∉ literal text ∧
      ∀ (rest source : List Char) (other : String),
        source <+: literal text ++ rest ∧ IsLiteralOf source other ↔
          source = literal text ∧ other = text := by
  have reads := literal_isLiteralOf text
  refine ⟨literal_eq_escapeInTurn text, reads.1, reads.2.1, fun rest source other => ⟨?_, ?_⟩⟩
  · exact fun ⟨begins, readsToo⟩ => eq_literal_of_prefix begins readsToo
  · rintro ⟨rfl, rfl⟩
    exact ⟨List.prefix_append _ _, reads⟩

end RamlInterfaces.Java
