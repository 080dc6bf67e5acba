/-
**Written values are read back.**

Inside a string a character stands for itself or is escaped, by a letter or by its code in units of
four hexadecimal digits, two of them for a character beyond the first 65536.  Whatever way is taken,
reading gives the character back.  A value of texts, truth values and nothing, in lists and objects
with different names, is written over lines and read back as it was: white space between the tokens
does not count, and what is written of a value ends where the next token begins.

* `ofDigits?_hexDigits`: hexadecimal digits denote the number that they are of;
* `readString_units16`: an escape by code is read as its character;
* `readString_writeChar`, `readString_flatMap`: **a written string is read**, in either charset;
* `Storable`: the values that are read as they are written;
* `IsWritten`: a text from which a value is read, whatever follows;
* `exists_isWritten`: **a storable value is written so**;
* `read?_write`: **what is written of a storable value is read as that value**.
-/

import Mathlib.Data.List.Forall2
import RamlInterfaces.Json.Reader
import RamlInterfaces.Json.Writer
import RamlInterfaces.Proofs.Number.Digits
import RamlInterfaces.Proofs.Raml.Keyed
import RamlInterfaces.Proofs.Text.Runs

namespace RamlInterfaces

/-! ### Hexadecimal digits -/

namespace Number

theorem extendDigits?_replicate (count : Nat) (cs : List Char) :
    extendDigits? 16 0 (List.replicate count '0' ++ cs) = extendDigits? 16 0 cs := by
  induction count with
  | zero => rfl
  | succ count ih => exact ih

/-- **Hexadecimal digits denote the number that they are of.** -/
theorem ofDigits?_hexDigits (width code : Nat) :
    ofDigits? 16 (Text.hexDigits width code) = some code := by
  unfold ofDigits? Text.hexDigits
  have nonempty : (List.replicate (width - (Nat.toDigits 16 code).length) '0' ++
      Nat.toDigits 16 code).isEmpty = false := by
    rw [List.isEmpty_eq_false_iff]
    exact List.append_ne_nil_of_right_ne_nil _ Nat.toDigits_ne_nil
  simp only [nonempty, Bool.false_eq_true, if_false]
  rw [extendDigits?_replicate, extendDigits?_toDigits (by decide) (by decide), Nat.zero_mul,
    Nat.zero_add]

end Number

theorem Text.length_hexDigits {width code : Nat} (positive : 0 < width)
    (small : code < 16 ^ width) : (Text.hexDigits width code).length = width := by
  have short := (Nat.length_toDigits_le_iff (b := 16) (by decide) positive).mpr small
  unfold Text.hexDigits
  rw [List.length_append, List.length_replicate]
  omega

namespace Json

open Raml (Distinct distinct_concat_iff)

section Strings

variable {charset : Charset} {c : Char} {rest text : List Char} {fuel : Nat}

/-! ### Escapes by code -/

theorem readUnit?_hexDigits {unit : Nat} (small : unit < 0x10000) (rest : List Char) :
    readUnit? (Text.hexDigits 4 unit ++ rest) = some (unit, rest) := by
  have length : (Text.hexDigits 4 unit).length = 4 := Text.length_hexDigits (by decide) small
  unfold readUnit?
  rw [List.take_left' length, List.drop_left' length]
  simp only [length, if_true]
  rw [Number.ofDigits?_hexDigits]
  rfl

theorem notHalf_of_char (c : Char) : isHighHalf c.toNat = false ∧ isLowHalf c.toNat = false := by
  have valid : c.toNat < 0xD800 ∨ 0xDFFF < c.toNat ∧ c.toNat < 0x110000 := c.valid
  unfold isHighHalf isLowHalf
  simp only [Bool.and_eq_false_iff, decide_eq_false_iff_not]
  omega

/-- A number that is not half of a character is read as its character. -/
theorem readCode?_single {unit : Nat} (small : unit < 0x10000) (notHigh : isHighHalf unit = false)
    (notLow : isLowHalf unit = false) (rest : List Char) :
    readCode? (Text.hexDigits 4 unit ++ rest) = some (Char.ofNat unit, rest) := by
  unfold readCode?
  rw [readUnit?_hexDigits small]
  simp [notHigh, notLow]

theorem escapeUnit_append (unit : Nat) (cs : List Char) :
    escapeUnit unit ++ cs = '\\' :: 'u' :: (Text.hexDigits 4 unit ++ cs) := rfl

/-- Two halves are read as the character that they make. -/
theorem readCode?_pair {high low : Nat} (isHigh : isHighHalf high = true)
    (isLow : isLowHalf low = true) (rest : List Char) :
    readCode? (Text.hexDigits 4 high ++ (escapeUnit low ++ rest)) =
      some (Char.ofNat (0x10000 + (high - 0xD800) * 0x400 + (low - 0xDC00)), rest) := by
  have smallHigh : high < 0x10000 := by
    unfold isHighHalf at isHigh
    simp only [Bool.and_eq_true, decide_eq_true_eq] at isHigh
    omega
  have smallLow : low < 0x10000 := by
    unfold isLowHalf at isLow
    simp only [Bool.and_eq_true, decide_eq_true_eq] at isLow
    omega
  unfold readCode?
  rw [readUnit?_hexDigits smallHigh, escapeUnit_append]
  simp only [isHigh, if_true]
  rw [readUnit?_hexDigits smallLow]
  simp only [isLow, if_true]

/-- A number beyond the first 65536 is made of its two halves. -/
theorem halves_of_large {code : Nat} (large : 0x10000 ≤ code) (valid : code < 0x110000) :
    isHighHalf (0xD800 + (code - 0x10000) / 0x400) = true ∧
      isLowHalf (0xDC00 + (code - 0x10000) % 0x400) = true ∧
      0x10000 + (0xD800 + (code - 0x10000) / 0x400 - 0xD800) * 0x400 +
        (0xDC00 + (code - 0x10000) % 0x400 - 0xDC00) = code := by
  unfold isHighHalf isLowHalf
  simp only [Bool.and_eq_true, decide_eq_true_eq]
  omega

theorem readString_escape (fuel : Nat) (text cs : List Char) :
    readString (fuel + 1) text ('\\' :: 'u' :: cs) =
      match readCode? cs with
      | some (c, rest) => readString fuel (c :: text) rest
      | none => none := rfl

/-- **An escape by code is read as its character.** -/
theorem readString_units16 (c : Char) : readString (fuel + 1) text
    ((File.Encoding.units16 c).flatMap escapeUnit ++ rest) = readString fuel (c :: text) rest := by
  by_cases small : c.toNat < 0x10000
  · obtain ⟨notHigh, notLow⟩ := notHalf_of_char c
    have units : File.Encoding.units16 c = [c.toNat] := if_pos small
    rw [units, List.flatMap_singleton, escapeUnit_append, readString_escape,
      readCode?_single small notHigh notLow, Char.ofNat_toNat]
  · have bounds : c.toNat < 0xD800 ∨ 0xDFFF < c.toNat ∧ c.toNat < 0x110000 := c.valid
    obtain ⟨isHigh, isLow, whole⟩ := halves_of_large (Nat.le_of_not_lt small)
      (by omega : c.toNat < 0x110000)
    have units : File.Encoding.units16 c =
        [0xD800 + (c.toNat - 0x10000) / 0x400, 0xDC00 + (c.toNat - 0x10000) % 0x400] :=
      if_neg small
    rw [units, List.flatMap_cons, List.flatMap_singleton, List.append_assoc, escapeUnit_append,
      readString_escape, readCode?_pair isHigh isLow, whole, Char.ofNat_toNat]

/-! ### Strings -/

/-- A character that stands for itself is read. -/
theorem readString_plain (notQuote : c ≠ '"') (notBackslash : c ≠ '\\')
    (printed : ¬ c.toNat < 0x20) :
    readString (fuel + 1) text (c :: rest) = readString fuel (c :: text) rest := by
  rw [readString]
  · exact if_neg (not_or.mpr ⟨printed, notBackslash⟩)
  · exact notQuote
  · exact fun _ same _ => notBackslash same
  · exact fun _ _ same _ => notBackslash same

/-- **A written character is read.** -/
theorem readString_writeChar (charset : Charset) (c : Char) (fuel : Nat) (text rest : List Char) :
    readString (fuel + 1) text (writeChar charset c ++ rest) =
      readString fuel (c :: text) rest := by
  unfold writeChar
  by_cases isQuote : c = '"'
  · subst isQuote
    rfl
  rw [if_neg isQuote]
  by_cases isBackslash : c = '\\'
  · subst isBackslash
    rfl
  rw [if_neg isBackslash]
  repeat
    split
    · rename_i same
      subst same
      rfl
  split
  · exact readString_units16 c
  · rename_i plain
    exact readString_plain isQuote isBackslash fun control => plain (.inl control)

theorem writeChar_ne_nil (charset : Charset) (c : Char) : writeChar charset c ≠ [] := by
  have reads := readString_writeChar charset c 1 [] ['"']
  intro empty
  rw [empty] at reads
  cases reads

/-- A written string is as long as its text at least. -/
theorem length_le_flatMap (charset : Charset) (cs : List Char) :
    cs.length ≤ (cs.flatMap (writeChar charset)).length := by
  induction cs with
  | nil => exact Nat.le_refl 0
  | cons c rest ih =>
    have positive := List.length_pos_iff.mpr (writeChar_ne_nil charset c)
    rw [List.flatMap_cons, List.length_append, List.length_cons]
    omega

/-- **A written string is read up to its closing quote.** -/
theorem readString_flatMap (charset : Charset) {cs : List Char} (enough : cs.length < fuel) :
    readString fuel text (cs.flatMap (writeChar charset) ++ '"' :: rest) =
      some (text.reverse ++ cs, rest) := by
  induction cs generalizing fuel text with
  | nil =>
    cases fuel with
    | zero => cases enough
    | succ fuel =>
      rw [List.append_nil]
      rfl
  | cons c others ih =>
    cases fuel with
    | zero => cases enough
    | succ fuel =>
      rw [List.flatMap_cons, List.append_assoc, readString_writeChar,
        ih (Nat.lt_of_succ_lt_succ enough), List.reverse_cons, List.append_assoc]
      rfl

end Strings

/-! ### Values -/

/-- The values that are read as they are written: nothing, truth values and texts, and lists and
objects of these in which no name comes twice. -/
inductive Storable : Value → Prop where
  | nothing : Storable .null
  | truth (value : Bool) : Storable (.scalar (.bool value))
  | text (value : String) : Storable (.text value)
  | list {items : List Value} (each : ∀ item ∈ items, Storable item) : Storable (.list items)
  | map {entries : Entries} (named : ∀ entry ∈ entries, ∃ name, entry.1 = .text name)
    (distinct : Distinct entries) (each : ∀ entry ∈ entries, Storable entry.2) :
    Storable (.map entries)

/-- The value is read from the text, whatever follows it, and the text begins with a token that does
not close a list. -/
structure IsWritten (value : Value) (written : List Char) : Prop where
  reads : ∀ fuel rest, written.length ≤ fuel → readValue fuel (written ++ rest) = some (value, rest)
  starts : ∃ c rest, written = c :: rest ∧ isSpace c = false ∧ c ≠ ']'

variable {charset : Charset} {value : Value} {written rest cs : List Char} {fuel depth : Nat}
  {entries : Entries}

/-! ### White space -/

theorem skipSpace_cons {c : Char} (token : isSpace c = false) (cs : List Char) :
    skipSpace (c :: cs) = c :: cs := by
  unfold skipSpace
  rw [List.dropWhile_cons_of_neg (by rw [token]; exact Bool.false_ne_true)]

theorem skipSpace_append {blanks : List Char} (blank : ∀ c ∈ blanks, isSpace c = true)
    (cs : List Char) : skipSpace (blanks ++ cs) = skipSpace cs :=
  List.dropWhile_append_of_pos blank

theorem toList_lineStart (depth : Nat) :
    (lineStart depth).toList = '\n' :: List.replicate (2 * depth) ' ' := String.toList_ofList

theorem skipSpace_lineStart (depth : Nat) (cs : List Char) :
    skipSpace ((lineStart depth).toList ++ cs) = skipSpace cs := by
  refine skipSpace_append (fun c member => ?_) cs
  rw [toList_lineStart] at member
  rcases List.mem_cons.mp member with rfl | isSpace
  · rfl
  · rw [List.eq_of_mem_replicate isSpace]
    rfl

theorem IsWritten.skipSpace_append (isWritten : IsWritten value written) (cs : List Char) :
    skipSpace (written ++ cs) = written ++ cs := by
  obtain ⟨c, more, rfl, token, -⟩ := isWritten.starts
  exact skipSpace_cons token (more ++ cs)

theorem IsWritten.head?_ne (isWritten : IsWritten value written) (cs : List Char) :
    (written ++ cs).head? ≠ some ']' := by
  obtain ⟨c, more, rfl, -, going⟩ := isWritten.starts
  exact fun same => going (Option.some.inj same)

/-- It is enough that the value is read with fuel for the text after its first character. -/
theorem isWritten_of_succ {c : Char} {more : List Char} (token : isSpace c = false)
    (going : c ≠ ']')
    (reads : ∀ fuel rest, more.length ≤ fuel →
      readValue (fuel + 1) (c :: (more ++ rest)) = some (value, rest)) :
    IsWritten value (c :: more) := by
  refine ⟨fun fuel rest enough => ?_, c, more, rfl, token, going⟩
  cases fuel with
  | zero => cases enough
  | succ fuel => exact reads fuel rest (Nat.le_of_succ_le_succ enough)

/-! ### Scalars -/

theorem toList_writeString (charset : Charset) (text : String) :
    (writeString charset text).toList =
      '"' :: (text.toList.flatMap (writeChar charset) ++ ['"']) := String.toList_ofList

theorem isWritten_text (charset : Charset) (text : String) :
    IsWritten (.text text) (writeString charset text).toList := by
  rw [toList_writeString]
  refine isWritten_of_succ rfl (by decide) fun fuel rest enough => ?_
  have long := length_le_flatMap charset text.toList
  simp only [List.length_append, List.length_singleton] at enough
  have reads : readString fuel [] (text.toList.flatMap (writeChar charset) ++ '"' :: rest) =
      some (text.toList, rest) := readString_flatMap charset (by omega)
  simp only [List.append_assoc, List.singleton_append, readValue, reads, Option.map_some,
    String.ofList_toList]

theorem isWritten_null : IsWritten .null "null".toList :=
  isWritten_of_succ (c := 'n') rfl (by decide) fun _ _ _ => rfl

theorem isWritten_bool (value : Bool) :
    IsWritten (.scalar (.bool value)) (if value then "true" else "false").toList := by
  cases value with
  | true => exact isWritten_of_succ (c := 't') rfl (by decide) fun _ _ _ => rfl
  | false => exact isWritten_of_succ (c := 'f') rfl (by decide) fun _ _ _ => rfl

/-! ### Collections -/

/-- What follows the first element of a collection: the other elements, each after a comma and on a
line of its own, and the closing bracket. -/
def remainder (depth : Nat) (closing : Char) (elements : List (List Char)) : List Char :=
  elements.flatMap (fun element => ',' :: ((lineStart (depth + 1)).toList ++ element)) ++
    ((lineStart depth).toList ++ [closing])

theorem remainder_cons (depth : Nat) (closing : Char) (element : List Char)
    (elements : List (List Char)) : remainder depth closing (element :: elements) =
      ',' :: ((lineStart (depth + 1)).toList ++ (element ++ remainder depth closing elements)) := by
  simp [remainder]

/-- A collection that is not empty, from its opening to its closing bracket. -/
theorem toList_spread (opening closing : Char) (depth : Nat) (first : String)
    (others : List String) :
    (spread (String.singleton opening) (String.singleton closing) depth (first :: others)).toList =
      opening :: ((lineStart (depth + 1)).toList ++ (first.toList ++
        remainder depth closing (others.map String.toList))) := by
  unfold spread remainder
  simp only [List.isEmpty_cons, Bool.false_eq_true, if_false, String.toList_append,
    Text.toList_intercalate_cons, String.toList_singleton, List.flatMap_map, List.append_assoc,
    List.singleton_append]
  rfl

theorem skipSpace_remainder_nil (depth : Nat) {closing : Char} (token : isSpace closing = false)
    (rest : List Char) : skipSpace (remainder depth closing [] ++ rest) = closing :: rest := by
  unfold remainder
  rw [List.flatMap_nil, List.nil_append, List.append_assoc, skipSpace_lineStart,
    List.singleton_append, skipSpace_cons token]

theorem skipSpace_remainder_cons (depth : Nat) (closing : Char) (element : List Char)
    (elements : List (List Char)) (rest : List Char) :
    skipSpace (remainder depth closing (element :: elements) ++ rest) =
      ',' :: ((lineStart (depth + 1)).toList ++
        (element ++ (remainder depth closing elements ++ rest))) := by
  rw [remainder_cons, List.cons_append, List.append_assoc, List.append_assoc,
    skipSpace_cons (by decide)]

theorem length_remainder_pos (depth : Nat) (closing : Char) (elements : List (List Char)) :
    0 < (remainder depth closing elements).length := by
  unfold remainder
  simp only [List.length_append, List.length_singleton]
  omega

/-- **The items of a list are read**, up to the closing bracket. -/
theorem readItems_remainder {item : Value} {first : List Char} {items : List Value}
    {elements : List (List Char)} (isFirst : IsWritten item first)
    (others : List.Forall₂ IsWritten items elements)
    (enough : (first ++ remainder depth ']' elements).length ≤ fuel) :
    readItems fuel (first ++ (remainder depth ']' elements ++ rest)) =
      some (item :: items, rest) := by
  induction others generalizing item first fuel with
  | nil =>
    have closes := length_remainder_pos depth ']' []
    rw [List.length_append] at enough
    cases fuel with
    | zero => omega
    | succ fuel =>
      simp only [readItems, isFirst.reads fuel _ (by omega),
        skipSpace_remainder_nil depth (by decide : isSpace ']' = false)]
  | @cons next element items elements isNext _ ih =>
    rw [remainder_cons, List.length_append, List.length_cons, List.length_append] at enough
    cases fuel with
    | zero => omega
    | succ fuel =>
      have further : readItems fuel (element ++ (remainder depth ']' elements ++ rest)) =
          some (next :: items, rest) := ih isNext (by omega)
      simp only [readItems, isFirst.reads fuel _ (by omega), skipSpace_remainder_cons,
        skipSpace_lineStart, isNext.skipSpace_append, further, Option.map_some]

/-- A member of an object as it is written. -/
def memberText (charset : Charset) (name : String) (written : List Char) : List Char :=
  (writeString charset name).toList ++ (':' :: ' ' :: written)

/-- The entry of an object is written as its name and its value. -/
def IsMember (charset : Charset) (entry : Scalar × Value) (written : List Char) : Prop :=
  ∃ name inner, entry.1 = .text name ∧ IsWritten entry.2 inner ∧
    written = memberText charset name inner

theorem IsMember.skipSpace_append {entry : Scalar × Value} {written : List Char}
    (isMember : IsMember charset entry written) (cs : List Char) :
    skipSpace (written ++ cs) = written ++ cs := by
  obtain ⟨name, inner, -, -, rfl⟩ := isMember
  unfold memberText
  rw [toList_writeString]
  exact skipSpace_cons (by decide) _

theorem IsMember.head?_ne {entry : Scalar × Value} {written : List Char}
    (isMember : IsMember charset entry written) (cs : List Char) :
    (written ++ cs).head? ≠ some '\x7d' := by
  obtain ⟨name, inner, -, -, rfl⟩ := isMember
  unfold memberText
  rw [toList_writeString]
  exact fun closes => absurd (Option.some.inj closes) (by decide)

theorem length_inner_le {name : String} {inner : List Char}
    (enough : (memberText charset name inner).length ≤ fuel) : inner.length ≤ fuel := by
  unfold memberText at enough
  simp only [List.length_append, List.length_cons] at enough
  omega

/-- A name is read up to the value after it. -/
theorem readString_memberText {name : String} {inner : List Char}
    (enough : (memberText charset name inner).length ≤ fuel + 1) (rest : List Char) :
    ∃ more, memberText charset name inner ++ rest = '"' :: more ∧
      readString fuel [] more = some (name.toList, ':' :: ' ' :: (inner ++ rest)) := by
  have long := length_le_flatMap charset name.toList
  unfold memberText at enough ⊢
  rw [toList_writeString] at enough ⊢
  simp only [List.length_append, List.length_cons, List.length_nil] at enough
  refine ⟨name.toList.flatMap (writeChar charset) ++ '"' :: (':' :: ' ' :: (inner ++ rest)), ?_, ?_⟩
  · simp
  · exact readString_flatMap charset (by omega)

/-- After the last member of an object its brace closes it. -/
theorem readMembers_last {name : String} {inner after : List Char} {value : Value}
    (isInner : IsWritten value inner) (enough : (memberText charset name inner).length ≤ fuel)
    (closes : skipSpace rest = '\x7d' :: after) :
    readMembers (fuel + 1) (memberText charset name inner ++ rest) =
      some ([(.text name, value)], after) := by
  obtain ⟨more, same, isName⟩ := readString_memberText (Nat.le_succ_of_le enough) rest
  have toValue : skipSpace (' ' :: (inner ++ rest)) = inner ++ rest := isInner.skipSpace_append rest
  rw [same]
  simp only [readMembers, isName, skipSpace_cons (c := ':') rfl, toValue,
    isInner.reads fuel rest (length_inner_le enough), closes, String.ofList_toList]

/-- After a member of an object and a comma the next one is read. -/
theorem readMembers_next {name : String} {inner after : List Char} {value : Value}
    (isInner : IsWritten value inner) (enough : (memberText charset name inner).length ≤ fuel)
    (goesOn : skipSpace rest = ',' :: after) :
    readMembers (fuel + 1) (memberText charset name inner ++ rest) =
      (readMembers fuel (skipSpace after)).map fun (members, rest) =>
        ((.text name, value) :: members, rest) := by
  obtain ⟨more, same, isName⟩ := readString_memberText (Nat.le_succ_of_le enough) rest
  have toValue : skipSpace (' ' :: (inner ++ rest)) = inner ++ rest := isInner.skipSpace_append rest
  rw [same]
  simp only [readMembers, isName, skipSpace_cons (c := ':') rfl, toValue,
    isInner.reads fuel rest (length_inner_le enough), goesOn, String.ofList_toList]

/-- **The members of an object are read**, up to the closing brace. -/
theorem readMembers_remainder {entry : Scalar × Value} {first : List Char} {entries : Entries}
    {elements : List (List Char)} (isFirst : IsMember charset entry first)
    (others : List.Forall₂ (IsMember charset) entries elements)
    (enough : (first ++ remainder depth '\x7d' elements).length ≤ fuel) :
    readMembers fuel (first ++ (remainder depth '\x7d' elements ++ rest)) =
      some (entry :: entries, rest) := by
  induction others generalizing entry first fuel with
  | nil =>
    have closes := length_remainder_pos depth '\x7d' []
    obtain ⟨key, value⟩ := entry
    obtain ⟨name, inner, rfl, isInner, rfl⟩ := isFirst
    rw [List.length_append] at enough
    cases fuel with
    | zero => omega
    | succ fuel =>
      exact readMembers_last isInner (by omega)
        (skipSpace_remainder_nil depth (by decide : isSpace '\x7d' = false) rest)
  | @cons next element entries elements isNext _ ih =>
    obtain ⟨key, value⟩ := entry
    obtain ⟨name, inner, rfl, isInner, rfl⟩ := isFirst
    rw [remainder_cons, List.length_append, List.length_cons, List.length_append] at enough
    cases fuel with
    | zero => omega
    | succ fuel =>
      have further : readMembers fuel (element ++ (remainder depth '\x7d' elements ++ rest)) =
          some (next :: entries, rest) := ih isNext (by omega)
      rw [readMembers_next isInner (by omega) (skipSpace_remainder_cons ..), skipSpace_lineStart,
        isNext.skipSpace_append, further]
      rfl

/-! ### Values -/

theorem isWritten_emptyList : IsWritten (.list []) "[]".toList :=
  isWritten_of_succ (c := '[') rfl (by decide) fun _ _ _ => rfl

theorem isWritten_emptyMap : IsWritten (.map []) "\x7b\x7d".toList :=
  isWritten_of_succ (c := '\x7b') rfl (by decide) fun _ _ _ => rfl

/-- A list that is not closed at once has items. -/
theorem readValue_items {items : List Char} (opens : skipSpace cs = items)
    (going : items.head? ≠ some ']') : readValue (fuel + 1) ('[' :: cs) =
      (readItems fuel items).map fun (items, rest) => (.list items, rest) := by
  simp only [readValue, opens]
  split
  · exact absurd rfl going
  · rfl

/-- An object that is not closed at once has members. -/
theorem readValue_members {members : List Char} (opens : skipSpace cs = members)
    (going : members.head? ≠ some '\x7d') : readValue (fuel + 1) ('\x7b' :: cs) =
      (readMembers fuel members).map fun (members, rest) =>
        (.map (Entries.ofList members), rest) := by
  simp only [readValue, opens]
  split
  · exact absurd rfl going
  · rfl

theorem isWritten_list {items : List Value} {elements : List String}
    (each : List.Forall₂ (fun item element => IsWritten item element.toList) items elements) :
    IsWritten (.list items) (spread "[" "]" depth elements).toList := by
  cases each with
  | nil => exact isWritten_emptyList
  | @cons item first items others isFirst rest =>
    have isOthers : List.Forall₂ IsWritten items (others.map String.toList) :=
      List.forall₂_map_right_iff.mpr rest
    show IsWritten _ (spread (String.singleton '[') (String.singleton ']') depth _).toList
    rw [toList_spread]
    refine isWritten_of_succ rfl (by decide) fun fuel after enough => ?_
    simp only [List.length_append] at enough
    rw [List.append_assoc, List.append_assoc, readValue_items
      ((skipSpace_lineStart _ _).trans (isFirst.skipSpace_append _)) (isFirst.head?_ne _),
      readItems_remainder isFirst isOthers (by rw [List.length_append]; omega)]
    rfl

theorem isWritten_map {elements : List String} (distinct : Distinct entries)
    (each : List.Forall₂ (fun entry element => IsMember charset entry element.toList)
      entries elements) :
    IsWritten (.map entries) (spread "\x7b" "\x7d" depth elements).toList := by
  cases each with
  | nil => exact isWritten_emptyMap
  | @cons entry first entries others isFirst rest =>
    have isOthers : List.Forall₂ (IsMember charset) entries (others.map String.toList) :=
      List.forall₂_map_right_iff.mpr rest
    show IsWritten _ (spread (String.singleton '\x7b') (String.singleton '\x7d') depth _).toList
    rw [toList_spread]
    refine isWritten_of_succ rfl (by decide) fun fuel after enough => ?_
    simp only [List.length_append] at enough
    rw [List.append_assoc, List.append_assoc, readValue_members
      ((skipSpace_lineStart _ _).trans (isFirst.skipSpace_append _)) (isFirst.head?_ne _),
      readMembers_remainder isFirst isOthers (by rw [List.length_append]; omega)]
    show some (Value.map (Entries.ofList (entry :: entries)), after) = _
    rw [Raml.ofList_of_distinct distinct]

/-- The items are written, if each of them is. -/
theorem exists_writeItems {items : List Value}
    (each : ∀ item ∈ items, ∃ written, writeAt charset depth item = some written ∧
      IsWritten item written.toList) :
    ∃ elements, writeAt.writeItems charset depth items = some elements ∧
      List.Forall₂ (fun item element => IsWritten item element.toList) items elements := by
  induction items with
  | nil => exact ⟨[], rfl, .nil⟩
  | cons item rest ih =>
    obtain ⟨⟨first, isFirst, reads⟩, later⟩ := List.forall_mem_cons.mp each
    obtain ⟨others, isOthers, further⟩ := ih later
    exact ⟨first :: others, by rw [writeAt.writeItems, isFirst, isOthers], .cons reads further⟩

/-- The entries are written as members, if each of them has a name and its value is written. -/
theorem exists_writeMembers (named : ∀ entry ∈ entries, ∃ name, entry.1 = .text name)
    (each : ∀ entry ∈ entries, ∃ written, writeAt charset depth entry.2 = some written ∧
      IsWritten entry.2 written.toList) :
    ∃ elements, writeAt.writeMembers charset depth entries = some elements ∧
      List.Forall₂ (fun entry element => IsMember charset entry element.toList)
        entries elements := by
  induction entries with
  | nil => exact ⟨[], rfl, .nil⟩
  | cons entry rest ih =>
    obtain ⟨key, value⟩ := entry
    obtain ⟨⟨name, rfl⟩, laterNames⟩ := List.forall_mem_cons.mp named
    obtain ⟨⟨inner, isInner, reads⟩, later⟩ := List.forall_mem_cons.mp each
    obtain ⟨others, isOthers, further⟩ := ih laterNames later
    refine ⟨_, by rw [writeAt.writeMembers, isInner, isOthers]; rfl, .cons ?_ further⟩
    exact ⟨name, inner.toList, rfl, reads, by simp [memberText]⟩

/-- **A storable value is written at every depth**, and so that it is read. -/
theorem exists_isWritten (charset : Charset) (storable : Storable value) (depth : Nat) :
    ∃ written, writeAt charset depth value = some written ∧ IsWritten value written.toList := by
  induction storable generalizing depth with
  | nothing => exact ⟨_, rfl, isWritten_null⟩
  | truth value => exact ⟨_, rfl, isWritten_bool value⟩
  | text value => exact ⟨_, rfl, isWritten_text charset value⟩
  | list _ ih =>
    obtain ⟨elements, isElements, each⟩ := exists_writeItems fun item member => ih item member _
    exact ⟨_, by rw [writeAt, isElements, Option.map_some], isWritten_list each⟩
  | map named distinct _ ih =>
    obtain ⟨elements, isElements, each⟩ :=
      exists_writeMembers named fun entry member => ih entry member _
    exact ⟨_, by rw [writeAt, isElements, Option.map_some], isWritten_map distinct each⟩

/-- **What is written of a storable value is read as that value**, with a line end after it. -/
theorem read?_write (charset : Charset) (storable : Storable value) :
    ∃ written, write charset value = some written ∧ read? (written ++ "\n") = some value := by
  obtain ⟨written, isWriting, isWritten⟩ := exists_isWritten charset storable 0
  refine ⟨written, isWriting, ?_⟩
  simp only [read?, String.toList_append, isWritten.skipSpace_append]
  rw [isWritten.reads _ _ (by rw [List.length_append]; omega)]
  rfl

end Json

end RamlInterfaces
