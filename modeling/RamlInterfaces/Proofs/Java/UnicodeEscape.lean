/-
**Texts without Unicode escapes.**

A Unicode escape begins with the letter `u` after an odd number of backslashes.  Java leaves a text
as it is exactly if no escape begins in it, whether or not the escape could be read.

* `Untouched`: Java replaces nothing in the text;
* `holdsEscape`: an escape begins in the text;
* `untouched_iff`: **Java replaces nothing in the texts in which no escape begins**;
* `holdsEscape_append_cons`: a character that takes no part in an escape keeps apart the texts
  around it;
* `holdsEscape_eq_lines`, `holdsEscape_dropLastWhile`: so do the ends of lines and blanks.
-/

import RamlInterfaces.Proofs.Java.Lexical
import RamlInterfaces.Text.Blank

namespace RamlInterfaces.Java

/-- Java leaves the text as it is: it finds no Unicode escape in it. -/
def Untouched (text : List Char) : Prop := replaceUnicode 0 text = some text

instance (text : List Char) : Decidable (Untouched text) :=
  inferInstanceAs (Decidable (replaceUnicode 0 text = some text))

/-- A Unicode escape begins in the text.  The flag says that the number of backslashes right before
the text is odd. -/
def holdsEscape (odd : Bool) : List Char → Bool
  | [] => false
  | c :: rest =>
    if c = '\\' then holdsEscape (!odd) rest else (odd && c == 'u') || holdsEscape false rest

/-! ### What Java replaces -/

theorem four_le_of_readUnicode? {rest : List Char} {denoted : Char} {width : Nat}
    (reads : readUnicode? rest = some (denoted, width)) : 4 ≤ width := by
  unfold readUnicode? at reads
  dsimp only at reads
  split at reads
  · obtain ⟨code, _, found⟩ := Option.bind_eq_some_iff.mp reads
    split at found
    · cases found
      exact Nat.le_add_left 4 _
    · cases found
  · cases reads

/-- A text does not become longer. -/
theorem length_replaceUnicode {skip : Nat} {source text : List Char}
    (replaced : replaceUnicode skip source = some text) : text.length ≤ source.length - skip := by
  fun_induction replaceUnicode skip source generalizing text with
  | case1 => simp_all
  | case2 skip c rest ih =>
    have shorter := ih replaced
    rw [List.length_cons]
    omega
  | case3 rest ih =>
    obtain ⟨others, done, rfl⟩ := Option.map_eq_some_iff.mp replaced
    have shorter := ih done
    simp only [List.length_cons] at shorter ⊢
    omega
  | case4 rest ih =>
    obtain ⟨⟨denoted, width⟩, reads, further⟩ := Option.bind_eq_some_iff.mp replaced
    obtain ⟨others, done, rfl⟩ := Option.map_eq_some_iff.mp further
    have shorter := ih width done
    simp only [List.length_cons] at shorter ⊢
    omega
  | case5 rest _ _ ih =>
    obtain ⟨others, done, rfl⟩ := Option.map_eq_some_iff.mp replaced
    have shorter := ih done
    simp only [List.length_cons]
    omega
  | case6 c rest other ih =>
    obtain ⟨others, done, rfl⟩ := Option.map_eq_some_iff.mp replaced
    have shorter := ih done
    simp only [List.length_cons]
    omega

/-- An escape does not stay as it is: what it denotes is shorter. -/
theorem not_untouched_escape (rest : List Char) : ¬ Untouched ('\\' :: 'u' :: rest) := by
  intro same
  obtain ⟨⟨denoted, width⟩, reads, further⟩ := Option.bind_eq_some_iff.mp same
  obtain ⟨others, done, text⟩ := Option.map_eq_some_iff.mp further
  have shorter := length_replaceUnicode done
  have wide := four_le_of_readUnicode? reads
  have lengths := congrArg List.length text
  simp only [List.length_cons] at shorter lengths
  omega

theorem holdsEscape_cons {c : Char} (other : c ≠ '\\') (odd : Bool) (rest : List Char) :
    holdsEscape odd (c :: rest) = ((odd && c == 'u') || holdsEscape false rest) := by
  rw [holdsEscape, if_neg other]

/-- **Java leaves a text as it is exactly if no escape begins in it.** -/
theorem untouched_iff : (text : List Char) → (Untouched text ↔ holdsEscape false text = false)
  | [] => iff_of_true rfl rfl
  | [c] => by
    by_cases backslash : c = '\\'
    · subst backslash
      exact iff_of_true rfl rfl
    · rw [Untouched, replaceUnicode_cons backslash, holdsEscape_cons backslash]
      exact iff_of_true rfl rfl
  | c :: next :: rest => by
    by_cases backslash : c = '\\'
    · subst backslash
      by_cases mark : next = 'u'
      · subst mark
        exact iff_of_false (not_untouched_escape rest) (by simp [holdsEscape])
      · -- the second of two backslashes begins no escape, and no other character does
        have skipped : holdsEscape false ('\\' :: next :: rest) = holdsEscape false rest := by
          by_cases again : next = '\\' <;> simp [holdsEscape, mark, again]
        rw [Untouched, replaceUnicode_backslash mark, skipped, ← untouched_iff rest]
        simp [Untouched]
    · rw [Untouched, replaceUnicode_cons backslash, holdsEscape_cons backslash, Bool.false_and,
        Bool.false_or, ← untouched_iff (next :: rest)]
      simp [Untouched]

/-! ### Parts of texts -/

/-- **A character that takes no part in an escape keeps apart the texts around it.** -/
theorem holdsEscape_append_cons {c : Char} (backslash : c ≠ '\\') (mark : c ≠ 'u')
    (left right : List Char) (odd : Bool) :
    holdsEscape odd (left ++ c :: right) = (holdsEscape odd left || holdsEscape false right) := by
  induction left generalizing odd with
  | nil => simp [holdsEscape, backslash, mark]
  | cons first rest ih =>
    rw [List.cons_append, holdsEscape, holdsEscape]
    by_cases same : first = '\\'
    · rw [if_pos same, if_pos same, ih]
    · rw [if_neg same, if_neg same, ih, Bool.or_assoc]

/-- A text without backslashes matters nothing before another. -/
theorem holdsEscape_append_of_notMem {left : List Char} (none : '\\' ∉ left)
    (right : List Char) : holdsEscape false (left ++ right) = holdsEscape false right := by
  induction left with
  | nil => rfl
  | cons c rest ih =>
    rw [List.mem_cons, not_or] at none
    rw [List.cons_append, holdsEscape_cons (Ne.symm none.1), ih none.2, Bool.false_and,
      Bool.false_or]

theorem holdsEscape_of_notMem {text : List Char} (none : '\\' ∉ text) :
    holdsEscape false text = false := by
  have all := holdsEscape_append_of_notMem none []
  rwa [List.append_nil] at all

/-- A blank takes no part in an escape. -/
theorem ne_of_isBlank {c : Char} (blank : Text.isBlank c = true) : c ≠ '\\' ∧ c ≠ 'u' := by
  constructor <;>
  · rintro rfl
    exact absurd blank (by decide)

/-- The end of a line takes no part in an escape. -/
theorem ne_of_isLineEnd {c : Char} (ends : Text.isLineEnd c = true) : c ≠ '\\' ∧ c ≠ 'u' := by
  constructor <;>
  · rintro rfl
    exact absurd ends (by decide)

theorem backslash_notMem_of_isBlank {text : List Char}
    (blank : ∀ c ∈ text, Text.isBlank c = true) : '\\' ∉ text :=
  fun member => (ne_of_isBlank (blank _ member)).1 rfl

/-- No escape begins in the blanks at the end of a text. -/
theorem holdsEscape_append_blanks (left : List Char) {blanks : List Char}
    (blank : ∀ c ∈ blanks, Text.isBlank c = true) (odd : Bool) :
    holdsEscape odd (left ++ blanks) = holdsEscape odd left := by
  cases blanks with
  | nil => rw [List.append_nil]
  | cons c rest =>
    rw [List.forall_mem_cons] at blank
    obtain ⟨backslash, mark⟩ := ne_of_isBlank blank.1
    rw [holdsEscape_append_cons backslash mark,
      holdsEscape_of_notMem (backslash_notMem_of_isBlank blank.2), Bool.or_false]

theorem holdsEscape_dropLastWhile (text : List Char) (odd : Bool) :
    holdsEscape odd (Text.dropLastWhile Text.isBlank text) = holdsEscape odd text := by
  obtain ⟨dropped, cut, blank⟩ := Text.exists_dropLastWhile_append Text.isBlank text
  have whole := holdsEscape_append_blanks (Text.dropLastWhile Text.isBlank text) blank odd
  rw [← cut] at whole
  exact whole.symm

theorem holdsEscape_dropBlanks (text : List Char) :
    holdsEscape false (Text.dropBlanks text) = holdsEscape false text := by
  have blank : '\\' ∉ text.takeWhile Text.isBlank :=
    backslash_notMem_of_isBlank fun c member =>
      List.all_eq_true.mp List.all_takeWhile c member
  have whole := holdsEscape_append_of_notMem blank (text.dropWhile Text.isBlank)
  rw [List.takeWhile_append_dropWhile] at whole
  exact whole.symm

/-- An escape begins in one of the lines; the flag is about the first of them. -/
def linesHoldEscape (odd : Bool) : List (List Char) → Bool
  | [] => false
  | first :: others => holdsEscape odd first || others.any (holdsEscape false)

theorem linesHoldEscape_false (lines : List (List Char)) :
    linesHoldEscape false lines = lines.any (holdsEscape false) := by
  cases lines <;> rfl

/-- **An escape that begins in a text begins in one of its lines.** -/
theorem holdsEscape_eq_lines (odd : Bool) (text : List Char) :
    holdsEscape odd text = linesHoldEscape odd (Text.lines text) := by
  have ended (odd : Bool) {c : Char} (ends : Text.isLineEnd c = true) (rest : List Char) :
      holdsEscape odd (c :: rest) = holdsEscape false rest := by
    obtain ⟨backslash, mark⟩ := ne_of_isLineEnd ends
    exact (holdsEscape_append_cons backslash mark [] rest odd).trans (Bool.false_or _)
  fun_induction Text.lines text generalizing odd with
  | case1 => rfl
  | case2 rest ih =>
    rw [ended odd rfl, ended false rfl, ih, linesHoldEscape_false]
    rfl
  | case3 c rest single ends ih =>
    rw [ended odd ends, ih, linesHoldEscape_false]
    rfl
  | case4 c rest single goes none ih =>
    rw [none] at ih
    rw [holdsEscape, linesHoldEscape, holdsEscape, ih, ih]
    by_cases backslash : c = '\\' <;> simp [backslash, linesHoldEscape, holdsEscape]
  | case5 c rest single goes line others more ih =>
    rw [more] at ih
    rw [holdsEscape, linesHoldEscape, holdsEscape, ih, ih]
    by_cases backslash : c = '\\' <;>
      simp [backslash, linesHoldEscape, Bool.or_assoc]

end RamlInterfaces.Java
