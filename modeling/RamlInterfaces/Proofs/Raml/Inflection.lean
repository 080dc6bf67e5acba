/-
**The singular of a plural.**

The plural of a word is made by its ending, and a singular by the ending of the plural.  Endings are
those of the word in lower case, and letters are taken from the word as it is written.

* `EndsIn`: a word has an ending, case aside;
* `endsInOneOf_iff`: **endings are compared with the word in lower case**;
* `pluralChars_eq`: **the plural of a word**, by its ending;
* `singularChars_ies`, `singularChars_es`, `singularChars_s`: the singular of each kind of plural;
* `singularize_pluralize_iff`: **which words are the singular of their plural**.
-/

import Mathlib.Data.List.Basic
import RamlInterfaces.Proofs.Text.Lowercase
import RamlInterfaces.Raml.Placeholder

namespace RamlInterfaces.Raml

open Text

/-- The word in lower case has the ending. -/
def EndsIn (word ending : String) : Prop := ending.toList <:+ (lower word).toList

/-! ### Endings -/

theorem endsInOneOf_eq_true_iff {word : List Char} {endings : List String} :
    endsInOneOf word endings = true ↔
      ∃ ending ∈ endings, ending.toList <:+ word.map Char.toLower := by
  unfold endsInOneOf
  simp only [List.any_eq_true, List.isSuffixOf_iff_suffix]

/-- **Letter by letter a word has the endings that it has in lower case.** -/
theorem endsInOneOf_iff {word : String} {endings : List String}
    (basic : endings.all (fun ending => ending.toList.all isBasic) = true) :
    endsInOneOf word.toList endings = true ↔ ∃ ending ∈ endings, EndsIn word ending := by
  rw [endsInOneOf_eq_true_iff]
  refine exists_congr fun ending => and_congr_right fun member => ?_
  have isBasic := List.all_eq_true.mp (List.all_eq_true.mp basic ending member)
  have same := (lowered_lowerFrom word.toList false).suffix_iff isBasic
  rw [EndsIn, lower, String.toList_ofList, same]

/-- An ending that is added to a word is added to its endings. -/
theorem endsInOneOf_append (word : List Char) (endings : List String) (added : String)
    (isLower : added.toList.map Char.toLower = added.toList) :
    endsInOneOf (word ++ added.toList) (endings.map (· ++ added)) = endsInOneOf word endings := by
  rw [Bool.eq_iff_iff, endsInOneOf_eq_true_iff, endsInOneOf_eq_true_iff]
  simp only [List.mem_map, exists_exists_and_eq_and, String.toList_append, List.map_append, isLower,
    List.suffix_append_self_iff]

/-- A word has no ending that is apart from one of its own: of two endings of a word one is an
ending of the other. -/
theorem endsInOneOf_eq_false {word : List Char} {endings others : List String}
    (ends : endsInOneOf word endings = true)
    (apart : ∀ ending ∈ endings, ∀ other ∈ others,
      ¬ ending.toList <:+ other.toList ∧ ¬ other.toList <:+ ending.toList) :
    endsInOneOf word others = false := by
  refine Bool.eq_false_iff.mpr fun endsToo => ?_
  obtain ⟨ending, isOne, isEnding⟩ := endsInOneOf_eq_true_iff.mp ends
  obtain ⟨other, isOther, isEndingToo⟩ := endsInOneOf_eq_true_iff.mp endsToo
  obtain ⟨shorter, longer⟩ := apart ending isOne other isOther
  exact (List.suffix_or_suffix_of_suffix isEnding isEndingToo).elim shorter longer

theorem endsInOneOf_of_subset {word : List Char} {endings others : List String}
    (none : endsInOneOf word endings = false) (among : others ⊆ endings) :
    endsInOneOf word others = false := by
  refine Bool.eq_false_iff.mpr fun ends => Bool.eq_false_iff.mp none ?_
  obtain ⟨ending, member, isEnding⟩ := endsInOneOf_eq_true_iff.mp ends
  exact endsInOneOf_eq_true_iff.mpr ⟨ending, among member, isEnding⟩

/-- Every word has the empty ending. -/
theorem endsInOneOf_empty (word : List Char) : endsInOneOf word [""] = true :=
  endsInOneOf_eq_true_iff.mpr ⟨"", List.mem_singleton_self _, List.nil_suffix⟩

/-! ### Words without their last letters -/

theorem exists_concat {word : List Char} (nonempty : 0 < word.length) :
    ∃ stem last, word = stem ++ [last] :=
  (List.eq_nil_or_concat' word).resolve_left (List.ne_nil_of_length_pos nonempty)

theorem length_withoutLast (count : Nat) (word : List Char) :
    (withoutLast count word).length = word.length - count := by
  rw [withoutLast, List.length_take, Nat.min_eq_left (Nat.sub_le _ _)]

theorem withoutLast_append (word added : List Char) :
    withoutLast added.length (word ++ added) = word := by
  rw [withoutLast, List.length_append, Nat.add_sub_cancel, List.take_left]

theorem withoutLast_zero (word : List Char) : withoutLast 0 word = word := List.take_length

theorem withoutLast_concat (count : Nat) (word : List Char) (last : Char) :
    withoutLast (count + 1) (word ++ [last]) = withoutLast count word := by
  rw [withoutLast, List.length_append, List.length_singleton, Nat.add_sub_add_right,
    List.take_append_of_le_length (Nat.sub_le _ _), withoutLast]

/-! ### The plural by the ending -/

/-- The endings to which a plural adds `es`. -/
def sibilants : List String := ["s", "x", "z", "ch", "sh"]

/-- The endings of a vowel with a `y`. -/
def vowelsWithY : List String :=
  ['a', 'e', 'i', 'o', 'u'].map fun vowel => String.ofList [vowel, 'y']

/-- A word has only one ending of a length. -/
theorem suffix_append_iff {ending letters : List Char} (stem : List Char)
    (same : ending.length = letters.length) : ending <:+ stem ++ letters ↔ ending = letters := by
  have whole : [] ++ ending <:+ stem ++ letters ↔ [] <:+ stem ∧ ending = letters :=
    List.suffix_append_inj_of_length_eq same
  exact whole.trans (and_iff_right List.nil_suffix)

/-- The ending `y` is the last letter. -/
theorem endsInOneOf_y_iff (stem : List Char) (last : Char) :
    endsInOneOf (stem ++ [last]) ["y"] = true ↔ last.toLower = 'y' := by
  have isEnding : "y".toList <:+ stem.map Char.toLower ++ [last.toLower] ↔ ['y'] = [last.toLower] :=
    suffix_append_iff _ rfl
  rw [endsInOneOf_eq_true_iff, List.map_append, List.map_singleton]
  simp only [List.mem_singleton, exists_eq_left, isEnding, List.cons.injEq, and_true]
  exact eq_comm

/-- A vowel with a `y` is in the last two letters. -/
theorem endsInOneOf_vowelsWithY_iff (stem : List Char) (before last : Char) :
    endsInOneOf (stem ++ [before, last]) vowelsWithY = true ↔
      isVowel before = true ∧ last.toLower = 'y' := by
  have isEnding (vowel : Char) :
      [vowel, 'y'] <:+ stem.map Char.toLower ++ [before, last].map Char.toLower ↔
        [vowel, 'y'] = [before.toLower, last.toLower] := suffix_append_iff _ rfl
  rw [endsInOneOf_eq_true_iff, vowelsWithY, isVowel, List.contains_iff_mem, List.map_append]
  simp only [List.mem_map, exists_exists_and_eq_and, String.toList_ofList, isEnding,
    List.cons.injEq, and_true]
  constructor
  · rintro ⟨vowel, member, rfl, isY⟩
    exact ⟨member, isY.symm⟩
  · rintro ⟨member, isY⟩
    exact ⟨_, member, rfl, isY.symm⟩

/-- A word of one letter has no ending of two. -/
theorem endsInOneOf_sibilants_of_short {word : List Char} (short : word.length < 2) :
    endsInOneOf word sibilants = endsInOneOf word ["s", "x", "z"] := by
  have none : endsInOneOf word ["ch", "sh"] = false := by
    refine Bool.eq_false_iff.mpr fun ends => ?_
    obtain ⟨ending, member, isEnding⟩ := endsInOneOf_eq_true_iff.mp ends
    have two : ∀ ending ∈ ["ch", "sh"], ending.toList.length = 2 := by decide
    have fits := isEnding.length_le
    rw [two ending member, List.length_map] at fits
    omega
  show endsInOneOf word (["s", "x", "z"] ++ ["ch", "sh"]) = _
  unfold endsInOneOf at none ⊢
  rw [List.any_append, none, Bool.or_false]

/-- **The plural of a word, by its ending.** -/
theorem pluralChars_eq (word : List Char) : pluralChars word =
    if endsInOneOf word ["y"] = true ∧ 2 ≤ word.length ∧ endsInOneOf word vowelsWithY = false then
      withoutLast 1 word ++ ['i', 'e', 's']
    else if endsInOneOf word sibilants = true then word ++ ['e', 's'] else word ++ ['s'] := by
  -- the definition looks at the last two letters, which a short word does not have
  obtain short | long := Nat.lt_or_ge word.length 2
  · rw [if_neg fun both => Nat.not_le_of_lt short both.2.1, endsInOneOf_sibilants_of_short short]
    match word, short with
    | [], _ => rfl
    | [c], _ => rfl
  · obtain ⟨front, last, rfl⟩ := exists_concat (Nat.zero_lt_of_lt long)
    rw [List.length_append] at long
    obtain ⟨stem, before, rfl⟩ := exists_concat (Nat.le_of_succ_le_succ long)
    have isY := endsInOneOf_y_iff (stem ++ [before]) last
    have isVowelWithY := endsInOneOf_vowelsWithY_iff stem before last
    rw [List.append_cons] at isVowelWithY
    have condition : last.toLower = 'y' ∧ isVowel before = false ↔
        endsInOneOf (stem ++ [before] ++ [last]) ["y"] = true ∧
          2 ≤ (stem ++ [before] ++ [last]).length ∧
            endsInOneOf (stem ++ [before] ++ [last]) vowelsWithY = false := by
      rw [isY, List.length_append, and_iff_right long]
      refine and_congr_right fun lowered => ?_
      rw [Bool.eq_false_iff, Bool.eq_false_iff, Ne, Ne, isVowelWithY, and_iff_left lowered]
    rw [pluralChars, List.reverse_append, List.reverse_append]
    exact if_congr condition rfl rfl

/-! ### The singular of a plural -/

/-- The endings whose plural, by `s`, ends as one by `es` does. -/
def sibilantsWithE : List String := ["se", "xe", "ze", "che", "she"]

/-- The singular of a word whose `y` has become `ies`. -/
theorem singularChars_ies {stem : List Char} (nonempty : stem ≠ []) :
    singularChars (stem ++ ['i', 'e', 's']) = stem ++ ['y'] := by
  have ends : endsInOneOf (stem ++ ['i', 'e', 's']) ["ies"] = true :=
    (endsInOneOf_append stem [""] "ies" (by decide)).trans (endsInOneOf_empty stem)
  have long : 3 < (stem ++ ['i', 'e', 's']).length := by
    rw [List.length_append]
    exact Nat.lt_add_of_pos_left (List.length_pos_iff.mpr nonempty)
  rw [singularChars, ends, decide_eq_true long, Bool.true_and, if_pos rfl]
  exact congrArg (· ++ ['y']) (withoutLast_append stem ['i', 'e', 's'])

/-- The singular of a word with an `es`. -/
theorem singularChars_es {word : List Char} (hisses : endsInOneOf word sibilants = true) :
    singularChars (word ++ ['e', 's']) = word := by
  have noIes : endsInOneOf (word ++ ['e', 's']) ["ies"] = false :=
    (endsInOneOf_append word ["i"] "es" (by decide)).trans
      (endsInOneOf_eq_false hisses (by decide))
  have ends : endsInOneOf (word ++ ['e', 's']) ["ses", "xes", "zes", "ches", "shes"] = true :=
    (endsInOneOf_append word sibilants "es" (by decide)).trans hisses
  rw [singularChars, noIes, Bool.false_and, if_neg Bool.false_ne_true, if_pos ends]
  exact withoutLast_append word ['e', 's']

/-- The singular of a word with an `s` is the word, unless the two end as another plural does. -/
theorem singularChars_s {word : List Char} (quiet : endsInOneOf word sibilants = false) :
    singularChars (word ++ ['s']) =
      if 3 ≤ word.length ∧ endsInOneOf word ["ie"] = true then withoutLast 2 word ++ ['y']
      else if endsInOneOf word sibilantsWithE = true then withoutLast 1 word
      else word := by
  have ies : endsInOneOf (word ++ ['s']) ["ies"] = endsInOneOf word ["ie"] :=
    endsInOneOf_append word ["ie"] "s" (by decide)
  have es : endsInOneOf (word ++ ['s']) ["ses", "xes", "zes", "ches", "shes"] =
      endsInOneOf word sibilantsWithE :=
    endsInOneOf_append word sibilantsWithE "s" (by decide)
  have ends : endsInOneOf (word ++ ['s']) ["s"] = true :=
    (endsInOneOf_append word [""] "s" (by decide)).trans (endsInOneOf_empty word)
  have single : endsInOneOf (word ++ ['s']) ["ss"] = false :=
    (endsInOneOf_append word ["s"] "s" (by decide)).trans
      (endsInOneOf_of_subset quiet (by decide))
  have isIes : (endsInOneOf word ["ie"] && decide (3 < word.length + 1)) = true ↔
      3 ≤ word.length ∧ endsInOneOf word ["ie"] = true := by
    rw [Bool.and_eq_true, decide_eq_true_iff, Nat.lt_succ_iff, and_comm]
  rw [singularChars, ies, es, ends, single, List.length_append, List.length_singleton]
  simp only [isIes, withoutLast_concat, withoutLast_zero, Bool.not_false, Bool.and_self, if_true]

/-- When that is the word: the other two are shorter. -/
theorem singularChars_s_eq_iff {word : List Char} (quiet : endsInOneOf word sibilants = false) :
    singularChars (word ++ ['s']) = word ↔
      ¬ (endsInOneOf word sibilantsWithE = true ∨
        (3 ≤ word.length ∧ endsInOneOf word ["ie"] = true)) := by
  rw [singularChars_s quiet]
  by_cases isIe : 3 ≤ word.length ∧ endsInOneOf word ["ie"] = true
  · rw [if_pos isIe]
    refine iff_of_false (fun same => ?_) (not_not_intro (.inr isIe))
    have long := isIe.1
    have lengths := congrArg List.length same
    rw [List.length_append, length_withoutLast, List.length_singleton] at lengths
    omega
  rw [if_neg isIe]
  by_cases isSe : endsInOneOf word sibilantsWithE = true
  · rw [if_pos isSe]
    refine iff_of_false (fun same => ?_) (not_not_intro (.inl isSe))
    have nonempty : word ≠ [] := by
      rintro rfl
      exact absurd isSe (by decide)
    have positive := List.length_pos_iff.mpr nonempty
    have lengths := congrArg List.length same
    rw [length_withoutLast] at lengths
    omega
  · rw [if_neg isSe]
    exact iff_of_true rfl fun either => either.elim isSe isIe

/-! ### There and back -/

theorem toLower_eq_y_iff {c : Char} : c.toLower = 'y' ↔ c = 'y' ∨ c = 'Y' := by
  by_cases isLatin : c.toNat < 128
  · have all : ∀ code < 128, (Char.ofNat code).toLower = 'y' ↔
        Char.ofNat code = 'y' ∨ Char.ofNat code = 'Y' := by decide
    rw [← Char.ofNat_toNat c]
    exact all _ isLatin
  · have isBeyond := Nat.le_of_not_lt isLatin
    have notCapital : c ≠ 'Y' := by
      rintro rfl
      exact absurd isBeyond (by decide)
    rw [toLower_of_le isBeyond, or_iff_left notCapital]

/-- **When the singular of a plural is the word again**, letter by letter. -/
theorem singularChars_pluralChars_iff (word : List Char) :
    singularChars (pluralChars word) = word ↔
      ¬ (endsInOneOf word sibilantsWithE = true ∨
        (3 ≤ word.length ∧ endsInOneOf word ["ie"] = true) ∨
        (2 ≤ word.length ∧ ['Y'] <:+ word ∧ endsInOneOf word vowelsWithY = false)) := by
  rw [pluralChars_eq]
  by_cases isY : endsInOneOf word ["y"] = true ∧ 2 ≤ word.length ∧
      endsInOneOf word vowelsWithY = false
  · rw [if_pos isY]
    -- the `y` of the singular is a small one, whatever that of the word is
    obtain ⟨ends, long, noVowel⟩ := isY
    have noSe : endsInOneOf word sibilantsWithE = false := endsInOneOf_eq_false ends (by decide)
    have noIe : endsInOneOf word ["ie"] = false := endsInOneOf_eq_false ends (by decide)
    obtain ⟨stem, last, rfl⟩ := exists_concat (Nat.zero_lt_of_lt long)
    have nonempty : stem ≠ [] := by
      rintro rfl
      exact absurd long (Nat.lt_irrefl _)
    have isCapital : ['Y'] <:+ stem ++ [last] ↔ ['Y'] = [last] := suffix_append_iff stem rfl
    have stemOf : withoutLast 1 (stem ++ [last]) = stem := withoutLast_append stem [last]
    rw [stemOf, singularChars_ies nonempty, noSe, noIe, noVowel, isCapital, List.append_right_inj]
    rcases toLower_eq_y_iff.mp ((endsInOneOf_y_iff stem last).mp ends) with rfl | rfl
    · exact iff_of_true rfl (by simp)
    · exact iff_of_false (by decide) (not_not_intro (.inr (.inr ⟨long, rfl, rfl⟩)))
  rw [if_neg isY]
  have noCapital : ¬ (2 ≤ word.length ∧ ['Y'] <:+ word ∧ endsInOneOf word vowelsWithY = false) := by
    rintro ⟨long, ⟨stem, rfl⟩, noVowel⟩
    exact isY ⟨(endsInOneOf_y_iff stem 'Y').mpr rfl, long, noVowel⟩
  by_cases hisses : endsInOneOf word sibilants = true
  · rw [if_pos hisses, singularChars_es hisses]
    have noSe : endsInOneOf word sibilantsWithE = false := endsInOneOf_eq_false hisses (by decide)
    have noIe : endsInOneOf word ["ie"] = false := endsInOneOf_eq_false hisses (by decide)
    simp [noSe, noIe, noCapital]
  · rw [if_neg hisses, singularChars_s_eq_iff (Bool.eq_false_iff.mpr hisses), ← or_assoc,
      or_iff_left noCapital]

/-- **Which words are the singular of their plural again**: all but those whose plural by `s` ends
as one by `es` or `ies` does, and those whose capital `Y` comes back as a small one. -/
theorem singularize_pluralize_iff (word : String) :
    singularize (pluralize word) = word ↔
      ¬ ((∃ ending ∈ ["se", "xe", "ze", "che", "she"], EndsIn word ending) ∨
        (3 ≤ word.length ∧ EndsIn word "ie") ∨
        (2 ≤ word.length ∧ ['Y'] <:+ word.toList ∧
          ∀ ending ∈ ["ay", "ey", "iy", "oy", "uy"], ¬ EndsIn word ending)) := by
  have backAgain : singularize (pluralize word) = word ↔
      singularChars (pluralChars word.toList) = word.toList := by
    rw [← String.toList_inj, singularize, String.toList_ofList, pluralize, String.toList_ofList]
  have ie : endsInOneOf word.toList ["ie"] = true ↔ EndsIn word "ie" := by
    rw [endsInOneOf_iff (by decide)]
    simp only [List.mem_singleton, exists_eq_left]
  have se : endsInOneOf word.toList sibilantsWithE = true ↔
      ∃ ending ∈ sibilantsWithE, EndsIn word ending := endsInOneOf_iff (by decide)
  have vowels : endsInOneOf word.toList vowelsWithY = false ↔
      ∀ ending ∈ ["ay", "ey", "iy", "oy", "uy"], ¬ EndsIn word ending := by
    rw [Bool.eq_false_iff, Ne, endsInOneOf_iff (by decide)]
    simp only [not_exists, not_and]
    rfl
  rw [backAgain, singularChars_pluralChars_iff, se, ie, vowels, String.length_toList]
  rfl

example : singularize (pluralize "ie") = "ie" ∧ singularize (pluralize "tie") = "ty" := by decide

end RamlInterfaces.Raml
