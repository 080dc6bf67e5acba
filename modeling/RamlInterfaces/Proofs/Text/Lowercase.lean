/-
**Endings of a text in lower case.**

Letters beyond basic Latin are lowered by a table, and none of them becomes a basic letter but the
sign of kelvins, which becomes a `k`.  Two stand apart from the table: a capital sigma, whose form
depends on its place, and the dotted capital I, which becomes an `i` with its dot as a mark behind
it.  So an ending of basic letters other than `k` can be read off letter by letter.

* `isBasic`: the characters of such an ending;
* `Lowered`: a text in lower case as the forms of its characters, one after the other;
* `isBasic_lowerChar`: **no other character has a basic one for its form**;
* `lowered_lowerFrom`: the lower-case form of a text is made character by character;
* `Lowered.suffix_iff`: **its basic endings are those of the text, letter by letter**.
-/

import RamlInterfaces.Text.Lowercase

namespace RamlInterfaces.Text

/-- A character of basic Latin that is the lower-case form of no other one than its capital.  The
sign of kelvins is a `k` in lower case. -/
def isBasic (c : Char) : Bool := c.toNat < 128 && c != 'k'

/-- The second text is the first in lower case, character by character.  One beyond basic Latin may
become several, the last of which is not basic. -/
inductive Lowered : List Char → List Char → Prop
  | nil : Lowered [] []
  | latin {word lowered : List Char} {c : Char} : Lowered word lowered → c.toNat < 128 →
      Lowered (word ++ [c]) (lowered ++ [c.toLower])
  | beyond {word lowered front : List Char} {c last : Char} : Lowered word lowered →
      128 ≤ c.toNat → isBasic last = false → Lowered (word ++ [c]) (lowered ++ (front ++ [last]))

theorem Lowered.append {first second lowered further : List Char} (before : Lowered first lowered)
    (after : Lowered second further) : Lowered (first ++ second) (lowered ++ further) := by
  induction after with
  | nil =>
    rw [List.append_nil, List.append_nil]
    exact before
  | latin _ isLatin ih =>
    rw [← List.append_assoc, ← List.append_assoc]
    exact .latin ih isLatin
  | beyond _ isBeyond notBasic ih =>
    rw [← List.append_assoc, ← List.append_assoc]
    exact .beyond ih isBeyond notBasic

/-- The code points of a run stay beyond basic Latin, that of the sign of kelvins excepted. -/
theorem beyond_of_mem_caseRuns : ∀ run ∈ caseRuns,
    run.first = run.last ∧ run.first + run.shift = 'k'.toNat ∨
      128 ≤ run.first + run.shift ∧ (run.last + run.shift < 0xD800 ∨
        0xDFFF < run.first + run.shift ∧ run.last + run.shift < 0x110000) := by
  decide +kernel

/-- A code point that is valid is that of its character. -/
theorem toNat_ofNat {code : Nat} (valid : code.isValidChar) : (Char.ofNat code).toNat = code := by
  rw [Char.ofNat, dif_pos valid]
  rfl

theorem lowerChar_of_lt {c : Char} (isLatin : c.toNat < 128) : lowerChar c = c.toLower :=
  if_pos isLatin

theorem isBasic_eq_false {c : Char} (isBeyond : 128 ≤ c.toNat) : isBasic c = false := by
  rw [isBasic, decide_eq_false (Nat.not_lt_of_le isBeyond), Bool.false_and]

/-- **No character beyond basic Latin has a basic one for its lower-case form.** -/
theorem isBasic_lowerChar {c : Char} (isBeyond : 128 ≤ c.toNat) :
    isBasic (lowerChar c) = false := by
  rw [lowerChar, if_neg (Nat.not_lt_of_le isBeyond)]
  split
  · rename_i run found
    have holds := List.find?_some found
    simp only [CaseRun.holds, Bool.and_eq_true, decide_eq_true_eq] at holds
    obtain ⟨⟨least, greatest⟩, -⟩ := holds
    rcases beyond_of_mem_caseRuns run (List.mem_of_find?_eq_some found) with
      ⟨single, isK⟩ | ⟨stays, valid⟩
    · have code : (c.toNat + run.shift).toNat = 'k'.toNat := by omega
      rw [code]
      rfl
    · refine isBasic_eq_false ?_
      have isValid : (c.toNat + run.shift).toNat.isValidChar := by
        unfold Nat.isValidChar
        omega
      rw [toNat_ofNat isValid]
      omega
  · exact isBasic_eq_false isBeyond

/-- The lower-case form of a text is made character by character. -/
theorem lowered_lowerFrom (word : List Char) (inWord : Bool) :
    Lowered word (lowerFrom inWord word) := by
  induction word generalizing inWord with
  | nil => exact .nil
  | cons c rest ih =>
    rw [lowerFrom]
    have alone (front : List Char) {last : Char} (isBeyond : 128 ≤ c.toNat)
        (notBasic : isBasic last = false) : Lowered [c] (front ++ [last]) :=
      Lowered.nil.beyond isBeyond notBasic
    have first {here : List Char} (single : Lowered [c] here) (before : Bool) :
        Lowered (c :: rest) (here ++ lowerFrom before rest) := single.append (ih before)
    refine first ?_ _
    -- the dot of the capital I is left behind its letter, so no ending ends in that `i`
    by_cases dotted : c = 'İ'
    · subst dotted
      exact alone ['i'] (by decide) (by decide)
    by_cases sigma : c = 'Σ'
    · subst sigma
      rw [if_neg (by decide), if_pos (by decide)]
      have either : ∀ final : Bool, isBasic (if final = true then 'ς' else 'σ') = false := by
        decide
      exact alone [] (by decide) (either _)
    rw [if_neg (by simpa using dotted), if_neg (by simpa using sigma)]
    by_cases isLatin : c.toNat < 128
    · rw [lowerChar_of_lt isLatin]
      exact Lowered.nil.latin isLatin
    · have isBeyond := Nat.le_of_not_lt isLatin
      exact alone [] isBeyond (isBasic_lowerChar isBeyond)

theorem toLower_of_le {c : Char} (isBeyond : 128 ≤ c.toNat) : c.toLower = c := by
  unfold Char.toLower
  refine dif_neg fun upper => ?_
  have greatest : c.toNat ≤ 90 := upper.2
  omega

/-- **A text ends in lower case in basic characters as it does letter by letter.** -/
theorem Lowered.suffix_iff {word lowered : List Char} (isLowered : Lowered word lowered)
    {ending : List Char} (basic : ∀ c ∈ ending, isBasic c = true) :
    ending <:+ lowered ↔ ending <:+ word.map Char.toLower := by
  induction isLowered generalizing ending with
  | nil => exact Iff.rfl
  | @latin word lowered c _ isLatin ih =>
    rw [List.map_append, List.map_singleton, List.suffix_concat_iff, List.suffix_concat_iff]
    refine or_congr Iff.rfl (exists_congr fun front => and_congr_right fun isEnding => ?_)
    subst isEnding
    exact ih fun d member => basic d (List.mem_append_left _ member)
  | @beyond word lowered front c last _ isBeyond notBasic _ =>
    have none {d : Char} (notBasic : isBasic d = false) {text : List Char} :
        ending <:+ text ++ [d] ↔ ending = [] := by
      rw [List.suffix_concat_iff, or_iff_left]
      rintro ⟨_, rfl, -⟩
      rw [basic d (List.mem_append_right _ List.mem_cons_self)] at notBasic
      cases notBasic
    rw [List.map_append, List.map_singleton, toLower_of_le isBeyond, ← List.append_assoc,
      none notBasic, none (isBasic_eq_false isBeyond)]

end RamlInterfaces.Text
