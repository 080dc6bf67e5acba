/-
**Names made from free text.**

* `toNat_toUpper`, `toNat_toLower`: what a change of case does to the code of a letter;
* `toUpper_toLower`: letters whose case is changed twice;
* `IsPlain`: a name of letters, digits and low lines;
* `IsPlain.notMem`: such a name holds no other character;
* `isPlain_typeName`: **the name of a type is plain**;
* `isLower_of_typeNameChars`: and does not start with a small letter.
-/

import RamlInterfaces.Java.Identifier

namespace RamlInterfaces.Java

/-! ### The case of letters -/

theorem isLower_iff {c : Char} :
    c.isLower = true ↔ 97 ≤ c.val.toNat ∧ c.val.toNat ≤ 122 := by
  show (decide (c.val ≥ 'a'.val) && decide (c.val ≤ 'z'.val)) = true ↔ _
  rw [Bool.and_eq_true, decide_eq_true_iff, decide_eq_true_iff]
  rfl

theorem isUpper_iff {c : Char} :
    c.isUpper = true ↔ 65 ≤ c.val.toNat ∧ c.val.toNat ≤ 90 :=
  decide_eq_true_iff

/-- A character that is no small letter is in upper case. -/
theorem toUpper_eq_self {c : Char} (notLower : c.isLower = false) : c.toUpper = c := by
  unfold Char.toUpper
  refine dif_neg fun lower => ?_
  rw [isLower_iff.mpr lower] at notLower
  cases notLower

/-- A character that is no capital letter is in lower case. -/
theorem toLower_eq_self {c : Char} (notUpper : c.isUpper = false) : c.toLower = c := by
  unfold Char.toLower
  refine dif_neg fun upper => ?_
  rw [isUpper_iff.mpr upper] at notUpper
  cases notUpper

/-- A capital letter stands 32 codes before the small one. -/
theorem toNat_toUpper {c : Char} (lower : c.isLower = true) :
    c.toUpper.val.toNat + 32 = c.val.toNat := by
  have bounds := isLower_iff.mp lower
  unfold Char.toUpper
  rw [dif_pos (show 'a'.val ≤ c.val ∧ c.val ≤ 'z'.val from bounds)]
  show (c.val + ('A'.val - 'a'.val)).toNat + 32 = c.val.toNat
  rw [UInt32.toNat_add, show ('A'.val - 'a'.val).toNat = 2 ^ 32 - 32 from rfl]
  omega

theorem toNat_toLower {c : Char} (upper : c.isUpper = true) :
    c.toLower.val.toNat = c.val.toNat + 32 := by
  have bounds := isUpper_iff.mp upper
  unfold Char.toLower
  rw [dif_pos (show 'A'.val ≤ c.val ∧ c.val ≤ 'Z'.val from bounds)]
  show (c.val + ('a'.val - 'A'.val)).toNat = c.val.toNat + 32
  rw [UInt32.toNat_add, show ('a'.val - 'A'.val).toNat = 32 from rfl]
  omega

theorem isUpper_toUpper {c : Char} (lower : c.isLower = true) : c.toUpper.isUpper = true := by
  have bounds := isLower_iff.mp lower
  have code := toNat_toUpper lower
  exact isUpper_iff.mpr (by omega)

theorem isLower_toLower {c : Char} (upper : c.isUpper = true) : c.toLower.isLower = true := by
  have bounds := isUpper_iff.mp upper
  have code := toNat_toLower upper
  exact isLower_iff.mpr (by omega)

/-- A character in upper case is not in lower case. -/
theorem isLower_toUpper (c : Char) : c.toUpper.isLower = false := by
  cases lower : c.isLower with
  | false =>
    rw [toUpper_eq_self lower]
    exact lower
  | true =>
    refine Bool.eq_false_iff.mpr fun still => ?_
    have bounds := isLower_iff.mp lower
    have code := toNat_toUpper lower
    have least := (isLower_iff.mp still).1
    omega

/-- A letter or digit in upper case is one still. -/
theorem isAlphanum_toUpper {c : Char} (here : c.isAlphanum = true) :
    c.toUpper.isAlphanum = true := by
  cases lower : c.isLower with
  | false =>
    rw [toUpper_eq_self lower]
    exact here
  | true =>
    unfold Char.isAlphanum Char.isAlpha
    rw [isUpper_toUpper lower]
    rfl

/-- A letter in lower case is one still. -/
theorem isAlpha_toLower {c : Char} (letter : c.isAlpha = true) : c.toLower.isAlpha = true := by
  cases upper : c.isUpper with
  | false =>
    rw [toLower_eq_self upper]
    exact letter
  | true => exact Bool.or_eq_true_iff.mpr (.inr (isLower_toLower upper))

/-- A character that is no small letter is itself again in lower and then in upper case. -/
theorem toUpper_toLower {c : Char} (notLower : c.isLower = false) : c.toLower.toUpper = c := by
  cases upper : c.isUpper with
  | false => rw [toLower_eq_self upper, toUpper_eq_self notLower]
  | true =>
    have lowered := toNat_toLower upper
    have raised := toNat_toUpper (isLower_toLower upper)
    exact Char.ext (UInt32.toNat_inj.mp (by omega))

/-! ### Plain names -/

/-- A character of a plain name: an ASCII letter, a digit or a low line. -/
def isPlainChar (c : Char) : Bool := c.isAlphanum || c == '_'

/-- The name holds plain characters only. -/
def IsPlain (name : String) : Prop := ∀ c ∈ name.toList, isPlainChar c = true

instance (name : String) : Decidable (IsPlain name) :=
  decidable_of_iff (name.toList.all isPlainChar = true) List.all_eq_true

theorem IsPlain.notMem {name : String} (plain : IsPlain name) {c : Char}
    (other : isPlainChar c = false) : c ∉ name.toList := by
  intro member
  exact absurd (plain c member) (Bool.eq_false_iff.mp other)

theorem IsPlain.dot_notMem {name : String} (plain : IsPlain name) : '.' ∉ name.toList :=
  plain.notMem rfl

theorem isPlainChar_of_isAlphanum {c : Char} (alphanum : c.isAlphanum = true) :
    isPlainChar c = true := by
  unfold isPlainChar
  rw [alphanum, Bool.true_or]

theorem isAlphanum_of_mem_capitalize {word : List Char}
    (all : ∀ c ∈ word, c.isAlphanum = true) : ∀ c ∈ capitalize word, c.isAlphanum = true := by
  cases word with
  | nil => simp [capitalize]
  | cons first rest =>
    intro c member
    rcases List.mem_cons.mp member with rfl | later
    · exact isAlphanum_toUpper (all first List.mem_cons_self)
    · exact all c (List.mem_cons_of_mem _ later)

theorem isAlphanum_of_mem_capitalized (text : List Char) :
    ∀ c ∈ (words text).flatMap capitalize, c.isAlphanum = true := by
  intro c member
  obtain ⟨word, isWord, inside⟩ := List.mem_flatMap.mp member
  exact isAlphanum_of_mem_capitalize (Text.runs_all Char.isAlphanum _ word isWord) c inside

theorem isPlainChar_of_mem_markDigit {name : List Char}
    (all : ∀ c ∈ name, c.isAlphanum = true) : ∀ c ∈ markDigit name, isPlainChar c = true := by
  have plain : ∀ c ∈ name, isPlainChar c = true := fun c member =>
    isPlainChar_of_isAlphanum (all c member)
  unfold markDigit
  split
  · exact plain
  · split
    · intro c member
      rcases List.mem_cons.mp member with rfl | later
      · rfl
      · exact plain c later
    · exact plain

/-- **The name of a type holds letters, digits and low lines only.** -/
theorem isPlain_typeName (text : String) : IsPlain (typeName text) := by
  unfold IsPlain typeName
  rw [String.toList_ofList]
  exact isPlainChar_of_mem_markDigit (isAlphanum_of_mem_capitalized text.toList)

/-! ### The first character -/

/-- The words of a text, capitalized, do not start with a small letter. -/
theorem isLower_of_capitalized {words : List (List Char)} {first : Char} {rest : List Char}
    (shape : words.flatMap capitalize = first :: rest) : first.isLower = false := by
  induction words with
  | nil => cases shape
  | cons word others ih =>
    cases word with
    | nil => exact ih shape
    | cons start letters =>
      obtain ⟨rfl, -⟩ := List.cons.inj shape
      exact isLower_toUpper start

/-- **The name of a type does not start with a small letter.** -/
theorem isLower_of_typeNameChars {text : List Char} {first : Char} {rest : List Char}
    (shape : typeNameChars text = first :: rest) : first.isLower = false := by
  unfold typeNameChars at shape
  cases capitalized : (words text).flatMap capitalize with
  | nil =>
    rw [capitalized] at shape
    cases shape
  | cons start letters =>
    rw [capitalized] at shape
    unfold markDigit at shape
    dsimp only at shape
    split at shape
    · obtain ⟨rfl, -⟩ := List.cons.inj shape
      rfl
    · obtain ⟨rfl, -⟩ := List.cons.inj shape
      exact isLower_of_capitalized capitalized

end RamlInterfaces.Java
