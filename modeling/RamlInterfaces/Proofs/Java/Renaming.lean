/-
**Names made from names.**

The marks in front of a name, a low line before a digit and a dollar sign before a reserved word,
are no letters, so the words of a name are those that it was made from.  What the name of a type
does to the first letter undoes what the name of a variable did to it.  So names are made from names
as from the texts that those were made from.

* `words_markDigit`, `words_markReserved`, `words_eq_self`: **the words of a marked name**;
* `typeNameChars_typeNameChars`, `typeNameChars_variableNameChars`: **the name of a type, made from
  the name of a type or of a variable**;
* `typeNameChars_eq_cons_iff`: **a name that is one word**;
* `constantNameChars_constantNameChars`: **the name of a constant, made from one**.
-/

import RamlInterfaces.Proofs.Java.Legality
import RamlInterfaces.Proofs.Text.Runs

namespace RamlInterfaces.Java

/-! ### The words of names -/

/-- A word of letters and digits. -/
theorem words_eq_self {word : List Char} (some : word ≠ [])
    (all : ∀ c ∈ word, c.isAlphanum = true) : words word = [word] :=
  Text.runs_eq_self some all

theorem words_cons {c : Char} (other : c.isAlphanum = false) (rest : List Char) :
    words (c :: rest) = words rest :=
  Text.runs_cons_of_none other rest

theorem words_markDigit (name : List Char) : words (markDigit name) = words name := by
  unfold markDigit
  cases name with
  | nil => rfl
  | cons first rest =>
    dsimp only
    split
    · exact words_cons rfl _
    · rfl

theorem words_markReserved (name : List Char) : words (markReserved name) = words name := by
  unfold markReserved
  split
  · exact words_cons rfl _
  · rfl

theorem markDigit_of_notDigit {first : Char} (notDigit : first.isDigit = false)
    (rest : List Char) : markDigit (first :: rest) = first :: rest :=
  if_neg (Bool.eq_false_iff.mp notDigit)

/-- The names of types and constants are made from the words of a text. -/
theorem typeNameChars_congr {text other : List Char} (same : words text = words other) :
    typeNameChars text = typeNameChars other := by
  unfold typeNameChars
  rw [same]

theorem constantNameChars_congr {text other : List Char} (same : words text = words other) :
    constantNameChars text = constantNameChars other := by
  unfold constantNameChars
  rw [same]

/-- The name of a type made from one word. -/
theorem typeNameChars_word {word : List Char} (all : ∀ c ∈ word, c.isAlphanum = true) :
    typeNameChars word = markDigit (capitalize word) := by
  cases word with
  | nil => rfl
  | cons first rest =>
    unfold typeNameChars
    rw [words_eq_self (List.cons_ne_nil first rest) all, List.flatMap_singleton]

/-! ### Names of types -/

/-- The words of a text, capitalized, are so already. -/
theorem capitalize_capitalized (text : List Char) :
    capitalize ((words text).flatMap capitalize) = (words text).flatMap capitalize := by
  cases shape : (words text).flatMap capitalize with
  | nil => rfl
  | cons first rest =>
    show first.toUpper :: rest = first :: rest
    rw [toUpper_eq_self (isLower_of_capitalized shape)]

/-- **The name of a type, made from one, is the same.** -/
theorem typeNameChars_typeNameChars (text : List Char) :
    typeNameChars (typeNameChars text) = typeNameChars text := by
  let name := (words text).flatMap capitalize
  calc typeNameChars (markDigit name) = typeNameChars name :=
        typeNameChars_congr (words_markDigit name)
    _ = markDigit (capitalize name) := typeNameChars_word (isAlphanum_of_mem_capitalized text)
    _ = markDigit name := by rw [capitalize_capitalized]

/-- A letter in front, changed to lower case, is found again in the name of a type. -/
theorem typeNameChars_uncapitalize {first : Char} {rest : List Char}
    (all : ∀ c ∈ first :: rest, c.isAlphanum = true) (notDigit : first.isDigit = false)
    (notLower : first.isLower = false) :
    typeNameChars (uncapitalize (first :: rest)) = first :: rest := by
  obtain ⟨isFirst, others⟩ := List.forall_mem_cons.mp all
  have letter : first.isAlpha = true :=
    (Bool.or_eq_true_iff.mp isFirst).resolve_right (Bool.eq_false_iff.mp notDigit)
  have lower : first.toLower.isAlphanum = true :=
    Bool.or_eq_true_iff.mpr (.inl (isAlpha_toLower letter))
  calc typeNameChars (first.toLower :: rest)
      = markDigit (first.toLower.toUpper :: rest) :=
        typeNameChars_word (List.forall_mem_cons.mpr ⟨lower, others⟩)
    _ = markDigit (first :: rest) := by rw [toUpper_toLower notLower]
    _ = first :: rest := markDigit_of_notDigit notDigit rest

/-- **The name of a type, made from that of a variable, is that made from the text.** -/
theorem typeNameChars_variableNameChars (text : List Char) :
    typeNameChars (variableNameChars text) = typeNameChars text := by
  have unmarked : typeNameChars (variableNameChars text) =
      typeNameChars (uncapitalize (typeNameChars text)) :=
    typeNameChars_congr (words_markReserved _)
  have again := typeNameChars_typeNameChars text
  have all := isAlphanum_of_mem_capitalized text
  rw [unmarked]
  cases shape : (words text).flatMap capitalize with
  | nil =>
    have none : typeNameChars text = [] := congrArg markDigit shape
    rw [none]
    rfl
  | cons first rest =>
    rw [shape] at all
    have name : typeNameChars text = markDigit (first :: rest) := congrArg markDigit shape
    cases digit : first.isDigit with
    | true =>
      -- the low line in front has no case
      have marked : typeNameChars text = '_' :: first :: rest := name.trans (if_pos digit)
      rw [marked] at again ⊢
      exact again
    | false =>
      rw [name, markDigit_of_notDigit digit]
      exact typeNameChars_uncapitalize all digit (isLower_of_capitalized shape)

/-- **A name that is one capitalized word** is made from that word only. -/
theorem typeNameChars_eq_cons_iff {text : List Char} {first : Char} {rest : List Char}
    (unmarked : first ≠ '_') (notDigit : first.isDigit = false)
    (lower : ∀ c ∈ rest, c.isLower = true) :
    typeNameChars text = first :: rest ↔
      ∃ word, words text = [word] ∧ capitalize word = first :: rest := by
  have some := Text.runs_ne_nil Char.isAlphanum text
  constructor
  · intro name
    have capitalized : (words text).flatMap capitalize = first :: rest := by
      unfold typeNameChars at name
      cases shape : (words text).flatMap capitalize with
      | nil =>
        rw [shape] at name
        cases name
      | cons start letters =>
        rw [shape] at name
        cases digit : start.isDigit with
        | true =>
          obtain ⟨isMark, -⟩ := List.cons.inj ((if_pos digit).symm.trans name)
          exact absurd isMark.symm unmarked
        | false => exact (markDigit_of_notDigit digit letters).symm.trans name
    unfold words at capitalized ⊢
    cases found : Text.runs Char.isAlphanum text with
    | nil =>
      rw [found] at capitalized
      cases capitalized
    | cons word others =>
      rw [found] at some capitalized
      cases others with
      | nil => exact ⟨word, rfl, (List.flatMap_singleton capitalize word).symm.trans capitalized⟩
      | cons next more =>
        -- a further word would put a letter that is not small into the rest
        obtain ⟨c, letters, rfl⟩ := List.exists_cons_of_ne_nil
          (some next (List.mem_cons_of_mem word List.mem_cons_self))
        obtain ⟨start, between, rfl⟩ :=
          List.exists_cons_of_ne_nil (some word List.mem_cons_self)
        obtain ⟨-, isRest⟩ := List.cons.inj capitalized
        have inside : c.toUpper ∈ rest := by
          rw [← isRest]
          exact List.mem_append_right between List.mem_cons_self
        exact absurd (lower _ inside) (Bool.eq_false_iff.mp (isLower_toUpper c))
  · rintro ⟨word, single, name⟩
    unfold typeNameChars
    rw [single, List.flatMap_singleton, name, markDigit_of_notDigit notDigit]

/-! ### Names of constants -/

/-- **The name of a constant, made from one, is the same.** -/
theorem constantNameChars_constantNameChars (literal : List Char) :
    constantNameChars (constantNameChars literal) = constantNameChars literal := by
  have found : words (Text.join ['_'] (words literal)) = words literal :=
    Text.runs_join rfl (Text.runs_ne_nil Char.isAlphanum literal)
      (Text.runs_all Char.isAlphanum literal)
  cases shape : Text.join ['_'] (words literal) with
  | nil =>
    have name : constantNameChars literal = ['V', 'A', 'L', 'U', 'E'] := by
      unfold constantNameChars
      rw [shape]
    rw [name]
    decide
  | cons first rest =>
    have name : constantNameChars literal = markReserved (markDigit (first :: rest)) := by
      unfold constantNameChars
      rw [shape]
    rw [shape] at found
    refine constantNameChars_congr ?_
    rw [name, words_markReserved, words_markDigit, found]

end RamlInterfaces.Java
