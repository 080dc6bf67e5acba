/-
**Integer literals.**

A literal without a suffix is one of type `int`, and one with the suffix `L` is one of type `long`.
A minus sign in front is an operator, and the power of two that a type just fails to hold may stand
behind it.  An element of type `long` takes an `int` as well, but an element of type `int` takes no
`long`.

* `IntegerType`: the types, and the integers that they hold;
* `IsLiteral`, `Denotes`: literals, and what a literal denotes with or without a sign;
* `Takes`: what an element of a type takes;
* `takes_integerLiteral_iff`: **when the literal of an integer is legal for an element**.
-/

import RamlInterfaces.Java.Literal
import RamlInterfaces.Proofs.Number.Digits

namespace RamlInterfaces.Java

/-- The types of integers that an element of an annotation may have. -/
inductive IntegerType where
  | int
  | long
deriving DecidableEq

/-- The least natural number that the type does not hold. -/
def IntegerType.bound : IntegerType → Nat
  | .int => 2 ^ 31
  | .long => 2 ^ 63

/-- The digits are those of a number without zeros in front. -/
structure IsNumeral (digits : List Char) (n : Nat) : Prop where
  denotes : Number.ofDigits? 10 digits = some n
  noZeros : n = 0 ∨ digits.head? ≠ some '0'

/-- The text is a literal of a type, of a number that may be too large for it. -/
inductive IsLiteral : IntegerType → List Char → Nat → Prop where
  | plain {digits : List Char} {n : Nat} (numeral : IsNumeral digits n) : IsLiteral .int digits n
  | suffixed {digits : List Char} {n : Nat} (numeral : IsNumeral digits n) :
    IsLiteral .long (digits ++ ['L']) n

/-- The text is legal as an integer of a type. -/
inductive Denotes : IntegerType → List Char → Int → Prop where
  | positive {type : IntegerType} {text : List Char} {n : Nat} (isLiteral : IsLiteral type text n)
    (fits : n < type.bound) : Denotes type text n
  | negative {type : IntegerType} {text : List Char} {n : Nat} (isLiteral : IsLiteral type text n)
    (fits : n ≤ type.bound) : Denotes type ('-' :: text) (-(n : Int))

/-- An element of a type takes the text as an integer. -/
inductive Takes : IntegerType → List Char → Int → Prop where
  | same {type : IntegerType} {text : List Char} {n : Int} (denotes : Denotes type text n) :
    Takes type text n
  | widened {text : List Char} {n : Int} (denotes : Denotes .int text n) : Takes .long text n

/-- The integers that an element takes as they are written: those of its type, of which the least
`int` has a suffix. -/
def IntegerType.Admits : IntegerType → Int → Prop
  | .int, n => -2 ^ 31 < n ∧ n < 2 ^ 31
  | .long, n => -2 ^ 63 ≤ n ∧ n < 2 ^ 63

/-! ### Numerals -/

variable {n k : Nat} {digits text : List Char} {type : IntegerType}

theorem isNumeral_decimal (n : Nat) : IsNumeral (Number.decimal n) n where
  denotes := Number.ofDigits?_toDigits (by decide) (by decide) n
  noZeros := by
    by_cases isZero : n = 0
    · exact .inl isZero
    · exact .inr (Number.head?_toDigits (by decide) (by decide) isZero)

theorem IsNumeral.unique {other : Nat} (numeral : IsNumeral digits n)
    (again : IsNumeral digits other) : n = other :=
  Option.some.inj (numeral.denotes.symm.trans again.denotes)

/-- The digits of a numeral have values below ten. -/
theorem IsNumeral.digitValue_lt (numeral : IsNumeral digits n) {c : Char} (member : c ∈ digits) :
    ∃ digit < 10, Number.digitValue c = some digit := by
  have each {value result : Nat} {digits : List Char}
      (done : Number.extendDigits? 10 value digits = some result) :
      ∀ c ∈ digits, ∃ digit < 10, Number.digitValue c = some digit := by
    induction digits generalizing value with
    | nil => exact fun c member => absurd member List.not_mem_nil
    | cons c rest ih =>
      rw [Number.extendDigits?] at done
      split at done
      · rename_i digit isDigit
        split at done
        · exact List.forall_mem_cons.mpr ⟨⟨digit, ‹_›, isDigit⟩, ih done⟩
        · cases done
      · cases done
  have denotes := numeral.denotes
  unfold Number.ofDigits? at denotes
  split at denotes
  · cases denotes
  · exact each denotes c member

/-- A numeral has no sign and no suffix. -/
theorem IsNumeral.notMem (numeral : IsNumeral digits n) : '-' ∉ digits ∧ 'L' ∉ digits := by
  constructor
  · intro member
    obtain ⟨digit, _, isDigit⟩ := numeral.digitValue_lt member
    cases isDigit
  · intro member
    obtain ⟨digit, small, isDigit⟩ := numeral.digitValue_lt member
    obtain rfl : 21 = digit := Option.some.inj isDigit
    exact absurd small (by decide)

/-! ### Literals -/

/-- The type of the literal of a number. -/
def literalType (n : Nat) : IntegerType := if maxPlainInteger < n then .long else .int

/-- The literal of a number, without a sign. -/
def naturalLiteral (n : Nat) : List Char :=
  Number.decimal n ++ if maxPlainInteger < n then ['L'] else []

/-- The literal of an integer, whether or not it can be written. -/
def integerLiteral (n : Int) : List Char :=
  (if n < 0 then ['-'] else []) ++ naturalLiteral n.natAbs

/-- **An integer has its literal unless it has too many digits to be written.** -/
theorem integerLiteral?_eq_some_iff {n : Int} :
    integerLiteral? n = some text ↔ Number.HasDecimals n ∧ integerLiteral n = text := by
  have sameText : Number.decimalInt n ++ (if maxPlainInteger < n.natAbs then ['L'] else []) =
      integerLiteral n := by
    unfold integerLiteral Number.decimalInt naturalLiteral
    split <;> rfl
  unfold integerLiteral?
  rw [Option.map_eq_some_iff]
  constructor
  · rintro ⟨digits, isWritten, rfl⟩
    obtain ⟨hasDecimals, rfl⟩ := Number.decimalInt?_eq_some_iff.mp isWritten
    exact ⟨hasDecimals, sameText.symm⟩
  · rintro ⟨hasDecimals, rfl⟩
    exact ⟨_, Number.decimalInt?_eq_some_iff.mpr ⟨hasDecimals, rfl⟩, sameText⟩

/-- An integer that an element takes can be written. -/
theorem IntegerType.Admits.hasDecimals {n : Int} (admits : type.Admits n) :
    Number.HasDecimals n := by
  have few : n.natAbs < 10 ^ 20 := by
    unfold IntegerType.Admits at admits
    cases type <;> (dsimp only at admits; omega)
  exact few.trans_le (Nat.pow_le_pow_right (by decide) (by decide))

theorem notMem_of_isLiteral (isLiteral : IsLiteral type text n) : '-' ∉ text := by
  cases isLiteral with
  | plain numeral => exact numeral.notMem.1
  | suffixed numeral =>
    rw [List.mem_append, List.mem_singleton]
    rintro (member | same)
    · exact numeral.notMem.1 member
    · cases same

/-- **The literal of a number is one of its type**, and of no other number or type. -/
theorem isLiteral_naturalLiteral_iff :
    IsLiteral type (naturalLiteral n) k ↔ k = n ∧ type = literalType n := by
  have numeral := isNumeral_decimal n
  unfold naturalLiteral literalType
  split
  · constructor
    · intro isLiteral
      generalize isText : Number.decimal n ++ ['L'] = text at isLiteral
      cases isLiteral with
      | plain suffixed => exact absurd (isText ▸ List.mem_concat_self) suffixed.notMem.2
      | @suffixed digits k other =>
        rw [← List.append_cancel_right isText] at other
        exact ⟨other.unique numeral, rfl⟩
    · rintro ⟨rfl, rfl⟩
      exact .suffixed numeral
  · rw [List.append_nil]
    constructor
    · intro isLiteral
      generalize isText : Number.decimal n = text at isLiteral numeral
      cases isLiteral with
      | plain other => exact ⟨other.unique numeral, rfl⟩
      | @suffixed digits k other => exact absurd List.mem_concat_self numeral.notMem.2
    · rintro ⟨rfl, rfl⟩
      exact .plain numeral

/-- **What the literal of an integer denotes**: the integer, where its type holds it. -/
theorem denotes_integerLiteral_iff {n m : Int} : Denotes type (integerLiteral n) m ↔
    m = n ∧ type = literalType n.natAbs ∧ -(type.bound : Int) ≤ n ∧ n < type.bound := by
  have noSign : '-' ∉ naturalLiteral n.natAbs :=
    notMem_of_isLiteral (isLiteral_naturalLiteral_iff.mpr ⟨rfl, rfl⟩)
  unfold integerLiteral
  by_cases negative : n < 0
  · rw [if_pos negative]
    constructor
    · rintro (⟨isLiteral, fits⟩ | ⟨isLiteral, fits⟩)
      · exact absurd List.mem_cons_self (notMem_of_isLiteral isLiteral)
      · obtain ⟨rfl, isType⟩ := isLiteral_naturalLiteral_iff.mp isLiteral
        exact ⟨by omega, isType, by omega, by omega⟩
    · rintro ⟨rfl, isType, least, -⟩
      have fits : m.natAbs ≤ type.bound := by omega
      have denoted := Denotes.negative (isLiteral_naturalLiteral_iff.mpr ⟨rfl, isType⟩) fits
      rwa [Int.ofNat_natAbs_of_nonpos (Int.le_of_lt negative), Int.neg_neg] at denoted
  · rw [if_neg negative, List.nil_append]
    constructor
    · intro denotes
      generalize isText : naturalLiteral n.natAbs = text at denotes
      cases denotes with
      | positive isLiteral fits =>
        rw [← isText] at isLiteral
        obtain ⟨rfl, isType⟩ := isLiteral_naturalLiteral_iff.mp isLiteral
        exact ⟨by omega, isType, by omega, by omega⟩
      | negative => exact absurd (isText ▸ List.mem_cons_self) noSign
    · rintro ⟨rfl, isType, -, greatest⟩
      have fits : m.natAbs < type.bound := by omega
      have denoted := Denotes.positive (isLiteral_naturalLiteral_iff.mpr ⟨rfl, isType⟩) fits
      rwa [Int.natAbs_of_nonneg (Int.not_lt.mp negative)] at denoted

/-- **When the literal of an integer is legal for an element of a type.** -/
theorem takes_integerLiteral_iff {n m : Int} :
    Takes type (integerLiteral n) m ↔ m = n ∧ type.Admits n := by
  have short : literalType n.natAbs = .int ↔ n.natAbs < 2 ^ 31 := by
    unfold literalType maxPlainInteger
    split <;> simp <;> omega
  have asInt : Denotes .int (integerLiteral n) m ↔ m = n ∧ n.natAbs < 2 ^ 31 := by
    rw [denotes_integerLiteral_iff, eq_comm (a := IntegerType.int), short, IntegerType.bound]
    omega
  have asLong : Denotes .long (integerLiteral n) m ↔
      m = n ∧ ¬ n.natAbs < 2 ^ 31 ∧ -2 ^ 63 ≤ n ∧ n < 2 ^ 63 := by
    have long : IntegerType.long = literalType n.natAbs ↔ ¬ n.natAbs < 2 ^ 31 := by
      rw [← short]
      cases literalType n.natAbs <;> simp
    rw [denotes_integerLiteral_iff, long, IntegerType.bound]
    omega
  constructor
  · rintro (⟨denotes⟩ | ⟨denotes⟩)
    · cases type with
      | int =>
        have fits := asInt.mp denotes
        unfold IntegerType.Admits
        omega
      | long =>
        have fits := asLong.mp denotes
        unfold IntegerType.Admits
        omega
    · have fits := asInt.mp denotes
      unfold IntegerType.Admits
      omega
  · rintro ⟨same, admits⟩
    unfold IntegerType.Admits at admits
    cases type with
    | int => exact .same (asInt.mpr ⟨same, by omega⟩)
    | long =>
      by_cases few : n.natAbs < 2 ^ 31
      · exact .widened (asInt.mpr ⟨same, few⟩)
      · exact .same (asLong.mpr ⟨same, few, admits⟩)

end RamlInterfaces.Java
