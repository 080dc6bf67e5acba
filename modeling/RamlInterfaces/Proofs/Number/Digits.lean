/-
**Digits denote the number that they are of.**

* `digitValue_digitChar`: the value of a digit;
* `extendDigits?_append`, `extendDigits?_toDigits`: digits behind what was read before;
* `ofDigits?_toDigits`: **the digits of a number denote it**, in any base of at most sixteen;
* `head?_toDigits`: only zero starts with the digit zero;
* `HasDecimals`, `decimalInt?_eq_some_iff`: **the integers that can be written**.
-/

import Mathlib.Data.Nat.Digits.Defs
import RamlInterfaces.Number.Digits

namespace RamlInterfaces.Number

variable {base digit : Nat}

theorem digitValue_digitChar : ∀ digit < 16, digitValue (Nat.digitChar digit) = some digit := by
  decide

theorem extendDigits?_append (base value : Nat) (front back : List Char) :
    extendDigits? base value (front ++ back) =
      (extendDigits? base value front).bind (extendDigits? base · back) := by
  induction front generalizing value with
  | nil => rfl
  | cons c rest ih =>
    rw [List.cons_append, extendDigits?, extendDigits?]
    cases digitValue c with
    | none => rfl
    | some digit =>
      dsimp only
      split
      · exact ih _
      · rfl

theorem extendDigits?_digitChar (isBase : base ≤ 16) (small : digit < base) (value : Nat) :
    extendDigits? base value [Nat.digitChar digit] = some (value * base + digit) := by
  rw [extendDigits?, digitValue_digitChar digit (Nat.lt_of_lt_of_le small isBase)]
  exact if_pos small

/-- The digits of a number extend what was read before them. -/
theorem extendDigits?_toDigits (many : 1 < base) (isBase : base ≤ 16) (n value : Nat) :
    extendDigits? base value (Nat.toDigits base n) =
      some (value * base ^ (Nat.toDigits base n).length + n) := by
  induction n using Nat.strong_induction_on with
  | _ n ih =>
    by_cases small : n < base
    · rw [Nat.toDigits_of_lt_base small, extendDigits?_digitChar isBase small,
        List.length_singleton, Nat.pow_one]
    · have large : base ≤ n := Nat.le_of_not_lt small
      have fewer : n / base < n := Nat.div_lt_self (by omega) many
      have last : n % base < base := Nat.mod_lt n (by omega)
      have whole : n / base * base + n % base = n := Nat.div_add_mod' n base
      rw [Nat.toDigits_of_base_le many large, extendDigits?_append, ih (n / base) fewer,
        Option.bind_some, extendDigits?_digitChar isBase last, List.length_append,
        List.length_singleton, Nat.pow_succ, ← Nat.mul_assoc, Nat.add_mul, Nat.add_assoc, whole]

/-- **The digits of a number denote it.** -/
theorem ofDigits?_toDigits (many : 1 < base) (isBase : base ≤ 16) (n : Nat) :
    ofDigits? base (Nat.toDigits base n) = some n := by
  have nonempty : (Nat.toDigits base n).isEmpty = false :=
    List.isEmpty_eq_false_iff.mpr Nat.toDigits_ne_nil
  unfold ofDigits?
  rw [nonempty, extendDigits?_toDigits many isBase, Nat.zero_mul, Nat.zero_add]
  rfl

/-- Only the digits of zero start with a zero. -/
theorem head?_toDigits (many : 1 < base) (isBase : base ≤ 16) {n : Nat} (nonzero : n ≠ 0) :
    (Nat.toDigits base n).head? ≠ some '0' := by
  induction n using Nat.strong_induction_on with
  | _ n ih =>
    by_cases small : n < base
    · have other : ∀ digit < 16, digit ≠ 0 → Nat.digitChar digit ≠ '0' := by decide
      rw [Nat.toDigits_of_lt_base small, List.head?_cons]
      exact fun same => other n (Nat.lt_of_lt_of_le small isBase) nonzero (Option.some.inj same)
    · have large : base ≤ n := Nat.le_of_not_lt small
      have fewer : n / base < n := Nat.div_lt_self (by omega) many
      have nonzero : n / base ≠ 0 := Nat.pos_iff_ne_zero.mp (Nat.div_pos large (by omega))
      have some : Nat.toDigits base (n / base) ≠ [] := Nat.toDigits_ne_nil
      obtain ⟨first, rest, front⟩ := List.exists_cons_of_ne_nil some
      have here := ih (n / base) fewer nonzero
      rw [front] at here
      rw [Nat.toDigits_of_base_le many large, front]
      exact here

/-! ### Integers with not too many digits -/

theorem lt_pow_length_toDigits (many : 1 < base) (n : Nat) :
    n < base ^ (Nat.toDigits base n).length := by
  induction n using Nat.strong_induction_on with
  | _ n ih =>
    by_cases small : n < base
    · rwa [Nat.toDigits_of_lt_base small, List.length_singleton, Nat.pow_one]
    · have large : base ≤ n := Nat.le_of_not_lt small
      have fewer := ih (n / base) (Nat.div_lt_self (by omega) many)
      rw [Nat.toDigits_of_base_le many large, List.length_append, List.length_singleton,
        Nat.pow_succ]
      exact (Nat.div_lt_iff_lt_mul (by omega)).mp fewer

/-- The integer has not too many digits to be written. -/
def HasDecimals (n : Int) : Prop := n.natAbs < 10 ^ decimalSpan

theorem length_decimal_le_iff (n : Nat) : (decimal n).length ≤ decimalSpan ↔
    n < 10 ^ decimalSpan := by
  constructor
  · intro few
    exact Nat.lt_of_lt_of_le (lt_pow_length_toDigits (by decide) n)
      (Nat.pow_le_pow_right (by decide) few)
  · exact Nat.toDigits_length 10 n decimalSpan (by decide)

/-- **An integer is written exactly if it has not too many digits.** -/
theorem decimalInt?_eq_some_iff {n : Int} {cs : List Char} :
    decimalInt? n = some cs ↔ HasDecimals n ∧ decimalInt n = cs := by
  unfold decimalInt? HasDecimals
  rw [Option.ite_none_right_eq_some, length_decimal_le_iff, Option.some_inj]

theorem decimalInt?_eq_none_iff {n : Int} : decimalInt? n = none ↔ ¬ HasDecimals n := by
  unfold decimalInt? HasDecimals
  rw [← length_decimal_le_iff]
  split <;> simp_all

/-- The least integer of too many digits. -/
def vast : Int := ((10 ^ decimalSpan : Nat) : Int)

theorem not_hasDecimals_vast : ¬ HasDecimals vast := Nat.lt_irrefl _

end RamlInterfaces.Number
