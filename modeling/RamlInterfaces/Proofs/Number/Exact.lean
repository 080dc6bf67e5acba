/-
**What a floating-point number is exactly.**

A finite number is a rational number, and the integers next to it are those next to the rational
number.  The greatest one has 53 ones in binary, and 971 zeros after them; integers below the middle
of it and the power of two above it are nearest to a finite number.  The number nearest to an
integer is an integer: up to 53 binary digits are kept, and what is behind them is rounded to even.

* `roundHalfEven_cases`, `roundHalfEven_lt`: how a quotient is rounded;
* `IsInRange`, `exists_ofInt`: **integers in the range are nearest to finite numbers**;
* `value?`, `floor?_eq`, `ceil?_eq`: the exact value, and the integers below and above it;
* `nearestNat`, `value?_ofInt`: **the value of the number nearest to an integer**;
* `nearestNat_lt_iff`, `nearestNat_le_iff`, `nearestInt_fits_iff`: the integers that are rounded to
  less than a power of two, to no more, and to 64 bits;
* `IsRepresentable`, `nearestInt_eq_self_iff`: **the integers that are kept as they are**.
-/

import Mathlib.Data.Rat.Floor
import RamlInterfaces.Number.Binary64

namespace RamlInterfaces.Binary64

/-! ### Integers in the range of the finite numbers -/

/-- The integer is less than the one that is half a unit above the greatest number: 54 ones in
binary, and 970 zeros after them. -/
def IsInRange (n : Int) : Prop := n.natAbs < (1 <<< 54 - 1) * 1 <<< 970

/-- **A quotient is rounded down below its middle and up above it**; in the middle the even number
is taken. -/
theorem roundHalfEven_cases (num den : Nat) :
    (2 * (num % den) < den ∨ 2 * (num % den) = den ∧ num / den % 2 = 0) ∧
        roundHalfEven num den = num / den ∨
      (den < 2 * (num % den) ∨ 2 * (num % den) = den ∧ num / den % 2 = 1) ∧
        roundHalfEven num den = num / den + 1 := by
  unfold roundHalfEven
  dsimp only
  split
  · rename_i less
    exact .inl ⟨.inl less, rfl⟩
  · split
    · rename_i more
      exact .inr ⟨.inl more, rfl⟩
    · have middle : 2 * (num % den) = den := by omega
      split
      · rename_i even
        exact .inl ⟨.inr ⟨middle, even⟩, rfl⟩
      · rename_i odd
        exact .inr ⟨.inr ⟨middle, Nat.mod_two_ne_zero.mp odd⟩, rfl⟩

/-- A quotient that is more than a half below a bound is rounded to less than the bound. -/
theorem roundHalfEven_lt {num den bound : Nat} (below : 2 * num + den < 2 * (den * bound)) :
    roundHalfEven num den < bound := by
  have whole : den * (num / den) + num % den = num := Nat.div_add_mod num den
  have few : num / den < bound := by
    refine Nat.lt_of_mul_lt_mul_left (a := den) ?_
    omega
  have fewer (much : den ≤ 2 * (num % den)) : num / den + 1 < bound := by
    refine Nat.lt_of_mul_lt_mul_left (a := den) ?_
    have next : den * (num / den + 1) = den * (num / den) + den := Nat.mul_succ den (num / den)
    omega
  rcases roundHalfEven_cases num den with ⟨-, down⟩ | ⟨much, up⟩
  · rw [down]
    exact few
  · rw [up]
    exact fewer (by omega)

theorem binaryMagnitude_one {n : Nat} (nonzero : n ≠ 0) : binaryMagnitude n 1 = n.log2 := by
  have least : ¬ n < 1 <<< n.log2 := by
    rw [Nat.one_shiftLeft]
    exact Nat.not_lt.mpr (Nat.log2_self_le nonzero)
  have one : Nat.log2 1 = 0 := by decide
  unfold binaryMagnitude scaleDown
  simp [one, least]

theorem log2_lt_of_lt_mul {n ones zeros : Nat} (nonzero : n ≠ 0)
    (below : n < (1 <<< ones - 1) * 1 <<< zeros) : n.log2 < ones + zeros := by
  refine (Nat.log2_lt nonzero).mpr (Nat.lt_of_lt_of_le below ?_)
  rw [Nat.pow_add, Nat.one_shiftLeft, Nat.one_shiftLeft]
  exact Nat.mul_le_mul_right _ (Nat.sub_le _ _)

/-- **An integer in the range is nearest to a finite number.** -/
theorem exists_ofInt {n : Int} (inRange : IsInRange n) :
    ∃ significand exponent, ofInt n = .finite (n < 0) significand exponent := by
  unfold ofInt ofRatio
  by_cases isZero : n.natAbs = 0
  · rw [if_pos isZero]
    exact ⟨0, minExponent, rfl⟩
  have magnitude : n.natAbs.log2 < 54 + 970 := log2_lt_of_lt_mul isZero inRange
  have exponent : max minExponent ((n.natAbs.log2 : Int) - 52) = n.natAbs.log2 - 52 := by
    unfold minExponent
    omega
  rw [if_neg isZero, binaryMagnitude_one isZero, exponent]
  refine ⟨_, _, if_neg ?_⟩
  by_cases greatest : n.natAbs.log2 = 1023
  · -- only here a carry would lead beyond the greatest exponent
    have noCarry : roundHalfEven (scaleDown n.natAbs 1 (n.natAbs.log2 - 52)).1
        (scaleDown n.natAbs 1 (n.natAbs.log2 - 52)).2 ≠ 1 <<< 53 := by
      refine Nat.ne_of_lt (roundHalfEven_lt ?_)
      rw [greatest]
      show 2 * n.natAbs + 1 <<< 971 < 2 * (1 <<< 971 * 1 <<< 53)
      have double : 1 <<< 971 = 2 * 1 <<< 970 := Nat.shiftLeft_succ 1 970
      have ones : 1 <<< 54 - 1 = 18014398509481983 := rfl
      unfold IsInRange at inRange
      rw [ones] at inRange
      rw [double]
      generalize 1 <<< 970 = half at inRange ⊢
      omega
    rw [if_neg noCarry, greatest]
    decide
  · unfold maxExponent
    split <;> omega

/-! ### Exact values -/

/-- The rational number that a finite number is. -/
def value? : Binary64 → Option ℚ
  | .finite negative significand exponent => some (signed negative significand * 2 ^ exponent)
  | .nan | .infinite _ => none

theorem signed_mul (negative : Bool) (m n : Nat) :
    signed negative (m * n) = signed negative m * n := by
  cases negative <;> simp [signed]

theorem shiftLeft_value (negative : Bool) (significand : Nat) {exponent : Int}
    (positive : 0 ≤ exponent) :
    ((signed negative (significand <<< exponent.toNat) : Int) : ℚ) =
      signed negative significand * 2 ^ exponent := by
  obtain ⟨power, rfl⟩ := Int.eq_ofNat_of_zero_le positive
  rw [Int.toNat_natCast, Nat.shiftLeft_eq, signed_mul, zpow_natCast]
  push_cast
  rfl

theorem shiftRight_value (n : Int) {exponent : Int} (negative : ¬ 0 ≤ exponent) :
    n >>> (-exponent).toNat = ⌊(n : ℚ) * 2 ^ exponent⌋ := by
  obtain ⟨power, same⟩ := Int.eq_ofNat_of_zero_le (by omega : 0 ≤ -exponent)
  obtain rfl : exponent = -(power : Int) := by omega
  rw [Int.neg_neg, Int.toNat_natCast, Int.shiftRight_eq_div_pow, zpow_neg, zpow_natCast,
    ← div_eq_mul_inv, ← Rat.floor_intCast_div_natCast]
  push_cast
  rfl

/-- **The integer below a number** is the one below its value. -/
theorem floor?_eq (x : Binary64) : x.floor? = x.value?.map Int.floor := by
  cases x with
  | finite negative significand exponent =>
    unfold floor? value?
    dsimp only
    split
    · rw [← shiftLeft_value negative significand ‹_›, Option.map_some, Int.floor_intCast]
    · rw [shiftRight_value _ ‹_›, Option.map_some]
  | _ => rfl

/-- **The integer above a number** is the one above its value. -/
theorem ceil?_eq (x : Binary64) : x.ceil? = x.value?.map Int.ceil := by
  cases x with
  | finite negative significand exponent =>
    unfold ceil? value?
    dsimp only
    split
    · rw [← shiftLeft_value negative significand ‹_›, Option.map_some, Int.ceil_intCast]
    · rw [shiftRight_value _ ‹_›, Option.map_some, Int.cast_neg, neg_mul, Int.floor_neg,
        Int.neg_neg]
  | _ => rfl

/-! ### The number nearest to an integer -/

/-- The natural number that is kept of one: the nearest multiple of the unit of its last digit. -/
def nearestNat (n : Nat) : Nat := roundHalfEven n (2 ^ (n.log2 - 52)) * 2 ^ (n.log2 - 52)

/-- The integer that is kept of one. -/
def nearestInt (n : Int) : Int := signed (n < 0) (nearestNat n.natAbs)

theorem nearestInt_eq (n : Int) :
    nearestInt n = if n < 0 then -(nearestNat n.natAbs : Int) else nearestNat n.natAbs := by
  unfold nearestInt signed
  by_cases negative : n < 0
  · rw [decide_eq_true negative, if_pos rfl, if_pos negative]
  · rw [decide_eq_false negative, if_neg Bool.false_ne_true, if_neg negative]

theorem roundHalfEven_mul {den : Nat} (positive : 0 < den) (n : Nat) :
    roundHalfEven (den * n) den = n := by
  have rounded := roundHalfEven_cases (den * n) den
  rw [Nat.mul_mod_right, Nat.mul_div_cancel_left n positive] at rounded
  omega

theorem roundHalfEven_one (n : Nat) : roundHalfEven n 1 = n := by
  have whole := roundHalfEven_mul Nat.one_pos n
  rwa [Nat.one_mul] at whole

/-- The digits that are kept of an integer, with the weight of the last one. -/
theorem roundHalfEven_scaleDown (n : Nat) :
    (roundHalfEven (scaleDown n 1 (n.log2 - 52)).1 (scaleDown n 1 (n.log2 - 52)).2 : ℚ) *
      2 ^ ((n.log2 : Int) - 52) = nearestNat n := by
  unfold scaleDown nearestNat
  by_cases long : 52 ≤ n.log2
  · obtain ⟨further, same⟩ := Nat.exists_eq_add_of_le long
    have exponent : ((n.log2 : Int) - 52) = (further : Nat) := by omega
    rw [exponent, if_pos (Int.natCast_nonneg _), same, Nat.add_sub_cancel_left, Int.toNat_natCast,
      Nat.one_shiftLeft, zpow_natCast]
    push_cast
    rfl
  · obtain ⟨missing, same⟩ := Nat.exists_eq_add_of_le (Nat.le_of_not_le long)
    have exponent : ((n.log2 : Int) - 52) = -(missing : Int) := by omega
    have nonzero : (2 : ℚ) ^ missing ≠ 0 := pow_ne_zero _ two_ne_zero
    by_cases whole : missing = 0
    · omega
    rw [exponent, if_neg (by omega), Nat.sub_eq_zero_of_le (Nat.le_of_not_le long), Int.neg_neg,
      Int.toNat_natCast, Nat.shiftLeft_eq, Nat.pow_zero, roundHalfEven_one, roundHalfEven_one,
      zpow_neg, zpow_natCast]
    push_cast
    rw [mul_assoc, mul_inv_cancel₀ nonzero]

/-- A carry moves the unit of a quotient that is rounded to a finite number by one place. -/
theorem value?_ofRatio {negative : Bool} {num den rounded : Nat} {unit : Int} (nonzero : num ≠ 0)
    (isUnit : max minExponent (binaryMagnitude num den - 52) = unit)
    (isRounded : roundHalfEven (scaleDown num den unit).1 (scaleDown num den unit).2 = rounded)
    (bounded : ofRatio negative num den ≠ .infinite negative) :
    (ofRatio negative num den).value? = some ((signed negative rounded : ℚ) * 2 ^ unit) := by
  unfold ofRatio at bounded ⊢
  rw [if_neg nonzero] at bounded ⊢
  dsimp only at bounded ⊢
  rw [isUnit, isRounded] at bounded ⊢
  by_cases carried : rounded = 1 <<< 53
  · rw [if_pos carried] at bounded ⊢
    split at bounded
    · exact absurd rfl bounded
    rw [if_neg ‹_›, if_pos carried, carried]
    have moved : (signed negative (1 <<< 52) : ℚ) * (2 : ℚ) ^ (unit + 1) =
        signed negative (1 <<< 53) * (2 : ℚ) ^ unit := by
      have twice : signed negative (1 <<< 53) = 2 * signed negative (1 <<< 52) := by
        cases negative <;> rfl
      rw [zpow_add_one₀ two_ne_zero, twice]
      push_cast
      ring
    exact congrArg some moved
  · rw [if_neg carried] at bounded ⊢
    split at bounded
    · exact absurd rfl bounded
    rw [if_neg ‹_›, if_neg carried]
    rfl

/-- **The value of the number nearest to an integer**, unless that is an infinity. -/
theorem value?_ofInt {n : Int} (bounded : ∀ negative, ofInt n ≠ .infinite negative) :
    (ofInt n).value? = some (nearestInt n : ℚ) := by
  by_cases isZero : n.natAbs = 0
  · rw [Int.natAbs_eq_zero.mp isZero]
    simp [ofInt, ofRatio, zero, value?, signed, nearestInt, nearestNat, roundHalfEven]
  have unit : max minExponent (binaryMagnitude n.natAbs 1 - 52) = n.natAbs.log2 - 52 := by
    rw [binaryMagnitude_one isZero]
    unfold minExponent
    omega
  have value := roundHalfEven_scaleDown n.natAbs
  unfold ofInt at bounded ⊢
  rw [value?_ofRatio isZero unit rfl (bounded _)]
  unfold nearestInt
  congr 1
  cases decide (n < 0)
  · exact_mod_cast value
  · rw [signed, if_pos rfl, signed, if_pos rfl]
    push_cast
    rw [neg_mul, value]

/-! ### What is kept of an integer -/

variable {n num den bound place : Nat}

theorem roundHalfEven_near (num den : Nat) :
    num / den ≤ roundHalfEven num den ∧ roundHalfEven num den ≤ num / den + 1 := by
  have rounded := roundHalfEven_cases num den
  omega

/-- What is kept of a number has as many digits, unless it is the next power of two. -/
theorem nearestNat_near (nonzero : n ≠ 0) :
    2 ^ n.log2 ≤ nearestNat n ∧ nearestNat n ≤ 2 ^ (n.log2 + 1) := by
  have least : 2 ^ n.log2 ≤ n := Nat.log2_self_le nonzero
  have greatest : n < 2 ^ (n.log2 + 1) := Nat.lt_log2_self
  obtain ⟨below, above⟩ := roundHalfEven_near n (2 ^ (n.log2 - 52))
  unfold nearestNat
  by_cases long : 52 ≤ n.log2
  · obtain ⟨further, same⟩ := Nat.exists_eq_add_of_le long
    have unit : n.log2 - 52 = further := by omega
    have positive : 0 < 2 ^ further := Nat.two_pow_pos further
    rw [unit] at below above ⊢
    rw [same, Nat.pow_add] at least
    rw [same, Nat.add_right_comm, Nat.pow_add] at greatest
    rw [same, Nat.add_right_comm, Nat.pow_add, Nat.pow_add]
    have digits : 2 ^ 52 ≤ n / 2 ^ further := (Nat.le_div_iff_mul_le positive).mpr least
    have noMore : n / 2 ^ further < 2 ^ (52 + 1) := (Nat.div_lt_iff_lt_mul positive).mpr greatest
    exact ⟨Nat.mul_le_mul_right _ (Nat.le_trans digits below),
      Nat.mul_le_mul_right _ (Nat.le_trans above noMore)⟩
  · rw [Nat.sub_eq_zero_of_le (Nat.le_of_not_le long), Nat.pow_zero, roundHalfEven_one, Nat.mul_one]
    exact ⟨least, Nat.le_of_lt greatest⟩

/-- A quotient is rounded to less than an even bound when it is more than a half below it. -/
theorem roundHalfEven_lt_iff (positive : 0 < den) (even : bound % 2 = 0) :
    roundHalfEven num den < bound ↔ 2 * num + den < 2 * (den * bound) := by
  refine ⟨fun below => ?_, roundHalfEven_lt⟩
  have whole : den * (num / den) + num % den = num := Nat.div_add_mod num den
  have rest : num % den < den := Nat.mod_lt num positive
  have near := (roundHalfEven_near num den).1
  rcases Nat.lt_or_ge (num / den + 1) bound with far | close
  · have step := Nat.mul_le_mul_left den far
    rw [Nat.succ_eq_add_one, Nat.mul_add, Nat.mul_add] at step
    omega
  · -- the quotient is odd here, and rounded up from its middle on
    obtain rfl : bound = num / den + 1 := by omega
    rw [Nat.mul_add]
    have rounded := roundHalfEven_cases num den
    omega

/-- A quotient is rounded to no more than an even bound when it is at most a half above it. -/
theorem roundHalfEven_le_iff (positive : 0 < den) (even : bound % 2 = 0) :
    roundHalfEven num den ≤ bound ↔ 2 * num ≤ 2 * (den * bound) + den := by
  have whole : den * (num / den) + num % den = num := Nat.div_add_mod num den
  have rest : num % den < den := Nat.mod_lt num positive
  have near := roundHalfEven_near num den
  rcases Nat.lt_trichotomy (num / den) bound with less | same | more
  · have step := Nat.mul_le_mul_left den less
    rw [Nat.succ_eq_add_one, Nat.mul_add] at step
    omega
  · -- the quotient is even here, and rounded down up to its middle
    subst same
    have rounded := roundHalfEven_cases num den
    omega
  · have step := Nat.mul_le_mul_left den more
    rw [Nat.succ_eq_add_one, Nat.mul_add] at step
    omega

/-- What is kept of a number with so many digits that the last place has this weight. -/
theorem nearestNat_of_log2 (long : n.log2 = place + 53) :
    nearestNat n = roundHalfEven n (2 * 2 ^ place) * (2 * 2 ^ place) := by
  have unit : n.log2 - 52 = place + 1 := by omega
  unfold nearestNat
  rw [unit, Nat.pow_succ, Nat.mul_comm (2 ^ place)]

/-- A number stays on its side of the numbers with so many digits. -/
theorem nearestNat_cases (n place : Nat) :
    n < 2 ^ (place + 53) ∧ nearestNat n ≤ 2 ^ (place + 53) ∨ n.log2 = place + 53 ∨
      2 ^ (place + 54) ≤ n ∧ 2 ^ (place + 54) ≤ nearestNat n := by
  by_cases isZero : n = 0
  · rw [isZero]
    exact .inl ⟨Nat.two_pow_pos _, Nat.zero_le _⟩
  have least : 2 ^ n.log2 ≤ n := Nat.log2_self_le isZero
  have greatest : n < 2 ^ (n.log2 + 1) := Nat.lt_log2_self
  obtain ⟨below, above⟩ := nearestNat_near isZero
  rcases Nat.lt_trichotomy n.log2 (place + 53) with short | long | longer
  · have fewer : 2 ^ (n.log2 + 1) ≤ 2 ^ (place + 53) := Nat.pow_le_pow_right (by decide) short
    exact .inl ⟨Nat.lt_of_lt_of_le greatest fewer, Nat.le_trans above fewer⟩
  · exact .inr (.inl long)
  · have more : 2 ^ (place + 54) ≤ 2 ^ n.log2 := Nat.pow_le_pow_right (by decide) longer
    exact .inr (.inr ⟨Nat.le_trans more least, Nat.le_trans more below⟩)

/-- A number is rounded to less than a power of two when it is more than half a place below it. -/
theorem nearestNat_lt_iff :
    nearestNat n < 2 ^ (place + 54) ↔ n + 2 ^ place < 2 ^ (place + 54) := by
  have positive : 0 < 2 ^ place := Nat.two_pow_pos place
  have power : 2 ^ (place + 54) = 2 ^ place * 2 ^ 54 := Nat.pow_add 2 place 54
  rcases nearestNat_cases n place with ⟨less, noMore⟩ | long | ⟨more, noLess⟩
  · rw [Nat.pow_add 2 place 53] at less noMore
    omega
  · have unit : 0 < 2 * 2 ^ place := by omega
    have places : 2 ^ place * 2 ^ 54 = 2 ^ 53 * (2 * 2 ^ place) := by omega
    rw [nearestNat_of_log2 long, power, places, Nat.mul_lt_mul_right unit,
      roundHalfEven_lt_iff unit (by decide)]
    omega
  · omega

/-- A number is rounded to no more than a power of two when it is at most half a place above it. -/
theorem nearestNat_le_iff :
    nearestNat n ≤ 2 ^ (place + 53) ↔ n ≤ 2 ^ (place + 53) + 2 ^ place := by
  have positive : 0 < 2 ^ place := Nat.two_pow_pos place
  have power : 2 ^ (place + 53) = 2 ^ place * 2 ^ 53 := Nat.pow_add 2 place 53
  rcases nearestNat_cases n place with ⟨less, noMore⟩ | long | ⟨more, noLess⟩
  · omega
  · have unit : 0 < 2 * 2 ^ place := by omega
    have places : 2 ^ place * 2 ^ 53 = 2 ^ 52 * (2 * 2 ^ place) := by omega
    rw [nearestNat_of_log2 long, power, places, Nat.mul_le_mul_right_iff unit,
      roundHalfEven_le_iff unit (by decide)]
    omega
  · rw [Nat.pow_add 2 place 54] at more noLess
    omega

/-- **The integers that are rounded to 64 bits**: below they reach half a place further than the
bits, above they stay half a place away. -/
theorem nearestInt_fits_iff {n : Int} : (-2 ^ 63 ≤ nearestInt n ∧ nearestInt n < 2 ^ 63) ↔
    -(2 ^ 63 + 2 ^ 10) ≤ n ∧ n < 2 ^ 63 - 2 ^ 9 := by
  have above : nearestNat n.natAbs < 2 ^ 63 ↔ n.natAbs + 2 ^ 9 < 2 ^ 63 := nearestNat_lt_iff
  have below : nearestNat n.natAbs ≤ 2 ^ 63 ↔ n.natAbs ≤ 2 ^ 63 + 2 ^ 10 := nearestNat_le_iff
  rw [nearestInt_eq]
  split <;> omega

/-! ### Integers that are kept as they are -/

/-- The integer has at most 53 binary digits before the zeros at its end. -/
def IsRepresentable (n : Int) : Prop :=
  ∃ significand zeros : Nat, significand < 2 ^ 53 ∧ n.natAbs = significand * 2 ^ zeros

theorem nearestNat_of_multiple {significand zeros : Nat} (short : significand < 2 ^ 53)
    (isProduct : n = significand * 2 ^ zeros) : nearestNat n = n := by
  have below : n < 2 ^ (53 + zeros) := by
    rw [isProduct, Nat.pow_add]
    exact Nat.mul_lt_mul_of_pos_right short (Nat.two_pow_pos zeros)
  have few : n.log2 - 52 ≤ zeros := by
    by_cases isZero : n = 0
    · rw [isZero]
      exact Nat.zero_le zeros
    · have digits := (Nat.log2_lt isZero).mpr below
      omega
  obtain ⟨whole, isMultiple⟩ : 2 ^ (n.log2 - 52) ∣ n := by
    rw [isProduct]
    exact Dvd.dvd.mul_left (Nat.pow_dvd_pow 2 (isProduct ▸ few)) significand
  unfold nearestNat
  conv_lhs =>
    enter [1, 1]
    rw [isMultiple]
  rw [roundHalfEven_mul (Nat.two_pow_pos _), Nat.mul_comm, ← isMultiple]

/-- **An integer is kept as it is exactly when it has at most 53 binary digits** before the zeros at
its end. -/
theorem nearestInt_eq_self_iff {n : Int} : nearestInt n = n ↔ IsRepresentable n := by
  have magnitude : nearestInt n = n ↔ nearestNat n.natAbs = n.natAbs := by
    rw [nearestInt_eq]
    split <;> omega
  rw [magnitude]
  constructor
  · intro kept
    refine ⟨_, n.natAbs.log2 - 52, ?_, kept.symm⟩
    have below : n.natAbs < 2 ^ (n.natAbs.log2 + 1) := Nat.lt_log2_self
    have more : 2 ^ (n.natAbs.log2 + 1) ≤ 2 ^ (53 + (n.natAbs.log2 - 52)) :=
      Nat.pow_le_pow_right (by decide) (by omega)
    rw [Nat.pow_add 2 53] at more
    refine Nat.lt_of_mul_lt_mul_right (a := 2 ^ (n.natAbs.log2 - 52)) ?_
    exact Nat.lt_of_le_of_lt (Nat.le_of_eq kept) (Nat.lt_of_lt_of_le below more)
  · rintro ⟨significand, zeros, short, isProduct⟩
    exact nearestNat_of_multiple short isProduct

/-- **Integers of at most 53 binary digits are kept**, and so is the power of two after them. -/
theorem isRepresentable_of_le {n : Int} (small : n.natAbs ≤ 2 ^ 53) : IsRepresentable n := by
  rcases Nat.eq_or_lt_of_le small with power | fewer
  · exact ⟨1, 53, by decide, power⟩
  · exact ⟨n.natAbs, 0, fewer, (Nat.mul_one _).symm⟩

end RamlInterfaces.Binary64
