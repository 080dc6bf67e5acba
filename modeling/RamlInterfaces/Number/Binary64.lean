/-
**Binary floating-point numbers of 64 bits.**

A number is not a number, an infinity, or `± m · 2 ^ q` with a significand `m` of at most 53 bits.
All arithmetic is exact arithmetic on integers followed by one rounding to the nearest number, a
tie going to the even significand.

* `Binary64`: the numbers;
* `ofRatio`: the number nearest to a quotient of integers;
* `floor?`, `ceil?`, `whole?`: the integers below, above and at a number;
* `add`, `mul`: the rounded sum and product.
-/

namespace RamlInterfaces

/-- A binary64 number; `finite negative m q` stands for `± m · 2 ^ q`. -/
inductive Binary64 where
  | nan
  | infinite (negative : Bool)
  | finite (negative : Bool) (significand : Nat) (exponent : Int)
deriving DecidableEq, Repr

namespace Binary64

/-- The least exponent, that of the subnormal numbers. -/
def minExponent : Int := -1074

/-- The greatest exponent. -/
def maxExponent : Int := 971

/-- Zero with a sign. -/
def zero (negative : Bool) : Binary64 := .finite negative 0 minExponent

/-- The natural number nearest to a quotient, a tie going to the even one. -/
def roundHalfEven (num den : Nat) : Nat :=
  let quotient := num / den
  let rest := num % den
  if 2 * rest < den then quotient
  else if den < 2 * rest then quotient + 1
  else if quotient % 2 = 0 then quotient
  else quotient + 1

/-- A quotient of the same value as `num / den / 2 ^ exponent`. -/
def scaleDown (num den : Nat) (exponent : Int) : Nat × Nat :=
  if 0 ≤ exponent then (num, den <<< exponent.toNat) else (num <<< (-exponent).toNat, den)

/-- The integer `k` with `2 ^ k ≤ num / den < 2 ^ (k + 1)`. -/
def binaryMagnitude (num den : Nat) : Int :=
  let estimate : Int := (num.log2 : Int) - den.log2
  let scaled := scaleDown num den estimate
  if scaled.1 < scaled.2 then estimate - 1 else estimate

/-- The number nearest to `± num / den`. -/
def ofRatio (negative : Bool) (num den : Nat) : Binary64 :=
  if num = 0 then zero negative
  else
    let exponent := max minExponent (binaryMagnitude num den - 52)
    let scaled := scaleDown num den exponent
    let significand := roundHalfEven scaled.1 scaled.2
    let carried := significand = 1 <<< 53
    let exponent := if carried then exponent + 1 else exponent
    if maxExponent < exponent then .infinite negative
    else .finite negative (if carried then 1 <<< 52 else significand) exponent

/-- The number nearest to an integer. -/
def ofInt (n : Int) : Binary64 := ofRatio (n < 0) n.natAbs 1

/-- The number nearest to `± digits · 10 ^ exponent`; far beyond the range no power is computed. -/
def ofDecimal (negative : Bool) (digits : Nat) (exponent : Int) : Binary64 :=
  let magnitude := exponent + ((Nat.toDigits 10 digits).length : Nat)
  if digits = 0 ∨ magnitude < -400 then zero negative
  else if 400 < magnitude then .infinite negative
  else if 0 ≤ exponent then ofRatio negative (digits * Nat.pow 10 exponent.toNat) 1
  else ofRatio negative digits (Nat.pow 10 (-exponent).toNat)

/-- The significand with its sign. -/
def signed (negative : Bool) (significand : Nat) : Int :=
  if negative then -(significand : Int) else significand

/-- The greatest integer that is not above the number, if the number is finite. -/
def floor? : Binary64 → Option Int
  | .finite negative significand exponent =>
    if 0 ≤ exponent then some (signed negative (significand <<< exponent.toNat))
    else some (signed negative significand >>> (-exponent).toNat)
  | _ => none

/-- The least integer that is not below the number, if the number is finite. -/
def ceil? : Binary64 → Option Int
  | .finite negative significand exponent =>
    if 0 ≤ exponent then some (signed negative (significand <<< exponent.toNat))
    else some (-((-signed negative significand) >>> (-exponent).toNat))
  | _ => none

/-- The integer that the number is, if it is one. -/
def whole? (x : Binary64) : Option Int :=
  match x.floor?, x.ceil? with
  | some below, some above => if below = above then some below else none
  | _, _ => none

/-- Zero of either sign. -/
def isZero : Binary64 → Bool
  | .finite _ significand _ => significand == 0
  | _ => false

/-- The number with the other sign. -/
def neg : Binary64 → Binary64
  | .nan => .nan
  | .infinite negative => .infinite (!negative)
  | .finite negative significand exponent => .finite (!negative) significand exponent

/-- Two numbers are alike when they are equal or zeros of either sign. -/
def alike (x y : Binary64) : Bool := x == y || (x.isZero && y.isZero)

/-- An integer times a power of two, rounded; `negative` is the sign of a zero. -/
def ofScaled (negative : Bool) (n : Int) (exponent : Int) : Binary64 :=
  if n = 0 then zero negative
  else if 0 ≤ exponent then ofRatio (n < 0) (n.natAbs <<< exponent.toNat) 1
  else ofRatio (n < 0) n.natAbs (1 <<< (-exponent).toNat)

/-- The rounded sum. -/
def add : Binary64 → Binary64 → Binary64
  | .nan, _ => .nan
  | _, .nan => .nan
  | .infinite a, .infinite b => if a = b then .infinite a else .nan
  | .infinite a, .finite _ _ _ => .infinite a
  | .finite _ _ _, .infinite b => .infinite b
  | .finite a m p, .finite b n q =>
    let exponent := min p q
    let left := signed a (m <<< (p - exponent).toNat)
    let right := signed b (n <<< (q - exponent).toNat)
    ofScaled (a && b) (left + right) exponent

/-- The rounded product. -/
def mul : Binary64 → Binary64 → Binary64
  | .nan, _ => .nan
  | _, .nan => .nan
  | .infinite a, .infinite b => .infinite (a != b)
  | .infinite a, .finite b n _ => if n = 0 then .nan else .infinite (a != b)
  | .finite a m _, .infinite b => if m = 0 then .nan else .infinite (a != b)
  | .finite a m p, .finite b n q => ofScaled (a != b) (signed (a != b) (m * n)) (p + q)

/-- A number is alike itself. -/
@[simp] theorem alike_refl (x : Binary64) : x.alike x = true := by simp [alike]

end Binary64

end RamlInterfaces
