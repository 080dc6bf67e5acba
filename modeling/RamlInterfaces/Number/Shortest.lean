/-
**The shortest decimal text of a binary number.**

Of the decimal numbers that read back as a given binary number, the text shows one with the fewest
digits, and of those the nearest.  It is positional when the first digit stands for a power of ten
from `10 ^ -4` to `10 ^ 15`, and otherwise has an exponent with a sign and at least two digits.

* `shortestDecimal`: the digits and the power of ten;
* `Binary64.text`: the text.
-/

import RamlInterfaces.Number.Binary64
import RamlInterfaces.Number.Digits

namespace RamlInterfaces

namespace Number

/-- The integer `p` with `10 ^ (p - 1) ≤ num / den < 10 ^ p`. -/
def decimalMagnitude (num den : Nat) : Int :=
  let estimate : Int := ((decimal num).length : Int) - (decimal den).length
  let reached :=
    if 0 ≤ estimate then den * Nat.pow 10 estimate.toNat ≤ num
    else den ≤ num * Nat.pow 10 (-estimate).toNat
  if reached then estimate + 1 else estimate

/-- A decimal `digits · 10 ^ power` that reads back as the positive number `num / den`, found among
the two neighbours of the number on the grid of that power; the nearer one is preferred. -/
def neighbourOnGrid (num den : Nat) (power : Int) : Option Nat :=
  let scaled : Nat × Nat :=
    if 0 ≤ power then (num, den * Nat.pow 10 power.toNat)
    else (num * Nat.pow 10 (-power).toNat, den)
  let below := scaled.1 / scaled.2
  let readsBack (digits : Nat) : Bool :=
    Binary64.ofDecimal false digits power == Binary64.ofRatio false num den
  let nearest := Binary64.roundHalfEven scaled.1 scaled.2
  let other := if nearest = below then below + 1 else below
  if readsBack nearest then some nearest
  else if readsBack other then some other
  else none

/-- The shortest decimal `digits · 10 ^ power` that reads back as the positive number. -/
def shortestDecimal (num den : Nat) : Nat × Int :=
  let magnitude := decimalMagnitude num den
  let hit := (List.range 17).findSome? fun (count : Nat) =>
    let power := magnitude - ((count : Int) + 1)
    (neighbourOnGrid num den power).map fun digits => (digits, power)
  hit.getD (num / den, 0)

/-- The digits of a positive decimal without trailing zeros, and the place of its point counted
from before the first digit. -/
def significantDigits (digits : Nat) (power : Int) : List Char × Int :=
  let all := decimal digits
  ((all.reverse.dropWhile (· == '0')).reverse, (all.length : Int) + power)

/-- The text of a positive decimal whose digits are given with the place of the point. -/
def placePoint (digits : List Char) (point : Int) : List Char :=
  if -4 < point ∧ point ≤ 16 then
    if point ≤ 0 then ['0', '.'] ++ List.replicate (-point).toNat '0' ++ digits
    else if (digits.length : Int) ≤ point then
      digits ++ List.replicate (point.toNat - digits.length) '0' ++ ['.', '0']
    else digits.take point.toNat ++ ['.'] ++ digits.drop point.toNat
  else
    let exponent := point - 1
    let mantissa := match digits with
      | [] => []
      | [only] => [only]
      | first :: others => first :: '.' :: others
    mantissa ++ ['e', if exponent < 0 then '-' else '+'] ++ padded 2 exponent.natAbs

end Number

open Number in
/-- The shortest decimal text that reads back as the number. -/
def Binary64.text : Binary64 → String
  | .nan => "nan"
  | .infinite negative => if negative then "-inf" else "inf"
  | .finite negative significand exponent =>
    let unsigned :=
      if significand = 0 then ['0', '.', '0']
      else
        let ratio : Nat × Nat :=
          if 0 ≤ exponent then (significand <<< exponent.toNat, 1)
          else (significand, 1 <<< (-exponent).toNat)
        let shortest := shortestDecimal ratio.1 ratio.2
        let shown := significantDigits shortest.1 shortest.2
        placePoint shown.1 shown.2
    String.ofList (if negative then '-' :: unsigned else unsigned)

end RamlInterfaces
