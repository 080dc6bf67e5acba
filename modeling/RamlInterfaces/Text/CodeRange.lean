/-
**Ranges of code points.**

A class of characters as a list of closed ranges of code points.

* `CodeRange.covers`: some range of the list holds the code point.
-/

namespace RamlInterfaces.Text

/-- The code points from the first to the second, both included. -/
abbrev CodeRange := Nat × Nat

/-- Some range of the list holds the code point. -/
def CodeRange.covers (ranges : List CodeRange) (code : Nat) : Bool :=
  ranges.any fun range => range.1 ≤ code && code ≤ range.2

end RamlInterfaces.Text
