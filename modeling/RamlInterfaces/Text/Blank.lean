/-
**Blank characters.**

White space in the sense of Unicode, together with the four information separators, and the
trimming of texts by it.

* `isBlank`: the blank characters;
* `trimStart`, `trim`: a text without its outer blanks;
* `isAllBlank`: a text with nothing but blanks.
-/

namespace RamlInterfaces.Text

/-- A blank: white space of any script or an information separator. -/
def isBlank (c : Char) : Bool :=
  let code := c.toNat
  (9 ≤ code && code ≤ 13) || (28 ≤ code && code ≤ 32) || code == 0x85 || code == 0xA0 ||
    code == 0x1680 || (0x2000 ≤ code && code ≤ 0x200A) || code == 0x2028 || code == 0x2029 ||
    code == 0x202F || code == 0x205F || code == 0x3000

/-- The characters from the first one that is not blank on. -/
def dropBlanks (cs : List Char) : List Char := cs.dropWhile isBlank

/-- The characters up to the last one that does not satisfy `drop`. -/
def dropLastWhile (drop : Char → Bool) (cs : List Char) : List Char :=
  (cs.reverse.dropWhile drop).reverse

/-- A text is what is kept of it and the last characters, all of which satisfy `drop`. -/
theorem exists_dropLastWhile_append (drop : Char → Bool) (cs : List Char) : ∃ dropped,
    cs = dropLastWhile drop cs ++ dropped ∧ ∀ c ∈ dropped, drop c = true := by
  refine ⟨(cs.reverse.takeWhile drop).reverse, ?_, fun c member => ?_⟩
  · unfold dropLastWhile
    rw [← List.reverse_append, List.takeWhile_append_dropWhile, List.reverse_reverse]
  · exact List.all_eq_true.mp List.all_takeWhile c (List.mem_reverse.mp member)

/-- The text without leading blanks. -/
def trimStart (s : String) : String := String.ofList (dropBlanks s.toList)

/-- The text without leading and trailing blanks. -/
def trim (s : String) : String := String.ofList (dropLastWhile isBlank (dropBlanks s.toList))

/-- The text has no character that is not blank. -/
def isAllBlank (s : String) : Bool := s.toList.all isBlank

end RamlInterfaces.Text
