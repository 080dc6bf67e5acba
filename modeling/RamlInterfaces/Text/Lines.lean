/-
**Lines of a text.**

A line ends at a line feed, a carriage return, or both in this order, and also at a vertical tab, a
form feed, one of three information separators, the next-line character, and the line and
paragraph separators.  A text that ends with a line end has no further empty line.

* `isLineEnd`: the characters that end a line;
* `lines`: the lines of a text without their ends;
* `lines_noLineEnd`: no line holds a line end;
* `normalizeLineEnds`: carriage returns, alone or before a line feed, read as line feeds.
-/

namespace RamlInterfaces.Text

/-- A character that ends a line. -/
def isLineEnd (c : Char) : Bool :=
  let code := c.toNat
  (10 ≤ code && code ≤ 13) || (28 ≤ code && code ≤ 30) || code == 0x85 || code == 0x2028 ||
    code == 0x2029

/-- The lines of a text, without the characters that end them. -/
def lines : List Char → List (List Char)
  | [] => []
  | '\r' :: '\n' :: rest => [] :: lines rest
  | c :: rest =>
    if isLineEnd c then [] :: lines rest
    else match lines rest with
      | [] => [[c]]
      | line :: others => (c :: line) :: others

/-- No line of a text holds a character that ends lines. -/
theorem lines_noLineEnd (cs : List Char) :
    ∀ line ∈ lines cs, ∀ c ∈ line, isLineEnd c = false := by
  fun_induction lines cs with
  | case1 => simp
  | case2 rest ih => simpa using ih
  | case3 c rest _ ends ih => simpa using ih
  | case4 c rest _ goes none ih => simpa using goes
  | case5 c rest _ goes line others more ih =>
    rw [more] at ih
    simp only [List.mem_cons, forall_eq_or_imp] at ih ⊢
    refine ⟨⟨by simpa using goes, ih.1⟩, ih.2⟩

/-- Each carriage return, together with a line feed after it, becomes a line feed. -/
def normalizeLineEnds : List Char → List Char
  | [] => []
  | '\r' :: '\n' :: rest => '\n' :: normalizeLineEnds rest
  | c :: rest => (if c = '\r' then '\n' else c) :: normalizeLineEnds rest

end RamlInterfaces.Text
