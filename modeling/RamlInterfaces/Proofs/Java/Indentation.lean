/-
**What moving a text in does to its parts.**

A member of a type is moved in line by line, and all kinds of line ends count.  A part of the text
that begins and ends inside lines is changed on its own, whatever stands around it.  A text that is
written line by line is a line with others below it, and each of those is moved in on its own.

* `EndsOpen`: the last line of a text goes on in what follows;
* `shifted`: a text with every line after its first moved in;
* `shifted_append`: **a text that ends open and the text after it are moved in apart**;
* `indented_append`: so is each part of a member;
* `lineFeed_notMem_iterate_iff`: **a part stays on one line exactly if it holds no line end of any
  kind**;
* `lines_append_lineFeed`: **what follows a line feed begins a new line**;
* `below`: a line with the lines below it, each moved in by a space;
* `flatMap_line`, `lines_below`: lines that are written, and the lines that are read;
* `shifted_below`: **lines below another are moved in on their own**;
* `shifted_append_lineFeed`: so is a text after a line feed.
-/

import Mathlib.Logic.Function.Iterate
import RamlInterfaces.Java.Layout

namespace RamlInterfaces.Java

open Text

/-! ### Lines of texts one after the other -/

/-- The text ends in a character that ends no line. -/
def EndsOpen (text : List Char) : Prop :=
  ∃ c, text.getLast? = some c ∧ isLineEnd c = false

theorem endsOpen_concat (text : List Char) {c : Char} (goes : isLineEnd c = false) :
    EndsOpen (text ++ [c]) :=
  ⟨c, List.getLast?_concat, goes⟩

theorem EndsOpen.ne_nil {text : List Char} (ends : EndsOpen text) : text ≠ [] := by
  rintro rfl
  obtain ⟨c, last, _⟩ := ends
  cases last

/-- Only the end of a text decides whether it ends open. -/
theorem endsOpen_append_iff (left : List Char) {right : List Char} (some : right ≠ []) :
    EndsOpen (left ++ right) ↔ EndsOpen right := by
  unfold EndsOpen
  rw [List.getLast?_append, List.getLast?_eq_some_getLast some]
  rfl

theorem EndsOpen.append {right : List Char} (ends : EndsOpen right) (left : List Char) :
    EndsOpen (left ++ right) :=
  (endsOpen_append_iff left ends.ne_nil).mpr ends

/-- What follows a line end in a text that ends open, ends open. -/
theorem EndsOpen.tail {c : Char} {rest : List Char} (ends : EndsOpen (c :: rest))
    (closes : isLineEnd c = true) : EndsOpen rest := by
  cases rest with
  | nil =>
    obtain ⟨d, last, goes⟩ := ends
    cases last
    exact absurd closes (Bool.eq_false_iff.mp goes)
  | cons next others => exact (endsOpen_append_iff [c] (by simp)).mp ends

/-- A text between pieces that end open ends open as well. -/
theorem EndsOpen.flatMap {α : Type} {left : List Char} (ends : EndsOpen left)
    {separator : List Char} (open' : EndsOpen separator) (piece : α → List Char)
    (items : List α) : EndsOpen (left ++ items.flatMap fun item => piece item ++ separator) := by
  induction items generalizing left with
  | nil => simpa using ends
  | cons item rest ih =>
    have next := ih (open'.append (left ++ piece item))
    simpa using next

/-- The lines of a text go on in the line that another begins with. -/
def goOn (last : List Char) : List (List Char) → List (List Char)
  | [] => [last]
  | first :: others => (last ++ first) :: others

theorem lines_ne_nil {text : List Char} (some : text ≠ []) : lines text ≠ [] := by
  fun_cases lines text with
  | case1 => exact absurd rfl some
  | case2 => simp
  | case3 => simp
  | case4 => simp
  | case5 => simp

/-- A character that begins no pair of line ends begins none in a longer text either. -/
theorem single_append {c : Char} {rest : List Char}
    (single : ∀ others, c = '\r' → rest = '\n' :: others → False) (some : rest ≠ [])
    (right : List Char) : ∀ others, c = '\r' → rest ++ right = '\n' :: others → False := by
  intro others carriage same
  cases rest with
  | nil => exact some rfl
  | cons next rest =>
    rw [List.cons_append] at same
    exact single rest carriage (by rw [(List.cons.inj same).1])

/-- **The lines of a text that ends open, and of that text with another after it**: only the last
line goes on. -/
theorem lines_append {left : List Char} (ends : EndsOpen left) :
    ∃ init last, last ≠ [] ∧ lines left = init ++ [last] ∧
      ∀ right, lines (left ++ right) = init ++ goOn last (lines right) := by
  fun_induction lines left with
  | case1 => exact absurd rfl ends.ne_nil
  | case2 rest ih =>
    obtain ⟨init, last, filled, here, further⟩ := ih ((ends.tail rfl).tail rfl)
    refine ⟨[] :: init, last, filled, by rw [here]; rfl, fun right => ?_⟩
    show [] :: lines (rest ++ right) = _
    rw [further]
    rfl
  | case3 c rest single closes ih =>
    have after := ends.tail closes
    obtain ⟨init, last, filled, here, further⟩ := ih after
    refine ⟨[] :: init, last, filled, by rw [here]; rfl, fun right => ?_⟩
    rw [List.cons_append, lines, if_pos closes, further]
    · rfl
    · exact single_append single after.ne_nil right
  | case4 c rest single goes none ih =>
    have empty : rest = [] := by
      by_contra some
      exact lines_ne_nil some none
    subst empty
    refine ⟨[], [c], by simp, rfl, fun right => ?_⟩
    rw [List.cons_append, List.nil_append, lines, if_neg goes]
    · cases lines right <;> rfl
    · rintro _ rfl
      exact absurd rfl goes
  | case5 c rest single goes line others more ih =>
    have some : rest ≠ [] := by
      rintro rfl
      cases more
    obtain ⟨init, last, filled, here, further⟩ :=
      ih ((endsOpen_append_iff [c] some).mp ends)
    rw [more] at here
    cases init with
    | nil =>
      obtain ⟨rfl, rfl⟩ := List.cons.inj here
      refine ⟨[], c :: line, by simp, rfl, fun right => ?_⟩
      rw [List.cons_append, lines, if_neg goes, further]
      · cases lines right <;> rfl
      · exact single_append single some right
    | cons first init =>
      obtain ⟨rfl, rfl⟩ := List.cons.inj here
      refine ⟨(c :: line) :: init, last, filled, rfl, fun right => ?_⟩
      rw [List.cons_append, lines, if_neg goes, further]
      · rfl
      · exact single_append single some right

/-- A text without line ends is its only line. -/
theorem lines_eq_self {text : List Char} (some : text ≠ [])
    (none : ∀ c ∈ text, isLineEnd c = false) : lines text = [text] := by
  induction text with
  | nil => exact absurd rfl some
  | cons c rest ih =>
    have goes : ¬ isLineEnd c = true := by simp [none c List.mem_cons_self]
    rw [lines, if_neg goes]
    · cases rest with
      | nil => rfl
      | cons next others =>
        rw [ih (by simp) fun d member => none d (List.mem_cons_of_mem _ member)]
    · rintro _ rfl
      exact absurd rfl goes

/-- A text that goes on after a line end has more than one line. -/
theorem length_lines {text : List Char} (ends : EndsOpen text) {c : Char} (member : c ∈ text)
    (closes : isLineEnd c = true) : 2 ≤ (lines text).length := by
  fun_induction lines text with
  | case1 => exact absurd member List.not_mem_nil
  | case2 rest ih =>
    have some := List.length_pos_iff.mpr (lines_ne_nil ((ends.tail rfl).tail rfl).ne_nil)
    rw [List.length_cons]
    omega
  | case3 d rest single here ih =>
    have some := List.length_pos_iff.mpr (lines_ne_nil (ends.tail here).ne_nil)
    rw [List.length_cons]
    omega
  | case4 d rest single goes none ih =>
    have empty : rest = [] := by
      by_contra some
      exact lines_ne_nil some none
    rw [empty, List.mem_singleton] at member
    rw [member] at closes
    exact absurd closes goes
  | case5 d rest single goes line others more ih =>
    rcases List.mem_cons.mp member with rfl | later
    · exact absurd closes goes
    · have after := ih ((endsOpen_append_iff [d] (List.ne_nil_of_mem later)).mp ends) later
      rw [more] at after
      exact after

/-! ### Texts moved in -/

/-- A line moved in; an empty one stays empty. -/
def moveIn (text : List Char) : List Char := if text.isEmpty then [] else margin ++ text

/-- A text with every line after its first moved in. -/
def shifted (text : List Char) : List Char :=
  match lines text with
  | [] => []
  | first :: others => join ['\n'] (first :: others.map moveIn)

/-- A text is moved in by the margin and by moving in the lines after its first. -/
theorem indented_eq (text : List Char) : indented text = margin ++ shifted (line text) := by
  unfold indented shifted
  cases lines (line text) with
  | nil => rfl
  | cons first others => cases others <;> rfl

theorem join_append_cons (separator piece : List Char) (before after : List (List Char)) :
    join separator (before ++ piece :: after) =
      (before.flatMap fun other => other ++ separator) ++ join separator (piece :: after) := by
  induction before with
  | nil => rfl
  | cons first rest ih =>
    rw [List.cons_append, List.flatMap_cons, List.append_assoc, ← ih]
    cases rest <;> rfl

theorem join_cons_append (separator left right : List Char) (others : List (List Char)) :
    join separator ((left ++ right) :: others) = left ++ join separator (right :: others) := by
  cases others with
  | nil => rfl
  | cons next rest => simp [join]

/-- The parts of a joined text around one of its pieces. -/
theorem join_around (separator piece : List Char) (before after : List (List Char)) :
    join separator (before ++ piece :: after) =
      (before.flatMap fun other => other ++ separator) ++
        (piece ++ join separator ([] :: after)) := by
  have apart := join_cons_append separator piece [] after
  rw [List.append_nil] at apart
  rw [join_append_cons, apart]

/-- **A text that ends open and the text after it are moved in apart.** -/
theorem shifted_append {left : List Char} (ends : EndsOpen left) (right : List Char) :
    shifted (left ++ right) = shifted left ++ shifted right := by
  obtain ⟨init, last, filled, here, further⟩ := lines_append ends
  have moved (others : List Char) : moveIn (last ++ others) = moveIn last ++ others := by
    simp [moveIn, filled]
  unfold shifted
  rw [further, here]
  cases init with
  | nil =>
    cases lines right with
    | nil => simp [goOn, join]
    | cons first others => exact join_cons_append _ _ _ _
  | cons first rest =>
    cases lines right with
    | nil => simp [goOn]
    | cons next others =>
      show join ['\n'] (first :: (rest ++ (last ++ next) :: others).map moveIn) =
        join ['\n'] (first :: (rest ++ [last]).map moveIn) ++
          join ['\n'] (next :: others.map moveIn)
      rw [List.map_append, List.map_append, List.map_cons, List.map_cons, ← List.cons_append,
        ← List.cons_append, join_append_cons, join_append_cons, moved, join_cons_append,
        List.append_assoc]
      rfl

/-- **Each part of a member is moved in on its own**, if it and what comes before it end open. -/
theorem indented_append {before middle : List Char} (beforeOpen : EndsOpen before)
    (middleOpen : EndsOpen middle) (after : List Char) :
    indented (before ++ (middle ++ after)) =
      (margin ++ shifted before) ++ (shifted middle ++ shifted (line after)) := by
  rw [indented_eq, List.append_assoc, ← shifted_append middleOpen, ← shifted_append beforeOpen]
  simp [line]

/-- A text that ends open does so after it is moved in. -/
theorem EndsOpen.shifted {text : List Char} (ends : EndsOpen text) : EndsOpen (shifted text) := by
  obtain ⟨init, last, filled, here, -⟩ := lines_append ends
  have lastOpen : EndsOpen last := by
    refine ⟨last.getLast filled, List.getLast?_eq_some_getLast filled, ?_⟩
    exact lines_noLineEnd text last (by simp [here]) _ (List.getLast_mem filled)
  have movedOpen : EndsOpen (moveIn last) := by
    have some : moveIn last = margin ++ last := by simp [moveIn, filled]
    rw [some]
    exact lastOpen.append margin
  unfold Java.shifted
  rw [here]
  cases init with
  | nil => exact lastOpen
  | cons first rest =>
    show EndsOpen (join ['\n'] (first :: (rest ++ [last]).map moveIn))
    rw [List.map_append, ← List.cons_append, List.map_singleton, join_append_cons]
    exact movedOpen.append _

/-- A text without line ends stays as it is. -/
theorem shifted_eq_self {text : List Char} (none : ∀ c ∈ text, isLineEnd c = false) :
    shifted text = text := by
  cases text with
  | nil => rfl
  | cons c rest =>
    unfold shifted
    rw [lines_eq_self (by simp) none]
    rfl

/-- Any line end inside a text becomes a line feed. -/
theorem lineFeed_mem_shifted {text : List Char} (ends : EndsOpen text) {c : Char}
    (member : c ∈ text) (closes : isLineEnd c = true) : '\n' ∈ shifted text := by
  have several := length_lines ends member closes
  unfold shifted
  match lines text, several with
  | first :: next :: others, _ =>
    simp [join]

/-- **A text that ends open stays on one line, however often it is moved in, exactly if it holds no
line end of any kind.** -/
theorem lineFeed_notMem_iterate_iff {text : List Char} (ends : EndsOpen text) (times : Nat) :
    '\n' ∉ shifted^[times + 1] text ↔ ∀ c ∈ text, isLineEnd c = false := by
  constructor
  · intro single c member
    by_contra closes
    rw [Bool.not_eq_false] at closes
    have broken : '\n' ∈ shifted text := lineFeed_mem_shifted ends member closes
    refine single ?_
    -- A line feed stays a line feed: each further time moves in a text that holds one.
    clear single member closes
    induction times generalizing text with
    | zero => exact broken
    | succ times ih => exact ih ends.shifted (lineFeed_mem_shifted ends.shifted broken rfl)
  · intro none member
    rw [Function.iterate_fixed (shifted_eq_self none)] at member
    exact absurd (none _ member) (by decide)

/-! ### Lines after a line feed -/

/-- A character that ends no line goes on in the first line of what follows. -/
theorem lines_cons {c : Char} (goes : ¬ isLineEnd c = true) (rest : List Char) :
    lines (c :: rest) = goOn [c] (lines rest) := by
  rw [lines, if_neg goes]
  · cases lines rest <;> rfl
  · rintro _ rfl
    exact absurd rfl goes

theorem goOn_append (last : List Char) {left : List (List Char)} (some : left ≠ [])
    (right : List (List Char)) : goOn last (left ++ right) = goOn last left ++ right := by
  cases left with
  | nil => exact absurd rfl some
  | cons => rfl

/-- **What follows a line feed begins a new line.** -/
theorem lines_append_lineFeed (left right : List Char) :
    lines (left ++ '\n' :: right) = lines (left ++ ['\n']) ++ lines right := by
  fun_induction lines left with
  | case1 => rfl
  | case2 rest ih => exact congrArg ([] :: ·) ih
  | case3 c rest single ends ih =>
    by_cases pair : c = '\r' ∧ rest = []
    · obtain ⟨rfl, rfl⟩ := pair
      rfl
    · -- no pair of line ends comes about where none was
      have apart (right : List Char) :
          ∀ others, c = '\r' → rest ++ '\n' :: right = '\n' :: others → False := by
        intro others carriage
        exact single_append single (fun none => pair ⟨carriage, none⟩) _ others carriage
      rw [List.cons_append, List.cons_append, lines, lines, if_pos ends, if_pos ends, ih]
      · rfl
      · exact apart []
      · exact apart right
  | case4 c rest single goes none ih =>
    rw [List.cons_append, List.cons_append, lines_cons goes, lines_cons goes, ih,
      goOn_append _ (lines_ne_nil (by simp))]
  | case5 c rest single goes line others more ih =>
    rw [List.cons_append, List.cons_append, lines_cons goes, lines_cons goes, ih,
      goOn_append _ (lines_ne_nil (by simp))]

/-- A text without line ends is the only line of itself with a line feed. -/
theorem lines_line {text : List Char} (single : ∀ c ∈ text, isLineEnd c = false) :
    lines (line text) = [text] := by
  induction text with
  | nil => rfl
  | cons c rest ih =>
    rw [List.forall_mem_cons] at single
    have goes : ¬ isLineEnd c = true := by simp [single.1]
    show lines (c :: line rest) = [c :: rest]
    rw [lines_cons goes, ih single.2]
    rfl

/-! ### Texts that are written line by line -/

/-- A line with the lines after it, each moved in by the given space. -/
def below (space first : List Char) (rows : List (List Char)) : List Char :=
  first ++ rows.flatMap fun row => '\n' :: (space ++ row)

/-- Lines that end with line feeds are lines below the first. -/
theorem flatMap_line (first : List Char) (rows : List (List Char)) :
    (first :: rows).flatMap line = line (below [] first rows) := by
  induction rows generalizing first with
  | nil => simp [below]
  | cons next others ih =>
    rw [List.flatMap_cons, ih]
    simp [below, line]

/-- A line and the lines below it are the lines of their text. -/
theorem lines_below {first : List Char} {rows : List (List Char)}
    (some : ∀ row ∈ first :: rows, row ≠ [])
    (single : ∀ row ∈ first :: rows, ∀ c ∈ row, isLineEnd c = false) :
    lines (below [] first rows) = first :: rows := by
  induction rows generalizing first with
  | nil =>
    rw [List.forall_mem_cons] at some single
    rw [below, List.flatMap_nil, List.append_nil, lines_eq_self some.1 single.1]
  | cons next others ih =>
    rw [List.forall_mem_cons] at some single
    have split : below [] first (next :: others) = first ++ '\n' :: below [] next others := by
      simp [below]
    rw [split, lines_append_lineFeed, ih some.2 single.2]
    exact congrArg (· ++ next :: others) (lines_line single.1)

theorem join_eq_below (first : List Char) (rows : List (List Char)) :
    join ['\n'] (first :: rows) = below [] first rows := by
  induction rows generalizing first with
  | nil => simp [join, below]
  | cons next others ih =>
    rw [join, ih]
    · simp [below]
    · simp

theorem below_map (space first : List Char) (rows : List (List Char)) :
    below [] first (rows.map (space ++ ·)) = below space first rows := by
  unfold below
  rw [List.flatMap_map]
  rfl

/-! ### Moving in -/

/-- Lines below another are moved in on their own. -/
theorem shifted_below {space first : List Char} {rows : List (List Char)}
    (blank : ∀ c ∈ space, c = ' ') (some : ∀ row ∈ first :: rows, row ≠ [])
    (single : ∀ row ∈ first :: rows, ∀ c ∈ row, isLineEnd c = false) :
    shifted (below space first rows) = below (margin ++ space) first rows := by
  rw [List.forall_mem_cons] at some single
  have isLines : lines (below space first rows) = first :: rows.map (space ++ ·) := by
    rw [← below_map]
    refine lines_below (List.forall_mem_cons.mpr ⟨some.1, ?_⟩)
      (List.forall_mem_cons.mpr ⟨single.1, ?_⟩)
    · rintro _ member
      obtain ⟨row, isRow, rfl⟩ := List.mem_map.mp member
      exact List.append_ne_nil_of_right_ne_nil _ (some.2 row isRow)
    · rintro _ member c inside
      obtain ⟨row, isRow, rfl⟩ := List.mem_map.mp member
      rcases List.mem_append.mp inside with inSpace | inRow
      · rw [blank c inSpace]
        rfl
      · exact single.2 row isRow c inRow
  have moved : (rows.map (space ++ ·)).map moveIn = rows.map (margin ++ space ++ ·) := by
    rw [List.map_map]
    refine List.map_congr_left fun row member => ?_
    simp [moveIn, some.2 row member]
  unfold shifted
  rw [isLines]
  dsimp only
  rw [moved, join_eq_below, below_map]

/-- A text that begins with no line end is moved in as a whole where it begins a line. -/
theorem shifted_append_lineFeed (left : List Char) {c : Char} (goes : ¬ isLineEnd c = true)
    (rest : List Char) : ∃ above,
      shifted (left ++ '\n' :: c :: rest) = line above ++ (margin ++ shifted (c :: rest)) := by
  obtain ⟨first, others, isLines⟩ : ∃ first others, lines (c :: rest) = (c :: first) :: others := by
    rw [lines_cons goes]
    cases lines rest with
    | nil => exact ⟨[], [], rfl⟩
    | cons next more => exact ⟨next, more, rfl⟩
  obtain ⟨top, more, isAbove⟩ := List.exists_cons_of_ne_nil
    (lines_ne_nil (show left ++ ['\n'] ≠ [] by simp))
  refine ⟨below [] top (more.map moveIn), ?_⟩
  rw [← flatMap_line]
  unfold shifted
  rw [lines_append_lineFeed, isAbove, isLines]
  show join ['\n'] (top :: (more ++ (c :: first) :: others).map moveIn) = _
  rw [List.map_append, ← List.cons_append, List.map_cons, join_append_cons]
  exact congrArg (_ ++ ·) (join_cons_append ['\n'] margin (c :: first) (others.map moveIn))

/-- A text after a line feed is moved in below it. -/
theorem shifted_lineFeed {text : List Char} (some : text ≠ []) :
    ∃ below, shifted ('\n' :: text) = '\n' :: below := by
  obtain ⟨first, others, isLines⟩ := List.exists_cons_of_ne_nil (lines_ne_nil some)
  have whole : lines ('\n' :: text) = [] :: first :: others := isLines ▸ rfl
  unfold shifted
  rw [whole]
  exact ⟨_, rfl⟩

theorem endsOpen_of_single {text : List Char} (some : text ≠ [])
    (single : ∀ c ∈ text, isLineEnd c = false) : EndsOpen text :=
  ⟨text.getLast some, List.getLast?_eq_some_getLast some, single _ (List.getLast_mem some)⟩

/-- Spaces before a text stay as they are. -/
theorem shifted_spaces (width : Nat) (text : List Char) :
    shifted (List.replicate width ' ' ++ text) = List.replicate width ' ' ++ shifted text := by
  have goes : ∀ c ∈ List.replicate width ' ', isLineEnd c = false := fun c member => by
    rw [List.eq_of_mem_replicate member]
    rfl
  cases width with
  | zero => rfl
  | succ width => rw [shifted_append (endsOpen_of_single (by simp) goes), shifted_eq_self goes]

end RamlInterfaces.Java
