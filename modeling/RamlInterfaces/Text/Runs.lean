/-
**Runs and pieces of a text.**

* `runs p`: the maximal runs of characters that satisfy `p`;
* `pieces c`: the pieces of a text between the occurrences of the character `c`;
* `join`: the pieces again in one text, with a separator between them;
* `beforeLast`, `afterLast`: a text before and after the last occurrence of a character;
* `join_pieces`: cutting a text at a character and joining it by that character gives it back.
-/

namespace RamlInterfaces.Text

/-- The maximal runs of characters that satisfy `p`, from left to right. -/
def runs (p : Char → Bool) : List Char → List (List Char)
  | [] => []
  | c :: rest =>
    if p c then
      match rest with
      | [] => [[c]]
      | next :: _ =>
        if p next then
          match runs p rest with
          | [] => [[c]]
          | run :: others => (c :: run) :: others
        else [c] :: runs p rest
    else runs p rest

/-- A run holds only characters that satisfy the predicate. -/
theorem runs_all (p : Char → Bool) (cs : List Char) :
    ∀ run ∈ runs p cs, ∀ c ∈ run, p c = true := by
  induction cs with
  | nil => simp [runs]
  | cons c rest ih =>
    unfold runs
    split
    case isFalse => exact ih
    case isTrue here =>
      split
      · simpa using here
      · split
        · split
          · simpa using here
          · rename_i run others more
            rw [more] at ih
            simp only [List.mem_cons, forall_eq_or_imp] at ih ⊢
            exact ⟨⟨here, ih.1⟩, ih.2⟩
        · simp only [List.mem_cons, forall_eq_or_imp]
          exact ⟨⟨here, by simp⟩, ih⟩

/-- No run is empty. -/
theorem runs_ne_nil (p : Char → Bool) (cs : List Char) : ∀ run ∈ runs p cs, run ≠ [] := by
  induction cs with
  | nil => simp [runs]
  | cons c rest ih =>
    unfold runs
    split
    case isFalse => exact ih
    case isTrue here =>
      split
      · simp
      · split
        · split
          · simp
          · rename_i run others more
            rw [more] at ih
            simp only [List.mem_cons, forall_eq_or_imp] at ih ⊢
            exact ⟨by simp, ih.2⟩
        · simp only [List.mem_cons, forall_eq_or_imp]
          exact ⟨by simp, ih⟩

/-- A text with a character that satisfies the predicate has a run. -/
theorem runs_ne_nil_of_mem {p : Char → Bool} {cs : List Char} {c : Char} (member : c ∈ cs)
    (holds : p c = true) : runs p cs ≠ [] := by
  induction cs with
  | nil => cases member
  | cons first rest ih =>
    unfold runs
    split
    · split
      · simp
      · split
        · split <;> simp
        · simp
    · rename_i notFirst
      rcases List.mem_cons.mp member with rfl | later
      · exact absurd holds notFirst
      · exact ih later

/-- The pieces of a text between the occurrences of a character; there is always one. -/
def pieces (separator : Char) : List Char → List (List Char)
  | [] => [[]]
  | c :: rest =>
    if c = separator then [] :: pieces separator rest
    else match pieces separator rest with
      | [] => [[c]]
      | piece :: others => (c :: piece) :: others

theorem pieces_ne_nil (separator : Char) (cs : List Char) : pieces separator cs ≠ [] := by
  cases cs with
  | nil => simp [pieces]
  | cons c rest =>
    unfold pieces
    split
    · simp
    · split <;> simp

/-- The texts in one, with the separator between each two. -/
def join (separator : List Char) : List (List Char) → List Char
  | [] => []
  | [piece] => piece
  | piece :: others => piece ++ separator ++ join separator others

theorem join_cons_cons (separator first next : List Char) (others : List (List Char)) :
    join separator (first :: next :: others) =
      first ++ (separator ++ join separator (next :: others)) :=
  List.append_assoc first separator _

/-- The text before the last occurrence of a character; empty where there is none. -/
def beforeLast (separator : Char) (cs : List Char) : List Char :=
  join [separator] (pieces separator cs).dropLast

/-- The text after the last occurrence of a character; all of it where there is none. -/
def afterLast (separator : Char) (cs : List Char) : List Char :=
  (pieces separator cs).getLast?.getD []

/-- Cutting at a character and joining by it gives the text back. -/
theorem join_pieces (separator : Char) (cs : List Char) :
    join [separator] (pieces separator cs) = cs := by
  induction cs with
  | nil => rfl
  | cons c rest ih =>
    unfold pieces
    have some := pieces_ne_nil separator rest
    split
    case isTrue same =>
      subst same
      cases more : pieces c rest with
      | nil => exact absurd more some
      | cons piece others => rw [more] at ih; simp [join, ih]
    case isFalse =>
      cases more : pieces separator rest with
      | nil => exact absurd more some
      | cons piece others =>
        rw [more] at ih
        cases others with
        | nil => simpa [join] using ih
        | cons next rest => simpa [join] using ih

end RamlInterfaces.Text
