/-
**The pieces and the runs of a text.**

A text is cut into pieces at each place of a character, and into runs of the characters that a
predicate holds of.

* `pieces_eq_self`, `pieces_append`: a text without the character, and one around it;
* `pieces_join`: **pieces are found again in the text that the character joins them to**;
* `notMem_of_mem_pieces`: no piece holds the character;
* `exists_last`: the last occurrence;
* `pieces_concat`: one more character at the end;
* `afterLast_append`, `beforeLast_append`: the parts of a text around its last occurrence;
* `mem_join`, `toList_intercalate`, `toList_intercalate_cons`: the characters of joined texts;
* `runs_append`: **a text around a character of no run**;
* `runs_append_of_none`: a text after characters of no run;
* `runs_eq_self`, `runs_join`: a text that is one run, and runs with a character of none between
  each two;
* `runs_eq_nil_iff`, `runs_eq_singleton_iff`: the texts with no run and with one.
-/

import RamlInterfaces.Text.Runs

namespace RamlInterfaces.Text

/-! ### Pieces -/

section Pieces

variable {separator : Char}

theorem pieces_eq_self {cs : List Char} (none : separator ∉ cs) : pieces separator cs = [cs] := by
  induction cs with
  | nil => rfl
  | cons c rest ih =>
    rw [List.mem_cons, not_or] at none
    rw [pieces, if_neg (Ne.symm none.1), ih none.2]

/-- A text of more pieces than one holds the character. -/
theorem mem_of_pieces {cs : List Char} (more : 1 < (pieces separator cs).length) :
    separator ∈ cs := by
  by_cases member : separator ∈ cs
  · exact member
  · rw [pieces_eq_self member] at more
    exact absurd more (Nat.lt_irrefl 1)

theorem pieces_append (separator : Char) (left right : List Char) :
    pieces separator (left ++ separator :: right) =
      pieces separator left ++ pieces separator right := by
  induction left with
  | nil =>
    show pieces separator (separator :: right) = [] :: pieces separator right
    rw [pieces, if_pos rfl]
  | cons c rest ih =>
    rw [List.cons_append, pieces, pieces, ih]
    by_cases same : c = separator
    · rw [if_pos same, if_pos same]
      rfl
    · rw [if_neg same, if_neg same]
      cases more : pieces separator rest with
      | nil => exact absurd more (pieces_ne_nil separator rest)
      | cons piece others => rfl

/-- **Pieces are found again in the text that the character joins them to.** -/
theorem pieces_join {texts : List (List Char)} (some : texts ≠ [])
    (none : ∀ text ∈ texts, separator ∉ text) :
    pieces separator (join [separator] texts) = texts := by
  induction texts with
  | nil => exact absurd rfl some
  | cons first rest ih =>
    obtain ⟨isPiece, others⟩ := List.forall_mem_cons.mp none
    cases rest with
    | nil => exact pieces_eq_self isPiece
    | cons next more =>
      rw [join_cons_cons, List.singleton_append, pieces_append, pieces_eq_self isPiece,
        ih (List.cons_ne_nil next more) others, List.singleton_append]

/-- No piece holds the character that the text is cut at. -/
theorem notMem_of_mem_pieces {cs piece : List Char} (member : piece ∈ pieces separator cs) :
    separator ∉ piece := by
  induction cs generalizing piece with
  | nil =>
    rw [pieces, List.mem_singleton] at member
    simp [member]
  | cons c rest ih =>
    rw [pieces] at member
    split at member
    · rcases List.mem_cons.mp member with rfl | later
      · exact List.not_mem_nil
      · exact ih later
    · rename_i other
      cases more : pieces separator rest with
      | nil => exact absurd more (pieces_ne_nil separator rest)
      | cons first others =>
        rw [more] at member ih
        rcases List.mem_cons.mp member with rfl | later
        · rw [List.mem_cons, not_or]
          exact ⟨Ne.symm other, ih List.mem_cons_self⟩
        · exact ih (List.mem_cons_of_mem _ later)

/-- A text with the character can be cut at the last of them. -/
theorem exists_last {cs : List Char} (member : separator ∈ cs) :
    ∃ left right, cs = left ++ separator :: right ∧ separator ∉ right := by
  induction cs with
  | nil => exact absurd member List.not_mem_nil
  | cons c rest ih =>
    by_cases later : separator ∈ rest
    · obtain ⟨left, right, cut, none⟩ := ih later
      exact ⟨c :: left, right, by rw [cut, List.cons_append], none⟩
    · rcases List.mem_cons.mp member with rfl | there
      · exact ⟨[], rest, rfl, later⟩
      · exact absurd there later

theorem notMem_afterLast (separator : Char) (cs : List Char) :
    separator ∉ afterLast separator cs := by
  unfold afterLast
  cases last : (pieces separator cs).getLast? with
  | none => exact List.not_mem_nil
  | some piece => exact notMem_of_mem_pieces (List.mem_of_getLast? last)

theorem afterLast_append (left : List Char) {right : List Char} (none : separator ∉ right) :
    afterLast separator (left ++ separator :: right) = right := by
  unfold afterLast
  rw [pieces_append, pieces_eq_self none, List.getLast?_concat]
  rfl

theorem beforeLast_append (left : List Char) {right : List Char} (none : separator ∉ right) :
    beforeLast separator (left ++ separator :: right) = left := by
  unfold beforeLast
  rw [pieces_append, pieces_eq_self none, List.dropLast_concat, join_pieces]

/-- One more character at the end is the last of the last piece. -/
theorem pieces_concat (cs : List Char) {c : Char} (other : c ≠ separator) :
    pieces separator (cs ++ [c]) =
      (pieces separator cs).dropLast ++ [afterLast separator cs ++ [c]] := by
  have longer {right : List Char} (none : separator ∉ right) : separator ∉ right ++ [c] := by
    rw [List.mem_append, List.mem_singleton, not_or]
    exact ⟨none, Ne.symm other⟩
  by_cases found : separator ∈ cs
  · obtain ⟨left, right, rfl, none⟩ := exists_last found
    rw [List.append_assoc, List.cons_append, pieces_append, pieces_append, pieces_eq_self none,
      pieces_eq_self (longer none), List.dropLast_concat, afterLast_append left none]
  · unfold afterLast
    rw [pieces_eq_self found, pieces_eq_self (longer found)]
    rfl

/-- One more character makes the last piece longer. -/
theorem mem_pieces_concat {cs piece : List Char} {c : Char} (other : c ≠ separator)
    (member : piece ∈ pieces separator (cs ++ [c])) :
    piece ∈ pieces separator cs ∨ ∃ before ∈ pieces separator cs, piece = before ++ [c] := by
  rw [pieces_concat cs other] at member
  rcases List.mem_append.mp member with before | last
  · exact .inl (List.dropLast_subset _ before)
  · refine .inr ⟨afterLast separator cs, ?_, List.mem_singleton.mp last⟩
    unfold afterLast
    rw [List.getLast?_eq_some_getLast (pieces_ne_nil separator cs)]
    exact List.getLast_mem (pieces_ne_nil separator cs)

/-- A character of joined texts is one of the separator or of some text. -/
theorem mem_join {separator : List Char} {texts : List (List Char)} {c : Char}
    (member : c ∈ join separator texts) : c ∈ separator ∨ ∃ text ∈ texts, c ∈ text := by
  induction texts with
  | nil => cases member
  | cons first rest ih =>
    cases rest with
    | nil => exact .inr ⟨first, List.mem_cons_self, member⟩
    | cons next others =>
      rw [join_cons_cons, List.mem_append, List.mem_append] at member
      rcases member with inFirst | inSeparator | further
      · exact .inr ⟨first, List.mem_cons_self, inFirst⟩
      · exact .inl inSeparator
      · rcases ih further with inSeparator | ⟨text, isText, inside⟩
        · exact .inl inSeparator
        · exact .inr ⟨text, List.mem_cons_of_mem _ isText, inside⟩

theorem join_eq_intercalate (separator : List Char) (texts : List (List Char)) :
    join separator texts = separator.intercalate texts := by
  induction texts with
  | nil => rfl
  | cons first rest ih =>
    cases rest with
    | nil => rw [List.intercalate_singleton, join]
    | cons next more =>
      rw [List.intercalate_cons_cons, ← ih]
      rfl

theorem toList_intercalate (separator : String) (texts : List String) :
    (separator.intercalate texts).toList = join separator.toList (texts.map String.toList) := by
  rw [String.toList_intercalate, join_eq_intercalate]

theorem toList_intercalate_cons (separator first : String) (others : List String) :
    (separator.intercalate (first :: others)).toList =
      first.toList ++ others.flatMap fun other => separator.toList ++ other.toList := by
  induction others generalizing first with
  | nil => simp
  | cons next more ih =>
    rw [String.intercalate_cons_cons, String.toList_append, String.toList_append, ih,
      List.flatMap_cons, List.append_assoc, List.append_assoc]

end Pieces

/-! ### Runs -/

section Runs

variable {p : Char → Bool}

theorem runs_cons_of_none {c : Char} (other : p c = false) (rest : List Char) :
    runs p (c :: rest) = runs p rest := by
  rw [runs.eq_def]
  dsimp only
  rw [other, if_neg Bool.false_ne_true]

theorem runs_singleton {c : Char} (here : p c = true) : runs p [c] = [[c]] := by
  rw [runs.eq_def]
  dsimp only
  rw [if_pos here]

/-- A character in front of a run is its first. -/
theorem runs_cons_of_run {c next : Char} (here : p c = true) (joined : p next = true)
    {rest run : List Char} {others : List (List Char)}
    (first : runs p (next :: rest) = run :: others) :
    runs p (c :: next :: rest) = (c :: run) :: others := by
  rw [runs.eq_def]
  dsimp only
  rw [if_pos here, if_pos joined, first]

/-- A character in front of one of no run is a run. -/
theorem runs_cons_of_cut {c next : Char} (here : p c = true) (cut : p next = false)
    (rest : List Char) : runs p (c :: next :: rest) = [c] :: runs p (next :: rest) := by
  rw [runs.eq_def]
  dsimp only
  rw [if_pos here, cut, if_neg Bool.false_ne_true]

/-- Characters of no run in front of a text. -/
theorem runs_append_of_none {before : List Char} (others : ∀ c ∈ before, p c = false)
    (rest : List Char) : runs p (before ++ rest) = runs p rest := by
  induction before with
  | nil => rfl
  | cons c more ih =>
    obtain ⟨other, none⟩ := List.forall_mem_cons.mp others
    rw [List.cons_append, runs_cons_of_none other, ih none]

theorem runs_eq_nil_iff {cs : List Char} : runs p cs = [] ↔ ∀ c ∈ cs, p c = false := by
  constructor
  · intro none c member
    exact Bool.eq_false_iff.mpr fun holds => runs_ne_nil_of_mem member holds none
  · intro others
    have all := runs_append_of_none others []
    rwa [List.append_nil] at all

/-- **The runs of a text around a character of none.** -/
theorem runs_append {c : Char} (other : p c = false) (left right : List Char) :
    runs p (left ++ c :: right) = runs p left ++ runs p right := by
  induction left with
  | nil => exact runs_cons_of_none other right
  | cons first rest ih =>
    by_cases here : p first = true
    · cases rest with
      | nil =>
        rw [List.singleton_append, runs_cons_of_cut here other, runs_cons_of_none other,
          runs_singleton here]
        rfl
      | cons next more =>
        rw [List.cons_append, List.cons_append]
        rw [List.cons_append] at ih
        by_cases joined : p next = true
        · cases start : runs p (next :: more) with
          | nil => exact absurd start (runs_ne_nil_of_mem List.mem_cons_self joined)
          | cons run others =>
            rw [start] at ih
            rw [runs_cons_of_run here joined start, runs_cons_of_run here joined ih]
            rfl
        · rw [Bool.not_eq_true] at joined
          rw [runs_cons_of_cut here joined, runs_cons_of_cut here joined, ih]
          rfl
    · rw [Bool.not_eq_true] at here
      rw [List.cons_append, runs_cons_of_none here, runs_cons_of_none here, ih]

/-- A text that is one run. -/
theorem runs_eq_self {run : List Char} (some : run ≠ []) (all : ∀ c ∈ run, p c = true) :
    runs p run = [run] := by
  induction run with
  | nil => exact absurd rfl some
  | cons first rest ih =>
    obtain ⟨here, inside⟩ := List.forall_mem_cons.mp all
    cases rest with
    | nil => exact runs_singleton here
    | cons next more =>
      exact runs_cons_of_run here (inside next List.mem_cons_self)
        (ih (List.cons_ne_nil next more) inside)

/-- **Runs are found again in a text that has a character of none between each two.** -/
theorem runs_join {c : Char} (other : p c = false) {texts : List (List Char)}
    (some : ∀ text ∈ texts, text ≠ []) (all : ∀ text ∈ texts, ∀ c ∈ text, p c = true) :
    runs p (join [c] texts) = texts := by
  induction texts with
  | nil => rfl
  | cons first rest ih =>
    obtain ⟨isSome, others⟩ := List.forall_mem_cons.mp some
    obtain ⟨isRun, inside⟩ := List.forall_mem_cons.mp all
    cases rest with
    | nil => exact runs_eq_self isSome isRun
    | cons next more =>
      rw [join_cons_cons, List.singleton_append, runs_append other, runs_eq_self isSome isRun,
        ih others inside, List.singleton_append]

/-- A text with a run is cut around its first one. -/
theorem exists_cut {cs : List Char} (some : runs p cs ≠ []) : ∃ before run after,
    cs = before ++ run ++ after ∧ (∀ c ∈ before, p c = false) ∧
      runs p cs = run :: runs p after := by
  induction cs with
  | nil => exact absurd rfl some
  | cons c rest ih =>
    by_cases here : p c = true
    · cases rest with
      | nil =>
        refine ⟨[], [c], [], rfl, fun _ member => absurd member List.not_mem_nil, ?_⟩
        exact runs_singleton here
      | cons next more =>
        by_cases joined : p next = true
        · obtain ⟨before, run, after, cut, none, first⟩ :=
            ih (runs_ne_nil_of_mem List.mem_cons_self joined)
          -- the run that starts at the next character goes on from this one
          cases before with
          | nil =>
            refine ⟨[], c :: run, after, congrArg (c :: ·) cut, none, ?_⟩
            exact runs_cons_of_run here joined first
          | cons other others =>
            obtain ⟨rfl, -⟩ := List.cons.inj cut
            rw [none next List.mem_cons_self] at joined
            cases joined
        · rw [Bool.not_eq_true] at joined
          refine ⟨[], [c], next :: more, rfl, fun _ member => absurd member List.not_mem_nil, ?_⟩
          exact runs_cons_of_cut here joined more
    · rw [Bool.not_eq_true] at here
      rw [runs_cons_of_none here] at some
      obtain ⟨before, run, after, cut, none, first⟩ := ih some
      refine ⟨c :: before, run, after, congrArg (c :: ·) cut, ?_, ?_⟩
      · exact List.forall_mem_cons.mpr ⟨here, none⟩
      · rw [runs_cons_of_none here, first]

/-- **A text has one run** if that stands between characters of none. -/
theorem runs_eq_singleton_iff {cs run : List Char} : runs p cs = [run] ↔
    run ≠ [] ∧ (∀ c ∈ run, p c = true) ∧ ∃ before after, cs = before ++ run ++ after ∧
      (∀ c ∈ before, p c = false) ∧ ∀ c ∈ after, p c = false := by
  constructor
  · intro single
    have member : run ∈ runs p cs := by
      rw [single]
      exact List.mem_cons_self
    have some : runs p cs ≠ [] := by
      rw [single]
      exact List.cons_ne_nil run []
    obtain ⟨before, first, after, cut, none, found⟩ := exists_cut some
    obtain ⟨rfl, last⟩ := List.cons.inj (single.symm.trans found)
    exact ⟨runs_ne_nil p cs run member, runs_all p cs run member, before, after, cut, none,
      runs_eq_nil_iff.mp last.symm⟩
  · rintro ⟨some, all, before, after, rfl, noneBefore, noneAfter⟩
    rw [List.append_assoc, runs_append_of_none noneBefore]
    cases after with
    | nil => rw [List.append_nil, runs_eq_self some all]
    | cons c rest =>
      obtain ⟨other, others⟩ := List.forall_mem_cons.mp noneAfter
      rw [runs_append other, runs_eq_self some all, runs_eq_nil_iff.mpr others, List.append_nil]

end Runs

end RamlInterfaces.Text
