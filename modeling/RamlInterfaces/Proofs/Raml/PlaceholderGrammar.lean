/-
**The placeholders of a text, by their grammar.**

A placeholder is spelled by two opening brackets, a name, perhaps a bar with an exclamation mark and
the word of a transform, and two closing brackets, with blanks around the name and behind the bar
and the word.  A text is cut into its placeholders and the characters between them from the left: a
place at which a placeholder is spelled is the start of one, unless it is inside another.

* `Spells`, `Cut`: the grammar of a placeholder, and the cutting of a text;
* `readPlaceholder?_eq_some_iff`: **what is read at the start of a text is what is spelled there**;
* `cut_iff`: **the pieces of a text are those that it is cut into**;
* `Names`: the text names a placeholder;
* `segments_of_plain`: a text without two opening brackets in a row has no placeholder.
-/

import RamlInterfaces.Raml.Placeholder

namespace RamlInterfaces.Raml

/-- The text has blanks only. -/
def AllBlank (text : List Char) : Prop := ∀ c ∈ text, Text.isBlank c = true

/-- How the transform of a placeholder is spelled: not at all, if there is none. -/
inductive SpellsTransform : Option String → List Char → Prop where
  | none : SpellsTransform none []
  | word {word before after : List Char} (nonempty : word ≠ [])
    (isWord : ∀ c ∈ word, Text.isWordChar c = true) (blankBefore : AllBlank before)
    (blankAfter : AllBlank after) :
    SpellsTransform (some (String.ofList word)) ('|' :: (before ++ '!' :: (word ++ after)))

/-- How a placeholder is spelled. -/
inductive Spells : Placeholder → List Char → Prop where
  | intro {name before after part : List Char} {transform : Option String} (nonempty : name ≠ [])
    (isName : ∀ c ∈ name, isNameChar c = true) (blankBefore : AllBlank before)
    (blankAfter : AllBlank after) (spelled : SpellsTransform transform part) :
    Spells ⟨String.ofList name, transform⟩
      ('<' :: '<' :: (before ++ (name ++ (after ++ (part ++ ['>', '>'])))))

/-- A text is cut into pieces: at a place where a placeholder is spelled it is the next piece, and
at any other place the next character is. -/
inductive Cut : List Char → List Segment → Prop where
  | nil : Cut [] []
  | placeholder {p : Placeholder} {written rest : List Char} {pieces : List Segment}
    (spelled : Spells p written) (further : Cut rest pieces) :
    Cut (written ++ rest) (.placeholder p :: pieces)
  | char {c : Char} {rest : List Char} {pieces : List Segment}
    (none : ∀ p written after, Spells p written → c :: rest ≠ written ++ after)
    (further : Cut rest pieces) : Cut (c :: rest) (.char c :: pieces)

variable {p : Placeholder} {transform : Option String} {cs written part rest : List Char} {c : Char}
  {pieces : List Segment}

/-! ### Classes of characters -/

theorem isBlank_of_isNameChar (isName : isNameChar c = true) : Text.isBlank c = false := by
  unfold isNameChar at isName
  simp only [Bool.and_eq_true, Bool.not_eq_true'] at isName
  exact isName.2

/-- No blank is a letter, a digit or the low line. -/
theorem isWordChar_of_isBlank (blank : Text.isBlank c = true) : Text.isWordChar c = false := by
  have codes : ∀ code ∈ [9, 10, 11, 12, 13, 28, 29, 30, 31, 32, 0x85, 0xA0, 0x1680, 0x2000, 0x2001,
      0x2002, 0x2003, 0x2004, 0x2005, 0x2006, 0x2007, 0x2008, 0x2009, 0x200A, 0x2028, 0x2029,
      0x202F, 0x205F, 0x3000], Text.isWordChar (Char.ofNat code) = false := by
    decide +kernel
  have isCode := codes c.toNat ?_
  · rwa [Char.ofNat_toNat] at isCode
  · unfold Text.isBlank at blank
    simp only [Bool.or_eq_true, Bool.and_eq_true, decide_eq_true_eq, beq_iff_eq] at blank
    simp only [List.mem_cons, List.not_mem_nil, or_false]
    omega

/-! ### Runs before other characters -/

theorem mem_of_mem_head?_append {front back : List Char} (first : c ∈ (front ++ back).head?) :
    c ∈ front ∨ c ∈ back.head? := by
  cases front with
  | nil => exact .inr first
  | cons d front => exact .inl (Option.some.inj first ▸ List.mem_cons_self)

/-- A run is taken and dropped as a whole before a character of another kind. -/
theorem takeWhile_run {kind : Char → Bool} {run : List Char} (all : ∀ c ∈ run, kind c = true)
    (ends : ∀ c ∈ rest.head?, kind c = false) :
    (run ++ rest).takeWhile kind = run ∧ (run ++ rest).dropWhile kind = rest := by
  rw [List.takeWhile_append_of_pos all, List.dropWhile_append_of_pos all]
  cases rest with
  | nil => exact ⟨List.append_nil _, rfl⟩
  | cons c rest =>
    have other : ¬ kind c = true := Bool.eq_false_iff.mp (ends c rfl)
    rw [List.takeWhile_cons_of_neg other, List.dropWhile_cons_of_neg other]
    exact ⟨List.append_nil _, rfl⟩

theorem dropBlanks_run {blanks : List Char} (blank : AllBlank blanks)
    (ends : ∀ c ∈ rest.head?, Text.isBlank c = false) :
    Text.dropBlanks (blanks ++ rest) = rest := (takeWhile_run blank ends).2

theorem allBlank_takeWhile (cs : List Char) : AllBlank (cs.takeWhile Text.isBlank) :=
  fun _ member => List.all_eq_true.mp List.all_takeWhile _ member

theorem takeWhile_append_dropBlanks (cs : List Char) :
    cs.takeWhile Text.isBlank ++ Text.dropBlanks cs = cs := List.takeWhile_append_dropWhile

/-! ### Reading -/

/-- A transform is read where it is spelled before a closing bracket. -/
theorem readTransform?_append (spelled : SpellsTransform transform part) (rest : List Char) :
    readTransform? (part ++ '>' :: rest) = some (transform, '>' :: rest) := by
  cases spelled with
  | none => rfl
  | @word word before after nonempty isWord blankBefore blankAfter =>
    have mark : Text.dropBlanks (before ++ '!' :: (word ++ (after ++ '>' :: rest))) =
        '!' :: (word ++ (after ++ '>' :: rest)) :=
      dropBlanks_run blankBefore fun c first => by cases Option.some.inj first; decide
    have run := @takeWhile_run (after ++ '>' :: rest) _ _ isWord fun c first => by
      rcases mem_of_mem_head?_append first with blank | bracket
      · exact isWordChar_of_isBlank (blankAfter c blank)
      · cases Option.some.inj bracket
        decide
    have blanks : Text.dropBlanks (after ++ '>' :: rest) = '>' :: rest :=
      dropBlanks_run blankAfter fun c first => by cases Option.some.inj first; decide
    simp only [List.cons_append, List.append_assoc]
    unfold readTransform?
    simp only [mark, run.1, run.2, blanks, List.isEmpty_eq_false_iff.mpr nonempty]
    rfl

/-- A transform that is read is spelled there. -/
theorem exists_of_readTransform? (read : readTransform? cs = some (transform, rest)) :
    ∃ part, SpellsTransform transform part ∧ cs = part ++ rest := by
  unfold readTransform? at read
  split at read
  · rename_i behind
    split at read
    · rename_i word marked
      simp only at read
      split at read
      · cases read
      · rename_i nonempty
        cases read
        refine ⟨_, .word (fun empty => nonempty (List.isEmpty_iff.mpr empty))
          (fun c member => List.all_eq_true.mp List.all_takeWhile c member)
          (allBlank_takeWhile behind) (allBlank_takeWhile (word.dropWhile Text.isWordChar)), ?_⟩
        have whole : '!' :: (word.takeWhile Text.isWordChar ++ ((word.dropWhile
            Text.isWordChar).takeWhile Text.isBlank ++
              Text.dropBlanks (word.dropWhile Text.isWordChar))) = Text.dropBlanks behind := by
          rw [takeWhile_append_dropBlanks, List.takeWhile_append_dropWhile, marked]
        simp only [List.cons_append, List.append_assoc]
        rw [whole, takeWhile_append_dropBlanks]
    · cases read
  · cases read
    exact ⟨[], .none, rfl⟩

theorem readPlaceholder?_append (spelled : Spells p written) (rest : List Char) :
    readPlaceholder? (written ++ rest) = some (p, rest) := by
  obtain @⟨name, before, after, part, transform, nonempty, isName, blankBefore, blankAfter,
    spelledPart⟩ := spelled
  have transformed := readTransform?_append spelledPart ('>' :: rest)
  have opens : ∀ c ∈ (part ++ '>' :: '>' :: rest).head?, c = '|' ∨ c = '>' := by
    intro c first
    cases spelledPart with
    | none => exact .inr (Option.some.inj first).symm
    | word => exact .inl (Option.some.inj first).symm
  have start : Text.dropBlanks (before ++ (name ++ (after ++ (part ++ '>' :: '>' :: rest)))) =
      name ++ (after ++ (part ++ '>' :: '>' :: rest)) := by
    refine dropBlanks_run blankBefore fun c first => ?_
    obtain ⟨d, others, rfl⟩ := List.exists_cons_of_ne_nil nonempty
    have isFirst : d = c := Option.some.inj first
    exact isBlank_of_isNameChar (isName c (isFirst ▸ List.mem_cons_self))
  have run := @takeWhile_run (after ++ (part ++ '>' :: '>' :: rest)) _ _ isName
    fun c first => by
      rcases mem_of_mem_head?_append first with blank | first
      · have isBlank := blankAfter c blank
        exact Bool.eq_false_iff.mpr fun named => by
          rw [isBlank_of_isNameChar named] at isBlank
          cases isBlank
      · rcases opens c first with rfl | rfl <;> decide
  have blanks : Text.dropBlanks (after ++ (part ++ '>' :: '>' :: rest)) =
      part ++ '>' :: '>' :: rest := by
    refine dropBlanks_run blankAfter fun c first => ?_
    rcases opens c first with rfl | rfl <;> decide
  simp only [List.cons_append, List.append_assoc, List.nil_append]
  unfold readPlaceholder?
  simp only [start, run.1, run.2, blanks, transformed, List.isEmpty_eq_false_iff.mpr nonempty]
  rfl

/-- **What is read at the start of a text is what is spelled there.** -/
theorem readPlaceholder?_eq_some_iff : readPlaceholder? cs = some (p, rest) ↔
    ∃ written, Spells p written ∧ cs = written ++ rest := by
  constructor
  · intro read
    unfold readPlaceholder? at read
    split at read
    · rename_i inside
      simp only at read
      split at read
      · cases read
      · rename_i nonempty
        split at read
        · rename_i transform after transformed
          cases read
          obtain ⟨part, spelled, cut⟩ := exists_of_readTransform? transformed
          refine ⟨_, .intro (fun empty => nonempty (List.isEmpty_iff.mpr empty))
            (fun c member => List.all_eq_true.mp List.all_takeWhile c member)
            (allBlank_takeWhile inside)
            (allBlank_takeWhile ((Text.dropBlanks inside).dropWhile isNameChar)) spelled, ?_⟩
          simp only [List.cons_append, List.append_assoc, List.nil_append]
          rw [← cut, takeWhile_append_dropBlanks, List.takeWhile_append_dropWhile,
            takeWhile_append_dropBlanks]
        · cases read
    · cases read
  · rintro ⟨written, spelled, rfl⟩
    exact readPlaceholder?_append spelled rest

theorem readPlaceholder?_eq_none_iff : readPlaceholder? cs = none ↔
    ∀ p written after, Spells p written → cs ≠ written ++ after := by
  rw [Option.eq_none_iff_forall_ne_some]
  constructor
  · rintro none p written after spelled same
    exact none (p, after) (readPlaceholder?_eq_some_iff.mpr ⟨written, spelled, same⟩)
  · rintro none ⟨p, after⟩ read
    obtain ⟨written, spelled, same⟩ := readPlaceholder?_eq_some_iff.mp read
    exact none p written after spelled same

/-! ### Cutting -/

theorem segmentsAfter_append (skipped rest : List Char) :
    segmentsAfter skipped.length (skipped ++ rest) = segments rest := by
  induction skipped with
  | nil => rfl
  | cons c skipped ih => exact ih

/-- A placeholder at the start of a text is the first piece. -/
theorem segments_append (spelled : Spells p written) (rest : List Char) :
    segments (written ++ rest) = .placeholder p :: segments rest := by
  have read := readPlaceholder?_append spelled rest
  obtain ⟨inside, same⟩ : ∃ inside, written = '<' :: inside := by
    cases spelled
    exact ⟨_, rfl⟩
  subst same
  have skipped : (inside ++ rest).length - rest.length = inside.length := by
    rw [List.length_append, Nat.add_sub_cancel]
  rw [List.cons_append] at read ⊢
  rw [segments, segmentsAfter, read]
  show Segment.placeholder p :: segmentsAfter _ (inside ++ rest) = _
  rw [skipped, segmentsAfter_append]

theorem segments_cons (none : readPlaceholder? (c :: cs) = none) :
    segments (c :: cs) = .char c :: segments cs := by
  rw [segments, segmentsAfter, none]
  rfl

/-- Every text can be cut, into the pieces that are found from left to right. -/
theorem cut_segments (cs : List Char) : Cut cs (segments cs) := by
  induction length : cs.length using Nat.strongRecOn generalizing cs with
  | ind n ih =>
    cases cs with
    | nil => exact .nil
    | cons c rest =>
      cases read : readPlaceholder? (c :: rest) with
      | none =>
        rw [segments_cons read]
        refine .char (readPlaceholder?_eq_none_iff.mp read) (ih rest.length ?_ rest rfl)
        rw [← length]
        exact Nat.lt_succ_self _
      | some found =>
        obtain ⟨p, after⟩ := found
        obtain ⟨written, spelled, same⟩ := readPlaceholder?_eq_some_iff.mp read
        rw [same, segments_append spelled]
        refine .placeholder spelled (ih after.length ?_ after rfl)
        rw [← length, same, List.length_append]
        cases spelled
        simp only [List.length_cons]
        omega

/-- **The pieces of a text are those that it is cut into.** -/
theorem cut_iff : Cut cs pieces ↔ pieces = segments cs := by
  constructor
  · intro cut
    induction cut with
    | nil => rfl
    | placeholder spelled _ ih => rw [segments_append spelled, ih]
    | char none _ ih => rw [segments_cons (readPlaceholder?_eq_none_iff.mpr none), ih]
  · rintro rfl
    exact cut_segments cs

theorem mayHoldPlaceholder_cons_iff : mayHoldPlaceholder (c :: cs) = true ↔
    c = '<' ∧ cs.head? = some '<' ∨ mayHoldPlaceholder cs = true := by
  by_cases opens : c = '<' ∧ cs.head? = some '<'
  · obtain ⟨rfl, first⟩ := opens
    obtain ⟨rest, rfl⟩ := List.head?_eq_some_iff.mp first
    exact iff_of_true rfl (.inl ⟨rfl, first⟩)
  · have next : mayHoldPlaceholder (c :: cs) = mayHoldPlaceholder cs := by
      rw [mayHoldPlaceholder]
      rintro rest rfl rfl
      exact opens ⟨rfl, rfl⟩
    rw [next, or_iff_right opens]

/-- A text without two opening brackets in a row has no placeholder. -/
theorem segments_of_plain (plain : mayHoldPlaceholder cs = false) :
    segments cs = cs.map .char := by
  induction cs with
  | nil => rfl
  | cons c rest ih =>
    have none : readPlaceholder? (c :: rest) = none := by
      refine readPlaceholder?_eq_none_iff.mpr fun p written after spelled same => ?_
      have opens : mayHoldPlaceholder (written ++ after) = true := by
        cases spelled
        rfl
      rw [← same, plain] at opens
      cases opens
    have later : mayHoldPlaceholder rest = false :=
      Bool.eq_false_iff.mpr fun opens =>
        Bool.eq_false_iff.mp plain (mayHoldPlaceholder_cons_iff.mpr (.inr opens))
    rw [segments_cons none, ih later, List.map_cons]

theorem mayHoldPlaceholder_of_notMem (none : '<' ∉ cs) : mayHoldPlaceholder cs = false := by
  induction cs with
  | nil => rfl
  | cons c rest ih =>
    rw [List.mem_cons, not_or] at none
    refine Bool.eq_false_iff.mpr fun opens => ?_
    rcases mayHoldPlaceholder_cons_iff.mp opens with ⟨rfl, -⟩ | later
    · exact none.1 rfl
    · rw [ih none.2] at later
      cases later

end RamlInterfaces.Raml
