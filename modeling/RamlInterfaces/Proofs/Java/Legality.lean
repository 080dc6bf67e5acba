/-
**Names that Java accepts.**

A name is legal if it is an identifier and no reserved word.  Reserved words are made of small
letters, so an identifier with any other character is legal.

* `IsLegal`: a legal name;
* `isLegal_typeName`, `isLegal_variableName`: the names made from a text with a letter or digit;
* `isLegal_constantName`: **the name of an enum constant, whatever its literal**;
* `typeName_ne_empty`, `exists_alphanum_variableName`: which texts have names;
* `isLegal_literalField`: **the field of an enum, whatever its constants**;
* `SearchEnds`: the search for such a field, which nothing bounds, ends with a name;
* `exists_behindLowLines_notMem`: there are too few taken names for all that it tries;
* `literalField_fewest`: **so it ends**, with the fewest low lines.
-/

import Mathlib.Data.Finset.Card
import RamlInterfaces.Java.Source
import RamlInterfaces.Proofs.Java.Identifier
import RamlInterfaces.Proofs.Text.Runs
import RamlInterfaces.Text.Blank

namespace RamlInterfaces.Java

/-- Java accepts the name: it is an identifier, and no reserved word. -/
structure IsLegal (name : String) : Prop where
  identifier : isIdentifier name.toList = true
  free : name ∉ reservedWords

instance (name : String) : Decidable (IsLegal name) :=
  decidable_of_iff (isIdentifier name.toList = true ∧ name ∉ reservedWords)
    ⟨fun both => ⟨both.1, both.2⟩, fun legal => ⟨legal.identifier, legal.free⟩⟩

/-! ### Identifiers -/

theorem isIdentifierChar_of_start {c : Char} (start : isIdentifierStart c = true) :
    isIdentifierChar c = true := by
  unfold isIdentifierStart at start
  unfold isIdentifierChar Char.isAlphanum
  grind

theorem isIdentifierChar_of_isPlainChar {c : Char} (plain : isPlainChar c = true) :
    isIdentifierChar c = true := by
  unfold isPlainChar at plain
  unfold isIdentifierChar
  rw [plain, Bool.true_or]

/-- No character of an identifier is blank. -/
theorem isBlank_of_isIdentifierChar {c : Char} (inside : isIdentifierChar c = true) :
    Text.isBlank c = false := by
  have code : c.toNat = 36 ∨ 48 ≤ c.toNat ∧ c.toNat ≤ 122 := by
    unfold isIdentifierChar Char.isAlphanum Char.isAlpha Char.isUpper Char.isLower Char.isDigit
      at inside
    simp only [Bool.or_eq_true, Bool.and_eq_true, decide_eq_true_eq, beq_iff_eq, ge_iff_le,
      UInt32.le_iff_toNat_le] at inside
    have value : c.toNat = c.val.toNat := rfl
    rcases inside with (((upper | lower) | digit) | rfl) | rfl
    · simp at upper
      omega
    · simp at lower
      omega
    · simp at digit
      omega
    · decide
    · decide
  unfold Text.isBlank
  simp only [Bool.or_eq_false_iff, Bool.and_eq_false_iff, decide_eq_false_iff_not,
    beq_eq_false_iff_ne]
  omega

theorem isIdentifier_cons_iff {first : Char} {rest : List Char} :
    isIdentifier (first :: rest) = true ↔
      isIdentifierStart first = true ∧ ∀ c ∈ rest, isIdentifierChar c = true := by
  unfold isIdentifier
  rw [Bool.and_eq_true, List.all_eq_true]

theorem isIdentifierChar_of_mem {name : List Char} (identifier : isIdentifier name = true) :
    ∀ c ∈ name, isIdentifierChar c = true := by
  cases name with
  | nil => cases identifier
  | cons first rest =>
    obtain ⟨start, others⟩ := isIdentifier_cons_iff.mp identifier
    exact List.forall_mem_cons.mpr ⟨isIdentifierChar_of_start start, others⟩

/-- An identifier with more characters of identifiers is one. -/
theorem isIdentifier_append {start rest : List Char} (identifier : isIdentifier start = true)
    (others : ∀ c ∈ rest, isIdentifierChar c = true) : isIdentifier (start ++ rest) = true := by
  cases start with
  | nil => cases identifier
  | cons first letters =>
    obtain ⟨isStart, inside⟩ := isIdentifier_cons_iff.mp identifier
    exact isIdentifier_cons_iff.mpr ⟨isStart, List.forall_mem_append.mpr ⟨inside, others⟩⟩

/-- A name with a low line before a digit in front is an identifier. -/
theorem isIdentifier_markDigit {name : List Char} (some : name ≠ [])
    (plain : ∀ c ∈ name, isPlainChar c = true) : isIdentifier (markDigit name) = true := by
  cases name with
  | nil => exact absurd rfl some
  | cons first rest =>
    have others : ∀ c ∈ first :: rest, isIdentifierChar c = true :=
      fun c member => isIdentifierChar_of_isPlainChar (plain c member)
    unfold markDigit
    dsimp only
    split
    · exact isIdentifier_cons_iff.mpr ⟨rfl, others⟩
    · rename_i notDigit
      refine isIdentifier_cons_iff.mpr ⟨?_, (List.forall_mem_cons.mp others).2⟩
      have first := plain first List.mem_cons_self
      unfold isPlainChar Char.isAlphanum at first
      unfold isIdentifierStart
      grind

theorem isIdentifier_uncapitalize {name : List Char} (identifier : isIdentifier name = true) :
    isIdentifier (uncapitalize name) = true := by
  cases name with
  | nil => cases identifier
  | cons first rest =>
    obtain ⟨start, others⟩ := isIdentifier_cons_iff.mp identifier
    refine isIdentifier_cons_iff.mpr ⟨?_, others⟩
    unfold isIdentifierStart at start ⊢
    rw [Bool.or_assoc, Bool.or_eq_true_iff] at start
    rcases start with letter | mark
    · rw [isAlpha_toLower letter, Bool.true_or, Bool.true_or]
    · rw [Bool.or_eq_true_iff, beq_iff_eq, beq_iff_eq] at mark
      rcases mark with rfl | rfl <;> rfl

/-! ### Reserved words -/

theorem isLower_of_mem_reservedWords :
    ∀ word ∈ reservedWords, ∀ c ∈ word.toList, c.isLower = true := by
  have all : (reservedWords.all fun word => word.toList.all Char.isLower) = true := by decide
  intro word member
  exact List.all_eq_true.mp (List.all_eq_true.mp all word member)

variable {name : String}

/-- **An identifier with a character that is no small letter is legal.** -/
theorem IsLegal.of_mem (identifier : isIdentifier name.toList = true) {c : Char}
    (member : c ∈ name.toList) (notLower : c.isLower = false) : IsLegal name := by
  refine ⟨identifier, fun reserved => ?_⟩
  rw [isLower_of_mem_reservedWords name reserved c member] at notLower
  cases notLower

/-- **A legal name with a number after it is legal.** -/
theorem IsLegal.numbered (legal : IsLegal name) (number : Nat) :
    IsLegal (name ++ toString number) := by
  have shape : (name ++ toString number).toList = name.toList ++ Nat.toDigits 10 number := by
    rw [String.toList_append, Nat.toString_eq_repr, Nat.toList_repr]
  have digits : ∀ c ∈ Nat.toDigits 10 number, c.isDigit = true :=
    fun c member => Nat.isDigit_of_mem_toDigits (by decide) (by decide) member
  obtain ⟨digit, member⟩ := List.exists_mem_of_ne_nil _ (Nat.toDigits_ne_nil (n := number))
  refine IsLegal.of_mem (c := digit) ?_ ?_ ?_
  · rw [shape]
    refine isIdentifier_append legal.identifier fun c isInside => ?_
    unfold isIdentifierChar Char.isAlphanum
    rw [digits c isInside, Bool.or_true, Bool.true_or, Bool.true_or]
  · rw [shape]
    exact List.mem_append_right _ member
  · refine Bool.eq_false_iff.mpr fun lower => ?_
    have small := (isLower_iff.mp lower).1
    have least := digits digit member
    unfold Char.isDigit at least
    rw [Bool.and_eq_true, decide_eq_true_iff, decide_eq_true_iff] at least
    have greatest : digit.val.toNat ≤ 57 := least.2
    omega

/-- A mark before a reserved word makes it legal. -/
theorem isLegal_markReserved {letters : List Char} (identifier : isIdentifier letters = true) :
    IsLegal (String.ofList (markReserved letters)) := by
  unfold markReserved
  split
  · refine IsLegal.of_mem (c := '$') ?_ ?_ rfl
    · rw [String.toList_ofList]
      exact isIdentifier_cons_iff.mpr ⟨rfl, isIdentifierChar_of_mem identifier⟩
    · rw [String.toList_ofList]
      exact List.mem_cons_self
  · rename_i notReserved
    rw [← String.toList_ofList (l := letters)] at identifier
    exact ⟨identifier, fun reserved => notReserved (List.contains_iff_mem.mpr reserved)⟩

/-! ### Names made from a text -/

/-- The name of a type is an identifier where there is one. -/
theorem isIdentifier_typeNameChars {text : List Char} (usable : typeNameChars text ≠ []) :
    isIdentifier (typeNameChars text) = true := by
  refine isIdentifier_markDigit (fun none => usable ?_) fun c member =>
    isPlainChar_of_isAlphanum (isAlphanum_of_mem_capitalized text c member)
  unfold typeNameChars
  rw [none]
  rfl

/-- **The name of a type is legal where there is one.** -/
theorem isLegal_typeName {text : String} (usable : typeName text ≠ "") :
    IsLegal (typeName text) := by
  unfold typeName at usable ⊢
  cases shape : typeNameChars text.toList with
  | nil =>
    rw [shape] at usable
    exact absurd rfl usable
  | cons first rest =>
    have identifier : isIdentifier (typeNameChars text.toList) = true :=
      isIdentifier_typeNameChars (by simp [shape])
    rw [shape] at identifier
    refine IsLegal.of_mem (c := first) ?_ ?_ (isLower_of_typeNameChars shape)
    · rw [String.toList_ofList]
      exact identifier
    · rw [String.toList_ofList]
      exact List.mem_cons_self

/-- **The name of a variable is legal where there is one.** -/
theorem isLegal_variableName {text : String} (usable : variableName text ≠ "") :
    IsLegal (variableName text) := by
  refine isLegal_markReserved (isIdentifier_uncapitalize (isIdentifier_typeNameChars ?_))
  intro none
  refine usable ?_
  unfold variableName variableNameChars
  rw [none]
  decide

/-- **The name of an enum constant is legal, whatever its literal.** -/
theorem isLegal_constantName (literal : String) : IsLegal (constantName literal) := by
  unfold constantName constantNameChars
  split
  · decide
  · rename_i some
    refine isLegal_markReserved (isIdentifier_markDigit some fun c member => ?_)
    rcases Text.mem_join member with mark | ⟨word, isWord, inside⟩
    · rw [List.mem_singleton.mp mark]
      rfl
    · exact isPlainChar_of_isAlphanum (Text.runs_all Char.isAlphanum _ word isWord c inside)

/-! ### Names made from names -/

theorem markDigit_eq_nil_iff {name : List Char} : markDigit name = [] ↔ name = [] := by
  unfold markDigit
  cases name with
  | nil => exact Iff.rfl
  | cons first rest =>
    dsimp only
    split <;> simp

/-- A text with a letter or digit has words. -/
theorem capitalized_ne_nil {text : List Char} {c : Char} (member : c ∈ text)
    (usable : c.isAlphanum = true) : (words text).flatMap capitalize ≠ [] := by
  intro none
  obtain ⟨word, isWord⟩ := List.exists_mem_of_ne_nil _
    (Text.runs_ne_nil_of_mem (p := Char.isAlphanum) member usable)
  have empty := List.flatMap_eq_nil_iff.mp none word isWord
  cases word with
  | nil => exact Text.runs_ne_nil Char.isAlphanum _ [] isWord rfl
  | cons first rest => cases empty

/-- **A text with a letter or digit has a name of a type.** -/
theorem typeName_ne_empty {text : String} {c : Char} (member : c ∈ text.toList)
    (usable : c.isAlphanum = true) : typeName text ≠ "" := by
  intro none
  have chars : typeNameChars text.toList = [] := by
    rw [← String.toList_ofList (l := typeNameChars text.toList)]
    exact congrArg String.toList none
  exact capitalized_ne_nil member usable (markDigit_eq_nil_iff.mp chars)

/-- The name of a variable has a letter or digit. -/
theorem exists_alphanum_variableName {text : String} (usable : variableName text ≠ "") :
    ∃ c ∈ (variableName text).toList, c.isAlphanum = true := by
  have alphanum := isAlphanum_of_mem_capitalized text.toList
  have marked (name : List Char) : ∀ c ∈ name, c ∈ markReserved name := by
    intro c member
    unfold markReserved
    split
    · exact List.mem_cons_of_mem _ member
    · exact member
  unfold variableName variableNameChars typeNameChars at usable ⊢
  rw [String.toList_ofList]
  cases capitalized : (words text.toList).flatMap capitalize with
  | nil =>
    rw [capitalized] at usable
    exact absurd rfl usable
  | cons first rest =>
    have isFirst : first.isAlphanum = true := by
      refine alphanum first ?_
      rw [capitalized]
      exact List.mem_cons_self
    unfold markDigit
    dsimp only
    split
    · exact ⟨first, marked _ first (List.mem_cons_of_mem _ List.mem_cons_self), isFirst⟩
    · rename_i notDigit
      refine ⟨first.toLower, marked _ _ List.mem_cons_self, ?_⟩
      rw [Char.isAlphanum, Bool.or_eq_true_iff] at isFirst ⊢
      exact .inl (isAlpha_toLower (isFirst.resolve_right notDigit))

/-! ### The field of an enum -/

theorem IsLegal.underscore (legal : IsLegal name) : IsLegal ("_" ++ name) := by
  have shape : ("_" ++ name).toList = '_' :: name.toList := by
    rw [String.toList_append]
    rfl
  refine IsLegal.of_mem (c := '_') ?_ ?_ rfl
  · rw [shape]
    exact isIdentifier_cons_iff.mpr ⟨rfl, isIdentifierChar_of_mem legal.identifier⟩
  · rw [shape]
    exact List.mem_cons_self

theorem isLegal_freshField (taken : List String) (rounds : Nat) (legal : IsLegal name) :
    IsLegal (freshField taken rounds name) := by
  induction rounds generalizing name with
  | zero => exact legal
  | succ rounds ih =>
    unfold freshField
    split
    · exact ih legal.underscore
    · exact legal

/-- **The field of an enum is legal, whatever its constants.** -/
theorem isLegal_literalField (constants : List Constant) : IsLegal (literalField constants) :=
  isLegal_freshField _ _ (by decide)

/-- The name with so many low lines in front. -/
def behindLowLines (count : Nat) (name : String) : String :=
  String.ofList (List.replicate count '_') ++ name

/-- Low lines are put in front of a name, one in a round, as long as it is taken: the search ends
after so many rounds with a name.  Nothing but the taken names bounds it. -/
inductive SearchEnds (taken : List String) : String → Nat → String → Prop
  | free {name : String} : name ∉ taken → SearchEnds taken name 0 name
  | again {name found : String} {rounds : Nat} : name ∈ taken →
      SearchEnds taken ("_" ++ name) rounds found → SearchEnds taken name (rounds + 1) found

theorem behindLowLines_succ (count : Nat) (name : String) :
    behindLowLines (count + 1) name = behindLowLines count ("_" ++ name) := by
  unfold behindLowLines
  rw [List.replicate_succ', String.ofList_append, String.append_assoc]

theorem behindLowLines_injective (name : String) :
    Function.Injective fun count => behindLowLines count name := by
  intro first second same
  have lengths := congrArg String.length same
  simpa [behindLowLines] using lengths

/-- Where the search ends: at the first of its names that is not taken. -/
theorem SearchEnds.first {taken : List String} {name found : String} {rounds : Nat}
    (ends : SearchEnds taken name rounds found) :
    found = behindLowLines rounds name ∧ found ∉ taken ∧
      ∀ fewer < rounds, behindLowLines fewer name ∈ taken := by
  induction ends with
  | free fresh => exact ⟨rfl, fresh, fun fewer few => absurd few (Nat.not_lt_zero _)⟩
  | @again name found rounds isTaken _ ih =>
    obtain ⟨form, fresh, before⟩ := ih
    refine ⟨by rw [form, behindLowLines_succ], fresh, fun fewer few => ?_⟩
    cases fewer with
    | zero => exact isTaken
    | succ fewer =>
      rw [behindLowLines_succ]
      exact before fewer (Nat.lt_of_succ_lt_succ few)

/-- There are too few taken names for all that a search tries. -/
theorem exists_behindLowLines_notMem (taken : List String) (name : String) :
    ∃ count ≤ taken.length, behindLowLines count name ∉ taken := by
  let tried := (Finset.range (taken.length + 1)).image fun count => behindLowLines count name
  have fewer : taken.toFinset.card < tried.card := by
    rw [Finset.card_image_of_injective _ (behindLowLines_injective name), Finset.card_range]
    exact Nat.lt_succ_of_le (List.toFinset_card_le taken)
  obtain ⟨candidate, isTried, fresh⟩ := Finset.exists_mem_notMem_of_card_lt_card fewer
  obtain ⟨count, inRange, rfl⟩ := Finset.mem_image.mp isTried
  exact ⟨count, Nat.le_of_lt_succ (Finset.mem_range.mp inRange),
    fun there => fresh (List.mem_toFinset.mpr there)⟩

/-- A search with rounds enough for a name that is not taken ends. -/
theorem searchEnds_freshField {taken : List String} {name : String} {rounds : Nat}
    (enough : ∃ count ≤ rounds, behindLowLines count name ∉ taken) :
    ∃ needed ≤ rounds, SearchEnds taken name needed (freshField taken rounds name) := by
  induction rounds generalizing name with
  | zero =>
    obtain ⟨count, few, fresh⟩ := enough
    rw [Nat.le_zero.mp few] at fresh
    exact ⟨0, Nat.le_refl _, .free fresh⟩
  | succ rounds ih =>
    unfold freshField
    by_cases isTaken : name ∈ taken
    · rw [if_pos (List.contains_iff_mem.mpr isTaken)]
      have enoughNext : ∃ count ≤ rounds, behindLowLines count ("_" ++ name) ∉ taken := by
        obtain ⟨count, few, fresh⟩ := enough
        cases count with
        | zero => exact absurd isTaken fresh
        | succ count =>
          rw [behindLowLines_succ] at fresh
          exact ⟨count, Nat.le_of_succ_le_succ few, fresh⟩
      obtain ⟨needed, few, ends⟩ := ih enoughNext
      exact ⟨needed + 1, Nat.succ_le_succ few, .again isTaken ends⟩
    · rw [if_neg fun there => isTaken (List.contains_iff_mem.mp there)]
      exact ⟨0, Nat.zero_le _, .free isTaken⟩

/-- **The search for the field of an enum ends**, after at most as many rounds as there are
constants, **with the fewest low lines that keep it apart from them**. -/
theorem literalField_fewest (constants : List Constant) :
    ∃ rounds ≤ constants.length,
      SearchEnds (constants.map (·.name)) "value" rounds (literalField constants) ∧
        literalField constants = behindLowLines rounds "value" ∧
        (∀ constant ∈ constants, constant.name ≠ literalField constants) ∧
        ∀ count, (∀ constant ∈ constants, constant.name ≠ behindLowLines count "value") →
          rounds ≤ count := by
  have enough := exists_behindLowLines_notMem (constants.map (·.name)) "value"
  rw [List.length_map] at enough
  obtain ⟨rounds, few, ends⟩ := searchEnds_freshField enough
  obtain ⟨form, fresh, before⟩ := ends.first
  refine ⟨rounds, few, ends, form, ?_, fun count free => ?_⟩
  · intro constant member same
    exact fresh (List.mem_map.mpr ⟨constant, member, same⟩)
  · by_contra fewer
    obtain ⟨constant, member, same⟩ := List.mem_map.mp (before count (Nat.lt_of_not_le fewer))
    exact free constant member same

example : literalField [⟨"value", "a"⟩, ⟨"_value", "b"⟩, ⟨"___value", "c"⟩] = "__value" := by decide

end RamlInterfaces.Java
