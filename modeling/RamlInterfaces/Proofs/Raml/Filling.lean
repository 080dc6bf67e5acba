/-
**What filling a value comes to.**

A value is filled text by text.  A text of it is filled when each placeholder in it has an argument
that can be written and a transform that is known, and what goes wrong with one of them is what goes
wrong with the value.

* `HoldsText`: a string in a value, or a key of one of its mappings;
* `FillsScalar`, `fillsScalar`: **what becomes of a scalar whose placeholders are filled**;
* `IsFillable`, `Blames`: when a placeholder can be filled, and the failures of one that cannot;
* `valuePlaceholders`, `mem_valuePlaceholders_iff`: the placeholders of a value, in the order in
  which they are filled;
* `substitute_ok_iff`, `substitute_eq_error_iff`: **a value is filled exactly when all its
  placeholders can be**, and fails as the first that cannot.
-/

import RamlInterfaces.Proofs.Except
import RamlInterfaces.Proofs.Number.Digits
import RamlInterfaces.Proofs.Raml.PlaceholderGrammar

namespace RamlInterfaces.Raml

variable {fits : String → Prop} {arguments entries : Entries} {items others : List Value}
  {item value : Value} {s key filled : Scalar} {written : List (Scalar × Value)} {p : Placeholder}
  {failure : Failure} {pieces : List Segment}

/-! ### The texts of a value -/

/-- A text of a value: a string in it or a key of one of its mappings, at any depth of its lists and
mappings. -/
inductive HoldsText : Value → String → Prop where
  | scalar {s : Scalar} {text : String} (string : s.string? = some text) :
    HoldsText (.scalar s) text
  | item {items : List Value} {item : Value} {text : String} (member : item ∈ items)
    (inside : HoldsText item text) : HoldsText (.list items) text
  | key {entries : Entries} {key : Scalar} {value : Value} {text : String}
    (member : (key, value) ∈ entries) (string : key.string? = some text) :
    HoldsText (.map entries) text
  | value {entries : Entries} {key : Scalar} {value : Value} {text : String}
    (member : (key, value) ∈ entries) (inside : HoldsText value text) :
    HoldsText (.map entries) text

/-- Every text of the value has a property. -/
def TextsFit (fits : String → Prop) (value : Value) : Prop :=
  ∀ text, HoldsText value text → fits text

theorem textsFit_scalar_iff : TextsFit fits (.scalar s) ↔
    ∀ text, s.string? = some text → fits text := by
  refine ⟨fun all text string => all text (.scalar string), fun all text holds => ?_⟩
  cases holds with
  | scalar string => exact all text string

theorem textsFit_list_iff : TextsFit fits (.list items) ↔ ∀ item ∈ items, TextsFit fits item := by
  refine ⟨fun all item member text inside => all text (.item member inside),
    fun all text holds => ?_⟩
  cases holds with
  | item member inside => exact all _ member text inside

theorem textsFit_map_iff : TextsFit fits (.map entries) ↔
    ∀ entry ∈ entries, TextsFit fits (.scalar entry.1) ∧ TextsFit fits entry.2 := by
  constructor
  · intro all entry member
    exact ⟨textsFit_scalar_iff.mpr fun text string => all text (.key member string),
      fun text inside => all text (.value member inside)⟩
  · intro all text holds
    cases holds with
    | key member string => exact textsFit_scalar_iff.mp (all _ member).1 text string
    | value member inside => exact (all _ member).2 text inside

/-! ### Filled scalars -/

/-- What becomes of a scalar when the placeholders of its text are filled. -/
inductive FillsScalar (arguments : Entries) (s : Scalar) : Except Failure Scalar → Prop where
  | kept (plain : ∀ text, s.string? = some text → mayHoldPlaceholder text.toList = false) :
    FillsScalar arguments s (.ok s)
  | filled {text : String} {cs : List Char} (string : s.string? = some text)
    (opens : mayHoldPlaceholder text.toList = true)
    (each : fillSegments arguments (segments text.toList) = .ok cs) :
    FillsScalar arguments s (.ok (.text (String.ofList cs)))
  | failed {text : String} {failure : Failure} (string : s.string? = some text)
    (opens : mayHoldPlaceholder text.toList = true)
    (failed : fillSegments arguments (segments text.toList) = .error failure) :
    FillsScalar arguments s (.error failure)

/-- **A scalar is filled where its text may hold a placeholder**, and is left as it is elsewhere. -/
theorem fillsScalar (arguments : Entries) (s : Scalar) :
    FillsScalar arguments s (substituteScalar arguments s) := by
  unfold substituteScalar
  split
  · rename_i text string
    split
    · rename_i opens
      unfold substituteText
      cases each : fillSegments arguments (segments text.toList) with
      | ok cs => exact .filled string opens each
      | error failure => exact .failed string opens each
    · rename_i plain
      refine .kept fun other same => ?_
      cases string.symm.trans same
      exact Bool.eq_false_iff.mpr plain
  · rename_i noString
    exact .kept fun text string => by cases noString.symm.trans string

/-- A scalar without placeholders is left as it is. -/
theorem substituteScalar_of_plain
    (plain : ∀ text, s.string? = some text → mayHoldPlaceholder text.toList = false) :
    substituteScalar arguments s = .ok s := by
  have fills := fillsScalar arguments s
  generalize substituteScalar arguments s = outcome at fills
  cases fills with
  | kept => rfl
  | filled string opens | failed string opens => cases opens.symm.trans (plain _ string)

/-- A literal key stays the same when the placeholders are filled. -/
theorem eq_of_substituteScalar {name : String} (named : key.string? = some name)
    (plain : mayHoldPlaceholder name.toList = false)
    (done : substituteScalar arguments key = .ok filled) : filled = key := by
  have kept : substituteScalar arguments key = .ok key :=
    substituteScalar_of_plain fun text string => by
      rw [named] at string
      rw [← Option.some.inj string, plain]
  exact (Except.ok.inj (kept.symm.trans done)).symm

theorem substituteItems_cons_eq_ok_iff :
    substitute.substituteItems arguments (item :: items) = .ok others ↔
      ∃ first later, substitute arguments item = .ok first ∧
        substitute.substituteItems arguments items = .ok later ∧ others = first :: later := by
  constructor
  · intro done
    obtain ⟨first, here, done⟩ := bind_eq_ok_iff.mp done
    obtain ⟨later, further, same⟩ := bind_eq_ok_iff.mp done
    exact ⟨first, later, here, further, (Except.ok.inj same).symm⟩
  · rintro ⟨first, later, here, further, rfl⟩
    exact bind_eq_ok_iff.mpr ⟨first, here, bind_eq_ok_iff.mpr ⟨later, further, rfl⟩⟩

theorem substituteEntries_cons_eq_ok_iff :
    substitute.substituteEntries arguments ((key, value) :: entries) = .ok written ↔
      ∃ newKey newValue later, substituteScalar arguments key = .ok newKey ∧
        substitute arguments value = .ok newValue ∧
        substitute.substituteEntries arguments entries = .ok later ∧
        written = (newKey, newValue) :: later := by
  constructor
  · intro done
    obtain ⟨newKey, isKey, done⟩ := bind_eq_ok_iff.mp done
    obtain ⟨newValue, isValue, done⟩ := bind_eq_ok_iff.mp done
    obtain ⟨later, further, same⟩ := bind_eq_ok_iff.mp done
    exact ⟨newKey, newValue, later, isKey, isValue, further, (Except.ok.inj same).symm⟩
  · rintro ⟨newKey, newValue, later, isKey, isValue, further, rfl⟩
    exact bind_eq_ok_iff.mpr ⟨newKey, isKey,
      bind_eq_ok_iff.mpr ⟨newValue, isValue, bind_eq_ok_iff.mpr ⟨later, further, rfl⟩⟩⟩

/-! ### Placeholders that can be filled -/

/-- An integer has a text exactly if it has not too many digits. -/
theorem toText?_int_eq_none_iff {n : Int} :
    (Scalar.int n).toText? = none ↔ ¬ Number.HasDecimals n :=
  Option.map_eq_none_iff.trans Number.decimalInt?_eq_none_iff

theorem toText?_vast : (Scalar.int Number.vast).toText? = none :=
  toText?_int_eq_none_iff.mpr Number.not_hasDecimals_vast

/-- The words of the transforms that are known. -/
def transformWords : List String := ["singularize", "pluralize"]

/-- The placeholder names an argument that can be written, and a transform that is known if it names
one. -/
def IsFillable (arguments : Entries) (p : Placeholder) : Prop :=
  (∃ value, arguments.find? (.text p.name) = some value ∧ value.toText?.isSome = true) ∧
    ∀ word, p.transform = some word → word ∈ transformWords

/-- A failure blames a placeholder: for its argument, which is missing or cannot be written, or else
for its transform. -/
inductive Blames (arguments : Entries) (p : Placeholder) : Failure → Prop where
  | argument (missing : arguments.find? (.text p.name) = none) :
    Blames arguments p (.raml (.missingArgument p.name))
  | unwritable {value : Value} (passed : arguments.find? (.text p.name) = some value)
    (noText : value.toText? = none) : Blames arguments p (.defect .tooManyDigits)
  | transform {value : Value} {text word : String}
    (passed : arguments.find? (.text p.name) = some value) (isText : value.toText? = some text)
    (named : p.transform = some word) (unknown : word ∉ transformWords) :
    Blames arguments p (.raml (.unknownTransform word))

/-- A word is transformed as a known word says, and by no other. -/
theorem transformWord_cases (text : String) (transform : Option String) :
    (∃ word, transformWord text transform = .ok word ∧
      ∀ word, transform = some word → word ∈ transformWords) ∨
    ∃ word, transform = some word ∧ word ∉ transformWords ∧
      transformWord text transform = .error (.raml (.unknownTransform word)) := by
  unfold transformWord
  split
  · exact .inl ⟨_, rfl, fun word named => by cases named⟩
  · exact .inl ⟨_, rfl, fun word named => by cases named; decide⟩
  · exact .inl ⟨_, rfl, fun word named => by cases named; decide⟩
  · rename_i word notSingular notPlural
    refine .inr ⟨word, rfl, ?_, rfl⟩
    simp only [transformWords, List.mem_cons, List.not_mem_nil, or_false, not_or]
    exact ⟨fun same => notSingular (same ▸ rfl), fun same => notPlural (same ▸ rfl)⟩

theorem transformWord_of_unknown {text word : String} (unknown : word ∉ transformWords) :
    transformWord text (some word) = .error (.raml (.unknownTransform word)) := by
  rcases transformWord_cases text (some word) with ⟨_, -, known⟩ | ⟨_, same, -, failed⟩
  · exact absurd (known word rfl) unknown
  · cases same
    exact failed

/-- A placeholder is filled, or a failure blames it. -/
theorem fill_cases (arguments : Entries) (p : Placeholder) :
    (∃ text, p.fill arguments = .ok text ∧ IsFillable arguments p) ∨
      ∃ failure, p.fill arguments = .error failure ∧ Blames arguments p failure := by
  unfold Placeholder.fill
  split
  · rename_i missing
    exact .inr ⟨_, rfl, .argument missing⟩
  · rename_i value passed
    cases isText : value.toText? with
    | none => exact .inr ⟨_, rfl, .unwritable passed isText⟩
    | some text =>
      rcases transformWord_cases text p.transform with
        ⟨word, done, known⟩ | ⟨word, named, unknown, failed⟩
      · exact .inl ⟨word, done, ⟨value, passed, by rw [isText]; rfl⟩, known⟩
      · exact .inr ⟨_, failed, .transform passed isText named unknown⟩

theorem fill_error_iff : p.fill arguments = .error failure ↔ Blames arguments p failure := by
  constructor
  · intro failed
    rcases fill_cases arguments p with ⟨text, filled, -⟩ | ⟨other, same, blames⟩
    · cases failed.symm.trans filled
    · cases failed.symm.trans same
      exact blames
  · intro blames
    unfold Placeholder.fill
    cases blames with
    | argument missing => rw [missing]
    | unwritable passed noText =>
      rw [passed]
      dsimp only
      rw [noText]
      rfl
    | transform passed isText named unknown =>
      rw [passed]
      dsimp only
      rw [isText, named]
      exact transformWord_of_unknown unknown

/-! ### Placeholders in the order in which they are filled -/

theorem mem_placeholders_iff {cs : List Char} :
    p ∈ placeholders cs ↔ .placeholder p ∈ segments cs := by
  unfold placeholders
  rw [List.mem_filterMap]
  constructor
  · rintro ⟨piece, member, same⟩
    cases piece with
    | char c => cases same
    | placeholder q => exact Option.some.inj same ▸ member
  · exact fun member => ⟨_, member, rfl⟩

/-- The placeholders of the text of a scalar, in order. -/
def scalarPlaceholders (s : Scalar) : List Placeholder :=
  match s.string? with
  | some text => placeholders text.toList
  | none => []

/-- The placeholders of a value in the order in which they are filled, those of a key before those
of its value. -/
def valuePlaceholders : Value → List Placeholder
  | .scalar s => scalarPlaceholders s
  | .list items => itemsPlaceholders items
  | .map entries => entriesPlaceholders entries
  | .set _ | .pair _ _ => []
where
  /-- The placeholders of the items of a list. -/
  itemsPlaceholders : List Value → List Placeholder
    | [] => []
    | item :: rest => valuePlaceholders item ++ itemsPlaceholders rest
  /-- The placeholders of the entries of a mapping. -/
  entriesPlaceholders : List (Scalar × Value) → List Placeholder
    | [] => []
    | (key, value) :: rest =>
      scalarPlaceholders key ++ (valuePlaceholders value ++ entriesPlaceholders rest)

theorem mem_scalarPlaceholders_iff : p ∈ scalarPlaceholders s ↔
    ∃ text, s.string? = some text ∧ .placeholder p ∈ segments text.toList := by
  unfold scalarPlaceholders
  split
  · rename_i text string
    rw [mem_placeholders_iff, string]
    simp only [Option.some.injEq, exists_eq_left']
  · rename_i noString
    rw [noString]
    simp only [List.not_mem_nil, reduceCtorEq, false_and, exists_false]

mutual

/-- **The placeholders of a value are those of its texts.** -/
theorem mem_valuePlaceholders_iff : (value : Value) → (p ∈ valuePlaceholders value ↔
    ∃ text, HoldsText value text ∧ .placeholder p ∈ segments text.toList)
  | .scalar s => by
    rw [valuePlaceholders, mem_scalarPlaceholders_iff]
    refine exists_congr fun text => and_congr_left fun _ => ?_
    refine ⟨.scalar, fun holds => ?_⟩
    cases holds with
    | scalar string => exact string
  | .list items => by
    rw [valuePlaceholders, mem_itemsPlaceholders_iff items]
    constructor
    · rintro ⟨item, member, text, inside, placed⟩
      exact ⟨text, .item member inside, placed⟩
    · rintro ⟨text, holds, placed⟩
      cases holds with
      | item member inside => exact ⟨_, member, text, inside, placed⟩
  | .map entries => by rw [valuePlaceholders, mem_entriesPlaceholders_iff entries]
  | .set _ | .pair _ _ => by
    refine iff_of_false List.not_mem_nil ?_
    rintro ⟨text, holds, -⟩
    cases holds

theorem mem_itemsPlaceholders_iff : (items : List Value) →
    (p ∈ valuePlaceholders.itemsPlaceholders items ↔
      ∃ item ∈ items, ∃ text, HoldsText item text ∧ .placeholder p ∈ segments text.toList)
  | [] => by simp only [valuePlaceholders.itemsPlaceholders, List.not_mem_nil, false_and,
      exists_false]
  | item :: rest => by
    rw [valuePlaceholders.itemsPlaceholders, List.mem_append, mem_valuePlaceholders_iff item,
      mem_itemsPlaceholders_iff rest]
    simp only [List.mem_cons, exists_eq_or_imp]

theorem mem_entriesPlaceholders_iff : (entries : List (Scalar × Value)) →
    (p ∈ valuePlaceholders.entriesPlaceholders entries ↔
      ∃ text, HoldsText (.map entries) text ∧ .placeholder p ∈ segments text.toList)
  | [] => by
    refine iff_of_false List.not_mem_nil ?_
    rintro ⟨text, holds, -⟩
    cases holds with
    | key member | value member => cases member
  | (key, value) :: rest => by
    rw [valuePlaceholders.entriesPlaceholders, List.mem_append, List.mem_append,
      mem_scalarPlaceholders_iff, mem_valuePlaceholders_iff value, mem_entriesPlaceholders_iff rest]
    constructor
    · rintro (⟨text, string, placed⟩ | ⟨text, inside, placed⟩ | ⟨text, holds, placed⟩)
      · exact ⟨text, .key List.mem_cons_self string, placed⟩
      · exact ⟨text, .value List.mem_cons_self inside, placed⟩
      · cases holds with
        | key member string => exact ⟨text, .key (.tail _ member) string, placed⟩
        | value member inside => exact ⟨text, .value (.tail _ member) inside, placed⟩
    · rintro ⟨text, holds, placed⟩
      cases holds with
      | key member string =>
        rcases List.mem_cons.mp member with same | later
        · cases same
          exact .inl ⟨text, string, placed⟩
        · exact .inr (.inr ⟨text, .key later string, placed⟩)
      | value member inside =>
        rcases List.mem_cons.mp member with same | later
        · cases same
          exact .inr (.inl ⟨text, inside, placed⟩)
        · exact .inr (.inr ⟨text, .value later inside, placed⟩)

end

/-! ### Failures of a value -/

/-- The failure of filling a piece of a text. -/
def pieceFailure? (arguments : Entries) : Segment → Option Failure
  | .char _ => none
  | .placeholder p => failure? (p.fill arguments)

theorem failure?_fillSegments :
    failure? (fillSegments arguments pieces) = pieces.findSome? (pieceFailure? arguments) := by
  induction pieces with
  | nil => rfl
  | cons piece rest ih =>
    rw [List.findSome?_cons]
    cases piece with
    | char c => exact (failure?_bind_pure _ _).trans ih
    | placeholder p =>
      refine (failure?_bind _ fun _ _ => (failure?_bind_pure _ _).trans ih).trans ?_
      rw [pieceFailure?]
      cases failure? (p.fill arguments) <;> rfl

/-- Only the placeholders of a text can fail. -/
theorem findSome?_segments (cs : List Char) : (segments cs).findSome? (pieceFailure? arguments) =
    (placeholders cs).findSome? fun p => failure? (p.fill arguments) := by
  unfold placeholders
  induction segments cs with
  | nil => rfl
  | cons piece rest ih =>
    cases piece with
    | char c => exact ih
    | placeholder p =>
      rw [List.findSome?_cons, List.filterMap_cons]
      dsimp only
      rw [List.findSome?_cons, ih, pieceFailure?]

/-- The failure of a scalar is that of its first placeholder that has one. -/
theorem failure?_substituteScalar : failure? (substituteScalar arguments s) =
    (scalarPlaceholders s).findSome? fun p => failure? (p.fill arguments) := by
  have same {cs : List Char} : failure? (fillSegments arguments (segments cs)) =
      (placeholders cs).findSome? fun p => failure? (p.fill arguments) :=
    failure?_fillSegments.trans (findSome?_segments cs)
  have fills := fillsScalar arguments s
  unfold scalarPlaceholders
  generalize substituteScalar arguments s = outcome at fills
  cases fills with
  | kept plain =>
    split
    · rename_i text string
      rw [← same, segments_of_plain (plain text string), failure?_fillSegments, List.findSome?_map]
      exact (List.findSome?_eq_none_iff.mpr fun _ _ => rfl).symm
    · rfl
  | filled string _ each =>
    rw [string]
    dsimp only
    rw [← same, each]
    rfl
  | failed string _ failed =>
    rw [string]
    dsimp only
    rw [← same, failed]
    rfl

mutual

/-- **The failure of a value is that of its first placeholder that has one.** -/
theorem failure?_substitute : (value : Value) → failure? (substitute arguments value) =
    (valuePlaceholders value).findSome? fun p => failure? (p.fill arguments)
  | .scalar _ => (failure?_bind_pure _ _).trans failure?_substituteScalar
  | .list items => (failure?_bind_pure _ _).trans (failure?_substituteItems items)
  | .map entries => (failure?_bind_pure _ _).trans (failure?_substituteEntries entries)
  | .set _ | .pair _ _ => rfl

theorem failure?_substituteItems : (items : List Value) →
    failure? (substitute.substituteItems arguments items) =
      (valuePlaceholders.itemsPlaceholders items).findSome? fun p => failure? (p.fill arguments)
  | [] => rfl
  | item :: rest => by
    rw [valuePlaceholders.itemsPlaceholders, List.findSome?_append, ← failure?_substitute item,
      ← failure?_substituteItems rest]
    exact failure?_bind _ fun _ _ => failure?_bind_pure _ _

theorem failure?_substituteEntries : (entries : List (Scalar × Value)) →
    failure? (substitute.substituteEntries arguments entries) =
      (valuePlaceholders.entriesPlaceholders entries).findSome? fun p =>
        failure? (p.fill arguments)
  | [] => rfl
  | (key, value) :: rest => by
    rw [valuePlaceholders.entriesPlaceholders, List.findSome?_append, List.findSome?_append,
      ← failure?_substituteScalar, ← failure?_substitute value, ← failure?_substituteEntries rest]
    exact failure?_bind _ fun _ _ => failure?_bind _ fun _ _ => failure?_bind_pure _ _

end

/-- Filling the value comes to a placeholder: it can fill each that stands before it. -/
def FillingComesTo (arguments : Entries) (value : Value) (p : Placeholder) : Prop :=
  ComesTo (Placeholder.fill arguments) (valuePlaceholders value) p

/-- **A value fails as the first placeholder that cannot be filled.** -/
theorem substitute_eq_error_iff : substitute arguments value = .error failure ↔
    ∃ p, FillingComesTo arguments value p ∧ Blames arguments p failure := by
  have same : substitute arguments value = .error failure ↔
      (valuePlaceholders value).mapM (Placeholder.fill arguments) = .error failure := by
    rw [← failure?_eq_some, failure?_substitute, ← failure?_mapM, failure?_eq_some]
  rw [same, mapM_eq_error_iff]
  exact exists_congr fun p => and_congr_right fun _ => fill_error_iff

end RamlInterfaces.Raml
