/-
**The parts of a method.**

A type may declare a method or offer it optionally, its key marked by a question mark, and an
optional method has several fates when the body of the type is merged into a node: it is merged into
the method, joined to an optional one, kept for later or left out.

* `Part`, `Blend`: a part of the content of a method, and content that is merged from parts;
* `methodParts`: the parts that a method takes from the sources on a chain;
* `mem_methodParts_iff`: **an optional method is a part exactly when the method is declared
  before**;
* `Cell`, `Cells`: what a node has under the word of a verb, and under the optional one;
* `cells_foldl`: **what merging a body does to the parts of a method and of the optional one**.
-/

import RamlInterfaces.Proofs.Raml.TypeChain

namespace RamlInterfaces.Raml

/-! ### Parts -/

/-- A part of the content of a method: the source that it is from, its key there and what is under
it. -/
structure Part where
  source : Nat
  key : String
  content : Value

/-- The content is merged from the parts, in this order. -/
inductive Blend : List Part → Value → Prop where
  | single (part : Part) : Blend [part] part.content
  | merged {first second : List Part} {content inherited : Value} (explicit : Blend first content)
    (further : Blend second inherited) : Blend (first ++ second) (merge false content inherited)

theorem Blend.ne_nil {parts : List Part} {content : Value} (blend : Blend parts content) :
    parts ≠ [] := by
  induction blend with
  | single => exact List.cons_ne_nil _ _
  | merged _ _ ih => exact List.append_ne_nil_of_left_ne_nil ih _

/-- What a source has under a key. -/
def partUnder (source : Entries) (index : Nat) (key : String) : List Part :=
  (source.find? (.text key)).toList.map fun content => ⟨index, key, content⟩

/-- The parts that a method takes from the sources, the first of which has the given index: what
each of them declares, and what it offers optionally if the method was declared before it. -/
def methodParts (name : String) (declared : Bool) (index : Nat) : List Entries → List Part
  | [] => []
  | source :: rest =>
    (if declared then partUnder source index (optionalName name) else []) ++
      partUnder source index name ++
        methodParts name (declared || source.has (.text name)) (index + 1) rest

variable {verb : Verb} {name : String} {index : Nat} {declared : Bool} {part : Part}
  {sources : List Entries}

theorem mem_partUnder_iff {source : Entries} {key : String} :
    part ∈ partUnder source index key ↔ part.source = index ∧ part.key = key ∧
      source.find? (.text key) = some part.content := by
  unfold partUnder
  rw [List.mem_map]
  constructor
  · rintro ⟨content, member, rfl⟩
    exact ⟨rfl, rfl, Option.mem_toList.mp member⟩
  · rintro ⟨rfl, rfl, found⟩
    exact ⟨part.content, Option.mem_toList.mpr found, rfl⟩

theorem partUnder_eq_nil {source : Entries} {key : String}
    (missing : ¬ source.has (.text key) = true) : partUnder source index key = [] := by
  unfold partUnder
  rw [Option.not_isSome_iff_eq_none.mp missing]
  rfl

theorem partUnder_ne_nil {source : Entries} {key : String}
    (has : source.has (.text key) = true) : partUnder source index key ≠ [] := by
  obtain ⟨content, found⟩ := Option.isSome_iff_exists.mp has
  unfold partUnder
  rw [found]
  exact List.cons_ne_nil _ _

/-- **What a source declares is a part, and what it offers optionally is one exactly when the method
was declared before it.** -/
theorem mem_methodParts_iff : part ∈ methodParts name declared index sources ↔
    ∃ i source, sources[i]? = some source ∧ part.source = index + i ∧
      source.find? (.text part.key) = some part.content ∧
      (part.key = name ∨ part.key = optionalName name ∧
        (declared = true ∨ ∃ earlier ∈ sources.take i, earlier.has (.text name) = true)) := by
  induction sources generalizing declared index with
  | nil => simp [methodParts]
  | cons source rest ih =>
    have known_iff (i : Nat) : ((declared || source.has (.text name)) = true ∨
        ∃ earlier ∈ rest.take i, earlier.has (.text name) = true) ↔
        (declared = true ∨ ∃ earlier ∈ (source :: rest).take (i + 1),
          earlier.has (.text name) = true) := by
      simp [or_assoc]
    rw [methodParts, List.mem_append, List.mem_append, ih]
    simp only [known_iff]
    constructor
    · rintro ((optional | plain) | ⟨i, later, isLater, isSource, found, isKey⟩)
      · cases declared with
        | false => cases optional
        | true =>
          obtain ⟨isSource, isKey, found⟩ := mem_partUnder_iff.mp optional
          exact ⟨0, source, rfl, isSource, isKey ▸ found, .inr ⟨isKey, .inl rfl⟩⟩
      · obtain ⟨isSource, isKey, found⟩ := mem_partUnder_iff.mp plain
        exact ⟨0, source, rfl, isSource, isKey ▸ found, .inl isKey⟩
      · exact ⟨i + 1, later, isLater, by omega, found, isKey⟩
    · rintro ⟨i, other, isOther, isSource, found, isKey⟩
      cases i with
      | zero =>
        cases isOther
        rcases isKey with isKey | ⟨isKey, isDeclared | ⟨_, member, _⟩⟩
        · exact .inl (.inr (mem_partUnder_iff.mpr ⟨isSource, isKey, isKey ▸ found⟩))
        · rw [if_pos isDeclared]
          exact .inl (.inl (mem_partUnder_iff.mpr ⟨isSource, isKey, isKey ▸ found⟩))
        · cases member
      | succ i => exact .inr ⟨i, other, isOther, by omega, found, isKey⟩

/-! ### Keys for a verb -/

/-- The part is declared for a verb, or offered optionally. -/
def Part.isFor (verb : Verb) (part : Part) : Bool :=
  part.key == verb.word || part.key == optionalName verb.word

/-- The parts that are declared for a verb or offered optionally. -/
def partsFor (verb : Verb) (parts : List Part) : List Part := parts.filter (Part.isFor verb)

/-- The key is the word of a verb with more than one question mark. -/
structure IsStray (verb : Verb) (key : String) : Prop where
  stem : stem key = verb.word
  notPlain : key ≠ verb.word
  notOptional : key ≠ optionalName verb.word

/-- A value under a stray key is merged from good parts that are under stray keys. -/
def FromStrays (verb : Verb) (good : Part → Prop) (key : Option String) (value : Value) : Prop :=
  ∀ text, key = some text → IsStray verb text → ∃ parts, Blend parts value ∧
    (∀ part ∈ parts, good part) ∧ partsFor verb parts = []

/-- What entries have under a key is merged from the parts, all of them good. -/
def Cell (good : Part → Prop) (entries : Entries) (key : String) (parts : List Part) : Prop :=
  (∀ part ∈ parts, good part) ∧ match entries.find? (.text key) with
    | none => parts = []
    | some content => Blend parts content

/-- The parts of the method for a verb and of the optional one. -/
structure Cells (verb : Verb) (good : Part → Prop) (entries : Entries)
    (plain optional : List Part) : Prop where
  plain : Cell good entries verb.word plain
  optional : Cell good entries (optionalName verb.word) optional

/-- The optional method for a verb does not come after the method. -/
def OptionalFirst (verb : Verb) (entries : Entries) : Prop :=
  (entries.map Prod.fst).Pairwise fun first second =>
    ¬ (first.string? = some verb.word ∧ second.string? = some (optionalName verb.word))

variable {good : Part → Prop} {entries merged further node body : Entries} {key : Scalar}
  {value : Value} {derived : Bool} {parts plain optional inherited inheritedOptional : List Part}

theorem partsFor_append (first second : List Part) :
    partsFor verb (first ++ second) = partsFor verb first ++ partsFor verb second :=
  List.filter_append ..

theorem optionalName_ne_word (verb : Verb) : optionalName name ≠ verb.word := by
  intro same
  have optional := optionalKey?_optionalName name
  rw [same] at optional
  revert optional
  cases verb <;> exact fun optional => by cases optional

theorem optionalName_injective {other : String} (same : optionalName name = optionalName other) :
    name = other := by
  have left := optionalKey?_optionalName name
  rw [same, optionalKey?_optionalName other, Option.some.injEq] at left
  exact left.symm

theorem stem_word (verb : Verb) : stem verb.word = verb.word := by
  cases verb <;> decide

/-- An optional key is the optional name of what it is without its mark. -/
theorem string?_of_optionalKey? {plain : String} (optional : optionalKey? key = some plain) :
    key.string? = some (optionalName plain) := by
  obtain ⟨name, named, marked⟩ := exists_of_optionalKey? optional
  rw [named]
  refine congrArg some (String.toList_inj.mp ?_)
  rw [marked, toList_optionalName]

/-- Strays are merged with strays only. -/
theorem mergeable_fromStrays : Mergeable (FromStrays verb good) where
  optional := by
    rintro key plain value optional fits _ ⟨⟩ stray
    refine fits (optionalName plain) (string?_of_optionalKey? optional) ⟨?_, ?_, ?_⟩
    · rw [stem_optionalName]
      exact stray.stem
    · exact optionalName_ne_word verb
    · exact fun same => stray.notPlain (optionalName_injective same)
  merge := by
    rintro name traits explicit inherited noTraits isExplicit isInherited text rfl stray
    have isMethod : Role.of (some text) ≠ .other := by
      show Role.ofName text ≠ .other
      unfold Role.ofName
      rw [stray.stem, Verb.ofWord?_word]
      split <;> simp
    obtain ⟨first, isFirst, goodFirst, strayFirst⟩ := isExplicit text rfl stray
    obtain ⟨second, isSecond, goodSecond, straySecond⟩ := isInherited text rfl stray
    rw [noTraits isMethod]
    refine ⟨first ++ second, isFirst.merged isSecond, fun part member => ?_, ?_⟩
    · exact (List.mem_append.mp member).elim (goodFirst part) (goodSecond part)
    · rw [partsFor_append, strayFirst, straySecond, List.append_nil]

/-! ### Cells -/

namespace Cell

theorem congr {others : Entries} {name : String} (cell : Cell good entries name parts)
    (same : others.find? (.text name) = entries.find? (.text name)) :
    Cell good others name parts := by
  unfold Cell at cell ⊢
  rw [same]
  exact cell

theorem of_missing (missing : entries.find? (.text name) = none) : Cell good entries name [] := by
  unfold Cell
  rw [missing]
  exact ⟨fun part member => absurd member List.not_mem_nil, rfl⟩

theorem of_found (found : entries.find? (.text name) = some value) (blend : Blend parts value)
    (isGood : ∀ part ∈ parts, good part) : Cell good entries name parts := by
  unfold Cell
  rw [found]
  exact ⟨isGood, blend⟩

theorem eq_nil (cell : Cell good entries name parts)
    (missing : entries.find? (.text name) = none) : parts = [] := by
  unfold Cell at cell
  rw [missing] at cell
  exact cell.2

theorem blend (cell : Cell good entries name parts)
    (found : entries.find? (.text name) = some value) : Blend parts value := by
  unfold Cell at cell
  rw [found] at cell
  exact cell.2

/-- Content that is merged into what is under a key brings its parts. -/
theorem put_merge (cell : Cell good entries name parts)
    (found : entries.find? (.text name) = some value) {content : Value} {further : List Part}
    (blend : Blend further content) (isGood : ∀ part ∈ further, good part)
    (named : key.string? = some name) :
    Cell good (entries.put key (merge false value content)) name (parts ++ further) := by
  refine of_found ?_ ((cell.blend found).merged blend) fun part member => ?_
  · rw [← find?_of_string? named]
    exact Entries.find?_put_self _ _ _
  · exact (List.mem_append.mp member).elim (cell.1 part) (isGood part)

theorem put_new {content : Value} (blend : Blend parts content)
    (isGood : ∀ part ∈ parts, good part) (named : key.string? = some name) :
    Cell good (entries.put key content) name parts := by
  refine of_found ?_ blend isGood
  rw [← find?_of_string? named]
  exact Entries.find?_put_self _ _ _

end Cell

/-- A member of a type that is neither the method of a name nor offers it changes nothing there. -/
theorem find?_mergeTypeEntry_other (derived : Bool) (merged : Entries) (value : Value)
    (notKey : key.string? ≠ some name) (notOptional : optionalKey? key ≠ some name) :
    (mergeTypeEntry derived merged key value).find? (.text name) = merged.find? (.text name) := by
  have taken := takesTypeEntry derived merged key value
  generalize mergeTypeEntry derived merged key value = result at taken ⊢
  cases taken with
  | @intoPlain plain _ optional =>
    have notPlain : (Scalar.text plain).string? ≠ some name := by
      rintro ⟨⟩
      exact notOptional optional
    exact find?_put_other notPlain _ _
  | dropped => rfl
  | _ => exact find?_put_other notKey _ _

theorem optionalKey?_of_named (named : key.string? = some (optionalName verb.word)) :
    optionalKey? key = some verb.word := by
  have same : key.string? = (Scalar.text (optionalName verb.word)).string? := named
  rw [optionalKey?_of_string? same, optionalKey?_optionalName]

/-- What is merged under the word of a verb adds its parts there. -/
theorem Cells.merge_plain (cells : Cells verb good merged plain optional)
    (named : key.string? = some verb.word) (blend : Blend parts value)
    (isGood : ∀ part ∈ parts, good part) (derived : Bool) :
    Cells verb good (mergeTypeEntry derived merged key value) (plain ++ parts) optional := by
  have isPlain : optionalKey? key = none :=
    optionalKey?_of_verbKey? (verbKey?_eq_some_iff.mpr named)
  refine ⟨?_, cells.optional.congr (find?_mergeTypeEntry_other _ _ _ ?_ ?_)⟩
  · unfold mergeTypeEntry
    simp only [isPlain]
    split
    · rename_i explicit found
      have noTraits : isTraitsKey key = false := by
        rw [isTraitsKey_of_string? named]
        cases verb <;> decide
      rw [noTraits]
      rw [find?_of_string? named] at found
      exact cells.plain.put_merge found blend isGood named
    · rename_i missing
      rw [find?_of_string? named] at missing
      rw [cells.plain.eq_nil missing, List.nil_append]
      exact Cell.put_new blend isGood named
  · rw [named]
    exact fun same => optionalName_ne_word verb (Option.some.inj same).symm
  · rw [isPlain]
    exact fun same => by cases same

/-- What is offered optionally for a verb is merged into the method, or else stays optional in a
type. -/
theorem Cells.merge_optional (cells : Cells verb good merged plain optional)
    (named : key.string? = some (optionalName verb.word)) (blend : Blend parts value)
    (isGood : ∀ part ∈ parts, good part) (derived : Bool) : ∃ newPlain newOptional,
      Cells verb good (mergeTypeEntry derived merged key value) newPlain newOptional ∧
        (plain ≠ [] → newPlain = plain ++ parts ∧ newOptional = optional) ∧
        (plain = [] → newPlain = [] ∧ (derived = true → newOptional = optional ++ parts)) := by
  have isOptional : optionalKey? key = some verb.word := optionalKey?_of_named named
  have notWord : key.string? ≠ some verb.word := by
    rw [named]
    exact fun same => optionalName_ne_word verb (Option.some.inj same)
  have wordOther : (Scalar.text verb.word).string? ≠ some (optionalName verb.word) :=
    fun same => optionalName_ne_word verb (Option.some.inj same).symm
  cases found : merged.find? (.text verb.word) with
  | some explicit =>
    have isMerged : mergeTypeEntry derived merged key value =
        merged.put (.text verb.word) (merge false explicit value) := by
      simp only [mergeTypeEntry, isOptional, found]
    have nonempty : plain ≠ [] := (cells.plain.blend found).ne_nil
    refine ⟨plain ++ parts, optional, ?_, fun _ => ⟨rfl, rfl⟩, fun none => absurd none nonempty⟩
    rw [isMerged]
    exact ⟨cells.plain.put_merge found blend isGood rfl,
      cells.optional.congr (find?_put_other wordOther _ _)⟩
  | none =>
    obtain rfl := cells.plain.eq_nil found
    have isPut : (∃ content, merged.find? key = some content ∧
          mergeTypeEntry derived merged key value = merged.put key (merge false content value)) ∨
        merged.find? key = none ∧
          mergeTypeEntry derived merged key value = if derived then merged.put key value
            else merged := by
      cases here : merged.find? key with
      | some content =>
        refine .inl ⟨content, rfl, ?_⟩
        simp only [mergeTypeEntry, isOptional, found, here]
      | none =>
        refine .inr ⟨rfl, ?_⟩
        simp only [mergeTypeEntry, isOptional, found, here]
    rcases isPut with ⟨content, here, isMerged⟩ | ⟨missing, isMerged⟩
    · refine ⟨[], optional ++ parts, ?_, fun some => absurd rfl some, fun _ => ⟨rfl, fun _ => rfl⟩⟩
      rw [isMerged]
      rw [find?_of_string? named] at here
      exact ⟨cells.plain.congr (find?_put_other notWord _ _),
        cells.optional.put_merge here blend isGood named⟩
    · rw [find?_of_string? named] at missing
      obtain rfl := cells.optional.eq_nil missing
      cases derived with
      | true =>
        refine ⟨[], parts, ?_, fun some => absurd rfl some, fun _ => ⟨rfl, fun _ => rfl⟩⟩
        rw [isMerged]
        exact ⟨cells.plain.congr (find?_put_other notWord _ _),
          Cell.put_new blend isGood named⟩
      | false =>
        refine ⟨[], [], ?_, fun some => absurd rfl some, fun _ => ⟨rfl, fun same => by cases same⟩⟩
        rw [isMerged]
        exact cells

/-- A member under another key brings no part for the verb. -/
theorem Cells.merge_other (cells : Cells verb good merged plain optional)
    (notPlain : key.string? ≠ some verb.word)
    (notOptional : key.string? ≠ some (optionalName verb.word))
    (strays : FromStrays verb good key.string? value) (derived : Bool) : ∃ newOptional,
      Cells verb good (mergeTypeEntry derived merged key value) plain newOptional ∧
        partsFor verb newOptional = partsFor verb optional := by
  have notMarked : optionalKey? key ≠ some verb.word :=
    fun same => notOptional (string?_of_optionalKey? same)
  have samePlain := cells.plain.congr (find?_mergeTypeEntry_other derived merged value notPlain
    notMarked)
  by_cases marked : optionalKey? key = some (optionalName verb.word)
  · cases found : merged.find? (.text (optionalName verb.word)) with
    | none =>
      refine ⟨optional, ⟨samePlain, cells.optional.congr ?_⟩, rfl⟩
      unfold mergeTypeEntry
      simp only [marked, found]
      split
      · rename_i isFound
        cases isFound
      · exact (find?_put_other notOptional _ _).trans found
      · split
        · exact (find?_put_other notOptional _ _).trans found
        · exact found
    | some explicit =>
      have named := string?_of_optionalKey? marked
      have stray : IsStray verb (optionalName (optionalName verb.word)) := by
        refine ⟨?_, optionalName_ne_word verb, fun same => ?_⟩
        · rw [stem_optionalName, stem_optionalName, stem_word]
        · exact optionalName_ne_word verb (optionalName_injective same)
      obtain ⟨parts, blend, isGood, none⟩ := strays _ named stray
      have isMerged : mergeTypeEntry derived merged key value =
          merged.put (.text (optionalName verb.word)) (merge false explicit value) := by
        simp only [mergeTypeEntry, marked, found]
      refine ⟨optional ++ parts, ⟨samePlain, ?_⟩, ?_⟩
      · rw [isMerged]
        exact cells.optional.put_merge found blend isGood rfl
      · rw [partsFor_append, none, List.append_nil]
  · exact ⟨optional, ⟨samePlain,
      cells.optional.congr (find?_mergeTypeEntry_other derived merged value notOptional marked)⟩,
      rfl⟩

/-- What is found behind an entry under another key is found with it. -/
theorem Cell.of_cons {first : Scalar} (cell : Cell good ((first, value) :: entries) name parts)
    (other : first.string? ≠ some name) : Cell good entries name parts := by
  refine cell.congr ?_
  rw [Entries.find?_cons, if_neg fun same => other (Scalar.string?_of_alike_text same)]

/-- An entry under a key is all that there is under it. -/
theorem Cell.head {first : Scalar} (cell : Cell good ((first, value) :: entries) name parts)
    (named : first.string? = some name) : Blend parts value := by
  refine cell.blend ?_
  rw [Entries.find?_cons, Scalar.alike_text (b := name) named rfl, if_pos (beq_self_eq_true name)]

theorem find?_eq_none_of_string? (missing : ∀ key ∈ entries.map Prod.fst,
    key.string? ≠ some name) : entries.find? (.text name) = none := by
  refine Entries.find?_eq_none fun entry member => Bool.eq_false_iff.mpr fun same => ?_
  exact missing entry.1 (List.mem_map_of_mem member) (Scalar.string?_of_alike_text same)

/-- **What merging a body does to the parts of a method and of the optional one.**  If there is the
method, both are merged into it.  Otherwise the method is that of the body, and in a type the
optional one takes the optional one of the body. -/
theorem cells_foldl (derived : Bool) (distinct : Distinct further)
    (order : OptionalFirst verb further) (strays : Everywhere (FromStrays verb good) further)
    (cells : Cells verb good merged plain optional)
    (isFurther : Cells verb good further inherited inheritedOptional) : ∃ newPlain newOptional,
      Cells verb good (further.foldl
          (fun merged entry => mergeTypeEntry derived merged entry.1 entry.2) merged)
        newPlain newOptional ∧
      (plain ≠ [] → partsFor verb newPlain =
          partsFor verb (plain ++ (inheritedOptional ++ inherited)) ∧
        partsFor verb newOptional = partsFor verb optional) ∧
      (plain = [] → partsFor verb newPlain = partsFor verb inherited ∧
        (derived = true → partsFor verb newOptional =
          partsFor verb (optional ++ inheritedOptional))) := by
  induction further generalizing merged plain optional inherited inheritedOptional with
  | nil =>
    obtain rfl := isFurther.plain.eq_nil rfl
    obtain rfl := isFurther.optional.eq_nil rfl
    refine ⟨plain, optional, cells, fun _ => ⟨?_, rfl⟩, fun none => ⟨by rw [none], fun _ => ?_⟩⟩
    · rw [List.append_nil, List.append_nil]
    · rw [List.append_nil]
  | cons entry rest ih =>
    obtain ⟨key, value⟩ := entry
    obtain ⟨apart, others⟩ := List.pairwise_cons.mp distinct
    obtain ⟨notAfter, laterOrder⟩ := List.pairwise_cons.mp order
    have laterStrays : Everywhere (FromStrays verb good) rest :=
      fun entry member => strays entry (List.mem_cons_of_mem _ member)
    have once {name : String} (named : key.string? = some name) :
        Entries.find? rest (.text name) = none := by
      refine find?_eq_none_of_string? fun other member same => ?_
      have unlike := apart other member
      rw [Scalar.alike_text named same, beq_self_eq_true] at unlike
      cases unlike
    rw [List.foldl_cons]
    by_cases isPlain : key.string? = some verb.word
    · -- the optional method would stand before
      have notOptional : key.string? ≠ some (optionalName verb.word) := by
        rw [isPlain]
        exact fun same => optionalName_ne_word verb (Option.some.inj same).symm
      have missing : Entries.find? rest (.text (optionalName verb.word)) = none :=
        find?_eq_none_of_string? fun other member same => notAfter other member ⟨isPlain, same⟩
      obtain rfl := (isFurther.optional.of_cons notOptional).eq_nil missing
      have blend := isFurther.plain.head isPlain
      obtain ⟨newPlain, newOptional, isResult, merges, -⟩ := ih others laterOrder laterStrays
        (cells.merge_plain isPlain blend isFurther.plain.1 derived)
        ⟨Cell.of_missing (once isPlain), Cell.of_missing missing⟩
      obtain ⟨samePlain, sameOptional⟩ := merges (List.append_ne_nil_of_right_ne_nil _ blend.ne_nil)
      rw [List.append_nil, List.append_nil] at samePlain
      refine ⟨newPlain, newOptional, isResult, fun _ => ⟨samePlain, sameOptional⟩, ?_⟩
      rintro rfl
      exact ⟨samePlain, fun _ => by rw [sameOptional, List.append_nil]⟩
    by_cases isOptional : key.string? = some (optionalName verb.word)
    · have blend := isFurther.optional.head isOptional
      obtain ⟨withPlain, withOptional, isMerged, merges, remains⟩ :=
        cells.merge_optional isOptional blend isFurther.optional.1 derived
      obtain ⟨newPlain, newOptional, isResult, further, fresh⟩ := ih others laterOrder laterStrays
        isMerged ⟨isFurther.plain.of_cons isPlain, Cell.of_missing (once isOptional)⟩
      refine ⟨newPlain, newOptional, isResult, fun nonempty => ?_, fun empty => ?_⟩
      · obtain ⟨rfl, rfl⟩ := merges nonempty
        obtain ⟨samePlain, sameOptional⟩ :=
          further (List.append_ne_nil_of_left_ne_nil nonempty _)
        rw [List.nil_append, List.append_assoc] at samePlain
        exact ⟨samePlain, sameOptional⟩
      · obtain ⟨rfl, stays⟩ := remains empty
        obtain ⟨samePlain, sameOptional⟩ := fresh rfl
        refine ⟨samePlain, fun isDerived => ?_⟩
        rw [sameOptional isDerived, stays isDerived, List.append_nil]
    · obtain ⟨withOptional, isMerged, same⟩ := cells.merge_other isPlain isOptional
        (strays (key, value) List.mem_cons_self) derived
      obtain ⟨newPlain, newOptional, isResult, further, fresh⟩ := ih others laterOrder laterStrays
        isMerged ⟨isFurther.plain.of_cons isPlain, isFurther.optional.of_cons isOptional⟩
      refine ⟨newPlain, newOptional, isResult, fun nonempty => ?_, fun empty => ?_⟩
      · obtain ⟨samePlain, sameOptional⟩ := further nonempty
        exact ⟨samePlain, sameOptional.trans same⟩
      · obtain ⟨samePlain, sameOptional⟩ := fresh empty
        refine ⟨samePlain, fun isDerived => ?_⟩
        rw [sameOptional isDerived, partsFor_append, partsFor_append, same]

end RamlInterfaces.Raml
