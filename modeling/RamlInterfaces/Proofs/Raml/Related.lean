/-
**Mappings with related values.**

Two mappings are alike when they have the same keys in the same order and the values under each key
are related, in a way that may depend on the key.  Looking up, putting and merging entries, and
filling their placeholders, keep to such a relation where it is one for the values.

* `EntriesAlike`: the relation between the entries of two mappings;
* `MapsAlike`, `ListsAlike`: values that are the same, or are such mappings, or lists;
* `EntriesAlike.find?`, `EntriesAlike.put`, `EntriesAlike.ofList`: looking up and putting entries;
* `EntriesAlike.mergeEntries`: **merging keeps what it keeps for the values**;
* `EntriesAlike.substitute`: **filling placeholders leads from one relation to another**.
-/

import RamlInterfaces.Proofs.Except
import RamlInterfaces.Proofs.Raml.Merge
import RamlInterfaces.Proofs.Value.Entries
import RamlInterfaces.Raml.Placeholder

namespace RamlInterfaces.Raml

/-- The entries have the same keys in the same order, and related values under each. -/
def EntriesAlike (rel : Option String → Value → Value → Prop) (entries others : Entries) : Prop :=
  List.Forall₂ (fun entry other => entry.1 = other.1 ∧ rel entry.1.string? entry.2 other.2)
    entries others

/-- The values are the same, or mappings with related values. -/
def MapsAlike (rel : Option String → Value → Value → Prop) (value other : Value) : Prop :=
  value = other ∨ ∃ entries others, value = .map entries ∧ other = .map others ∧
    EntriesAlike rel entries others

/-- The values are the same, or lists with related items. -/
def ListsAlike (rel : Value → Value → Prop) (value other : Value) : Prop :=
  value = other ∨ ∃ items others, value = .list items ∧ other = .list others ∧
    List.Forall₂ rel items others

variable {rel filledRel : Option String → Value → Value → Prop}
  {entries others further another : Entries} {key : Scalar} {value other : Value} {name : String}

namespace EntriesAlike

theorem refl (same : ∀ name value, rel name value value) (entries : Entries) :
    EntriesAlike rel entries entries :=
  List.forall₂_same.mpr fun _ _ => ⟨rfl, same _ _⟩

theorem cons (here : rel key.string? value other) (rest : EntriesAlike rel entries others) :
    EntriesAlike rel ((key, value) :: entries) ((key, other) :: others) :=
  List.Forall₂.cons ⟨rfl, here⟩ rest

/-- What stands under a key in the one is related to what stands there in the other. -/
theorem find? (alike : EntriesAlike rel entries others) (key : Scalar) :
    Option.Rel (rel key.string?) (entries.find? key) (others.find? key) := by
  induction alike with
  | nil => exact .none
  | @cons entry other _ _ here _ ih =>
    obtain ⟨first, value⟩ := entry
    obtain ⟨_, another⟩ := other
    obtain ⟨rfl, related⟩ := here
    rw [Entries.find?_cons, Entries.find?_cons]
    by_cases isKey : first.alike key = true
    · rw [if_pos isKey, if_pos isKey]
      rw [string?_of_alike isKey] at related
      exact .some related
    · rw [if_neg isKey, if_neg isKey]
      exact ih

theorem get (alike : EntriesAlike rel entries others) (missing : rel (some name) .null .null) :
    rel (some name) (entries.get name) (others.get name) := by
  have both := alike.find? (.text name)
  unfold Entries.get
  generalize entries.find? (.text name) = found at both
  generalize others.find? (.text name) = known at both
  cases both with
  | none => exact missing
  | some related => exact related

theorem append (alike : EntriesAlike rel entries others) (last : rel key.string? value other) :
    EntriesAlike rel (entries ++ [(key, value)]) (others ++ [(key, other)]) := by
  induction alike with
  | nil => exact cons last .nil
  | cons here _ ih => exact List.Forall₂.cons here ih

theorem put (alike : EntriesAlike rel entries others) (here : rel key.string? value other) :
    EntriesAlike rel (entries.put key value) (others.put key other) := by
  induction alike with
  | nil => exact cons here .nil
  | @cons entry another _ _ both rest ih =>
    obtain ⟨first, old⟩ := entry
    obtain ⟨_, older⟩ := another
    obtain ⟨rfl, related⟩ := both
    rw [Entries.put_cons, Entries.put_cons]
    by_cases isKey : first.alike key = true
    · rw [if_pos isKey, if_pos isKey]
      rw [← string?_of_alike isKey] at here
      exact cons here rest
    · rw [if_neg isKey, if_neg isKey]
      exact cons related ih

theorem filter (alike : EntriesAlike rel entries others) (keep : Scalar → Bool) :
    EntriesAlike rel (entries.filter fun entry => keep entry.1)
      (others.filter fun entry => keep entry.1) := by
  induction alike with
  | nil => exact .nil
  | @cons entry other _ _ here _ ih =>
    rw [List.filter_cons, List.filter_cons, ← here.1]
    split
    · exact List.Forall₂.cons here ih
    · exact ih

theorem putAll (alike : EntriesAlike rel entries others)
    (more : EntriesAlike rel further another) :
    EntriesAlike rel (entries.putAll further) (others.putAll another) := by
  unfold Entries.putAll
  induction more generalizing entries others with
  | nil => exact alike
  | @cons entry other _ _ here _ ih =>
    rw [List.foldl_cons, List.foldl_cons, ← here.1]
    exact ih (alike.put here.2)

theorem ofList (alike : EntriesAlike rel entries others) :
    EntriesAlike rel (Entries.ofList entries) (Entries.ofList others) := by
  have all {sofar known : Entries} (start : EntriesAlike rel sofar known) :
      EntriesAlike rel
        (entries.foldl (fun sofar entry =>
          if entry.1.isNan then sofar ++ [entry] else sofar.put entry.1 entry.2) sofar)
        (others.foldl (fun sofar entry =>
          if entry.1.isNan then sofar ++ [entry] else sofar.put entry.1 entry.2) known) := by
    induction alike generalizing sofar known with
    | nil => exact start
    | @cons entry other _ _ here _ ih =>
      obtain ⟨key, value⟩ := entry
      obtain ⟨_, another⟩ := other
      obtain ⟨rfl, related⟩ := here
      rw [List.foldl_cons, List.foldl_cons]
      refine ih ?_
      split
      · exact start.append related
      · exact start.put related
  exact all .nil

/-- **Merging keeps the relation**, if it does so for the values under each key. -/
theorem mergeEntries (own : EntriesAlike rel entries others)
    (inherited : EntriesAlike rel further another)
    (kept : ∀ key explicit other value another, rel key.string? explicit other →
      rel key.string? value another →
        rel key.string? (merge (isTraitsKey key) explicit value)
          (merge (isTraitsKey key) other another)) :
    EntriesAlike rel (Raml.mergeEntries entries further) (Raml.mergeEntries others another) := by
  induction inherited generalizing entries others with
  | nil => exact own
  | @cons entry other _ _ here _ ih =>
    obtain ⟨key, value⟩ := entry
    obtain ⟨_, another⟩ := other
    obtain ⟨rfl, related⟩ := here
    unfold Raml.mergeEntries merge.mergeEntries
    have both := own.find? key
    generalize entries.find? key = explicit at both
    generalize others.find? key = known at both
    cases both with
    | none => exact ih (own.append related)
    | some found => exact ih (own.put (kept _ _ _ _ _ found related))

end EntriesAlike

/-! ### Values without end -/

theorem EntriesAlike.isEndless_eq (alike : EntriesAlike rel entries others)
    (each : ∀ name value other, rel name value other → value.isEndless = other.isEndless) :
    (Value.map entries).isEndless = (Value.map others).isEndless := by
  unfold Value.isEndless
  induction alike with
  | nil => rfl
  | cons here _ ih =>
    unfold Value.isEndless.someEndlessEntry
    rw [each _ _ _ here.2, ih]

theorem MapsAlike.isEndless_eq (alike : MapsAlike rel value other)
    (each : ∀ name value other, rel name value other → value.isEndless = other.isEndless) :
    value.isEndless = other.isEndless := by
  rcases alike with rfl | ⟨entries, others, rfl, rfl, alike⟩
  · rfl
  · exact alike.isEndless_eq each

theorem ListsAlike.isEndless_eq {rel : Value → Value → Prop} (alike : ListsAlike rel value other)
    (each : ∀ value other, rel value other → value.isEndless = other.isEndless) :
    value.isEndless = other.isEndless := by
  rcases alike with rfl | ⟨items, others, rfl, rfl, alike⟩
  · rfl
  · unfold Value.isEndless
    induction alike with
    | nil => rfl
    | cons here _ ih =>
      unfold Value.isEndless.someEndless
      rw [each _ _ here, ih]

/-! ### Filling placeholders -/

/-- **Filling placeholders** leads from related entries to related ones, if it does so for the value
under each key and for what becomes of the key. -/
theorem EntriesAlike.substitute {arguments : Entries} (alike : EntriesAlike rel entries others)
    (carried : ∀ key filled value other, substituteScalar arguments key = .ok filled →
      rel key.string? value other → EndAlike (filledRel filled.string?)
        (Raml.substitute arguments value) (Raml.substitute arguments other)) :
    EndAlike (EntriesAlike filledRel) (substitute.substituteEntries arguments entries)
      (substitute.substituteEntries arguments others) := by
  induction alike with
  | nil => exact .ok .nil
  | @cons entry other _ _ here _ ih =>
    obtain ⟨key, value⟩ := entry
    obtain ⟨_, another⟩ := other
    obtain ⟨rfl, related⟩ := here
    unfold Raml.substitute.substituteEntries
    cases filledKey : substituteScalar arguments key with
    | error fault => exact .error fault
    | ok filled =>
      refine (carried key filled value another filledKey related).bind fun first second both => ?_
      exact ih.bind fun rest more areMore => .ok (.cons both areMore)

theorem MapsAlike.substitute {arguments : Entries} (alike : MapsAlike rel value other)
    (carried : ∀ key filled value other, substituteScalar arguments key = .ok filled →
      rel key.string? value other → EndAlike (filledRel filled.string?)
        (Raml.substitute arguments value) (Raml.substitute arguments other)) :
    EndAlike (MapsAlike filledRel) (Raml.substitute arguments value)
      (Raml.substitute arguments other) := by
  rcases alike with rfl | ⟨entries, others, rfl, rfl, alike⟩
  · exact .refl (fun _ => .inl rfl) _
  · unfold Raml.substitute
    refine (alike.substitute carried).bind fun filled more areAlike => ?_
    exact .ok (.inr ⟨_, _, rfl, rfl, areAlike.ofList⟩)

theorem ListsAlike.substitute {arguments : Entries} {each filledEach : Value → Value → Prop}
    (alike : ListsAlike each value other)
    (carried : ∀ value other, each value other → EndAlike filledEach
      (Raml.substitute arguments value) (Raml.substitute arguments other)) :
    EndAlike (ListsAlike filledEach) (Raml.substitute arguments value)
      (Raml.substitute arguments other) := by
  rcases alike with rfl | ⟨items, others, rfl, rfl, alike⟩
  · exact .refl (fun _ => .inl rfl) _
  · have all : EndAlike (List.Forall₂ filledEach) (substitute.substituteItems arguments items)
        (substitute.substituteItems arguments others) := by
      induction alike with
      | nil => exact .ok .nil
      | cons here _ ih =>
        unfold Raml.substitute.substituteItems
        refine (carried _ _ here).bind fun first second both => ?_
        exact ih.bind fun rest more areMore => .ok (.cons both areMore)
    unfold Raml.substitute
    exact all.bind fun filled more areAlike => .ok (.inr ⟨_, _, rfl, rfl, areAlike⟩)

end RamlInterfaces.Raml
