/-
**Looking up entries that are put.**

The entries of a mapping keep the order in which their keys first came.  A value that is put under a
key takes the place of the one that is found there, and comes to stand at the end where none is.
Keys are the same when they are alike: as numbers, as strings, as instants, or because they are the
same scalar.

* `find?_append`: what is found in two rows of entries;
* `put_of_missing`, `keys_put_of_found`: where a value comes to stand;
* `find?_put_of_found`: **what a replaced value changes**, whatever key is looked up;
* `find?_filter`, `find?_eq_none`: entries that are left out, and keys that are not there;
* `find?_of_mapM`: **what is found after a walk through the entries**;
* `Value.at?`, `Value.at?_append`: the value at a path of keys, and at a longer path;
* `Likeness`, `alike_iff`: scalars are alike exactly when they are compared by the same;
* `find?_of_alike`: **alike keys find the same**.
-/

import RamlInterfaces.Proofs.Except
import RamlInterfaces.Value.Basic

namespace RamlInterfaces

namespace Entries

variable {entries : Entries} {first key wanted : Scalar} {old value : Value}

theorem find?_cons (rest : Entries) : find? ((first, value) :: rest) wanted =
    if first.alike wanted = true then some value else find? rest wanted := rfl

theorem put_cons (rest : Entries) : put ((first, old) :: rest) key value =
    if first.alike key = true then (first, value) :: rest else (first, old) :: put rest key value :=
  rfl

theorem find?_append (front back : Entries) (wanted : Scalar) :
    find? (front ++ back) wanted = (find? front wanted).or (find? back wanted) := by
  induction front with
  | nil => rfl
  | cons entry rest ih =>
    obtain ⟨first, here⟩ := entry
    rw [List.cons_append, find?_cons, find?_cons]
    by_cases isWanted : first.alike wanted = true
    · rw [if_pos isWanted, if_pos isWanted]
      rfl
    · rw [if_neg isWanted, if_neg isWanted]
      exact ih

/-- A value under a key that is not there comes to stand at the end. -/
theorem put_of_missing (missing : find? entries key = none) :
    put entries key value = entries ++ [(key, value)] := by
  induction entries with
  | nil => rfl
  | cons entry rest ih =>
    obtain ⟨first, here⟩ := entry
    have other : ¬ first.alike key = true := by
      intro same
      rw [find?_cons, if_pos same] at missing
      cases missing
    rw [find?_cons, if_neg other] at missing
    rw [put_cons, if_neg other, ih missing]
    rfl

/-- A value under a key that is there takes the place of the old one. -/
theorem keys_put_of_found (found : find? entries key = some old) :
    (put entries key value).map Prod.fst = entries.map Prod.fst := by
  induction entries with
  | nil => cases found
  | cons entry rest ih =>
    obtain ⟨first, here⟩ := entry
    rw [put_cons]
    by_cases same : first.alike key = true
    · rw [if_pos same]
      rfl
    · rw [find?_cons, if_neg same] at found
      rw [if_neg same, List.map_cons, List.map_cons, ih found]

/-- A replaced value is found under the keys under which the old one was, all of them alike the key
of one entry, and under other keys nothing changes. -/
theorem find?_put_of_found (found : find? entries key = some old) (value : Value)
    (wanted : Scalar) :
    find? (put entries key value) wanted = find? entries wanted ∨
      find? entries wanted = some old ∧ find? (put entries key value) wanted = some value ∧
        ∃ first : Scalar, first.alike key = true ∧ first.alike wanted = true := by
  induction entries with
  | nil => cases found
  | cons entry rest ih =>
    obtain ⟨first, here⟩ := entry
    rw [find?_cons] at found
    rw [put_cons, find?_cons]
    by_cases same : first.alike key = true
    · rw [if_pos same] at found ⊢
      rw [find?_cons]
      by_cases isWanted : first.alike wanted = true
      · rw [if_pos isWanted, if_pos isWanted]
        exact .inr ⟨found, rfl, first, same, isWanted⟩
      · rw [if_neg isWanted, if_neg isWanted]
        exact .inl rfl
    · rw [if_neg same] at found ⊢
      rw [find?_cons]
      by_cases isWanted : first.alike wanted = true
      · rw [if_pos isWanted, if_pos isWanted]
        exact .inl rfl
      · rw [if_neg isWanted, if_neg isWanted]
        exact ih found

/-- Entries that are left out do not matter for a key that none of them is alike. -/
theorem find?_filter {keep : Scalar × Value → Bool}
    (keeps : ∀ entry ∈ entries, entry.1.alike wanted = true → keep entry = true) :
    find? (entries.filter keep) wanted = find? entries wanted := by
  induction entries with
  | nil => rfl
  | cons entry rest ih =>
    obtain ⟨first, here⟩ := entry
    have further := ih fun other member => keeps other (List.mem_cons_of_mem _ member)
    rw [find?_cons]
    by_cases isWanted : first.alike wanted = true
    · rw [List.filter_cons_of_pos (keeps _ List.mem_cons_self isWanted), find?_cons,
        if_pos isWanted, if_pos isWanted]
    · rw [if_neg isWanted, ← further, List.filter_cons]
      by_cases kept : keep (first, here) = true
      · rw [if_pos kept, find?_cons, if_neg isWanted]
      · rw [if_neg kept]

/-- Nothing is found under a key that no entry has. -/
theorem find?_eq_none (missing : ∀ entry ∈ entries, entry.1.alike wanted = false) :
    find? entries wanted = none := by
  cases found : find? entries wanted with
  | none => rfl
  | some value =>
    obtain ⟨entry, member, same, -⟩ := exists_of_find? found
    rw [missing entry member] at same
    cases same

/-- No entry has a key under which nothing is found. -/
theorem alike_eq_false_of_missing (missing : find? entries wanted = none) :
    ∀ entry ∈ entries, entry.1.alike wanted = false := by
  induction entries with
  | nil => exact fun entry member => absurd member List.not_mem_nil
  | cons entry rest ih =>
    obtain ⟨first, here⟩ := entry
    rw [find?_cons] at missing
    by_cases isWanted : first.alike wanted = true
    · rw [if_pos isWanted] at missing
      cases missing
    · rw [if_neg isWanted] at missing
      exact List.forall_mem_cons.mpr ⟨Bool.eq_false_iff.mpr isWanted, ih missing⟩

/-- The value that is found, put in its place, changes nothing. -/
theorem put_self (found : find? entries key = some value) : put entries key value = entries := by
  induction entries with
  | nil => cases found
  | cons entry rest ih =>
    obtain ⟨first, here⟩ := entry
    rw [find?_cons] at found
    rw [put_cons]
    by_cases same : first.alike key = true
    · rw [if_pos same] at found ⊢
      cases found
      rfl
    · rw [if_neg same] at found ⊢
      rw [ih found]

/-- Keys that the same keys are alike find the same. -/
theorem find?_congr (same : ∀ first : Scalar, first.alike key = first.alike wanted) :
    find? entries key = find? entries wanted := by
  induction entries with
  | nil => rfl
  | cons entry rest ih =>
    obtain ⟨first, here⟩ := entry
    rw [find?_cons, find?_cons, same, ih]

/-- A walk that leaves the keys as they are finds under every key what becomes of what was there. -/
theorem find?_of_mapM {ε : Type} {step : Scalar × Value → Except ε (Scalar × Value)}
    {results : Entries} (sameKey : ∀ entry result, step entry = .ok result → result.1 = entry.1)
    (done : entries.mapM step = .ok results) (wanted : Scalar) :
    find? entries wanted = none ∧ find? results wanted = none ∨
      ∃ (first : Scalar) (child result : Value), first.alike wanted = true ∧
        find? entries wanted = some child ∧ find? results wanted = some result ∧
          step (first, child) = .ok (first, result) := by
  induction entries generalizing results with
  | nil =>
    cases done
    exact .inl ⟨rfl, rfl⟩
  | cons entry rest ih =>
    obtain ⟨first, child⟩ := entry
    rw [List.mapM_cons] at done
    obtain ⟨⟨key, result⟩, here, done⟩ := bind_eq_ok_iff.mp done
    obtain ⟨others, further, same⟩ := bind_eq_ok_iff.mp done
    cases same
    have isKey : key = first := sameKey _ _ here
    subst isKey
    rw [find?_cons, find?_cons]
    by_cases isWanted : key.alike wanted = true
    · rw [if_pos isWanted, if_pos isWanted]
      exact .inr ⟨key, child, result, isWanted, rfl, rfl, here⟩
    · rw [if_neg isWanted, if_neg isWanted]
      exact ih further

/-- A walk that leaves the keys as they are leaves their order. -/
theorem keys_of_mapM {ε : Type} {step : Scalar × Value → Except ε (Scalar × Value)}
    {results : Entries} (sameKey : ∀ entry result, step entry = .ok result → result.1 = entry.1)
    (done : entries.mapM step = .ok results) :
    results.map Prod.fst = entries.map Prod.fst := by
  induction entries generalizing results with
  | nil =>
    cases done
    rfl
  | cons entry rest ih =>
    rw [List.mapM_cons] at done
    obtain ⟨result, here, done⟩ := bind_eq_ok_iff.mp done
    obtain ⟨others, further, same⟩ := bind_eq_ok_iff.mp done
    cases same
    rw [List.map_cons, List.map_cons, ih further, sameKey _ _ here]

/-- A value that is found is smaller than the entries. -/
theorem sizeOf_lt_of_find? (found : find? entries key = some value) :
    sizeOf value < sizeOf entries := by
  obtain ⟨⟨first, here⟩, member, -, rfl⟩ := exists_of_find? found
  have inEntries : sizeOf (first, here) < sizeOf entries := List.sizeOf_lt_of_mem member
  simp only [Prod.mk.sizeOf_spec] at inEntries
  show sizeOf here < sizeOf entries
  omega

end Entries

namespace Value

/-- The value at a path of keys inside a value. -/
def at? : Value → List Scalar → Option Value
  | value, [] => some value
  | .map entries, key :: rest => (Entries.find? entries key).bind fun child => at? child rest
  | _, _ :: _ => none

@[simp] theorem at?_nil (value : Value) : value.at? [] = some value := by
  cases value <;> rfl

theorem at?_cons_eq_some_iff {value result : Value} {key : Scalar} {rest : List Scalar} :
    value.at? (key :: rest) = some result ↔ ∃ (entries : Entries) (child : Value),
      value = .map entries ∧ entries.find? key = some child ∧ child.at? rest = some result := by
  constructor
  · intro found
    cases value with
    | map entries =>
      obtain ⟨child, isChild, inside⟩ := Option.bind_eq_some_iff.mp found
      exact ⟨entries, child, rfl, isChild, inside⟩
    | _ => cases found
  · rintro ⟨entries, child, rfl, isChild, inside⟩
    exact Option.bind_eq_some_iff.mpr ⟨child, isChild, inside⟩

theorem at?_append (value : Value) (above below : List Scalar) :
    value.at? (above ++ below) = (value.at? above).bind fun inner => inner.at? below := by
  induction above generalizing value with
  | nil =>
    rw [at?_nil]
    rfl
  | cons key rest ih =>
    cases value with
    | map entries =>
      show (Entries.find? entries key).bind (fun child => child.at? (rest ++ below)) =
        ((Entries.find? entries key).bind fun child => child.at? rest).bind _
      rw [Option.bind_assoc]
      exact congrArg _ (funext fun child => ih child)
    | _ => rfl

end Value

/-! ### Alike scalars -/

namespace Scalar

/-- What a scalar is compared by. -/
inductive Likeness where
  | number (value : Quantity)
  | string (value : String)
  | instant (seconds : Int) (microsecond : Nat)
  | itself (value : Scalar)
deriving DecidableEq

/-- What a scalar that is neither a number nor a string is compared by: a moment with an offset by
its instant. -/
def remainingLikeness : Scalar → Likeness
  | .timestamp t =>
    match t.offset with
    | some lead => .instant (t.clockSeconds - lead) t.microsecond
    | none => .itself (.timestamp t)
  | other => .itself other

/-- What the scalar is compared by. -/
def likeness (s : Scalar) : Likeness :=
  match s.quantity?, s.string? with
  | some value, _ => .number value
  | none, some value => .string value
  | none, none => s.remainingLikeness

theorem timestamp_alike_iff {first second : Timestamp} : first.alike second = true ↔
    remainingLikeness (.timestamp first) = remainingLikeness (.timestamp second) := by
  cases offset : first.offset <;> cases other : second.offset <;>
    simp [Timestamp.alike, remainingLikeness, offset, other]

theorem remainingLikeness_ne (s : Scalar) : (∀ value, s.remainingLikeness ≠ .number value) ∧
    ∀ value, s.remainingLikeness ≠ .string value := by
  unfold remainingLikeness
  split
  · split <;> simp
  · simp

/-- Only the scalar itself is compared by what one that is no moment is compared by. -/
theorem eq_of_remainingLikeness {first second : Scalar} (noMoment : ∀ t, second ≠ .timestamp t)
    (same : first.remainingLikeness = second.remainingLikeness) : first = second := by
  have itself : second.remainingLikeness = .itself second := by
    unfold remainingLikeness
    split
    · exact absurd rfl (noMoment _)
    · rfl
  rw [itself] at same
  unfold remainingLikeness at same
  split at same
  · split at same <;> cases same
    exact absurd rfl (noMoment _)
  · cases same
    rfl

/-- **Scalars are alike exactly when they are compared by the same.** -/
theorem alike_iff {first second : Scalar} :
    first.alike second = true ↔ first.likeness = second.likeness := by
  obtain ⟨noNumber, noString⟩ := remainingLikeness_ne first
  obtain ⟨alsoNoNumber, alsoNoString⟩ := remainingLikeness_ne second
  unfold alike likeness
  cases first.quantity? with
  | some a =>
    cases second.quantity? with
    | some b => simp
    | none => cases second.string? <;> simp [Ne.symm (alsoNoNumber a)]
  | none =>
    cases second.quantity? with
    | some b => cases first.string? <;> simp [noNumber b]
    | none =>
      cases first.string? with
      | some a =>
        cases second.string? with
        | some b => simp
        | none => simp [Ne.symm (alsoNoString a)]
      | none =>
        cases second.string? with
        | some b => simp [noString b]
        | none =>
          simp only
          split
          · exact timestamp_alike_iff
          · rename_i noMoments
            rw [beq_iff_eq]
            refine ⟨congrArg remainingLikeness, fun same => ?_⟩
            by_cases moment : ∃ t, second = .timestamp t
            · obtain ⟨t, rfl⟩ := moment
              refine (eq_of_remainingLikeness (fun other isFirst => ?_) same.symm).symm
              exact noMoments other t isFirst rfl
            · exact eq_of_remainingLikeness (fun t isSecond => moment ⟨t, isSecond⟩) same

theorem alike_symm {first second : Scalar} (same : first.alike second = true) :
    second.alike first = true := alike_iff.mpr (alike_iff.mp same).symm

theorem alike_trans {first second third : Scalar} (same : first.alike second = true)
    (further : second.alike third = true) : first.alike third = true :=
  alike_iff.mpr ((alike_iff.mp same).trans (alike_iff.mp further))

/-- Alike scalars are alike the same ones. -/
theorem alike_congr {key wanted : Scalar} (same : key.alike wanted = true) (first : Scalar) :
    first.alike key = first.alike wanted :=
  Bool.eq_iff_iff.mpr
    ⟨fun isKey => alike_trans isKey same, fun isWanted => alike_trans isWanted (alike_symm same)⟩

end Scalar

/-- **Alike keys find the same.** -/
theorem Entries.find?_of_alike {key wanted : Scalar} (entries : Entries)
    (same : key.alike wanted = true) : entries.find? key = entries.find? wanted :=
  find?_congr (Scalar.alike_congr same)

end RamlInterfaces
