/-
**The base packages that settings are accepted with.**

A package is a sequence of legal names with dots between them.  The check of the form passes over a
line feed at the end of the text, and the check for reserved words then sees it in the last name.
So a line feed may follow a package, and its last name may be reserved before a line feed.

* `IsPackage`, `isPackage_iff`: the packages, and how to tell one;
* `EndsInLineFeed`: a sequence of identifiers with a line feed after it;
* `isPackageForm_iff`, `reservedSegments_eq_nil_iff`: what the two checks look for;
* `checkPackage_eq_ok_iff`: the texts that are not refused;
* `check_eq_ok_iff`: **settings with a usable directory are accepted exactly if their package is
  one, or ends in a line feed**;
* `lineFeed_accepted`: **a text that is accepted and no package**.
-/

import RamlInterfaces.Proofs.Java.Legality
import RamlInterfaces.Settings.Check

namespace RamlInterfaces.Settings

open File (Path World)
open Java (IsLegal isIdentifier isReserved)

/-! ### Packages -/

/-- The text is a package: legal names, one at least, with a dot between each two. -/
def IsPackage (package : String) : Prop :=
  ∃ names : List String, names ≠ [] ∧ (∀ name ∈ names, IsLegal name) ∧
    package = ".".intercalate names

/-- The text is a sequence of identifiers with dots between them and a line feed after the last, in
which none but the last is reserved. -/
def EndsInLineFeed (package : String) : Prop :=
  ∃ (names : List String) (last : String), (∀ name ∈ names, IsLegal name) ∧
    isIdentifier last.toList = true ∧ package = ".".intercalate (names ++ [last]) ++ "\n"

theorem notMem_of_isIdentifier {name : List Char} (identifier : isIdentifier name = true) {c : Char}
    (other : Java.isIdentifierChar c = false) : c ∉ name := by
  intro member
  rw [Java.isIdentifierChar_of_mem identifier c member] at other
  cases other

/-- **Names are found again in the text that dots join them to.** -/
theorem segments_intercalate {names : List String} (some : names ≠ [])
    (identifiers : ∀ name ∈ names, isIdentifier name.toList = true) :
    segments (".".intercalate names).toList = names.map String.toList := by
  have dot : ".".toList = ['.'] := rfl
  unfold segments
  rw [Text.toList_intercalate, dot]
  refine Text.pieces_join (fun none => some (List.map_eq_nil_iff.mp none)) ?_
  exact List.forall_mem_map.mpr fun name member =>
    notMem_of_isIdentifier (identifiers name member) rfl

/-- Every text is the one that dots join its segments to. -/
theorem intercalate_segments (cs : List Char) :
    ".".intercalate ((segments cs).map String.ofList) = String.ofList cs := by
  have dot : ".".toList = ['.'] := rfl
  refine String.toList_inj.mp ?_
  rw [Text.toList_intercalate, dot, List.map_map, String.toList_ofList]
  simp only [Function.comp_def, String.toList_ofList, List.map_id']
  exact Text.join_pieces '.' cs

/-- **A text is a package if its segments are legal.** -/
theorem isPackage_iff {package : String} :
    IsPackage package ↔ ∀ segment ∈ segments package.toList, IsLegal (String.ofList segment) := by
  constructor
  · rintro ⟨names, some, legal, rfl⟩
    rw [segments_intercalate some fun name member => (legal name member).identifier]
    exact List.forall_mem_map.mpr fun name member => by
      rw [String.ofList_toList]
      exact legal name member
  · intro legal
    refine ⟨(segments package.toList).map String.ofList, ?_, List.forall_mem_map.mpr legal, ?_⟩
    · rw [Ne, List.map_eq_nil_iff]
      exact Text.pieces_ne_nil '.' package.toList
    · rw [intercalate_segments, String.ofList_toList]

instance (package : String) : Decidable (IsPackage package) := decidable_of_iff' _ isPackage_iff

/-! ### The form of a package -/

theorem withoutFinalLineFeed_concat (cs : List Char) :
    withoutFinalLineFeed (cs ++ ['\n']) = cs := by
  unfold withoutFinalLineFeed
  rw [List.getLast?_concat]
  exact List.dropLast_concat

theorem withoutFinalLineFeed_of_notMem {cs : List Char} (none : '\n' ∉ cs) :
    withoutFinalLineFeed cs = cs := by
  unfold withoutFinalLineFeed
  split
  · rename_i last
    exact absurd (List.mem_of_getLast? last) none
  · rfl

theorem withoutFinalLineFeed_cases (cs : List Char) :
    cs = withoutFinalLineFeed cs ∨ cs = withoutFinalLineFeed cs ++ ['\n'] := by
  unfold withoutFinalLineFeed
  split
  · rename_i last
    obtain ⟨init, rfl⟩ := List.getLast?_eq_some_iff.mp last
    exact .inr (by rw [List.dropLast_concat])
  · exact .inl rfl

/-- Identifiers with dots between them hold no line feed. -/
theorem lineFeed_notMem {names : List String}
    (identifiers : ∀ name ∈ names, isIdentifier name.toList = true) :
    '\n' ∉ (".".intercalate names).toList := by
  rw [Text.toList_intercalate]
  intro member
  rcases Text.mem_join member with inDot | ⟨text, isName, inside⟩
  · exact absurd inDot (by decide)
  · obtain ⟨name, isOne, rfl⟩ := List.mem_map.mp isName
    exact notMem_of_isIdentifier (identifiers name isOne) rfl inside

/-- **The form of a package** is that of identifiers, with or without a line feed at the end. -/
theorem isPackageForm_iff {package : String} : isPackageForm package.toList = true ↔
    ∃ names : List String, names ≠ [] ∧ (∀ name ∈ names, isIdentifier name.toList = true) ∧
      (package = ".".intercalate names ∨ package = ".".intercalate names ++ "\n") := by
  unfold isPackageForm
  rw [List.all_eq_true]
  constructor
  · intro identifiers
    refine ⟨(segments (withoutFinalLineFeed package.toList)).map String.ofList, ?_, ?_, ?_⟩
    · rw [Ne, List.map_eq_nil_iff]
      exact Text.pieces_ne_nil '.' _
    · exact List.forall_mem_map.mpr fun segment member => by
        rw [String.toList_ofList]
        exact identifiers segment member
    · rw [intercalate_segments]
      rcases withoutFinalLineFeed_cases package.toList with same | ended
      · exact .inl (by rw [← same, String.ofList_toList])
      · refine .inr (String.toList_inj.mp ?_)
        rw [String.toList_append, String.toList_ofList]
        exact ended
  · rintro ⟨names, some, identifiers, same⟩
    have cut : withoutFinalLineFeed package.toList = (".".intercalate names).toList := by
      rcases same with rfl | rfl
      · exact withoutFinalLineFeed_of_notMem (lineFeed_notMem identifiers)
      · rw [String.toList_append]
        exact withoutFinalLineFeed_concat _
    rw [cut, segments_intercalate some identifiers]
    exact List.forall_mem_map.mpr identifiers

/-! ### Reserved words -/

theorem isReserved_eq_false_iff {name : String} :
    isReserved name.toList = false ↔ name ∉ Java.reservedWords := by
  unfold isReserved
  rw [String.ofList_toList, ← Bool.not_eq_true, List.contains_iff_mem]

theorem reservedSegments_eq_nil_iff {cs : List Char} :
    reservedSegments cs = [] ↔ ∀ segment ∈ segments cs, isReserved segment = false := by
  unfold reservedSegments
  rw [List.map_eq_nil_iff, List.filter_eq_nil_iff]
  simp only [Bool.not_eq_true]

/-- Nothing with a line feed is reserved. -/
theorem isReserved_concat (cs : List Char) : isReserved (cs ++ ['\n']) = false := by
  refine Bool.eq_false_iff.mpr fun reserved => ?_
  have lower := Java.isLower_of_mem_reservedWords _ (List.contains_iff_mem.mp reserved) '\n'
  rw [String.toList_ofList] at lower
  exact absurd (lower (List.mem_append_right _ List.mem_cons_self)) (by decide)

/-- **The last of the names is not seen to be reserved before a line feed.** -/
theorem reservedSegments_line {names : List String} {last : String}
    (identifiers : ∀ name ∈ names ++ [last], isIdentifier name.toList = true) :
    reservedSegments (".".intercalate (names ++ [last]) ++ "\n").toList = [] ↔
      ∀ name ∈ names, name ∉ Java.reservedWords := by
  have cut : segments (".".intercalate (names ++ [last]) ++ "\n").toList =
      names.map String.toList ++ [last.toList ++ ['\n']] := by
    have whole := segments_intercalate (by simp) identifiers
    unfold segments at whole ⊢
    have ended : (".".intercalate (names ++ [last]) ++ "\n").toList =
        (".".intercalate (names ++ [last])).toList ++ ['\n'] := String.toList_append
    rw [ended, Text.pieces_concat _ (by decide), Text.afterLast, whole, List.map_append,
      List.map_singleton, List.dropLast_concat, List.getLast?_concat, Option.getD_some]
  rw [reservedSegments_eq_nil_iff, cut, List.forall_mem_append, List.forall_mem_singleton,
    and_iff_left (isReserved_concat last.toList), List.forall_mem_map]
  simp only [isReserved_eq_false_iff]

/-! ### The checks -/

/-- Identifiers with dots between them are no blank text. -/
theorem isAllBlank_of_identifiers {names : List String} (some : names ≠ [])
    (identifiers : ∀ name ∈ names, isIdentifier name.toList = true) (rest : String) :
    Text.isAllBlank (".".intercalate names ++ rest) = false := by
  obtain ⟨first, others, rfl⟩ := List.exists_cons_of_ne_nil some
  have identifier := identifiers first List.mem_cons_self
  have there : first.toList ≠ [] := by
    intro none
    rw [none] at identifier
    cases identifier
  obtain ⟨c, letters, shape⟩ := List.exists_cons_of_ne_nil there
  have inside : Java.isIdentifierChar c = true := by
    refine Java.isIdentifierChar_of_mem identifier c ?_
    rw [shape]
    exact List.mem_cons_self
  unfold Text.isAllBlank
  rw [String.toList_append, Text.toList_intercalate_cons, shape, List.cons_append, List.cons_append,
    List.all_cons, Java.isBlank_of_isIdentifierChar inside, Bool.false_and]

theorem checkPackage_eq_ok {package : String} : checkPackage package = .ok () ↔
    Text.isAllBlank package = false ∧ isPackageForm package.toList = true ∧
      reservedSegments package.toList = [] := by
  unfold checkPackage
  cases Text.isAllBlank package with
  | true => simp
  | false =>
    cases isPackageForm package.toList with
    | false => simp
    | true => cases reservedSegments package.toList <;> simp

/-- **The texts that are not refused** are the packages, and those that end in a line feed. -/
theorem checkPackage_eq_ok_iff {package : String} :
    checkPackage package = .ok () ↔ IsPackage package ∨ EndsInLineFeed package := by
  rw [checkPackage_eq_ok, isPackageForm_iff]
  constructor
  · rintro ⟨-, ⟨names, some, identifiers, rfl | rfl⟩, free⟩
    · rw [reservedSegments_eq_nil_iff, segments_intercalate some identifiers,
        List.forall_mem_map] at free
      refine .inl ⟨names, some, fun name member => ⟨identifiers name member, ?_⟩, rfl⟩
      exact isReserved_eq_false_iff.mp (free name member)
    · obtain ⟨front, last, rfl⟩ : ∃ front last, names = front ++ [last] :=
        ⟨_, _, (List.dropLast_concat_getLast some).symm⟩
      rw [reservedSegments_line identifiers] at free
      rw [List.forall_mem_append, List.forall_mem_singleton] at identifiers
      exact .inr ⟨front, last, fun name member => ⟨identifiers.1 name member, free name member⟩,
        identifiers.2, rfl⟩
  · rintro (⟨names, some, legal, rfl⟩ | ⟨names, last, legal, identifier, rfl⟩)
    · have identifiers : ∀ name ∈ names, isIdentifier name.toList = true :=
        fun name member => (legal name member).identifier
      refine ⟨?_, ⟨names, some, identifiers, .inl rfl⟩, ?_⟩
      · rw [← String.append_empty (s := ".".intercalate names)]
        exact isAllBlank_of_identifiers some identifiers ""
      · rw [reservedSegments_eq_nil_iff, segments_intercalate some identifiers, List.forall_mem_map]
        exact fun name member => isReserved_eq_false_iff.mpr (legal name member).free
    · have some : names ++ [last] ≠ [] := by simp
      have identifiers : ∀ name ∈ names ++ [last], isIdentifier name.toList = true := by
        rw [List.forall_mem_append, List.forall_mem_singleton]
        exact ⟨fun name member => (legal name member).identifier, identifier⟩
      refine ⟨isAllBlank_of_identifiers some identifiers "\n",
        ⟨names ++ [last], some, identifiers, .inr rfl⟩, ?_⟩
      rw [reservedSegments_line identifiers]
      exact fun name member => (legal name member).free

/-! ### Settings -/

variable {world : World} {c : Configuration} {directory : Path}

/-- Settings with a usable directory are checked for their package alone. -/
theorem check_of_usable (usable : usableDirectory world c = .ok directory) :
    check world (some c) =
      match checkPackage c.basePackage with
      | .ok () => .ok c
      | .error fault => .error (.settings fault) := by
  unfold check
  dsimp only
  rw [usable]
  dsimp only [bind, Except.bind]
  cases checkPackage c.basePackage <;> rfl

/-- **Settings whose output directory is there and can be written to** are accepted exactly if their
base package is a package or a sequence of identifiers that ends in a line feed; they are refused
for a fault of the settings otherwise. -/
theorem check_eq_ok_iff (output : c.outputDirectory = some directory)
    (isDirectory : world.isDirectory directory = .ok true) (writable : world.readOnly = false) :
    (check world (some c) = .ok c ↔ IsPackage c.basePackage ∨ EndsInLineFeed c.basePackage) ∧
      (check world (some c) = .ok c ∨
        ∃ fault, check world (some c) = .error (.settings fault)) := by
  have usable : usableDirectory world c = .ok directory := by
    unfold usableDirectory
    rw [output]
    dsimp only
    rw [isDirectory]
    dsimp only
    rw [writable, if_neg Bool.false_ne_true]
  rw [check_of_usable usable, ← checkPackage_eq_ok_iff]
  cases checkPackage c.basePackage with
  | ok => exact ⟨iff_of_true rfl rfl, .inl rfl⟩
  | error fault => exact ⟨iff_of_false nofun nofun, .inr ⟨fault, rfl⟩⟩

/-- A world with one directory, `out`. -/
def outputOnly : World := ⟨.directory [("out", .directory [])], [], false⟩

/-- Settings for that directory with the given package. -/
def settingsFor (package : String) : Configuration :=
  { outputDirectory := some ⟨0, ["out"]⟩, basePackage := package }

theorem check_eq_ok_iff_shelves :
    (settingsFor "com.example.$shelves_2").outputDirectory = some ⟨0, ["out"]⟩ ∧
      outputOnly.isDirectory ⟨0, ["out"]⟩ = .ok true ∧ outputOnly.readOnly = false ∧
        check outputOnly (some (settingsFor "com.example.$shelves_2")) =
          .ok (settingsFor "com.example.$shelves_2") := by
  have isDirectory : outputOnly.isDirectory ⟨0, ["out"]⟩ = .ok true := rfl
  refine ⟨rfl, isDirectory, rfl, ?_⟩
  exact (check_eq_ok_iff rfl isDirectory rfl).1.mpr (.inl (by decide +kernel))

/-- **A line feed after a package is accepted, and a reserved word before it**, though neither text
is a package. -/
theorem lineFeed_accepted : ¬ IsPackage "api\n" ∧ ¬ IsPackage "api.class\n" ∧
    outputOnly.isDirectory ⟨0, ["out"]⟩ = .ok true ∧ outputOnly.readOnly = false ∧
      check outputOnly (some (settingsFor "api\n")) = .ok (settingsFor "api\n") ∧
        check outputOnly (some (settingsFor "api.class\n")) =
          .ok (settingsFor "api.class\n") :=
  ⟨by decide +kernel, by decide +kernel, rfl, rfl, rfl, rfl⟩

end RamlInterfaces.Settings
