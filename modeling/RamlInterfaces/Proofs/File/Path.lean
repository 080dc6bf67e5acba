/-
**Paths written and read again.**

* `Path.IsName`, `Path.Normal`: the names that a text between slashes can give, and the paths of
  such names;
* `Path.normal_ofText`: a text denotes such a path;
* `Path.namesOf_intercalate`: names are found again between the slashes that join them;
* `Path.ofText_text`: **such a path is denoted by its own text**.
-/

import RamlInterfaces.File.Path
import RamlInterfaces.Proofs.Text.Runs

namespace RamlInterfaces.File.Path

/-- A name that counts between slashes. -/
structure IsName (name : String) : Prop where
  filled : name.isEmpty = false
  noDot : name ≠ "."
  noSlash : '/' ∉ name.toList

/-- A path as a text can denote it. -/
structure Normal (path : Path) : Prop where
  slashes : path.slashes ≤ 2
  names : ∀ name ∈ path.names, IsName name

theorem isName_of_mem_namesOf {text name : String} (member : name ∈ namesOf text) :
    IsName name := by
  obtain ⟨there, counts⟩ := List.mem_filter.mp member
  obtain ⟨piece, isPiece, rfl⟩ := List.mem_map.mp there
  rw [Bool.and_eq_true, Bool.not_eq_true', bne_iff_ne] at counts
  refine ⟨counts.1, counts.2, ?_⟩
  rw [String.toList_ofList]
  exact Text.notMem_of_mem_pieces isPiece

/-- **A text denotes a path of at most two slashes and of names that count.** -/
theorem normal_ofText (text : String) : (ofText text).Normal := by
  refine ⟨?_, fun name member => isName_of_mem_namesOf member⟩
  show (if _ ≤ 2 then _ else 1) ≤ 2
  split
  · assumption
  · exact Nat.le_succ 1

/-! ### Names -/

theorem namesOf_append (left right : String) :
    namesOf (left ++ "/" ++ right) = namesOf left ++ namesOf right := by
  have cut : (left ++ "/" ++ right).toList = left.toList ++ '/' :: right.toList := by simp
  unfold namesOf
  rw [cut, Text.pieces_append, List.map_append, List.filter_append]

theorem namesOf_name {name : String} (isName : IsName name) : namesOf name = [name] := by
  unfold namesOf
  rw [Text.pieces_eq_self isName.noSlash, List.map_singleton, String.ofList_toList]
  simp [isName.filled, isName.noDot]

/-- **Names are found again between the slashes that join them.** -/
theorem namesOf_intercalate {names : List String} (each : ∀ name ∈ names, IsName name) :
    namesOf ("/".intercalate names) = names := by
  induction names with
  | nil => rfl
  | cons name rest ih =>
    obtain ⟨isName, later⟩ := List.forall_mem_cons.mp each
    cases rest with
    | nil =>
      rw [String.intercalate_singleton]
      exact namesOf_name isName
    | cons next rest =>
      rw [String.intercalate_cons_cons, namesOf_append, namesOf_name isName, ih later,
        List.singleton_append]

/-! ### Slashes -/

/-- Slashes in front, and then a text. -/
def behindSlashes (count : Nat) (text : String) : String :=
  String.ofList (List.replicate count '/') ++ text

theorem namesOf_behindSlashes (count : Nat) (text : String) :
    namesOf (behindSlashes count text) = namesOf text := by
  induction count with
  | zero => simp [behindSlashes]
  | succ count ih =>
    have cut : behindSlashes (count + 1) text = "" ++ "/" ++ behindSlashes count text := by
      apply String.toList_injective
      simp [behindSlashes, List.replicate_succ]
    rw [cut, namesOf_append, ih]
    rfl

theorem takeWhile_intercalate {names : List String} (each : ∀ name ∈ names, IsName name) :
    ("/".intercalate names).toList.takeWhile (· == '/') = [] := by
  cases names with
  | nil => rfl
  | cons name rest =>
    have isName := each name List.mem_cons_self
    rw [Text.toList_intercalate_cons]
    cases spelled : name.toList with
    | nil =>
      have filled := isName.filled
      rw [String.toList_eq_nil_iff.mp spelled] at filled
      cases filled
    | cons c more =>
      have noSlash := isName.noSlash
      rw [spelled, List.mem_cons, not_or] at noSlash
      rw [List.cons_append, List.takeWhile_cons_of_neg (by simpa using Ne.symm noSlash.1)]

theorem slashesOf_behindSlashes {count : Nat} (few : count ≤ 2) {names : List String}
    (each : ∀ name ∈ names, IsName name) :
    slashesOf (behindSlashes count ("/".intercalate names)) = count := by
  have front : ((behindSlashes count ("/".intercalate names)).toList.takeWhile (· == '/')).length =
      count := by
    unfold behindSlashes
    rw [String.toList_append, String.toList_ofList, List.takeWhile_append_of_pos (by simp),
      takeWhile_intercalate each, List.append_nil, List.length_replicate]
  unfold slashesOf
  rw [front]
  exact if_pos few

/-! ### Paths -/

/-- **A path that a text can denote is denoted by its own text.** -/
theorem ofText_text {path : Path} (normal : path.Normal) : ofText path.text = path := by
  obtain ⟨slashes, names⟩ := path
  obtain ⟨few, each⟩ := normal
  have denotes : ofText (behindSlashes slashes ("/".intercalate names)) = ⟨slashes, names⟩ := by
    unfold ofText
    rw [slashesOf_behindSlashes few each, namesOf_behindSlashes, namesOf_intercalate each]
  by_cases relative : slashes = 0
  · subst relative
    cases names with
    | nil => rfl
    | cons name rest => simpa [text, behindSlashes] using denotes
  · simpa [text, relative, behindSlashes] using denotes

end RamlInterfaces.File.Path
