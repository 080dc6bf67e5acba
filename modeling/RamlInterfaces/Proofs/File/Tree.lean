/-
**What stands where in a tree of files.**

* `Node.standing?`: a file with its bytes or a directory, at a list of names;
* `Node.at?_append`, `Node.standing?_concat`: what stands further down, and under a new name;
* `Node.standing?_set`: **setting a node changes what stands at its names and below, and nothing
  else**, where the directory around it is there;
* `Node.standing?_set_leaf`: the case of files and of empty directories;
* `Node.fileAt?`: the bytes of a file.
-/

import RamlInterfaces.File.Tree

namespace RamlInterfaces.File

/-- What may stand at a list of names. -/
inductive Standing where
  | file (bytes : Bytes)
  | directory
deriving DecidableEq, Repr

/-- The bytes of a file. -/
def Standing.bytes? : Standing → Option Bytes
  | .file bytes => some bytes
  | .directory => none

namespace Node

/-- What the node is. -/
def standing : Node → Standing
  | .file bytes => .file bytes
  | .directory _ => .directory

/-- What stands at a list of names. -/
def standing? (tree : Node) (names : List String) : Option Standing :=
  (tree.at? names).map standing

/-- The bytes of the file at a list of names. -/
def fileAt? (tree : Node) (names : List String) : Option Bytes :=
  match tree.at? names with
  | some (.file bytes) => some bytes
  | _ => none

theorem fileAt?_eq (tree : Node) (names : List String) :
    tree.fileAt? names = (tree.standing? names).bind Standing.bytes? := by
  unfold fileAt? standing?
  cases tree.at? names with
  | none => rfl
  | some node => cases node <;> rfl

/-! ### Looking further down -/

section Looking

variable {tree : Node}

theorem standing?_cons (tree : Node) (name : String) (rest : List String) :
    tree.standing? (name :: rest) = (tree.child? name).bind (·.standing? rest) := by
  unfold standing?
  rw [at?]
  cases tree.child? name <;> rfl

/-- Whatever stands below a place, a directory stands there. -/
theorem standing?_append {names rest : List String} (below : rest ≠ []) {found : Standing}
    (stands : tree.standing? (names ++ rest) = some found) :
    tree.standing? names = some .directory := by
  induction names generalizing tree with
  | nil =>
    cases rest with
    | nil => exact absurd rfl below
    | cons name rest =>
      rw [List.nil_append, standing?_cons] at stands
      cases tree with
      | file bytes => cases stands
      | directory entries => rfl
  | cons name names ih =>
    rw [List.cons_append, standing?_cons] at stands
    rw [standing?_cons]
    obtain ⟨inner, isInner, deeper⟩ := Option.bind_eq_some_iff.mp stands
    rw [isInner]
    exact ih deeper

theorem standing?_dropLast {names : List String}
    (stands : tree.standing? names = some .directory) :
    tree.standing? names.dropLast = some .directory := by
  rcases List.eq_nil_or_concat names with rfl | ⟨init, last, rfl⟩
  · exact stands
  · rw [List.concat_eq_append] at stands ⊢
    rw [List.dropLast_concat]
    exact standing?_append (List.cons_ne_nil _ _) stands

end Looking

/-! ### Entries of a directory -/

section Entries

variable {tree : Node} {entries : List (String × Node)} {name : String}

theorem at?_append (tree : Node) (names rest : List String) :
    tree.at? (names ++ rest) = (tree.at? names).bind fun inner => inner.at? rest := by
  induction names generalizing tree with
  | nil => rfl
  | cons name names ih =>
    rw [List.cons_append, at?, at?]
    cases tree.child? name with
    | none => rfl
    | some inner => exact ih inner

theorem child?_eq_none_iff :
    (directory entries).child? name = none ↔ ∀ entry ∈ entries, entry.1 ≠ name := by
  simp [child?]

/-- Nothing stands under a name that no entry of a directory has. -/
theorem standing?_concat {names : List String}
    (around : tree.at? names = some (.directory entries)) (fresh : name ∉ entries.map (·.1)) :
    tree.standing? (names ++ [name]) = none := by
  have none : (directory entries).child? name = none :=
    child?_eq_none_iff.mpr fun entry member same =>
      fresh (List.mem_map.mpr ⟨entry, member, same⟩)
  unfold standing?
  rw [at?_append, around, Option.bind_some, at?, none]
  rfl

/-- Something may stand below a directory only. -/
theorem exists_entries {rest : List String}
    (around : tree.standing? (name :: rest).dropLast = some .directory) :
    ∃ entries, tree = .directory entries := by
  cases tree with
  | directory entries => exact ⟨entries, rfl⟩
  | file bytes => cases rest <;> cases around

end Entries

/-! ### Setting a node -/

theorem child?_putEntry (entries : List (String × Node)) (name other : String) (node : Node) :
    (directory (putEntry entries name node)).child? other =
      if other = name then some node else (directory entries).child? other := by
  unfold child?
  dsimp only
  induction entries with
  | nil =>
    by_cases same : other = name
    · simp [putEntry, same]
    · simp [putEntry, same, Ne.symm same]
  | cons entry rest ih =>
    obtain ⟨first, old⟩ := entry
    unfold putEntry
    by_cases here : first = name
    · rw [if_pos here]
      by_cases same : other = name
      · simp [here, same]
      · simp [here, same, Ne.symm same]
    · rw [if_neg here]
      by_cases asked : first = other
      · have different : ¬ other = name := asked ▸ here
        simp [asked, different]
      · rw [List.find?_cons_of_neg (by simpa using asked), ih,
          List.find?_cons_of_neg (by simpa using asked)]

/-- **After a node is set at a list of names, it stands there with all below it**, and elsewhere
what stood there before. -/
theorem standing?_set (node : Node) {names : List String} {tree : Node}
    (around : tree.standing? names.dropLast = some .directory) (other : List String) :
    (set node names tree).standing? other =
      if names <+: other then node.standing? (other.drop names.length)
      else tree.standing? other := by
  induction names generalizing tree other with
  | nil => simp [set]
  | cons name rest ih =>
    obtain ⟨entries, rfl⟩ := exists_entries around
    rw [set]
    cases other with
    | nil =>
      rw [if_neg (by simp)]
      rfl
    | cons first others =>
      rw [standing?_cons, standing?_cons, child?_putEntry]
      by_cases same : first = name
      · subst same
        simp only [if_true, Option.bind_some, List.cons_prefix_cons, true_and, List.length_cons,
          List.drop_succ_cons]
        cases rest with
        | nil => simp [set]
        | cons next rest =>
          rw [List.dropLast_cons_of_ne_nil (List.cons_ne_nil _ _), standing?_cons] at around
          obtain ⟨inner, isInner, deeper⟩ := Option.bind_eq_some_iff.mp around
          rw [isInner, Option.getD_some, Option.bind_some]
          exact ih deeper others
      · have apart : ¬ name :: rest <+: first :: others := fun under =>
          same (List.cons_prefix_cons.mp under).1.symm
        rw [if_neg same, if_neg apart]

/-- Nothing stands below a file or an empty directory. -/
def IsLeaf (node : Node) : Prop := ∀ name rest, node.standing? (name :: rest) = none

theorem isLeaf_file (bytes : Bytes) : (file bytes).IsLeaf := fun _ _ => rfl

theorem isLeaf_directory : (directory []).IsLeaf := fun _ _ => rfl

/-- **A leaf that is set where no directory stands changes what stands at its names only.** -/
theorem standing?_set_leaf {node : Node} (leaf : node.IsLeaf) {names : List String} {tree : Node}
    (around : tree.standing? names.dropLast = some .directory)
    (free : tree.standing? names ≠ some .directory) (other : List String) :
    (set node names tree).standing? other =
      if other = names then some node.standing else tree.standing? other := by
  rw [standing?_set node around]
  by_cases under : names <+: other
  · obtain ⟨rest, rfl⟩ := under
    rw [if_pos (List.prefix_append _ _), List.drop_left]
    cases rest with
    | nil =>
      rw [List.append_nil, if_pos rfl]
      rfl
    | cons name rest =>
      have deeper : names ++ name :: rest ≠ names := by simp
      rw [if_neg deeper, leaf name rest]
      cases stands : tree.standing? (names ++ name :: rest) with
      | none => rfl
      | some found => exact absurd (standing?_append (List.cons_ne_nil _ _) stands) free
  · have elsewhere : other ≠ names := by
      rintro rfl
      exact under (List.prefix_refl _)
    rw [if_neg under, if_neg elsewhere]

end Node

end RamlInterfaces.File
