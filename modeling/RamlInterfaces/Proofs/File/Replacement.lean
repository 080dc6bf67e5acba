/-
**Replacing a file.**

The new bytes stand in a file beside the target for a while, under a name that nothing there has.
That file is gone when the target is put.  It is gone as well when the replacement fails, unless the
device refuses to remove it, or to close it after it could not be filled.  What else is left of a
replacement that fails are the directories that were made above the target.

* `remove_set`: what is set where nothing stands and removed again leaves the tree as it was;
* `freshName_notMem`: **a name beside another is not taken**;
* `Device.Replaces`, `Device.replaces`: **how a replacement ends**;
* `contents_replaceFile`: **a file that was replaced has the new bytes**;
* `Replaceable`, `replaceFile_eq_none_iff`: where a file can be replaced;
* `replaced_of_replaceFile`, `left_of_replaceFile`: **what a replacement leaves behind**;
* `leavesFile_of_full`: **a full device leaves the file that it could not fill**.
-/

import Mathlib.Data.List.Nodup
import Mathlib.Data.List.Perm.Subperm
import RamlInterfaces.File.Replacement
import RamlInterfaces.Proofs.File.World
import RamlInterfaces.Proofs.Number.Digits

namespace RamlInterfaces.File

/-! ### Setting and removing -/

namespace Node

variable {tree : Node} {entries : List (String × Node)} {name : String}

theorem putEntry_putEntry (entries : List (String × Node)) (name : String) (first second : Node) :
    putEntry (putEntry entries name first) name second = putEntry entries name second := by
  induction entries with
  | nil => simp [putEntry]
  | cons entry rest ih =>
    obtain ⟨other, old⟩ := entry
    by_cases same : other = name
    · simp [putEntry, same]
    · simp [putEntry, same, ih]

theorem putEntry_of_child? {inner : Node} (found : (directory entries).child? name = some inner) :
    putEntry entries name inner = entries := by
  unfold child? at found
  induction entries with
  | nil => cases found
  | cons entry rest ih =>
    obtain ⟨other, old⟩ := entry
    by_cases same : other = name
    · have isOld : old = inner := by simpa [same] using found
      simp [putEntry, same, isOld]
    · have further : (rest.find? (·.1 == name)).map (·.2) = some inner := by
        simpa [same] using found
      simp [putEntry, same, ih further]

theorem filter_putEntry (entries : List (String × Node)) (name : String) (node : Node) :
    (putEntry entries name node).filter (fun entry => entry.1 != name) =
      entries.filter fun entry => entry.1 != name := by
  induction entries with
  | nil => simp [putEntry]
  | cons entry rest ih =>
    obtain ⟨other, old⟩ := entry
    by_cases same : other = name
    · simp [putEntry, same]
    · simp [putEntry, same, ih]

/-- **What is set where nothing stands and removed again leaves the tree as it was.** -/
theorem remove_set (node : Node) {names : List String} (below : names ≠ [])
    (around : tree.standing? names.dropLast = some .directory)
    (free : tree.standing? names = none) : (set node names tree).remove names = tree := by
  induction names generalizing tree with
  | nil => exact absurd rfl below
  | cons name rest ih =>
    obtain ⟨entries, rfl⟩ := exists_entries around
    rw [standing?_cons] at free
    cases rest with
    | nil =>
      have none : (directory entries).child? name = none := by
        cases found : (directory entries).child? name with
        | none => rfl
        | some inner =>
          rw [found] at free
          cases free
      have others : ∀ entry ∈ entries, (entry.1 != name) = true :=
        fun entry member => bne_iff_ne.mpr (child?_eq_none_iff.mp none entry member)
      simp only [set, remove, filter_putEntry, List.filter_eq_self.mpr others]
    | cons next rest =>
      rw [List.dropLast_cons_of_ne_nil (List.cons_ne_nil _ _), standing?_cons] at around
      obtain ⟨inner, isInner, deeper⟩ := Option.bind_eq_some_iff.mp around
      rw [isInner] at free
      have restored := ih (List.cons_ne_nil _ _) deeper free
      simp only [set.eq_2 node name, isInner, Option.getD_some, remove, child?_putEntry, if_true,
        putEntry_putEntry, restored, putEntry_of_child? isInner]

/-- What is set twice at a place is what is set there last. -/
theorem set_set (first second : Node) (names : List String) (tree : Node) :
    set second names (set first names tree) = set second names tree := by
  induction names generalizing tree with
  | nil => rfl
  | cons name rest ih =>
    simp only [set, child?_putEntry, if_true, Option.getD_some, putEntry_putEntry, ih]

end Node

namespace World

/-! ### A name that nothing has -/

section Names

theorem extendDigits?_padded (width n : Nat) :
    Number.extendDigits? 10 0 (Number.padded width n) = some n := by
  have zeros (count : Nat) :
      Number.extendDigits? 10 0 (List.replicate count '0') = some 0 := by
    induction count with
    | zero => rfl
    | succ count ih => exact ih
  unfold Number.padded Number.decimal
  rw [Number.extendDigits?_append, zeros, Option.bind_some,
    Number.extendDigits?_toDigits (by decide) (by decide), Nat.zero_mul, Nat.zero_add]

/-- Different numbers give different names. -/
theorem besideName_injective (name : String) : Function.Injective (besideName name) := by
  intro first second same
  have spelled := String.append_right_inj _ |>.mp (String.append_left_inj _ |>.mp same)
  have digits : Number.padded 8 first = Number.padded 8 second := String.ofList_injective spelled
  have values := congrArg (Number.extendDigits? 10 0) digits
  rw [extendDigits?_padded, extendDigits?_padded] at values
  exact Option.some.inj values

theorem exists_firstFresh (taken : List String) (name : String) (rounds number : Nat) :
    ∃ found, firstFresh taken name rounds number = besideName name found := by
  induction rounds generalizing number with
  | zero => exact ⟨number, rfl⟩
  | succ rounds ih =>
    rw [firstFresh]
    split
    · exact ih (number + 1)
    · exact ⟨number, rfl⟩

/-- If the name that a search ends with is taken, so are all names that it tried. -/
theorem mem_of_firstFresh_mem {taken : List String} {name : String} {rounds number : Nat}
    (isTaken : firstFresh taken name rounds number ∈ taken) :
    ∀ further ≤ rounds, besideName name (number + further) ∈ taken := by
  induction rounds generalizing number with
  | zero =>
    intro further few
    rw [Nat.le_zero.mp few]
    exact isTaken
  | succ rounds ih =>
    rw [firstFresh] at isTaken
    split at isTaken
    · rename_i here
      intro further few
      cases further with
      | zero => exact List.contains_iff_mem.mp here
      | succ further =>
        rw [← Nat.add_assoc, Nat.add_right_comm]
        exact ih isTaken further (Nat.le_of_succ_le_succ few)
    · rename_i fresh
      exact absurd (List.contains_iff_mem.mpr isTaken) fresh

/-- **A name beside another is not taken**: more names are tried than there are taken ones. -/
theorem freshName_notMem (taken : List String) (name : String) : freshName taken name ∉ taken := by
  intro isTaken
  let tried := (List.range (taken.length + 1)).map (besideName name)
  have distinct : tried.Nodup := List.nodup_range.map (besideName_injective name)
  have among : tried ⊆ taken := by
    intro candidate member
    obtain ⟨number, inRange, rfl⟩ := List.mem_map.mp member
    have few := Nat.le_of_lt_succ (List.mem_range.mp inRange)
    have there := mem_of_firstFresh_mem isTaken number few
    rwa [Nat.zero_add] at there
  have fewer := (List.subperm_of_subset distinct among).length_le
  rw [List.length_map, List.length_range] at fewer
  exact absurd fewer (Nat.not_succ_le_self _)

theorem freshName_ne_up (taken : List String) (name : String) : freshName taken name ≠ ".." := by
  obtain ⟨number, isBeside⟩ := exists_firstFresh taken name taken.length 0
  intro same
  have long := congrArg String.length (isBeside.symm.trans same)
  have suffix : ".tmp".length = 4 := rfl
  have up : "..".length = 2 := rfl
  simp only [besideName, String.length_append, suffix, up] at long
  omega

end Names

/-! ### Putting and taking away a file -/

variable {w made later written : World} {path : Path} {names : List String} {bytes : Bytes}
  {obstacle : Obstacle}

/-- The bytes that are put at a path are there. -/
theorem contents_of_putFile (put : w.putFile path bytes = .ok later) :
    later.contents path = .ok bytes := by
  obtain ⟨names, located, keeps, files⟩ := putFile_spec put
  refine contents_eq_ok_iff.mpr ⟨names, keeps.locate located, ?_⟩
  rw [files names, if_pos rfl]

/-- The path of the file beside a target. -/
def beside (w : World) (path : Path) : Path :=
  path.parent.join ⟨0, [freshName (w.entryNames path.parent) path.name]⟩

/-- Nothing stands beside a target where the file there is put. -/
theorem standing?_beside (vacant : w.vacancy (w.beside path) = .ok names) :
    w.root.standing? names = none := by
  let fresh := freshName (w.entryNames path.parent) path.name
  have located : (w.locate path.parent).bind (walk w.root · [fresh]) = .ok names :=
    (locate_below w path.parent [fresh]).symm.trans (vacancy_eq_ok vacant).1
  obtain ⟨place, isPlace, walked⟩ := bind_eq_ok_iff.mp located
  have down : ∀ name ∈ [fresh], name ≠ ".." :=
    List.forall_mem_singleton.mpr (freshName_ne_up _ _)
  have isBelow := eq_append_of_walk down walked
  have around : w.root.standing? place = some .directory := by
    have above := standing?_of_walk (List.cons_ne_nil _ _) walked
    rwa [isBelow, List.dropLast_concat] at above
  obtain ⟨node, found, isDirectory⟩ := Option.map_eq_some_iff.mp around
  cases node with
  | file bytes => cases isDirectory
  | directory entries =>
    have taken : w.entryNames path.parent = entries.map (·.1) := by
      simp only [entryNames, node?, isPlace, found]
    rw [isBelow]
    exact Node.standing?_concat found (taken ▸ freshName_notMem _ _)

/-- **A file that was put where nothing stands can be taken away again.** -/
theorem dropFile_of_putFile (put : w.putFile path bytes = .ok written)
    (vacant : w.vacancy path = .ok names) (free : w.root.standing? names = none) :
    written.dropFile path = w := by
  obtain ⟨located, directory, noDirectory⟩ := vacancy_eq_ok vacant
  have below : names ≠ [] := by
    rintro rfl
    exact noDirectory directory
  obtain ⟨_, _, keeps, -⟩ := putFile_spec put
  have same := keeps.locate located
  rw [putFile_eq, vacant] at put
  cases put
  unfold dropFile
  rw [same]
  exact congrArg (World.mk · w.workingDirectory w.readOnly)
    (Node.remove_set (.file bytes) below directory free)

/-- **A file that was put is filled as if it had been put with the bytes.** -/
theorem putFile_fillFile {first : Bytes} (put : w.putFile path first = .ok written) :
    w.putFile path bytes = .ok (written.fillFile path bytes) := by
  obtain ⟨place, located, keeps, stands⟩ := standing?_putFile put
  rw [putFile_eq] at put
  obtain ⟨names, vacant, rfl⟩ := map_eq_ok_iff.mp put
  obtain ⟨same, directory, -⟩ := vacancy_eq_ok vacant
  cases located.symm.trans same
  have again : vacancy { w with root := Node.set (.file first) place w.root } path = .ok place := by
    unfold vacancy
    rw [keeps.locate located]
    dsimp only
    rw [keeps.directories _ directory, (stands place).trans (if_pos rfl)]
  unfold fillFile
  rw [putFile_eq, putFile_eq, vacant, again]
  exact congrArg (fun root => Except.ok (World.mk root w.workingDirectory w.readOnly))
    (Node.set_set _ _ _ _).symm

/-- A file can be put at the path, and one beside it. -/
def HasRoom (w : World) (path : Path) : Prop :=
  (∃ place, w.vacancy (w.beside path) = .ok place) ∧ ∃ place, w.vacancy path = .ok place

end World

namespace Device

open World (beside HasRoom)

variable {device : Device} {w made written later : World} {path : Path} {bytes rest : Bytes}
  {obstacle : Obstacle} {request : Request}

/-- The requests by which an open file is filled. -/
def fillRequests : List Request := [.write, .flush, .sync, .close]

/-- The device refuses no request by which a file is replaced. -/
def Grants (device : Device) : Prop :=
  ∀ request ∈ .create :: .rename :: fillRequests, device.refuses request = false

/-- The device leaves the file that a replacement has made where it fails: the file cannot be
removed, or cannot be closed after it could not be filled. -/
def Strands (device : Device) : Prop :=
  device.refuses .remove = true ∨ device.refuses .release = true ∧
    ∃ request ∈ [Request.write, .flush, .sync], device.refuses request = true

/-- An open file is filled, or one of the requests for it is refused. -/
theorem fill_cases (device : Device) (w : World) (path : Path) (bytes : Bytes) :
    device.fill w path bytes = (w.fillFile path bytes, none) ∧
        (∀ request ∈ fillRequests, device.refuses request = false) ∨
      ∃ request rest, device.fill w path bytes = (w.fillFile path rest, some request) ∧
        request ∈ fillRequests ∧ device.refuses request = true := by
  unfold fill fillRequests
  split
  · rename_i refused
    exact .inr ⟨.write, _, rfl, by simp, refused⟩
  split
  · rename_i refused
    exact .inr ⟨.flush, _, rfl, by simp, refused⟩
  dsimp only
  split
  · rename_i refused
    exact .inr ⟨.sync, _, rfl, by simp, refused⟩
  split
  · rename_i refused
    exact .inr ⟨.close, _, rfl, by simp, refused⟩
  · rename_i write flush sync close
    exact .inl ⟨rfl, by simp [write, flush, sync, close]⟩

theorem remove_cases (device : Device) (w : World) (path : Path) :
    device.remove w path = w.dropFile path ∨ device.remove w path = w ∧ device.Strands := by
  unfold remove
  split
  · rename_i refused
    exact .inr ⟨rfl, .inl refused⟩
  · exact .inl rfl

/-- A file that could not be filled is dropped, or it is left by a device that strands it. -/
theorem abandon_cases (w : World) (path : Path) (isFill : request ∈ fillRequests)
    (refused : device.refuses request = true) :
    device.abandon w path request = w.dropFile path ∨
      device.abandon w path request = w ∧ device.Strands := by
  unfold abandon
  split
  · rename_i stays
    refine .inr ⟨rfl, .inr ⟨stays.2, request, ?_, refused⟩⟩
    cases request <;> simp_all [fillRequests]
  · exact remove_cases device w path

/-- How the replacement of a file ends: the directories above it cannot be made; it fails and leaves
nothing, or the file beside the target; or the target is put. -/
inductive Replaces (device : Device) (w : World) (path : Path) (bytes : Bytes) :
    World × Option Obstacle → Prop where
  | unmade {made : World} {obstacle : Obstacle}
    (stopped : w.makeDirectories path.parent = (made, some obstacle)) :
    Replaces device w path bytes (made, some obstacle)
  | undone {made : World} {obstacle : Obstacle}
    (isMade : w.makeDirectories path.parent = (made, none))
    (hindered : ¬ (device.Grants ∧ made.HasRoom path)) :
    Replaces device w path bytes (made, some obstacle)
  | stranded {made left : World} {rest : Bytes} {place : List String} {obstacle : Obstacle}
    (isMade : w.makeDirectories path.parent = (made, none))
    (hindered : ¬ (device.Grants ∧ made.HasRoom path)) (strands : device.Strands)
    (vacant : made.vacancy (made.beside path) = .ok place)
    (put : made.putFile (made.beside path) rest = .ok left) :
    Replaces device w path bytes (left, some obstacle)
  | replaced {made later : World} (isMade : w.makeDirectories path.parent = (made, none))
    (grants : device.Grants) (room : made.HasRoom path)
    (put : made.putFile path bytes = .ok later) : Replaces device w path bytes (later, none)

section Opened

variable {opened : World} {place : List String}
  (isMade : w.makeDirectories path.parent = (made, none))
  (vacant : made.vacancy (made.beside path) = .ok place)
  (put : made.putFile (made.beside path) [] = .ok opened)

include isMade vacant put

/-- A replacement that fails once the file beside the target is open leaves nothing where that file
is dropped, and else the file, whatever it is filled with. -/
theorem replaces_of_failed (hindered : ¬ (device.Grants ∧ made.HasRoom path)) {left : World}
    (isLeft : left = (opened.fillFile (made.beside path) rest).dropFile (made.beside path) ∨
      left = opened.fillFile (made.beside path) rest ∧ device.Strands) (obstacle : Obstacle) :
    Replaces device w path bytes (left, some obstacle) := by
  have filled : made.putFile (made.beside path) rest =
      .ok (opened.fillFile (made.beside path) rest) := World.putFile_fillFile put
  rcases isLeft with rfl | ⟨rfl, strands⟩
  · rw [World.dropFile_of_putFile filled vacant (World.standing?_beside vacant)]
    exact .undone isMade hindered
  · exact .stranded isMade hindered strands vacant filled

/-- The file beside the target, once filled, takes its place where the device grants that and a file
can be put there. -/
theorem replaces_of_filled (opens : device.refuses .create = false)
    (granted : ∀ request ∈ fillRequests, device.refuses request = false) :
    Replaces device w path bytes
      (match device.rename (opened.fillFile (made.beside path) bytes) (made.beside path) path with
        | .ok replaced => (replaced, none)
        | .error obstacle =>
          (device.remove (opened.fillFile (made.beside path) bytes) (made.beside path),
            some obstacle)) := by
  have filled : made.putFile (made.beside path) bytes =
      .ok (opened.fillFile (made.beside path) bytes) := World.putFile_fillFile put
  have renamed : (opened.fillFile (made.beside path) bytes).rename (made.beside path) path =
      made.putFile path bytes := by
    rw [World.rename, World.contents_of_putFile filled,
      World.dropFile_of_putFile filled vacant (World.standing?_beside vacant)]
  have failed (hindered : ¬ (device.Grants ∧ made.HasRoom path)) (obstacle : Obstacle) :
      Replaces device w path bytes (device.remove (opened.fillFile (made.beside path) bytes)
        (made.beside path), some obstacle) :=
    replaces_of_failed isMade vacant put hindered (remove_cases device _ _) obstacle
  unfold rename
  by_cases noRename : device.refuses .rename = true
  · rw [if_pos noRename]
    refine failed (fun ⟨grants, _⟩ => ?_) .refused
    exact Bool.eq_false_iff.mp (grants .rename (by simp)) noRename
  rw [if_neg noRename, renamed, World.putFile_eq]
  cases free : made.vacancy path with
  | error obstacle =>
    refine failed (fun ⟨_, _, _, room⟩ => ?_) obstacle
    cases free.symm.trans room
  | ok target =>
    refine .replaced isMade ?_ ⟨⟨place, vacant⟩, target, free⟩ (by rw [World.putFile_eq, free]; rfl)
    refine List.forall_mem_cons.mpr ⟨opens, ?_⟩
    exact List.forall_mem_cons.mpr ⟨Bool.eq_false_iff.mpr noRename, granted⟩

end Opened

/-- **A file is replaced by putting it**, where the device grants that and the one beside it can be
put. -/
theorem replaces (device : Device) (w : World) (path : Path) (bytes : Bytes) :
    Replaces device w path bytes (device.replaceFile w path bytes) := by
  unfold replaceFile
  cases isMade : w.makeDirectories path.parent with
  | mk made obstacle =>
  cases obstacle with
  | some obstacle => exact .unmade isMade
  | none =>
  have isBeside : path.parent.join
      ⟨0, [World.freshName (made.entryNames path.parent) path.name]⟩ = made.beside path := rfl
  dsimp only
  rw [isBeside, create]
  by_cases noFile : device.refuses .create = true
  · rw [if_pos noFile]
    refine .undone isMade fun ⟨grants, _⟩ => ?_
    exact Bool.eq_false_iff.mp (grants _ List.mem_cons_self) noFile
  rw [if_neg noFile]
  cases vacant : made.vacancy (made.beside path) with
  | error obstacle =>
    rw [World.putFile_eq, vacant]
    refine .undone isMade fun ⟨_, ⟨_, free⟩, _⟩ => ?_
    cases vacant.symm.trans free
  | ok place =>
  cases put : made.putFile (made.beside path) [] with
  | error obstacle =>
    rw [World.putFile_eq, vacant] at put
    cases put
  | ok opened =>
  dsimp only
  rcases fill_cases device opened (made.beside path) bytes with
    ⟨filled, granted⟩ | ⟨request, rest, filled, isFill, refused⟩
  · rw [filled]
    exact replaces_of_filled isMade vacant put (Bool.eq_false_iff.mpr noFile) granted
  · rw [filled]
    refine replaces_of_failed isMade vacant put (fun ⟨grants, _⟩ => ?_)
      (abandon_cases _ _ isFill refused) .refused
    exact Bool.eq_false_iff.mp (grants request (.tail _ (.tail _ isFill))) refused

/-! ### Replacing -/

/-- The device grants a replacement, the directories above the path can be made, and a file can then
be put beside it and at it. -/
def Replaceable (device : Device) (w : World) (path : Path) : Prop :=
  device.Grants ∧ ∃ made, w.makeDirectories path.parent = (made, none) ∧ made.HasRoom path

/-- **A file is replaced exactly where it can be put**, as can the one beside it, whatever its
bytes. -/
theorem replaceFile_eq_none_iff (device : Device) (w : World) (path : Path) (bytes : Bytes) :
    (device.replaceFile w path bytes).2 = none ↔ device.Replaceable w path := by
  have ends := replaces device w path bytes
  generalize device.replaceFile w path bytes = ended at ends
  cases ends with
  | unmade stopped =>
    refine iff_of_false (fun same => nomatch same) fun ⟨_, _, isMade, _⟩ => ?_
    cases stopped.symm.trans isMade
  | undone isMade hindered | stranded isMade hindered =>
    refine iff_of_false (fun same => nomatch same) fun ⟨grants, _, same, room⟩ => ?_
    cases isMade.symm.trans same
    exact hindered ⟨grants, room⟩
  | replaced isMade grants room => exact iff_of_true rfl ⟨grants, _, isMade, room⟩

/-- A replacement that is made puts the file at its path in the world with the directories above. -/
theorem putFile_of_replaceFile (done : device.replaceFile w path bytes = (later, none)) :
    (w.makeDirectories path.parent).1.putFile path bytes = .ok later := by
  have ends := replaces device w path bytes
  rw [done] at ends
  cases ends with
  | replaced isMade _ _ put => rwa [isMade]

/-- **A file that was replaced has the new bytes.** -/
theorem contents_replaceFile (done : device.replaceFile w path bytes = (later, none)) :
    later.contents path = .ok bytes :=
  World.contents_of_putFile (putFile_of_replaceFile done)

end Device

namespace World

variable {device : Device}

/-- One file is new in the directory of a path, and elsewhere nothing but directories above the
path. -/
structure LeavesFile (path : Path) (w later : World) : Prop where
  keeps : Keeps w later
  left : ∃ name place, later.locate (path.parent.join ⟨0, [name]⟩) = .ok place ∧
    w.root.standing? place = none ∧ ∀ names ≠ place,
      later.root.standing? names = w.root.standing? names ∨ NewAbove w later path.parent names

/-- What is new above a path stays so. -/
theorem NewAbove.keeps {middle : World} (isNew : NewAbove w middle path names)
    (keeps : Keeps middle later) (same : later.root.standing? names = middle.root.standing? names) :
    NewAbove w later path names := by
  obtain ⟨nothing, directory, above, isAbove, leads⟩ := isNew
  exact ⟨nothing, same.trans directory, above, isAbove, keeps.locate leads⟩

/-- The file beside a target that was put there is the only one that is new. -/
theorem leavesFile_of_putFile {made left : World} {rest : Bytes}
    (isMade : w.makeDirectories path.parent = (made, none))
    (put : made.putFile (made.beside path) rest = .ok left) : LeavesFile path w left := by
  have grows := makeDirectories_grows w path.parent
  rw [isMade] at grows
  obtain ⟨place, located, keeps, stands⟩ := standing?_putFile put
  have vacant : made.vacancy (made.beside path) = .ok place := by
    rw [putFile_eq] at put
    obtain ⟨found, vacant, -⟩ := map_eq_ok_iff.mp put
    cases located.symm.trans (vacancy_eq_ok vacant).1
    exact vacant
  refine ⟨grows.keeps.trans keeps, _, _, keeps.locate located, ?_, ?_⟩
  · rcases grows.standing _ with same | ⟨nothing, -⟩
    · rw [← same]
      exact standing?_beside vacant
    · exact nothing
  · intro names different
    have kept := (stands names).trans (if_neg different)
    rcases grows.standing names with same | isNew
    · exact .inl (kept.trans same)
    · exact .inr (isNew.keeps keeps kept)

/-- **A full device leaves the file that it could not fill.**  To close the file would be to write
what is left of it, which the device refuses again, and so the file is not removed. -/
theorem leavesFile_of_full {made : World} (isMade : w.makeDirectories path.parent = (made, none))
    (room : made.HasRoom path) (opens : device.refuses .create = false)
    (full : device.refuses .flush = true) (held : device.refuses .release = true) (bytes : Bytes) :
    ∃ later, device.replaceFile w path bytes = (later, some .refused) ∧
      LeavesFile path w later := by
  obtain ⟨⟨place, vacant⟩, -⟩ := room
  obtain ⟨opened, put⟩ : ∃ opened, made.putFile (made.beside path) [] = .ok opened := by
    rw [putFile_eq, vacant]
    exact ⟨_, rfl⟩
  have created : device.create made (made.beside path) = .ok opened := by
    rw [Device.create, if_neg (Bool.eq_false_iff.mp opens)]
    exact put
  obtain ⟨request, isOpen, filled⟩ : ∃ request, request ≠ .close ∧
      device.fill opened (made.beside path) bytes =
        (opened.fillFile (made.beside path) (bytes.take device.room), some request) := by
    unfold Device.fill
    by_cases unwritten : device.refuses .write = true
    · exact ⟨.write, by decide, if_pos unwritten⟩
    · exact ⟨.flush, by decide, by rw [if_neg unwritten, if_pos full]⟩
  refine ⟨opened.fillFile (made.beside path) (bytes.take device.room), ?_,
    leavesFile_of_putFile isMade (putFile_fillFile put)⟩
  have isBeside : path.parent.join ⟨0, [freshName (made.entryNames path.parent) path.name]⟩ =
      made.beside path := rfl
  unfold Device.replaceFile
  rw [isMade]
  dsimp only
  rw [isBeside, created]
  dsimp only
  rw [filled]
  dsimp only
  rw [Device.abandon, if_pos ⟨isOpen, held⟩]

end World

end RamlInterfaces.File
