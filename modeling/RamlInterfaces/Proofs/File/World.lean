/-
**What directories and files that are made change.**

* `World.Keeps`: a later world, with the directories of the one before;
* `walk_append`, `walk_keeps`: walks in parts, and in later worlds;
* `makeDirectories_keeps`: **directories that are made change no file**;
* `GrowsAbove`, `makeDirectories_grows`: **and nothing else is new than directories above a path**;
* `vacancy`, `putFile_eq`: whether a file can be put at a path does not depend on its bytes;
* `standing?_putFile`, `putFile_spec`: **a file that is put changes no other file**;
* `contents_eq_ok_iff`: the bytes at a path;
* `Settled`, `settled_below`: a path that leads to one place in all later worlds, such as one below
  a directory that is there;
* `Writes`: a world after bytes are put at paths, one after the other;
* `Writes.contents`, `Writes.untouched`: **each path holds its bytes, and no other file is
  changed**;
* `Writes.sameFiles_iff`: **no file is changed at all where every one held its bytes before**.
-/

import RamlInterfaces.Proofs.Except
import RamlInterfaces.Proofs.File.Tree

namespace RamlInterfaces.File

namespace World

open Node

/-! ### Walks -/

section Walks

variable {root later : Node} {place found : List String} {names : List String}

/-- One step of a walk. -/
def step (root : Node) (place : List String) (name : String) : Except Obstacle (List String) :=
  match root.standing? place with
  | none => .error .missing
  | some (.file _) => .error .notDirectory
  | some .directory =>
    if name = ".." then .ok place.dropLast
    else if '\x00' ∈ name.toList then .error .missing
    else if isTooLong name then .error .nameTooLong
    else .ok (place ++ [name])

theorem walk_cons (root : Node) (place : List String) (name : String) (rest : List String) :
    walk root place (name :: rest) = (step root place name).bind (walk root · rest) := by
  rw [walk, step, standing?]
  cases root.at? place with
  | none => rfl
  | some node =>
    cases node with
    | file bytes => rfl
    | directory entries =>
      dsimp only [Option.map_some, standing]
      by_cases up : name = ".."
      · rw [if_pos up, if_pos up]
        rfl
      · rw [if_neg up, if_neg up]
        by_cases nul : '\x00' ∈ name.toList
        · rw [if_pos nul, if_pos nul]
          rfl
        · rw [if_neg nul, if_neg nul]
          by_cases long : isTooLong name = true
          · rw [if_pos long, if_pos long]
            rfl
          · rw [if_neg long, if_neg long]
            rfl

/-- What holds of a step that is made. -/
theorem step_eq_ok {name : String} (stepped : step root place name = .ok found) :
    root.standing? place = some .directory ∧
      found = if name = ".." then place.dropLast else place ++ [name] := by
  unfold step at stepped
  split at stepped
  · cases stepped
  · cases stepped
  · rename_i directory
    refine ⟨directory, ?_⟩
    split at stepped
    · rename_i up
      rw [if_pos up]
      cases stepped
      rfl
    · rename_i down
      rw [guarded_eq_ok_iff, guarded_eq_ok_iff] at stepped
      rw [if_neg down]
      exact (Except.ok.inj stepped.2.2).symm

/-- A step that is made is made wherever there is the same directory. -/
theorem step_of_directory {name : String} (stepped : step root place name = .ok found)
    (directory : later.standing? place = some .directory) : step later place name = .ok found := by
  have there := (step_eq_ok stepped).1
  unfold step at stepped ⊢
  rw [there] at stepped
  rw [directory]
  exact stepped

/-- A walk starts with a step and goes on from there. -/
theorem walk_cons_eq_ok_iff {name : String} {rest : List String} :
    walk root place (name :: rest) = .ok found ↔
      ∃ next, step root place name = .ok next ∧ walk root next rest = .ok found := by
  rw [walk_cons]
  exact bind_eq_ok_iff

/-- A walk in two parts. -/
theorem walk_append (root : Node) (place names rest : List String) :
    walk root place (names ++ rest) = (walk root place names).bind (walk root · rest) := by
  induction names generalizing place with
  | nil => rfl
  | cons name names ih =>
    rw [List.cons_append, walk_cons, walk_cons]
    cases step root place name with
    | error obstacle => rfl
    | ok next => exact ih next

/-- **A walk leads to the same place in a later tree.** -/
theorem walk_keeps (directories : ∀ names,
    root.standing? names = some .directory → later.standing? names = some .directory)
    (walked : walk root place names = .ok found) : walk later place names = .ok found := by
  induction names generalizing place with
  | nil => exact walked
  | cons name rest ih =>
    obtain ⟨next, stepped, walked⟩ := walk_cons_eq_ok_iff.mp walked
    have there := directories place (step_eq_ok stepped).1
    exact walk_cons_eq_ok_iff.mpr ⟨next, step_of_directory stepped there, ih walked⟩

/-- The directory around the place that a walk leads to is there. -/
theorem standing?_of_walk (some : names ≠ []) (walked : walk root place names = .ok found) :
    root.standing? found.dropLast = .some .directory := by
  induction names generalizing place with
  | nil => exact absurd rfl some
  | cons name rest ih =>
    obtain ⟨next, stepped, walked⟩ := walk_cons_eq_ok_iff.mp walked
    obtain ⟨directory, there⟩ := step_eq_ok stepped
    cases rest with
    | nil =>
      cases walked
      rw [there]
      split
      · exact standing?_dropLast (standing?_dropLast directory)
      · rw [List.dropLast_concat]
        exact directory
    | cons following rest => exact ih (List.cons_ne_nil _ _) walked

/-- A walk without two dots leads down. -/
theorem eq_append_of_walk (down : ∀ name ∈ names, name ≠ "..")
    (walked : walk root place names = .ok found) : found = place ++ names := by
  induction names generalizing place with
  | nil =>
    cases walked
    rw [List.append_nil]
  | cons name rest ih =>
    obtain ⟨next, stepped, walked⟩ := walk_cons_eq_ok_iff.mp walked
    have there := (step_eq_ok stepped).2
    rw [if_neg (down name List.mem_cons_self)] at there
    rw [ih (fun other member => down other (List.mem_cons_of_mem _ member)) walked, there,
      List.append_assoc]
    rfl

end Walks

/-! ### Later worlds -/

/-- A later world with the same working directory, where every directory is still one. -/
structure Keeps (w later : World) : Prop where
  workingDirectory : later.workingDirectory = w.workingDirectory
  directories : ∀ names,
    w.root.standing? names = some .directory → later.root.standing? names = some .directory

/-- The files are the same ones with the same bytes. -/
def SameFiles (w later : World) : Prop := ∀ names, later.root.fileAt? names = w.root.fileAt? names

variable {w middle later : World} {path : Path} {names : List String}

theorem Keeps.refl (w : World) : Keeps w w := ⟨rfl, fun _ there => there⟩

theorem Keeps.trans (first : Keeps w middle) (second : Keeps middle later) : Keeps w later :=
  ⟨second.workingDirectory.trans first.workingDirectory,
    fun names there => second.directories names (first.directories names there)⟩

theorem SameFiles.refl (w : World) : SameFiles w w := fun _ => rfl

theorem SameFiles.trans (first : SameFiles w middle) (second : SameFiles middle later) :
    SameFiles w later :=
  fun names => (second names).trans (first names)

/-- A path leads to the same place in a later world. -/
theorem Keeps.locate (keeps : Keeps w later) (located : w.locate path = .ok names) :
    later.locate path = .ok names := by
  unfold World.locate at located ⊢
  rw [keeps.workingDirectory]
  exact walk_keeps keeps.directories located

/-- A path below another leads on from where that one leads. -/
theorem locate_below (w : World) (directory : Path) (names : List String) :
    w.locate { directory with names := directory.names ++ names } =
      (w.locate directory).bind (walk w.root · names) :=
  walk_append _ _ _ _

/-- A directory that is made is new at its place, or it was there already. -/
theorem standing?_makeDirectory (below : path.names ≠ [])
    (made : w.makeDirectory path = .ok later) : later = w ∨
      ∃ names, w.locate path = .ok names ∧ w.root.standing? names = none ∧
        later.workingDirectory = w.workingDirectory ∧ ∀ other, later.root.standing? other =
          if other = names then some .directory else w.root.standing? other := by
  unfold makeDirectory at made
  cases located : w.locate path with
  | error obstacle => rw [located] at made; cases made
  | ok names =>
    rw [located] at made
    cases there : w.root.at? names with
    | some node =>
      simp only [there] at made
      cases node with
      | file bytes => cases made
      | directory entries =>
        cases made
        exact .inl rfl
    | none =>
      simp only [there] at made
      cases made
      have nothing : w.root.standing? names = none := by
        rw [standing?, there]
        rfl
      refine .inr ⟨names, rfl, nothing, rfl, ?_⟩
      exact standing?_set_leaf isLeaf_directory (standing?_of_walk below located)
        (by rw [nothing]; simp)

/-- A directory that is made where nothing stands changes no file. -/
theorem makeDirectory_keeps (below : path.names ≠ []) (made : w.makeDirectory path = .ok later) :
    Keeps w later ∧ SameFiles w later := by
  rcases standing?_makeDirectory below made with rfl | ⟨names, _, nothing, working, stands⟩
  · exact ⟨.refl later, .refl later⟩
  · refine ⟨⟨working, fun other directory => ?_⟩, fun other => ?_⟩
    · rw [stands other]
      split
      · rfl
      · exact directory
    · rw [fileAt?_eq, fileAt?_eq, stands other]
      by_cases same : other = names
      · rw [if_pos same, same, nothing]
        rfl
      · rw [if_neg same]

/-- **Directories that are made change no file**, and all that were there stay, even if not all of
them can be made. -/
theorem makeDirectories_keeps (w : World) (path : Path) :
    Keeps w (w.makeDirectories path).1 ∧ SameFiles w (w.makeDirectories path).1 := by
  have below (rest : List String) (w : World) (above : List String) :
      Keeps w (makeDirectories.go path w above rest).1 ∧
        SameFiles w (makeDirectories.go path w above rest).1 := by
    induction rest generalizing w above with
    | nil => exact ⟨.refl w, .refl w⟩
    | cons name rest ih =>
      rw [makeDirectories.go]
      cases made : w.makeDirectory { path with names := above ++ [name] } with
      | error obstacle => exact ⟨.refl w, .refl w⟩
      | ok next =>
        obtain ⟨keeps, same⟩ := makeDirectory_keeps (by simp) made
        obtain ⟨keepsOn, sameOn⟩ := ih next (above ++ [name])
        exact ⟨keeps.trans keepsOn, same.trans sameOn⟩
  exact below path.names w []

/-- A directory at a place where nothing stood before, which the path or one above it leads to. -/
def NewAbove (w later : World) (path : Path) (names : List String) : Prop :=
  w.root.standing? names = none ∧ later.root.standing? names = some .directory ∧
    ∃ above, above <+: path.names ∧ later.locate { path with names := above } = .ok names

/-- A later world with what stood in the first, and with new directories at the path and above it at
most. -/
structure GrowsAbove (path : Path) (w later : World) : Prop where
  keeps : Keeps w later
  standing : ∀ names,
    later.root.standing? names = w.root.standing? names ∨ NewAbove w later path names

namespace GrowsAbove

theorem refl (path : Path) (w : World) : GrowsAbove path w w := ⟨.refl w, fun _ => .inl rfl⟩

theorem trans (first : GrowsAbove path w middle) (second : GrowsAbove path middle later) :
    GrowsAbove path w later where
  keeps := first.keeps.trans second.keeps
  standing := fun names => by
    rcases second.standing names with same | ⟨nothing, directory, above⟩
    · rw [same]
      rcases first.standing names with kept | ⟨nothing, directory, above, isAbove, located⟩
      · exact .inl kept
      · exact .inr ⟨nothing, same.trans directory, above, isAbove, second.keeps.locate located⟩
    · rcases first.standing names with kept | ⟨_, directory, _⟩
      · exact .inr ⟨kept ▸ nothing, directory, above⟩
      · rw [nothing] at directory
        cases directory

end GrowsAbove

/-- A directory that is made at the path or above it. -/
theorem makeDirectory_grows {above : List String} (isAbove : above <+: path.names)
    (below : above ≠ []) (made : w.makeDirectory { path with names := above } = .ok later) :
    GrowsAbove path w later := by
  have keeps := (makeDirectory_keeps below made).1
  rcases standing?_makeDirectory below made with rfl | ⟨place, located, nothing, _, stands⟩
  · exact .refl path later
  · refine ⟨keeps, fun names => ?_⟩
    by_cases here : names = place
    · have directory := stands names
      rw [if_pos here] at directory
      subst here
      exact .inr ⟨nothing, directory, above, isAbove, keeps.locate located⟩
    · exact .inl ((stands names).trans (if_neg here))

/-- **Directories at a path and above it are all that is new after they were made**, even if not all
of them can be made. -/
theorem makeDirectories_grows (w : World) (path : Path) :
    GrowsAbove path w (w.makeDirectories path).1 := by
  have below (rest : List String) (w : World) (above : List String)
      (whole : above ++ rest = path.names) :
      GrowsAbove path w (makeDirectories.go path w above rest).1 := by
    induction rest generalizing w above with
    | nil => exact .refl path w
    | cons name rest ih =>
      have next : above ++ [name] ++ rest = path.names := by simpa using whole
      rw [makeDirectories.go]
      cases made : w.makeDirectory { path with names := above ++ [name] } with
      | error obstacle => exact .refl path w
      | ok later =>
        have isAbove : above ++ [name] <+: path.names := ⟨rest, next⟩
        exact (makeDirectory_grows isAbove (by simp) made).trans (ih later _ next)
  exact below path.names w [] rfl

/-- The names from the root of the place that a path leads to, if a file can be put there. -/
def vacancy (w : World) (path : Path) : Except Obstacle (List String) :=
  match w.locate path with
  | .error obstacle => .error obstacle
  | .ok names =>
    match w.root.standing? names.dropLast, w.root.standing? names with
    | some .directory, some .directory => .error .notDirectory
    | some .directory, _ => .ok names
    | some (.file _), _ => .error .notDirectory
    | none, _ => .error .missing

/-- Whether a file can be put at a path does not depend on its bytes. -/
theorem putFile_eq (w : World) (path : Path) (bytes : Bytes) : w.putFile path bytes =
    (w.vacancy path).map fun names => { w with root := Node.set (.file bytes) names w.root } := by
  unfold putFile vacancy
  cases w.locate path with
  | error obstacle => rfl
  | ok names =>
    dsimp only [standing?]
    cases w.root.at? names.dropLast with
    | none => rfl
    | some around =>
      cases around with
      | file bytes => rfl
      | directory entries =>
        cases w.root.at? names with
        | none => rfl
        | some node => cases node <;> rfl

/-- A file can be put in a directory, where no directory stands. -/
theorem vacancy_eq_ok (vacant : w.vacancy path = .ok names) : w.locate path = .ok names ∧
    w.root.standing? names.dropLast = some .directory ∧
      w.root.standing? names ≠ some .directory := by
  unfold vacancy at vacant
  cases located : w.locate path with
  | error obstacle => rw [located] at vacant; cases vacant
  | ok found =>
    rw [located] at vacant
    dsimp only at vacant
    split at vacant
    · cases vacant
    · rename_i directory noDirectory
      cases vacant
      exact ⟨rfl, directory, noDirectory⟩
    · cases vacant
    · cases vacant

/-- **A file that is put at a path changes what stands there and nothing else.** -/
theorem standing?_putFile {bytes : Bytes} (done : w.putFile path bytes = .ok later) :
    ∃ names, w.locate path = .ok names ∧ Keeps w later ∧
      ∀ other, later.root.standing? other = if other = names then some (.file bytes)
        else w.root.standing? other := by
  rw [putFile_eq] at done
  obtain ⟨names, vacant, rfl⟩ := map_eq_ok_iff.mp done
  obtain ⟨located, directory, noDirectory⟩ := vacancy_eq_ok vacant
  have stands := standing?_set_leaf (isLeaf_file bytes) directory noDirectory
  refine ⟨names, located, ⟨rfl, fun other there => ?_⟩, stands⟩
  have different : other ≠ names := fun same => noDirectory (same ▸ there)
  rw [stands other, if_neg different]
  exact there

/-- **A file that is put at a path changes no other file.** -/
theorem putFile_spec {bytes : Bytes} (done : w.putFile path bytes = .ok later) :
    ∃ names, w.locate path = .ok names ∧ Keeps w later ∧
      ∀ other, later.root.fileAt? other = if other = names then some bytes
        else w.root.fileAt? other := by
  obtain ⟨names, located, keeps, stands⟩ := standing?_putFile done
  refine ⟨names, located, keeps, fun other => ?_⟩
  rw [fileAt?_eq, fileAt?_eq, stands other]
  split <;> rfl

/-- The bytes at a path are those of the file at the place that the path leads to. -/
theorem contents_eq_ok_iff {bytes : Bytes} : w.contents path = .ok bytes ↔
    ∃ names, w.locate path = .ok names ∧ w.root.fileAt? names = some bytes := by
  unfold contents node? fileAt?
  cases w.locate path with
  | error obstacle => simp
  | ok names =>
    cases found : w.root.at? names with
    | none => simp [found]
    | some node => cases node <;> simp [found]

/-- A path at which there are bytes is that of a file. -/
theorem isFile_of_contents {bytes : Bytes} (there : w.contents path = .ok bytes) :
    w.isFile path = .ok true := by
  unfold contents at there
  unfold isFile look
  cases found : w.node? path with
  | error obstacle => rw [found] at there; cases there
  | ok node =>
    rw [found] at there
    cases node with
    | file bytes => rfl
    | directory entries => cases there

/-- The path of a directory leads somewhere. -/
theorem exists_locate_of_isDirectory (directory : w.isDirectory path = .ok true) :
    ∃ names, w.locate path = .ok names := by
  unfold isDirectory look node? at directory
  cases located : w.locate path with
  | ok names => exact ⟨names, rfl⟩
  | error obstacle =>
    rw [located] at directory
    cases obstacle <;> cases directory

section Writing

/-! ### Settled paths -/

/-- In all later worlds the path leads to the given place if it leads anywhere, and it leads there
already where something stands at that place. -/
def Settled (w : World) (path : Path) (names : List String) : Prop :=
  ∀ middle later, Keeps w middle → Keeps middle later → ∀ found, later.locate path = .ok found →
    found = names ∧ (middle.root.standing? names ≠ none → middle.locate path = .ok names)

variable {w middle later : World} {path : Path} {names : List String}

theorem Settled.mono (settled : Settled w path names) (keeps : Keeps w later) :
    Settled later path names :=
  fun middle last first second => settled middle last (keeps.trans first) second

theorem Settled.eq (settled : Settled w path names) (keeps : Keeps w later) {found : List String}
    (located : later.locate path = .ok found) : found = names :=
  (settled w later (.refl w) keeps found located).1

/-- A walk that leads down in a later tree leads down in this one, if something stands where it
leads. -/
theorem walk_of_standing {root : Node} {place found : List String} {last : Node}
    (down : ∀ name ∈ names, name ≠ "..") (stands : root.standing? (place ++ names) ≠ none)
    (walked : walk last place names = .ok found) : walk root place names = .ok found := by
  induction names generalizing place with
  | nil => exact walked
  | cons name rest ih =>
    obtain ⟨next, stepped, walked⟩ := walk_cons_eq_ok_iff.mp walked
    have leads := (step_eq_ok stepped).2
    have directory : root.standing? place = some .directory := by
      obtain ⟨standing, found⟩ := Option.ne_none_iff_exists'.mp stands
      exact standing?_append (List.cons_ne_nil _ _) found
    refine walk_cons_eq_ok_iff.mpr ⟨next, step_of_directory stepped directory, ?_⟩
    rw [if_neg (down name List.mem_cons_self)] at leads
    refine ih (fun other member => down other (List.mem_cons_of_mem _ member)) ?_ walked
    rw [leads, List.append_assoc]
    exact stands

/-- **The paths below a directory that is there are settled.** -/
theorem settled_below {directory : Path} {place : List String}
    (located : w.locate directory = .ok place) (down : ∀ name ∈ names, name ≠ "..") :
    Settled w { directory with names := directory.names ++ names } (place ++ names) := by
  intro middle later first second found leads
  have here := first.locate located
  have there := second.locate here
  rw [locate_below, there] at leads
  have same := eq_append_of_walk down leads
  refine ⟨same, fun stands => ?_⟩
  rw [locate_below, here]
  exact (walk_of_standing down stands leads).trans (congrArg _ same)

/-! ### Writes -/

/-- A later world, in which the bytes were put at the paths one after the other, and directories
were made in between. -/
inductive Writes : World → List (Path × Bytes) → World → Prop
  | nil {w later : World} (keeps : Keeps w later) (same : SameFiles w later) : Writes w [] later
  | cons {w next later : World} {path : Path} {bytes : Bytes} {rest : List (Path × Bytes)}
    {names : List String} (keeps : Keeps w next) (located : next.locate path = .ok names)
    (files : ∀ other, next.root.fileAt? other =
      if other = names then some bytes else w.root.fileAt? other)
    (after : Writes next rest later) : Writes w ((path, bytes) :: rest) later

/-- Each of the paths is settled, at places that are distinct. -/
def Apart (w : World) (paths : List Path) : Prop :=
  ∃ place : Path → List String, (∀ path ∈ paths, Settled w path (place path)) ∧
    (paths.map place).Nodup

theorem Apart.mono {paths : List Path} (apart : Apart w paths) (keeps : Keeps w later) :
    Apart later paths := by
  obtain ⟨place, settled, distinct⟩ := apart
  exact ⟨place, fun path member => (settled path member).mono keeps, distinct⟩

theorem Apart.tail {paths : List Path} (apart : Apart w (path :: paths)) : Apart w paths := by
  obtain ⟨place, settled, distinct⟩ := apart
  exact ⟨place, fun other member => settled other (List.mem_cons_of_mem _ member),
    (List.nodup_cons.mp distinct).2⟩

theorem Apart.of_prefix {paths others : List Path} (apart : Apart w paths)
    (first : others <+: paths) : Apart w others := by
  obtain ⟨place, settled, distinct⟩ := apart
  exact ⟨place, fun path member => settled path (first.subset member),
    (first.map place).sublist.nodup distinct⟩

namespace Writes

variable {writes : List (Path × Bytes)}

theorem keeps (done : Writes w writes later) : Keeps w later := by
  induction done with
  | nil keeps _ => exact keeps
  | cons keeps _ _ _ ih => exact keeps.trans ih

/-- Directories that are made before do not matter. -/
theorem after (keeps : Keeps w middle) (same : SameFiles w middle)
    (done : Writes middle writes later) : Writes w writes later := by
  cases done with
  | nil keepsOn sameOn => exact .nil (keeps.trans keepsOn) (same.trans sameOn)
  | cons keepsOn located files rest =>
    refine .cons (keeps.trans keepsOn) located (fun other => ?_) rest
    rw [files, same other]

theorem append {others : List (Path × Bytes)} (first : Writes w writes middle)
    (second : Writes middle others later) : Writes w (writes ++ others) later := by
  induction first with
  | nil keeps same => exact second.after keeps same
  | cons keeps located files _ ih => exact .cons keeps located files (ih second)

/-- **Files at other places are not changed.** -/
theorem untouched (done : Writes w writes later) {names : List String}
    (other : ∀ write ∈ writes, later.locate write.1 ≠ .ok names) :
    later.root.fileAt? names = w.root.fileAt? names := by
  induction done with
  | nil _ same => exact same names
  | cons keeps located files after ih =>
    have different : names ≠ _ := fun same =>
      other _ List.mem_cons_self (same ▸ after.keeps.locate located)
    rw [ih fun write member => other write (List.mem_cons_of_mem _ member), files,
      if_neg different]

/-- **Each path holds its bytes in the end.** -/
theorem contents (done : Writes w writes later) (apart : Apart w (writes.map (·.1))) :
    ∀ write ∈ writes, later.contents write.1 = .ok write.2 := by
  induction done with
  | nil _ _ => exact fun _ member => absurd member List.not_mem_nil
  | @cons w next later path bytes rest names keeps located files after ih =>
    obtain ⟨place, settled, distinct⟩ := id apart
    intro write member
    rcases List.mem_cons.mp member with rfl | there
    · refine contents_eq_ok_iff.mpr ⟨names, after.keeps.locate located, ?_⟩
      rw [after.untouched, files, if_pos rfl]
      intro other isOther same
      have first := (settled path List.mem_cons_self).eq keeps located
      have second := (settled other.1 (List.mem_cons_of_mem _ (List.mem_map_of_mem isOther))).eq
        (keeps.trans after.keeps) same
      refine (List.nodup_cons.mp distinct).1 ?_
      rw [← first, second]
      exact List.mem_map_of_mem (List.mem_map_of_mem isOther)
    · exact ih (apart.mono keeps).tail write there

/-- **No file is changed if and only if each held its bytes before.** -/
theorem sameFiles_iff (done : Writes w writes later) (apart : Apart w (writes.map (·.1))) :
    SameFiles w later ↔ ∀ write ∈ writes, w.contents write.1 = .ok write.2 := by
  have written := done.contents apart
  constructor
  · intro same write member
    obtain ⟨names, located, holds⟩ := contents_eq_ok_iff.mp (written write member)
    obtain ⟨place, settled, _⟩ := apart
    obtain ⟨here, already⟩ := settled write.1 (List.mem_map_of_mem member) w later (.refl w)
      done.keeps names located
    rw [← here] at already
    rw [same names] at holds
    refine contents_eq_ok_iff.mpr ⟨names, already ?_, holds⟩
    intro none
    rw [fileAt?_eq, none] at holds
    cases holds
  · intro held names
    by_cases touched : ∃ write ∈ writes, later.locate write.1 = .ok names
    · obtain ⟨write, member, located⟩ := touched
      obtain ⟨found, there, now⟩ := contents_eq_ok_iff.mp (written write member)
      obtain ⟨before, here, was⟩ := contents_eq_ok_iff.mp (held write member)
      rw [located] at there
      cases there
      have same := (done.keeps.locate here).symm.trans located
      cases same
      rw [now, was]
    · exact done.untouched fun write member located => touched ⟨write, member, located⟩

end Writes

end Writing

end World

end RamlInterfaces.File
