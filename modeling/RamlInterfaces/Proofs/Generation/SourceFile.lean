/-
**The files of the units of a model.**

* `placeOf`: the names of the source file of a unit below the output directory;
* `sourcePath_eq`, `placeOf_injective`: they are what the path of the file adds to that of the
  directory, and no two units have the same;
* `writesOf`: the bytes that are put at paths until a file cannot be written;
* `writeSources_writes`: **that is what writing source texts does**, whatever the devices refuse.
-/

import RamlInterfaces.Generation.SourceFile
import RamlInterfaces.Proofs.File.Replacement
import RamlInterfaces.Proofs.Generation.Growth
import RamlInterfaces.Settings.Check

namespace RamlInterfaces.Generation

open Java Text
open File (Path World Bytes Codec Device Devices)
open File.World (Keeps SameFiles Writes Settled Apart)

/-! ### Paths of source files -/

/-- The text is one name of a path. -/
def IsName (name : List Char) : Prop := name ≠ [] ∧ '/' ∉ name ∧ name ≠ ['.'] ∧ name ≠ ['.', '.']

theorem ofText_of_isName {name : List Char} (isName : IsName name) :
    Path.ofText (String.ofList name) = ⟨0, [String.ofList name]⟩ := by
  obtain ⟨some, noSlash, notHere, _⟩ := isName
  have slashes : Path.slashesOf (String.ofList name) = 0 := by
    unfold Path.slashesOf
    rw [String.toList_ofList]
    cases name with
    | nil => exact absurd rfl some
    | cons c rest =>
      have other : (c == '/') = false := by
        rw [beq_eq_false_iff_ne]
        rintro rfl
        exact noSlash List.mem_cons_self
      simp [other]
  have names : Path.namesOf (String.ofList name) = [String.ofList name] := by
    unfold Path.namesOf
    rw [String.toList_ofList, pieces_eq_self noSlash]
    have counts : (!(String.ofList name).isEmpty && String.ofList name != ".") = true := by
      rw [Bool.and_eq_true, Bool.not_eq_true', bne_iff_ne]
      refine ⟨?_, fun same => notHere ?_⟩
      · rw [Bool.eq_false_iff]
        intro empty
        refine some (String.ofList_injective ?_)
        rw [String.isEmpty_iff.mp empty]
      · have chars := congrArg String.toList same
        rwa [String.toList_ofList] at chars
    simp [counts]
  rw [Path.ofText, slashes, names]

/-- The names of the source file of a unit below the output directory. -/
def placeOf (unit : CompilationUnit) : List String :=
  (pieces '.' unit.package.toList).map String.ofList ++ [unit.type.name ++ ".java"]

theorem joinAll_eq (directory : Path) {segments : List (List Char)}
    (names : ∀ segment ∈ segments, IsName segment) :
    segments.foldl (fun path segment => path.join (Path.ofText (String.ofList segment))) directory =
      { directory with names := directory.names ++ segments.map String.ofList } := by
  induction segments generalizing directory with
  | nil => simp
  | cons segment rest ih =>
    rw [List.foldl_cons, ih _ fun other member => names other (List.mem_cons_of_mem _ member),
      ofText_of_isName (names segment List.mem_cons_self)]
    simp [Path.join, Path.isAbsolute]

/-- **The path of a source file is that of the directory with the names of its place.** -/
theorem sourcePath_eq (directory : Path) {unit : CompilationUnit}
    (some : unit.package.isEmpty = false)
    (package : ∀ segment ∈ pieces '.' unit.package.toList, IsName segment)
    (file : IsName (unit.type.name ++ ".java").toList) :
    sourcePath directory unit = { directory with names := directory.names ++ placeOf unit } := by
  have last := ofText_of_isName file
  rw [String.ofList_toList] at last
  rw [sourcePath, packageDirectory, some, last]
  simp only [Bool.false_eq_true, if_false]
  rw [joinAll_eq directory package]
  simp [Path.join, Path.isAbsolute, placeOf]

/-- **Units with files at one place are of one name in one package.** -/
theorem placeOf_injective {unit other : CompilationUnit} (same : placeOf unit = placeOf other) :
    unit.package = other.package ∧ unit.type.name = other.type.name := by
  obtain ⟨packages, names⟩ := List.append_inj' same rfl
  refine ⟨?_, ?_⟩
  · have segments := (List.map_inj_right fun _ _ => String.ofList_injective).mp packages
    have texts := congrArg (join ['.']) segments
    rw [join_pieces, join_pieces] at texts
    exact String.toList_injective texts
  · have chars := congrArg String.toList (List.cons.inj names).1
    rw [String.toList_append, String.toList_append] at chars
    exact String.toList_injective (List.append_cancel_right chars)

/-! ### Packages -/

theorem isName_of_isIdentifier {name : List Char} (identifier : isIdentifier name = true) :
    name ≠ [] ∧ '/' ∉ name := by
  cases name with
  | nil => cases identifier
  | cons first rest =>
    rw [isIdentifier, Bool.and_eq_true, List.all_eq_true] at identifier
    refine ⟨List.cons_ne_nil _ _, fun member => ?_⟩
    rcases List.mem_cons.mp member with rfl | later
    · exact absurd identifier.1 (by decide)
    · exact absurd (identifier.2 _ later) (by decide)

/-- The pieces of a text of package form are names of directories. -/
theorem isName_of_isPackageForm {package : List Char}
    (form : Settings.isPackageForm package = true) :
    ∀ segment ∈ pieces '.' package, segment ≠ [] ∧ '/' ∉ segment := by
  unfold Settings.isPackageForm Settings.segments Settings.withoutFinalLineFeed at form
  have identifiers {cs : List Char} (all : (pieces '.' cs).all isIdentifier = true) :
      ∀ segment ∈ pieces '.' cs, segment ≠ [] ∧ '/' ∉ segment :=
    fun segment member => isName_of_isIdentifier (List.all_eq_true.mp all segment member)
  split at form
  · rename_i last
    obtain ⟨init, rfl⟩ := List.getLast?_eq_some_iff.mp last
    rw [List.dropLast_concat] at form
    intro segment member
    rcases mem_pieces_concat (by decide) member with whole | ⟨piece, isPiece, rfl⟩
    · exact identifiers form segment whole
    · refine ⟨by simp, fun slash => ?_⟩
      rcases List.mem_append.mp slash with inside | final
      · exact (identifiers form piece isPiece).2 inside
      · exact absurd final (by decide)
  · exact identifiers form

section Units

variable {base : String} {unit : CompilationUnit} (sound : SoundUnit base unit)
  (form : Settings.isPackageForm base.toList = true)

include sound form

/-- The segments of the package of a unit are names of directories. -/
theorem SoundUnit.isName_package :
    ∀ segment ∈ pieces '.' unit.package.toList, IsName segment := by
  intro segment member
  have simple := notMem_of_mem_pieces member
  have notDots : segment ≠ ['.'] ∧ segment ≠ ['.', '.'] := by
    constructor <;> rintro rfl <;> exact simple List.mem_cons_self
  have named : segment ≠ [] ∧ '/' ∉ segment := by
    rcases sound.pieces_package with same | same <;> rw [same] at member <;>
      rcases List.mem_append.mp member with inBase | last
    · exact isName_of_isPackageForm form segment inBase
    · rw [List.mem_singleton.mp last]
      decide
    · exact isName_of_isPackageForm form segment inBase
    · rw [List.mem_singleton.mp last]
      decide
  exact ⟨named.1, named.2, notDots⟩

omit form in
/-- The name of the file of a unit. -/
theorem SoundUnit.isName_file : IsName (unit.type.name ++ ".java").toList := by
  rw [String.toList_append]
  have long : 5 ≤ (unit.type.name.toList ++ ".java".toList).length := by
    rw [List.length_append]
    exact Nat.le_add_left 5 _
  refine ⟨fun same => ?_, fun slash => ?_, fun same => ?_, fun same => ?_⟩
  · rw [same] at long
    exact absurd long (by decide)
  · rcases List.mem_append.mp slash with inside | ending
    · exact sound.plain.notMem rfl inside
    · exact absurd ending (by decide)
  · rw [same] at long
    exact absurd long (by decide)
  · rw [same] at long
    exact absurd long (by decide)

theorem SoundUnit.sourcePath_eq (directory : Path) : sourcePath directory unit =
    { directory with names := directory.names ++ placeOf unit } :=
  Generation.sourcePath_eq directory sound.package_isEmpty (sound.isName_package form)
    sound.isName_file

/-- The path of the file of a unit leads to one place below the directory. -/
theorem SoundUnit.settled {world : World} {directory : Path} {place : List String}
    (located : world.locate directory = .ok place) :
    Settled world (sourcePath directory unit) (place ++ placeOf unit) := by
  rw [sound.sourcePath_eq form]
  refine File.World.settled_below located fun name member => ?_
  have down {chars : List Char} (isName : IsName chars) : String.ofList chars ≠ ".." := by
    intro same
    have texts := congrArg String.toList same
    rw [String.toList_ofList] at texts
    exact isName.2.2.2 texts
  rcases List.mem_append.mp member with segment | last
  · obtain ⟨chars, isSegment, rfl⟩ := List.mem_map.mp segment
    exact down (sound.isName_package form chars isSegment)
  · rw [List.mem_singleton.mp last, ← String.ofList_toList (s := unit.type.name ++ ".java")]
    exact down sound.isName_file

end Units

/-- **The files of units of distinct names are apart.** -/
theorem apart_sourcePaths {base : String} {units : List CompilationUnit}
    (sound : ∀ unit ∈ units, SoundUnit base unit)
    (form : Settings.isPackageForm base.toList = true)
    (distinct : (units.map (·.qualifiedName)).Nodup) {world : World} {directory : Path}
    {place : List String} (located : world.locate directory = .ok place) :
    Apart world (units.map (sourcePath directory)) := by
  have added {unit : CompilationUnit} (member : unit ∈ units) :
      (sourcePath directory unit).names.drop directory.names.length = placeOf unit := by
    rw [(sound unit member).sourcePath_eq form, List.drop_left]
  refine ⟨fun path => place ++ path.names.drop directory.names.length, fun path member => ?_, ?_⟩
  · obtain ⟨unit, isUnit, rfl⟩ := List.mem_map.mp member
    dsimp only
    rw [added isUnit]
    exact (sound unit isUnit).settled form located
  · have places : (units.map (sourcePath directory)).map
        (fun path => place ++ path.names.drop directory.names.length) =
          units.map fun unit => place ++ placeOf unit := by
      rw [List.map_map]
      exact List.map_congr_left fun unit member => congrArg (place ++ ·) (added member)
    rw [places, List.Nodup, List.pairwise_map]
    rw [List.Nodup, List.pairwise_map] at distinct
    refine distinct.imp fun {unit other} different same => different ?_
    obtain ⟨package, name⟩ := placeOf_injective (List.append_cancel_left same)
    rw [CompilationUnit.qualifiedName, CompilationUnit.qualifiedName, CompilationUnit.path,
      CompilationUnit.path, package, name]

/-! ### Writing -/

/-- The bytes that are put at paths when texts are written, up to the first that cannot be written;
the file of that one, if it can be opened, holds nothing of a text that the codec does not have, and
of another what there was room for. -/
def writesOf (devices : Devices) (codec : Option Codec) (world : World) :
    List (Path × String) → List (Path × Bytes)
  | [] => []
  | (path, text) :: rest =>
    match openSource (devices path) world path with
    | (_, some _) => []
    | (opened, none) =>
      match storedSource (devices path) codec text with
      | (bytes, some _) => [(path, bytes)]
      | (bytes, none) =>
        (path, bytes) :: writesOf devices codec (opened.fillFile path bytes) rest

section Writing

variable {device : Device} {devices : Devices} {codec : Option Codec} {world : World}
  {text : String}

/-- **An open file holds what it is filled with**, and no other file is changed; where the file
cannot be opened none is, but directories above it may have been made. -/
theorem openSource_writes (device : Device) (world : World) (path : Path) :
    match openSource device world path with
    | (stopped, some _) => Writes world [] stopped
    | (opened, none) => ∀ bytes, Writes world [(path, bytes)] (opened.fillFile path bytes) := by
  obtain ⟨keeps, same⟩ := File.World.makeDirectories_keeps world path.parent
  unfold openSource Device.create
  cases made : world.makeDirectories path.parent with
  | mk next obstacle =>
    rw [made] at keeps same
    cases obstacle with
    | some obstacle => exact .nil keeps same
    | none =>
      dsimp only
      by_cases refused : device.refuses .create = true
      · rw [if_pos refused]
        exact .nil keeps same
      · rw [if_neg refused]
        cases created : next.putFile path [] with
        | error obstacle => exact .nil keeps same
        | ok opened =>
          intro bytes
          have put : next.putFile path bytes = .ok (opened.fillFile path bytes) :=
            File.World.putFile_fillFile created
          obtain ⟨names, located, kept, files⟩ := File.World.putFile_spec put
          refine .cons (keeps.trans kept) (kept.locate located) (fun other => ?_)
            (.nil (.refl _) (.refl _))
          rw [files, same other]

/-- A text that is stored in full is one that the codec has. -/
theorem encoded_of_storedSource {bytes : Bytes}
    (stored : storedSource device codec text = (bytes, none)) :
    encoded codec text = some bytes := by
  unfold storedSource at stored
  split at stored
  · cases stored
  · rename_i held
    split at stored
    · cases stored
    · cases stored
      exact held

/-- **Writing texts puts bytes at paths until one cannot be written.** -/
theorem writeSources_writes (devices : Devices) (codec : Option Codec) (world : World)
    (files : List (Path × String)) :
    Writes world (writesOf devices codec world files)
      (writeSources devices codec world files).1 := by
  induction files generalizing world with
  | nil => exact .nil (.refl world) (.refl world)
  | cons file rest ih =>
    obtain ⟨path, text⟩ := file
    have opens := openSource_writes (devices path) world path
    unfold writesOf writeSources writeSource
    cases ran : openSource (devices path) world path with
    | mk opened obstacle =>
      rw [ran] at opens
      cases obstacle with
      | some obstacle => exact opens
      | none =>
        dsimp only
        cases storedSource (devices path) codec text with
        | mk bytes failure =>
          cases failure with
          | some failure => exact opens bytes
          | none => exact (opens bytes).append (ih _)

/-- The bytes are put at the paths in their order. -/
theorem paths_writesOf (devices : Devices) (codec : Option Codec) (world : World)
    (files : List (Path × String)) :
    (writesOf devices codec world files).map (·.1) <+: files.map (·.1) := by
  induction files generalizing world with
  | nil => exact List.prefix_refl _
  | cons file rest ih =>
    obtain ⟨path, text⟩ := file
    unfold writesOf
    split
    · exact List.nil_prefix
    · split
      · exact List.cons_prefix_cons.mpr ⟨rfl, List.nil_prefix⟩
      · exact List.cons_prefix_cons.mpr ⟨rfl, ih _⟩

/-- Where every text is written, the codec has all of them. -/
theorem writesOf_of_written {files : List (Path × String)}
    (written : (writeSources devices codec world files).2 = none) :
    writesOf devices codec world files =
        files.map (fun file => (file.1, (encoded codec file.2).getD [])) ∧
      ∀ file ∈ files, (encoded codec file.2).isSome = true := by
  induction files generalizing world with
  | nil => exact ⟨rfl, fun _ member => absurd member List.not_mem_nil⟩
  | cons file rest ih =>
    obtain ⟨path, text⟩ := file
    unfold writeSources writeSource at written
    unfold writesOf
    cases ran : openSource (devices path) world path with
    | mk opened obstacle =>
      rw [ran] at written
      cases obstacle with
      | some obstacle => cases written
      | none =>
        dsimp only at written ⊢
        cases stored : storedSource (devices path) codec text with
        | mk bytes failure =>
          rw [stored] at written
          cases failure with
          | some failure => cases written
          | none =>
            have held := encoded_of_storedSource stored
            obtain ⟨same, all⟩ := ih written
            refine ⟨?_, List.forall_mem_cons.mpr ⟨by rw [held]; rfl, all⟩⟩
            dsimp only
            rw [same, List.map_cons, held]
            rfl

end Writing

end RamlInterfaces.Generation
