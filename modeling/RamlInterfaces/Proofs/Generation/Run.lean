/-
**What a run leaves on the file system.**

A run plans its model before it writes anything.  The files that it then writes are apart from each
other, so each of them holds its text in the end; a run that fails on the way has written some of
them, and nothing else.

* `plan`: the settings and the model of a run;
* `Ends`: the result of a step of a run and the world that it leaves;
* `run_ends`: **a run plans its model and then writes it**;
* `runWrites`: what a run puts into files, up to the first that cannot be written;
* `run_files`: **the files after a run that succeeds, and when a run that fails has changed none**.
-/

import RamlInterfaces.Generation.Run
import RamlInterfaces.Proofs.Except
import RamlInterfaces.Proofs.Generation.Soundness
import RamlInterfaces.Proofs.Generation.SourceFile
import RamlInterfaces.Proofs.Settings.Package

namespace RamlInterfaces.Generation

open Java
open File (Path World Encoding Codecs Bytes Devices)
open File.World (SameFiles Writes)
open Settings (Configuration)

/-! ### Steps of a run -/

/-- The step ends in a world, with a result or a failure. -/
def Ends {α : Type} (step : Run α) (progress : Progress) (result : Except Failure α)
    (world : World) : Prop :=
  ∃ records, step.run progress = (result, ⟨world, records⟩)

namespace Ends

variable {α β : Type} {step : Run α} {next : α → Run β} {progress : Progress} {world later : World}

/-- **One step after another.** -/
protected theorem bind {value : α} {result : Except Failure β}
    (first : Ends step progress (.ok value) world)
    (second : ∀ records, Ends (next value) ⟨world, records⟩ result later) :
    Ends (step >>= next) progress result later := by
  obtain ⟨records, ran⟩ := first
  obtain ⟨final, ranOn⟩ := second records
  exact ⟨final, (run_bind_ok next ran).trans ranOn⟩

/-- A step that looks at the progress first. -/
protected theorem get_bind {next : Progress → Run β} {result : Except Failure β}
    (here : Ends (next progress) progress result later) :
    Ends (get >>= next) progress result later :=
  here

/-- No step is made after one that fails. -/
protected theorem bind_error {failure : Failure}
    (first : Ends step progress (.error failure) world) :
    Ends (step >>= next) progress (.error failure) world := by
  obtain ⟨records, ran⟩ := first
  exact ⟨records, run_bind_error next ran⟩

end Ends

/-- Reports change no world. -/
theorem reportAll_ends (records : List Record) (progress : Progress) :
    Ends (Run.reportAll records) progress (.ok ()) progress.world :=
  ⟨_, rfl⟩

theorem ofExcept_ends {α : Type} (result : Except Failure α) (progress : Progress) :
    Ends (ofExcept result) progress result progress.world := by
  cases result <;> exact ⟨_, rfl⟩

theorem check_ends (configuration : Option Configuration) (progress : Progress) :
    Ends (Run.check configuration) progress (Settings.check progress.world configuration)
      progress.world := by
  unfold Run.check
  refine Ends.get_bind ?_
  cases configuration with
  | none => exact (ofExcept_ends _ progress)
  | some c => exact (reportAll_ends _ progress).bind fun _ => ofExcept_ends _ _

theorem build_ends (settings : Configuration) (description : Raml.Description)
    (progress : Progress) :
    Ends (Run.build settings description) progress
      ((buildModel settings description).map (·.model)) progress.world := by
  unfold Run.build buildModel
  cases started : Session.start settings with
  | error failure => exact (ofExcept_ends (.error failure) progress).bind_error
  | ok session =>
    refine (ofExcept_ends (.ok session) progress).bind fun records => ?_
    simp only [bind, Except.bind]
    cases ran : (buildInterfaces description).run session with
    | mk result final =>
      refine Ends.bind (reportAll_ends final.records _) fun _ => ?_
      cases result <;> exact ofExcept_ends _ _

/-- The settings and the model of a run, before anything is written. -/
def plan (codecs : Codecs) (supply : Raml.Supply) (configuration : Option Configuration)
    (source : String) (world : World) : Except Failure (Configuration × Model) := do
  let settings ← Settings.check world configuration
  let content ← Raml.load codecs world supply settings.sourceEncoding source
  let description ← Raml.parse content
  let session ← buildModel settings description
  return (settings, session.model)

/-- The world after the source files of a model are written, and the result of that. -/
def writeOut (devices : Devices) (codecs : Codecs) (settings : Configuration) (model : Model)
    (world : World) : World × Except Failure (List Path) :=
  match settings.outputDirectory with
  | none => (world, .error (.settings .outputMissing))
  | some directory => writeModel devices codecs model directory settings.sourceEncoding world

/-- The world after what was planned is written, and the result of that. -/
def carryOut (devices : Devices) (codecs : Codecs)
    (planned : Except Failure (Configuration × Model)) (world : World) :
    World × Except Failure (List Path) :=
  match planned with
  | .error failure => (world, .error failure)
  | .ok (settings, model) => writeOut devices codecs settings model world

theorem write_ends (devices : Devices) (codecs : Codecs) (settings : Configuration) (model : Model)
    (progress : Progress) : Ends (Run.write devices codecs settings model) progress
      (writeOut devices codecs settings model progress.world).2
      (writeOut devices codecs settings model progress.world).1 := by
  unfold Run.write writeOut
  cases settings.outputDirectory with
  | none => exact ⟨progress.records, rfl⟩
  | some directory =>
    refine Ends.get_bind ?_
    dsimp only
    cases writeModel devices codecs model directory settings.sourceEncoding progress.world with
    | mk world result => exact Ends.bind ⟨progress.records, rfl⟩ fun _ => ofExcept_ends result _

theorem generate_ends (devices : Devices) (codecs : Codecs) (settings : Configuration)
    {description : Raml.Description} {session : Session}
    (built : buildModel settings description = .ok session) (progress : Progress) :
    Ends (Run.generate devices codecs settings description) progress
      (writeOut devices codecs settings session.model progress.world).2
      (writeOut devices codecs settings session.model progress.world).1 := by
  have model := build_ends settings description progress
  rw [built] at model
  refine model.bind fun records => ?_
  have written := write_ends devices codecs settings session.model ⟨progress.world, records⟩
  dsimp only at written
  cases outcome : (writeOut devices codecs settings session.model progress.world).2 with
  | error failure =>
    rw [outcome] at written
    exact written.bind_error
  | ok paths =>
    rw [outcome] at written
    exact written.bind fun _ => (reportAll_ends _ _).bind fun _ => ⟨_, rfl⟩

/-- **A run plans its model and then writes it.** -/
theorem run_ends (devices : Devices) (codecs : Codecs) (supply : Raml.Supply)
    (configuration : Option Configuration) (source : String) (progress : Progress) :
    let planned := plan codecs supply configuration source progress.world
    let done := carryOut devices codecs planned progress.world
    Ends (run devices codecs supply configuration source) progress done.2 done.1 := by
  have checked := check_ends configuration progress
  unfold run
  cases valid : Settings.check progress.world configuration with
  | error failure =>
    have planned : plan codecs supply configuration source progress.world = .error failure := by
      simp only [plan, valid, bind, Except.bind]
    rw [valid] at checked
    rw [planned]
    exact checked.bind_error
  | ok settings =>
    rw [valid] at checked
    refine checked.bind fun _ => (reportAll_ends _ _).bind fun _ => Ends.get_bind ?_
    cases loaded : Raml.load codecs progress.world supply settings.sourceEncoding source with
    | error failure =>
      have planned : plan codecs supply configuration source progress.world = .error failure := by
        simp only [plan, valid, loaded, bind, Except.bind]
      rw [planned]
      exact Ends.bind_error (ofExcept_ends (.error failure) _)
    | ok content =>
      refine Ends.bind (ofExcept_ends (.ok content) _) fun _ => ?_
      cases parsed : Raml.parse content with
      | error failure =>
        have planned : plan codecs supply configuration source progress.world = .error failure := by
          simp only [plan, valid, loaded, parsed, bind, Except.bind]
        rw [planned]
        exact Ends.bind_error (ofExcept_ends (.error failure) _)
      | ok description =>
        refine Ends.bind (ofExcept_ends (.ok description) _) fun records => ?_
        cases built : buildModel settings description with
        | error failure =>
          have planned :
              plan codecs supply configuration source progress.world = .error failure := by
            simp only [plan, valid, loaded, parsed, built, bind, Except.bind]
          have model := build_ends settings description ⟨progress.world, records⟩
          rw [built] at model
          rw [planned]
          exact model.bind_error
        | ok session =>
          have planned : plan codecs supply configuration source progress.world =
              .ok (settings, session.model) := by
            simp only [plan, valid, loaded, parsed, built, bind, Except.bind]
            rfl
          rw [planned]
          exact generate_ends devices codecs settings built _

/-! ### What is planned -/

section Planned

variable {codecs : Codecs} {supply : Raml.Supply} {configuration : Option Configuration}
  {source : String} {world : World} {settings : Configuration} {model : Model}

/-- The model of a plan was built. -/
theorem exists_buildModel_of_plan
    (planned : plan codecs supply configuration source world = .ok (settings, model)) :
    Settings.check world configuration = .ok settings ∧
      ∃ description session, buildModel settings description = .ok session ∧
        session.model = model := by
  obtain ⟨checked, valid, planned⟩ := bind_eq_ok_iff.mp planned
  obtain ⟨content, _, planned⟩ := bind_eq_ok_iff.mp planned
  obtain ⟨description, _, planned⟩ := bind_eq_ok_iff.mp planned
  obtain ⟨session, built, same⟩ := bind_eq_ok_iff.mp planned
  cases same
  exact ⟨valid, description, session, built, rfl⟩

theorem located_of_usableDirectory {directory : Path}
    (usable : Settings.usableDirectory world settings = .ok directory) :
    settings.outputDirectory = some directory ∧ ∃ place, world.locate directory = .ok place := by
  unfold Settings.usableDirectory at usable
  cases output : settings.outputDirectory with
  | none => rw [output] at usable; cases usable
  | some given =>
    rw [output] at usable
    dsimp only at usable
    split at usable
    · cases usable
    · cases usable
    · rename_i there
      split at usable
      · cases usable
      · cases usable
        exact ⟨rfl, File.World.exists_locate_of_isDirectory there⟩

/-- Settings that a run can work with have a directory that is there, and a package. -/
theorem usable_of_check (valid : Settings.check world configuration = .ok settings) :
    (∃ directory place, settings.outputDirectory = some directory ∧
      world.locate directory = .ok place) ∧
        Settings.isPackageForm settings.basePackage.toList = true := by
  unfold Settings.check at valid
  cases configuration with
  | none => cases valid
  | some c =>
    dsimp only at valid
    cases usable : Settings.usableDirectory world c with
    | error failure => rw [usable] at valid; cases valid
    | ok directory =>
      rw [usable] at valid
      cases package : Settings.checkPackage c.basePackage with
      | error fault => simp only [package, bind, Except.bind] at valid; cases valid
      | ok =>
        simp only [package, bind, Except.bind] at valid
        cases valid
        obtain ⟨output, place, located⟩ := located_of_usableDirectory usable
        exact ⟨⟨directory, place, output, located⟩, (Settings.checkPackage_eq_ok.mp package).2.1⟩

end Planned

/-! ### Files -/

/-- The source files of rendered units. -/
def sourceFiles (directory : Path) (rendered : List (CompilationUnit × String)) :
    List (Path × String) :=
  rendered.map fun (unit, text) => (sourcePath directory unit, text)

/-- The bytes that a run puts into files, up to the first that cannot be written; nothing unless the
whole model is built and rendered before. -/
def runWrites (devices : Devices) (codecs : Codecs) (supply : Raml.Supply)
    (configuration : Option Configuration) (source : String) (world : World) :
    List (Path × Bytes) :=
  match plan codecs supply configuration source world with
  | .error _ => []
  | .ok (settings, model) =>
    match settings.outputDirectory, renderModel model with
    | some directory, .ok rendered =>
      writesOf devices (codecs settings.sourceEncoding) world (sourceFiles directory rendered)
    | _, _ => []

/-- The rendered units are those of the model, in order, each with its text. -/
theorem renderModel_eq_ok {model : Model} {rendered : List (CompilationUnit × String)}
    (done : renderModel model = .ok rendered) : rendered.map (·.1) = model.units ∧
      ∀ entry ∈ rendered, renderUnit entry.1.path entry.1.type = .ok entry.2 := by
  have same := mapM_eq_ok_iff.mp done
  clear done
  generalize model.units = units at same ⊢
  induction units generalizing rendered with
  | nil =>
    cases rendered with
    | nil => exact ⟨rfl, fun _ member => absurd member List.not_mem_nil⟩
    | cons entry rest => cases same
  | cons unit rest ih =>
    cases rendered with
    | nil => cases same
    | cons entry others =>
      obtain ⟨first, later⟩ := List.cons.inj same
      obtain ⟨names, texts⟩ := ih later
      dsimp only at first
      cases text : renderUnit unit.path unit.type with
      | error fault => rw [text] at first; cases first
      | ok written =>
        rw [text] at first
        cases first
        refine ⟨congrArg (unit :: ·) names, fun entry member => ?_⟩
        rcases List.mem_cons.mp member with rfl | there
        · exact text
        · exact texts entry there

/-- The files of the units of a model that was built are apart. -/
theorem apart_sourceFiles {settings : Configuration} {description : Raml.Description}
    {session : Session} (built : buildModel settings description = .ok session)
    (form : Settings.isPackageForm settings.basePackage.toList = true) {directory : Path}
    {place : List String} {world : World} (located : world.locate directory = .ok place)
    {rendered : List (CompilationUnit × String)}
    (done : renderModel session.model = .ok rendered) :
    File.World.Apart world ((sourceFiles directory rendered).map (·.1)) := by
  have sound := buildModel_sound built
  have paths : (sourceFiles directory rendered).map (·.1) =
      session.model.units.map (sourcePath directory) := by
    rw [sourceFiles, List.map_map, ← (renderModel_eq_ok done).1, List.map_map]
    rfl
  rw [paths]
  exact apart_sourcePaths sound.units form sound.distinct located

/-- What holds of the files after a model is written: the paths are those of its units, each holds
the text of its unit, and no file at another place is changed. -/
structure Written (codecs : Codecs) (settings : Configuration) (model : Model)
    (directory : Path) (world later : World) (paths : List Path) : Prop where
  output : settings.outputDirectory = some directory
  units : paths = model.units.map (sourcePath directory)
  distinct : paths.Nodup
  contents : ∀ unit ∈ model.units, ∃ text bytes, renderUnit unit.path unit.type = .ok text ∧
    encoded (codecs settings.sourceEncoding) text = some bytes ∧
      later.contents (sourcePath directory unit) = .ok bytes
  others : ∀ names, (∀ path ∈ paths, later.locate path ≠ .ok names) →
    later.root.fileAt? names = world.root.fileAt? names

theorem written_of_writeModel {devices : Devices} {codecs : Codecs} {settings : Configuration}
    {model : Model} {directory : Path} (output : settings.outputDirectory = some directory)
    {rendered : List (CompilationUnit × String)} (done : renderModel model = .ok rendered)
    {world later : World}
    (apart : File.World.Apart world ((sourceFiles directory rendered).map (·.1)))
    (wrote : writeSources devices (codecs settings.sourceEncoding) world
      (sourceFiles directory rendered) = (later, none)) :
    Written codecs settings model directory world later
      ((sourceFiles directory rendered).map (·.1)) := by
  obtain ⟨names, texts⟩ := renderModel_eq_ok done
  have writes := writeSources_writes devices (codecs settings.sourceEncoding) world
    (sourceFiles directory rendered)
  obtain ⟨same, held⟩ := writesOf_of_written (congrArg Prod.snd wrote)
  rw [same, wrote] at writes
  have samePaths : ((sourceFiles directory rendered).map fun file => (file.1,
      (encoded (codecs settings.sourceEncoding) file.2).getD [])).map (·.1) =
        (sourceFiles directory rendered).map (·.1) := by
    rw [List.map_map]
    rfl
  refine ⟨output, ?_, ?_, fun unit member => ?_, fun names other => writes.untouched ?_⟩
  · rw [sourceFiles, List.map_map, ← names, List.map_map]
    rfl
  · obtain ⟨place, _, distinct⟩ := apart
    rw [List.Nodup, List.pairwise_map] at distinct
    exact distinct.imp fun different same => different (congrArg place same)
  · rw [← names] at member
    obtain ⟨entry, isEntry, rfl⟩ := List.mem_map.mp member
    have isFile : (sourcePath directory entry.1, entry.2) ∈ sourceFiles directory rendered :=
      List.mem_map_of_mem isEntry
    obtain ⟨bytes, isEncoded⟩ := Option.isSome_iff_exists.mp (held _ isFile)
    have contents := writes.contents (by rwa [samePaths]) _ (List.mem_map_of_mem isFile)
    rw [isEncoded] at contents
    exact ⟨entry.2, bytes, texts entry isEntry, isEncoded, contents⟩
  · intro write isWrite
    refine other write.1 ?_
    rw [← samePaths]
    exact List.mem_map_of_mem isWrite

/-- **The files after a run.**  A run that succeeds gives the paths of the files of its units, which
are distinct; each file holds the text of its unit, and all others are as they were.  A run that
fails has changed no file if and only if each file that it wrote before, and the one that it could
not encode or that there was no room for, held already what was put into it. -/
theorem run_files (devices : Devices) (codecs : Codecs) (supply : Raml.Supply)
    (configuration : Option Configuration) (source : String) (progress : Progress) :
    match (run devices codecs supply configuration source).run progress with
    | (.ok paths, later) => ∃ settings model directory,
      plan codecs supply configuration source progress.world = .ok (settings, model) ∧
        Written codecs settings model directory progress.world later.world paths
    | (.error _, later) => SameFiles progress.world later.world ↔
      ∀ write ∈ runWrites devices codecs supply configuration source progress.world,
        progress.world.contents write.1 = .ok write.2 := by
  obtain ⟨records, ran⟩ := run_ends devices codecs supply configuration source progress
  rw [ran]
  unfold runWrites
  cases planned : plan codecs supply configuration source progress.world with
  | error failure => exact iff_of_true (.refl _) fun _ member => absurd member List.not_mem_nil
  | ok settled =>
    obtain ⟨settings, model⟩ := settled
    obtain ⟨valid, description, session, built, rfl⟩ := exists_buildModel_of_plan planned
    obtain ⟨⟨directory, place, output, located⟩, form⟩ := usable_of_check valid
    simp only [carryOut, writeOut, output]
    unfold writeModel
    cases done : renderModel session.model with
    | error fault => exact iff_of_true (.refl _) fun _ member => absurd member List.not_mem_nil
    | ok rendered =>
      have apart := apart_sourceFiles built form located done
      have writes := writeSources_writes devices (codecs settings.sourceEncoding) progress.world
        (sourceFiles directory rendered)
      cases wrote : writeSources devices (codecs settings.sourceEncoding) progress.world
          (sourceFiles directory rendered) with
      | mk later failure =>
        rw [wrote] at writes
        unfold sourceFiles at wrote
        dsimp only
        rw [wrote]
        cases failure with
        | none =>
          have written := written_of_writeModel output done apart wrote
          exact ⟨settings, session.model, directory, rfl, written⟩
        | some failure => exact writes.sameFiles_iff (apart.of_prefix (paths_writesOf _ _ _ _))

/-- A description of one resource, with a character beyond ASCII. -/
def accented : String := "#%RAML 0.8\ntitle: t\n/a:\n  description: \"\\u00e9\"\n"

/-- A world with an empty directory. -/
def emptyOutput : World := ⟨.directory [("out", .directory [])], [], false⟩

/-- Settings with an encoding that few characters have. -/
def asciiSettings : Configuration :=
  { outputDirectory := some ⟨0, ["out"]⟩, basePackage := "api", sourceEncoding := "ascii" }

theorem accented_run :
    (match (run (fun _ => {}) Encoding.codecs { input := .text accented }
        (some asciiSettings) "-").run ⟨emptyOutput, []⟩ with
      | (.error _, later) => later.world.root.fileAt? ["out", "api", "resource", "A.java"]
      | (.ok _, _) => none) = some [] := by
  decide +kernel

/-- **A run that fails and leaves a file behind**: it could not be encoded. -/
theorem file_left_behind : ∃ failure later,
    (run (fun _ => {}) Encoding.codecs { input := .text accented } (some asciiSettings) "-").run
      ⟨emptyOutput, []⟩ = (.error failure, later) ∧ ¬ SameFiles emptyOutput later.world := by
  have left := accented_run
  generalize (run (fun _ => {}) Encoding.codecs { input := .text accented }
    (some asciiSettings) "-").run ⟨emptyOutput, []⟩ = ran at left
  obtain ⟨result, later⟩ := ran
  cases result with
  | ok paths => cases left
  | error failure =>
    refine ⟨failure, later, rfl, fun same => ?_⟩
    have before := (same ["out", "api", "resource", "A.java"]).symm.trans left
    exact absurd before (by decide)

end RamlInterfaces.Generation
