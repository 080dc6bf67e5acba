/-
**Saved settings come into force.**

Settings are saved as the bytes of a text that spells their fields.  Each of these steps can be
undone: the bytes decode to the text, the text is read as the fields, the fields make the settings,
and the text of the output directory denotes the directory.

* `decode?_bytesOf`: the bytes of a text are read as that text;
* `Configuration.ofFields_fields`: the fields of settings make them again;
* `Configuration.readFields_text`: what is saved of settings is read as their fields;
* `exists_save`: **settings are saved wherever a file can be put in place**, and read from there;
* `save_outcome`: **they are saved or no file changes**, and nothing is left behind unless the
  device refuses that;
* `resolveAt_of_saved`: **saved settings are in force** where nothing else sets them.
-/

import RamlInterfaces.Proofs.File.Path
import RamlInterfaces.Proofs.File.Replacement
import RamlInterfaces.Proofs.Json.RoundTrip
import RamlInterfaces.Settings.Saving

namespace RamlInterfaces.Settings

open File (Device Path World Bytes Encoding)

/-! ### The bytes of a text -/

theorem toList_loop (bytes : ByteArray) (i : Nat) (found : List UInt8) :
    ByteArray.toList.loop bytes i found = found.reverse ++ bytes.data.toList.drop i := by
  unfold ByteArray.toList.loop
  by_cases inside : i < bytes.size
  · have further : i < bytes.data.toList.length := inside
    have next : bytes.get! i = bytes.data.toList[i] := by simp [ByteArray.get!, inside]
    rw [if_pos inside, toList_loop bytes (i + 1), List.reverse_cons, List.append_assoc,
      List.singleton_append, List.drop_eq_getElem_cons further, next]
  · rw [if_neg inside, List.drop_eq_nil_of_le (Nat.le_of_not_lt inside), List.append_nil]
  termination_by bytes.size - i

theorem mk_toList (bytes : ByteArray) : ByteArray.mk bytes.toList.toArray = bytes := by
  unfold ByteArray.toList
  rw [toList_loop, List.reverse_nil, List.nil_append, List.drop_zero, Array.toArray_toList]

theorem fromUTF8?_toUTF8 (text : String) : String.fromUTF8? text.toUTF8 = some text := by
  unfold String.fromUTF8?
  split
  · rfl
  · rename_i invalid
    exact absurd text.isValidUTF8 invalid

/-- The bytes of a text. -/
def bytesOf (text : String) : Bytes := (Encoding.utf8.encode? text).getD []

/-- **The bytes of a text are read as that text.** -/
theorem decode?_bytesOf (text : String) : Encoding.utf8.decode? (bytesOf text) = some text := by
  show ((String.fromUTF8? (ByteArray.mk text.toUTF8.toList.toArray)).map String.toList).map
    String.ofList = _
  rw [mk_toList, fromUTF8?_toUTF8, Option.map_some, Option.map_some, String.ofList_toList]

namespace Configuration

variable {c : Configuration}

/-- **The fields of settings make them again**, if the text of the output directory denotes it. -/
theorem ofFields_fields (denoted : ∀ directory, c.outputDirectory = some directory →
    Path.ofText directory.text = directory) : Configuration.ofFields c.fields = .ok c := by
  obtain ⟨outputDirectory, basePackage, constraints, sourceEncoding⟩ := c
  cases outputDirectory with
  | none => rfl
  | some directory =>
    have same := denoted directory rfl
    show Except.ok (Configuration.mk (some (Path.ofText directory.text)) _ _ _) = _
    rw [same]

/-- The names of the fields of settings with an output directory. -/
def fieldNames : List Scalar :=
  [.text "output_directory", .text "base_package_name", .text "use_jsr303_annotations",
    .text "source_encoding"]

theorem keys_fields_sublist (c : Configuration) : (c.fields.map Prod.fst).Sublist fieldNames := by
  obtain ⟨outputDirectory, basePackage, constraints, sourceEncoding⟩ := c
  cases outputDirectory with
  | none => exact List.sublist_cons_self _ _
  | some directory => exact List.Sublist.refl _

/-- The fields are texts and truth values under names that differ. -/
theorem storable_fields (c : Configuration) : Json.Storable (.map c.fields) := by
  have apart : fieldNames.Pairwise fun first second => first.alike second = false := by decide
  have distinct : Raml.Distinct c.fields := apart.sublist c.keys_fields_sublist
  obtain ⟨outputDirectory, basePackage, constraints, sourceEncoding⟩ := c
  refine .map ?_ distinct ?_
  · cases outputDirectory <;> simp [fields]
  · cases outputDirectory <;> simp [fields, Json.Storable.text, Json.Storable.truth]

/-- What is saved of settings is read as their fields. -/
theorem readFields_text (c : Configuration) : readFields (bytesOf c.text) = .ok c.fields := by
  obtain ⟨written, isWriting, reads⟩ := Json.read?_write .ascii c.storable_fields
  unfold readFields Configuration.text
  rw [decode?_bytesOf, isWriting, Option.getD_some]
  dsimp only
  rw [reads]

end Configuration

/-! ### Saving and resolving -/

variable {device : Device} {world later : World} {path : Path} {c : Configuration}

/-- Settings are saved by replacing the file at the path. -/
theorem save_eq (device : Device) (world : World) (c : Configuration) (path : Path) :
    save device world c path = ((device.replaceFile world path (bytesOf c.text)).1,
      (device.replaceFile world path (bytesOf c.text)).2.map fun _ => .system) := by
  unfold save bytesOf
  cases device.replaceFile world path ((Encoding.utf8.encode? c.text).getD []) with
  | mk later obstacle => cases obstacle <;> rfl

/-- A file with the bytes that are saved of settings is read as their fields. -/
theorem readProject_of_contents (contents : world.contents path = .ok (bytesOf c.text)) :
    readProject world path = .ok c.fields := by
  unfold readProject
  rw [World.isFile_of_contents contents]
  dsimp only
  rw [contents]
  dsimp only
  rw [c.readFields_text]

/-- **Settings are saved wherever a file can be put in place**, and are read from there. -/
theorem exists_save (c : Configuration) {bytes : Bytes}
    (writable : (device.replaceFile world path bytes).2 = none) :
    ∃ later, save device world c path = (later, none) ∧ readProject later path = .ok c.fields := by
  have replaceable := (device.replaceFile_eq_none_iff world path bytes).mp writable
  have done := (device.replaceFile_eq_none_iff world path (bytesOf c.text)).mpr replaceable
  have saved := save_eq device world c path
  cases replaced : device.replaceFile world path (bytesOf c.text) with
  | mk later obstacle =>
    rw [replaced] at done saved
    cases done
    exact ⟨later, saved, readProject_of_contents (Device.contents_replaceFile replaced)⟩

/-- What is in force after settings were saved: they, with those of the environment and of the
command line put over them. -/
theorem resolveAt_of_readProject {environment : Variables} {overrides : Overrides}
    (denoted : ∀ directory, c.outputDirectory = some directory →
      Path.ofText directory.text = directory)
    (reads : readProject later path = .ok c.fields) :
    resolveAt path later environment overrides =
      .ok (withOverrides overrides (withVariables environment c)) := by
  unfold resolveAt
  rw [reads]
  refine bind_eq_ok_iff.mpr ⟨c.fields, rfl, ?_⟩
  rw [Configuration.ofFields_fields denoted]
  rfl

/-- The variables of the environment that settings are read from. -/
def variableNames : List String := ["RAMLGEN_OUTPUT_DIR", "RAMLGEN_BASE_PACKAGE", "RAMLGEN_JSR303"]

/-- An environment in which no such variable is set to something changes no setting. -/
theorem withVariables_of_unset {environment : Variables}
    (unset : ∀ name ∈ variableNames, environment.filled? name = none) (c : Configuration) :
    withVariables environment c = c := by
  unfold withVariables
  rw [unset "RAMLGEN_OUTPUT_DIR" (by decide), unset "RAMLGEN_BASE_PACKAGE" (by decide),
    unset "RAMLGEN_JSR303" (by decide)]
  rfl

/-- **Saved settings are in force again**, wherever a file can be put in place, if nothing in the
environment or on the command line sets them. -/
theorem resolveAt_of_saved {environment : Variables} (c : Configuration)
    (denoted : ∀ directory, c.outputDirectory = some directory →
      ∃ text, directory = Path.ofText text)
    (writable : ∃ bytes, (device.replaceFile world path bytes).2 = none)
    (unset : ∀ name ∈ variableNames, environment.filled? name = none) :
    ∃ later, save device world c path = (later, none) ∧
      resolveAt path later environment {} = .ok c := by
  obtain ⟨bytes, replaced⟩ := writable
  obtain ⟨later, saved, reads⟩ := exists_save c replaced
  have again (directory : Path) (isDirectory : c.outputDirectory = some directory) :
      Path.ofText directory.text = directory := by
    obtain ⟨text, rfl⟩ := denoted directory isDirectory
    exact Path.ofText_text (Path.normal_ofText text)
  refine ⟨later, saved, ?_⟩
  rw [resolveAt_of_readProject again reads, withVariables_of_unset unset]
  rfl

/-- Settings whose texts hold quotes, backslashes, control characters and characters of two
units. -/
def awkward : Configuration where
  outputDirectory := some (Path.ofText "//out/../gen//\"src\"/.")
  basePackage := "com.ex\\ample\n\x00😀"
  constraints := true
  sourceEncoding := "é\t\x7f"

/-- Such settings are in force again from a file below a directory that is yet to be made. -/
theorem resolveAt_of_saved_awkward :
    ∃ later, save {} ⟨.directory [("srv", .directory [])], ["srv"], false⟩ awkward
        (Path.ofText "conf/ramlgen.json") = (later, none) ∧
      resolveAt (Path.ofText "conf/ramlgen.json") later
        [("HOME", "/root"), ("RAMLGEN_BASE_PACKAGE", "")] {} = .ok awkward :=
  resolveAt_of_saved awkward (fun _ same => ⟨_, (Option.some.inj same).symm⟩) ⟨[], by decide⟩
    (by decide)

end RamlInterfaces.Settings
