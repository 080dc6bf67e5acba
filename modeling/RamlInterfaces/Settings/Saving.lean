/-
**Saving the settings.**

The settings are written to a file beside the target first, which then takes the place of the
target.  So the target holds either what it held before or all of the new text.

* `Configuration.fields`: the settings as fields;
* `Configuration.text`: the text of a project file;
* `save`: the world with the settings saved on a device.
-/

import RamlInterfaces.File.Replacement
import RamlInterfaces.Json.Writer
import RamlInterfaces.Settings.Resolution

namespace RamlInterfaces.Settings

open File (Device Path World)

/-- The settings as fields; a missing output directory is left out. -/
def Configuration.fields (c : Configuration) : Entries :=
  (c.outputDirectory.map fun directory =>
      (Scalar.text "output_directory", Value.scalar (.text directory.text))).toList ++
    [(.text "base_package_name", .scalar (.text c.basePackage)),
      (.text "use_jsr303_annotations", .scalar (.bool c.constraints)),
      (.text "source_encoding", .scalar (.text c.sourceEncoding))]

/-- The text of a project file that holds the settings. -/
def Configuration.text (c : Configuration) : String :=
  (Json.write .ascii (.map c.fields)).getD "" ++ "\n"

/-- The world with the settings saved at a path, and whether that failed. -/
def save (device : Device) (world : World) (c : Configuration) (path : Path) :
    World × Option Failure :=
  match device.replaceFile world path ((File.Encoding.utf8.encode? c.text).getD []) with
  | (world, none) => (world, none)
  | (world, some _) => (world, some .system)

end RamlInterfaces.Settings
