/-
**Source files of a model.**

All types are rendered before the first file is written, so that a type that cannot be written in
source text leaves no file behind.

* `sourcePath`: the path of the file of a top-level type;
* `renderModel`: the source texts of a model;
* `openSource`, `storedSource`, `writeSource`: a text written into a file;
* `writeModel`: writes the source texts of a model below a directory.
-/

import RamlInterfaces.Failure
import RamlInterfaces.File.Replacement
import RamlInterfaces.Java.Source

namespace RamlInterfaces.Generation

open Java
open File (Path World Bytes Codec Codecs Device Devices Obstacle)

/-- The directory of a package: one directory for each of its segments. -/
def packageDirectory (directory : Path) (package : String) : Path :=
  if package.isEmpty then directory
  else (Text.pieces '.' package.toList).foldl
    (fun path segment => path.join (Path.ofText (String.ofList segment))) directory

/-- The path of the source file of a top-level type. -/
def sourcePath (directory : Path) (unit : CompilationUnit) : Path :=
  (packageDirectory directory unit.package).join (Path.ofText (unit.type.name ++ ".java"))

/-- The top-level types of a model with their source texts. -/
def renderModel (model : Model) : Except Failure (List (CompilationUnit × String)) :=
  model.units.mapM fun unit => (renderUnit unit.path unit.type).map fun text => (unit, text)

/-- Opens the file for a text, making the directories above it; the file is empty then. -/
def openSource (device : Device) (world : World) (path : Path) : World × Option Obstacle :=
  match world.makeDirectories path.parent with
  | (world, some obstacle) => (world, some obstacle)
  | (world, none) =>
    match device.create world path with
    | .error obstacle => (world, some obstacle)
    | .ok opened => (opened, none)

/-- The bytes of a text, if there is a codec and it has all characters of the text. -/
def encoded (codec : Option Codec) (text : String) : Option Bytes :=
  codec.bind fun codec => codec.encode? text

/-- What an open file holds after a text was written into it and it was closed, and what failed:
nothing is written of a text that the codec does not have, and what there is room for if the device
refuses to write the text or to close the file. -/
def storedSource (device : Device) (codec : Option Codec) (text : String) :
    Bytes × Option Failure :=
  match encoded codec text with
  | none => ([], some .encoding)
  | some bytes =>
    if device.refuses .write || device.refuses .close then (bytes.take device.room, some .system)
    else (bytes, none)

/-- Writes a text into a file, making the directories above it. -/
def writeSource (device : Device) (codec : Option Codec) (world : World) (path : Path)
    (text : String) : World × Option Failure :=
  match openSource device world path with
  | (world, some _) => (world, some .system)
  | (opened, none) =>
    let (bytes, failure) := storedSource device codec text
    (opened.fillFile path bytes, failure)

/-- Writes texts into files one after the other, up to the first that cannot be written. -/
def writeSources (devices : Devices) (codec : Option Codec) (world : World) :
    List (Path × String) → World × Option Failure
  | [] => (world, none)
  | (path, text) :: rest =>
    match writeSource (devices path) codec world path text with
    | (world, some failure) => (world, some failure)
    | (world, none) => writeSources devices codec world rest

/-- Writes the source files of a model below a directory, and gives their paths. -/
def writeModel (devices : Devices) (codecs : Codecs) (model : Model) (directory : Path)
    (encodingName : String) (world : World) : World × Except Failure (List Path) :=
  match renderModel model with
  | .error failure => (world, .error failure)
  | .ok rendered =>
    let files := rendered.map fun (unit, text) => (sourcePath directory unit, text)
    match writeSources devices (codecs encodingName) world files with
    | (world, some failure) => (world, .error failure)
    | (world, none) => (world, .ok (files.map (·.1)))

end RamlInterfaces.Generation
