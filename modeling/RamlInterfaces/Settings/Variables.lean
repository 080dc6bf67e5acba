/-
**Variables of the environment.**

They also tell where the data of the program are kept.

* `Variables`: the variables with their values;
* `Variables.value?`, `Variables.filled?`: the value of a variable, and one that is not empty;
* `dataDirectory`: the directory for data of the program, by the conventions of the platform;
* `crashLogPath`: the path of the log of a failure that was not foreseen.
-/

import RamlInterfaces.File.Path

namespace RamlInterfaces.Settings

/-- The variables of the environment with their values. -/
abbrev Variables := List (String × String)

namespace Variables

/-- The value of a variable that is set. -/
def value? (environment : Variables) (name : String) : Option String :=
  (environment.find? (·.1 == name)).map (·.2)

/-- The value of a variable that is set to something. -/
def filled? (environment : Variables) (name : String) : Option String :=
  (environment.value? name).filter (!·.isEmpty)

end Variables

open File (Path)

/-- The platform keeps data of programs in a directory that a variable names. -/
def hasDataHome (platform : String) : Bool :=
  platform == "Linux" || "BSD".toList.isSuffixOf platform.toList

/-- The home directory. -/
def homeDirectory (environment : Variables) : Path :=
  Path.ofText ((environment.filled? "HOME").getD "/")

/-- The directory for data of the program. -/
def dataDirectory (platform : String) (environment : Variables) : Path :=
  if hasDataHome platform then
    let base := match environment.filled? "XDG_DATA_HOME" with
      | some directory => Path.ofText directory
      | none => (homeDirectory environment).join (Path.ofText ".local/share")
    base.join (Path.ofText "ramlgen")
  else (homeDirectory environment).join (Path.ofText ".ramlgen")

/-- The directory for logs. -/
def logDirectory (platform : String) (environment : Variables) : Path :=
  (dataDirectory platform environment).join (Path.ofText "logs")

/-- The path of the log of a failure that was not foreseen. -/
def crashLogPath (platform : String) (environment : Variables) : Path :=
  (logDirectory platform environment).join (Path.ofText "crash.log")

end RamlInterfaces.Settings
