/-
**Arguments of a command line.**

An argument that starts with a dash is an option or several short ones together.  The value of an
option follows it in the same argument or is the next one, whatever that looks like.  Two dashes end
the options.

* `Setting`, `OptionSpec`: what an option sets, and how it is written;
* `Given`: what arguments give;
* `readOption`: the options of one argument;
* `readArguments`: all arguments.
-/

import RamlInterfaces.Text.Runs

namespace RamlInterfaces.Command

/-- What an option sets. -/
inductive Setting where
  | help
  | version
  | json
  | plain
  | noColor
  | quiet
  | verbose
  | outputDirectory
  | package
  | constraints
  | createDirectory
deriving DecidableEq, Repr

/-- How an option is written: its long name, the letter of its short one, and what it stands for
unless a value follows it. -/
structure OptionSpec where
  setting : Setting
  long : String
  short : Option Char := none
  standsFor : Option Bool := some true
deriving DecidableEq, Repr

/-- What arguments give: the options in their order, and the other arguments. -/
structure Given where
  flags : List (Setting × Bool) := []
  texts : List (Setting × String) := []
  positional : List String := []
deriving DecidableEq, Repr

namespace Given

/-- The given things, and further ones after them. -/
def append (given further : Given) : Given :=
  ⟨given.flags ++ further.flags, given.texts ++ further.texts,
    given.positional ++ further.positional⟩

/-- The last value that a flag was given. -/
def flag? (given : Given) (setting : Setting) : Option Bool :=
  (given.flags.reverse.find? (·.1 == setting)).map (·.2)

/-- A flag is given and on. -/
def isOn (given : Given) (setting : Setting) : Bool := (given.flag? setting).getD false

/-- The last text that an option was given. -/
def text? (given : Given) (setting : Setting) : Option String :=
  (given.texts.reverse.find? (·.1 == setting)).map (·.2)

end Given

/-- What an argument amounts to: what it gives, and the option that takes the next argument for its
value. -/
structure Reading where
  given : Given := {}
  awaiting : Option Setting := none
deriving DecidableEq, Repr

/-- A long option with the text after its equals sign, if it has one. -/
def readLong? (spec : OptionSpec) (attached : Option String) : Option Reading :=
  match spec.standsFor, attached with
  | some value, none => some { given := { flags := [(spec.setting, value)] } }
  | some _, some _ => none
  | none, some text => some { given := { texts := [(spec.setting, text)] } }
  | none, none => some { awaiting := some spec.setting }

/-- The short options of the letters after a dash; what follows the letter of an option with a value
is that value. -/
def readShort? (specs : List OptionSpec) : List Char → Option Reading
  | [] => some {}
  | letter :: rest =>
    match specs.find? (·.short == some letter) with
    | none => none
    | some spec =>
      match spec.standsFor, rest with
      | none, [] => some { awaiting := some spec.setting }
      | none, value => some { given := { texts := [(spec.setting, String.ofList value)] } }
      | some value, rest =>
        (readShort? specs rest).map fun step =>
          { step with given := Given.append { flags := [(spec.setting, value)] } step.given }

/-- The options of one argument that starts with a dash. -/
def readOption (specs : List OptionSpec) (argument : List Char) : Option Reading :=
  let name := argument.takeWhile (· != '=')
  let attached := match argument.dropWhile (· != '=') with
    | [] => none
    | _ :: text => some (String.ofList text)
  match specs.find? (·.long.toList == name), argument with
  | some spec, _ => readLong? spec attached
  | none, '-' :: '-' :: _ => none
  | none, letters => readShort? specs letters.tail

/-- The argument is read as options. -/
def isOptionLike (argument : List Char) : Bool :=
  argument.head? == some '-' && argument.length > 1

/-- What arguments give, unless they are misused; with `interspersed` options may follow other
arguments, else the first other argument ends the options. -/
def readArguments (specs : List OptionSpec) (interspersed : Bool) (awaiting : Option Setting)
    (given : Given) : List String → Option Given
  | [] => if awaiting.isNone then some given else none
  | argument :: rest =>
    match awaiting with
    | some setting =>
      readArguments specs interspersed none
        (given.append { texts := [(setting, argument)] }) rest
    | none =>
      if argument = "--" then some (given.append { positional := rest })
      else if isOptionLike argument.toList then
        match readOption specs argument.toList with
        | none => none
        | some step =>
          readArguments specs interspersed step.awaiting (given.append step.given) rest
      else if interspersed then
        readArguments specs interspersed none (given.append { positional := [argument] }) rest
      else some (given.append { positional := argument :: rest })

end RamlInterfaces.Command
