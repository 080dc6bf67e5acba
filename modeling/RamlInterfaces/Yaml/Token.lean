/-
**Tokens of a YAML text.**

* `Fault`: why a text has no value;
* `Token`: the tokens; `broken` stands where the text cannot be cut into tokens any further.
-/

namespace RamlInterfaces.Yaml

/-- Why a text has no value: it is not well formed, an escape names no character, collections are
nested too deeply, a text does not denote what its tag says, or a date is not in the calendar. -/
inductive Fault where
  | malformed
  | noCharacter
  | nestedTooDeeply
  | unreadableScalar
  | impossibleMoment
deriving DecidableEq, Repr

/-- A token of a YAML text. -/
inductive Token where
  | version (major : Nat)
  | handle (handle expansion : String)
  | otherDirective
  | documentStart
  | documentEnd
  | streamEnd
  | blockSequenceStart
  | blockMappingStart
  | blockEnd
  | flowSequenceStart
  | flowSequenceEnd
  | flowMappingStart
  | flowMappingEnd
  | blockEntry
  | flowEntry
  | key
  | value
  | alias (name : String)
  | anchor (name : String)
  | tag (handle : Option String) (suffix : String)
  | scalar (text : String) (plain : Bool)
  | broken (fault : Fault)
deriving DecidableEq, Repr

end RamlInterfaces.Yaml
