/-
**Faults of a model of Java types.**

* `Fault`: why an element cannot be added to a model or named in source text;
* `Fault.message`: the wording;
* `Fault.isCollision`: two elements would share a name.
-/

import RamlInterfaces.Text.Quoted

namespace RamlInterfaces.Java

/-- Why an element cannot be added to a model or named in source text. -/
inductive Fault where
  | typeDefined (name : String)
  | methodDefined (method type : String)
  | parameterDefined (parameter method : String)
  | constantDefined (constant type : String)
  | enumDefined (type : String) (known asked : List String)
  | parameterUnnamed (method : String)
  | notEnum (type : String)
  | unnameable (type : String)
  | unsupportedVerb (word : String)
  | noInterface (parameter : String)
deriving DecidableEq, Repr

/-- The wording of a fault. -/
def Fault.message : Fault → String
  | .typeDefined name => "Type " ++ name ++ " is already defined"
  | .methodDefined method type => "Method " ++ method ++ " is already defined in " ++ type
  | .parameterDefined parameter method =>
    "Duplicate parameter '" ++ parameter ++ "' in method " ++ method
  | .constantDefined constant type => "Duplicate enum constant '" ++ constant ++ "' in " ++ type
  | .enumDefined type known asked =>
    "Enum " ++ type ++ " is already defined with values " ++ Text.bracketed known ++ ", not " ++
      Text.bracketed asked
  | .parameterUnnamed method => "Empty parameter name in method " ++ method
  | .notEnum type => type ++ " is not an enum"
  | .unnameable type => "Type " ++ type ++ " cannot be referenced by name"
  | .unsupportedVerb word => "Unsupported HTTP method: " ++ word
  | .noInterface parameter => "No resource interface to hold the enum for parameter " ++ parameter

/-- The fault is that two elements would share a name. -/
def Fault.isCollision : Fault → Bool
  | .typeDefined _ | .methodDefined _ _ | .parameterDefined _ _ | .constantDefined _ _
  | .enumDefined _ _ _ => true
  | .parameterUnnamed _ | .notEnum _ | .unnameable _ | .unsupportedVerb _ | .noInterface _ => false

end RamlInterfaces.Java
