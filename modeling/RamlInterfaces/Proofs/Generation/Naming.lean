/-
**Members named after names.**

A name that is made from a text has the words of that text, so a member that is named after it has
the name that it would have after the text.

* `typeName_variableName`, `interfaceName_eq_self`: names made from names;
* `inferType_variableName`: an enum named after a variable is the enum named after its key;
* `names_stable`: **every kind of name, made from a name, is that made from the text**.
-/

import RamlInterfaces.Proofs.Generation.Legality
import RamlInterfaces.Proofs.Java.Renaming

namespace RamlInterfaces.Generation

open Java

/-! ### Names made from names -/

theorem typeName_typeName (text : String) : typeName (typeName text) = typeName text := by
  unfold typeName
  rw [String.toList_ofList, typeNameChars_typeNameChars]

theorem typeName_variableName (text : String) : typeName (variableName text) = typeName text := by
  unfold typeName variableName
  rw [String.toList_ofList, typeNameChars_variableNameChars]

theorem constantName_constantName (literal : String) :
    constantName (constantName literal) = constantName literal := by
  unfold constantName
  rw [String.toList_ofList, constantNameChars_constantNameChars]

/-- The name of a variable is made from that of a type. -/
theorem variableName_congr {text other : String} (same : typeName text = typeName other) :
    variableName text = variableName other := by
  have chars : typeNameChars text.toList = typeNameChars other.toList :=
    String.ofList_injective same
  unfold variableName variableNameChars
  rw [chars]

/-! ### Names of interfaces -/

/-- No identifier is blank. -/
theorem isAllBlank_of_isIdentifier {name : String} (identifier : isIdentifier name.toList = true) :
    Text.isAllBlank name = false := by
  unfold Text.isAllBlank
  cases shape : name.toList with
  | nil =>
    rw [shape] at identifier
    cases identifier
  | cons first rest =>
    have inside : first ∈ name.toList := shape ▸ List.mem_cons_self
    have notBlank := isBlank_of_isIdentifierChar (isIdentifierChar_of_mem identifier first inside)
    rw [List.all_cons, notBlank, Bool.false_and]

/-- The name of an interface is the name of a type, and the name that this type has again. -/
theorem typeName_interfaceName (displayName : Option String) (relativePath : String) :
    typeName (interfaceName displayName relativePath) = interfaceName displayName relativePath := by
  unfold interfaceName
  extract_lets source name
  split
  · decide
  · exact typeName_typeName source

/-- **An interface whose resource is called as an interface has that name.** -/
theorem interfaceName_eq_self (displayName : Option String) (relativePath otherPath : String) :
    interfaceName (some (interfaceName displayName relativePath)) otherPath =
      interfaceName displayName relativePath := by
  have identifier := (isLegal_interfaceName displayName relativePath).identifier
  have again := typeName_interfaceName displayName relativePath
  generalize interfaceName displayName relativePath = name at identifier again ⊢
  have some : name.isEmpty = false := by
    refine Bool.eq_false_iff.mpr fun none => ?_
    rw [String.isEmpty_iff.mp none] at identifier
    cases identifier
  unfold interfaceName
  simp only [isAllBlank_of_isIdentifier identifier, again, some, Bool.false_eq_true, if_false]

/-! ### Names of enums -/

/-- **A parameter has one type under its key and under the name of its variable**: its enum is named
alike. -/
theorem inferType_variableName (p : Raml.Parameter) (key : String) (owner : TypePath) :
    inferType p (variableName key) (some owner) = inferType p key (some owner) := by
  unfold inferType
  split
  · simp only [Option.some_or, typeName_variableName]
  · rfl

/-! ### All of them -/

/-- **Names made from names are those made from the text**, of types, variables, constants and
interfaces; an enum has the name of the key of its parameter. -/
theorem names_stable :
    (∀ text, typeName (typeName text) = typeName text) ∧
    (∀ text, variableName (variableName text) = variableName text) ∧
    (∀ literal, constantName (constantName literal) = constantName literal) ∧
    (∀ text, typeName (variableName text) = typeName text) ∧
    (∀ text, variableName (typeName text) = variableName text) ∧
    (∀ displayName relativePath otherPath,
      interfaceName (some (interfaceName displayName relativePath)) otherPath =
        interfaceName displayName relativePath) ∧
    ∀ (p : Raml.Parameter) (key : String) (owner : TypePath),
      inferType p (variableName key) (some owner) = inferType p key (some owner) :=
  ⟨typeName_typeName, fun text => variableName_congr (typeName_variableName text),
    constantName_constantName, typeName_variableName,
    fun text => variableName_congr (typeName_typeName text), interfaceName_eq_self,
    inferType_variableName⟩

example : variableName "class" = "$class" ∧ typeName "$class" = "Class" := by decide

end RamlInterfaces.Generation
