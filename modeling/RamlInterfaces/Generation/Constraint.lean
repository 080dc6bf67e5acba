/-
**Constraints of parameters.**

* `Constraint`: a constraint on the value of a parameter;
* `constraints`: the constraints that the facets of a parameter imply;
* `Constraint.elements`: the elements of the annotation for a constraint;
* `annotateConstraints`: puts the annotations on a parameter.
-/

import RamlInterfaces.Generation.ParameterType

namespace RamlInterfaces.Generation

open Java

/-- A constraint on the value of a parameter. -/
inductive Constraint where
  | notNull
  | size (least greatest : Option Int)
  | pattern (expression : String)
  | min (bound : Binary64)
  | max (bound : Binary64)
  | decimalMin (bound : Binary64)
  | decimalMax (bound : Binary64)
deriving DecidableEq, Repr

/-- The constraints on a text. -/
def textConstraints (p : Raml.Parameter) : List Constraint :=
  (if p.minLength.isSome || p.maxLength.isSome then [.size p.minLength p.maxLength] else []) ++
    match p.pattern with
    | some expression => if expression.isEmpty then [] else [.pattern expression]
    | none => []

/-- The constraints on a value of the declared kind of a parameter. -/
def kindConstraints (p : Raml.Parameter) : List Constraint :=
  match p.kind with
  | none | some "string" => textConstraints p
  | some "integer" => (p.minimum.map .min).toList ++ (p.maximum.map .max).toList
  | some "number" => (p.minimum.map .decimalMin).toList ++ (p.maximum.map .decimalMax).toList
  | some _ => []

/-- The parameter has enum values. -/
def hasEnum (p : Raml.Parameter) : Bool := !(p.enumValues.getD []).isEmpty

/-- The constraints that the facets of a parameter imply; those of its values do not apply to an
enum or a list. -/
def constraints (p : Raml.Parameter) : List Constraint :=
  (if p.required && p.default.isNone then [.notNull] else []) ++
    if hasEnum p || p.repeated then [] else kindConstraints p

/-- The simple name of the annotation type of a constraint. -/
def Constraint.simpleName : Constraint → String
  | .notNull => "NotNull"
  | .size _ _ => "Size"
  | .pattern _ => "Pattern"
  | .min _ => "Min"
  | .max _ => "Max"
  | .decimalMin _ => "DecimalMin"
  | .decimalMax _ => "DecimalMax"

/-- The annotation type of a constraint. -/
def Constraint.type (c : Constraint) : TypeRef :=
  .named ("javax.validation.constraints." ++ c.simpleName)

/-- The bound of an integer as an element, if it is finite. -/
def boundElements (bound : Option Int) : Except Defect (List (String × ElementValue)) :=
  match bound with
  | some n => .ok [("value", .scalar (.int n))]
  | none => .error .unboundedLimit

/-- The elements of the annotation for a constraint; the bounds of an integer are rounded
inwards. -/
def Constraint.elements : Constraint → Except Defect (List (String × ElementValue))
  | .notNull => .ok []
  | .size least greatest =>
    .ok ((least.map fun n => ("min", ElementValue.scalar (.int n))).toList ++
      (greatest.map fun n => ("max", ElementValue.scalar (.int n))).toList)
  | .pattern expression => .ok [("regexp", .text expression)]
  | .min bound => boundElements bound.ceil?
  | .max bound => boundElements bound.floor?
  | .decimalMin bound => .ok [("value", .text bound.text)]
  | .decimalMax bound => .ok [("value", .text bound.text)]

/-- The annotation for a constraint; there is none without a finite bound. -/
def Constraint.annotation (c : Constraint) : Except Failure Annotation :=
  match c.elements with
  | .ok elements => .ok { type := c.type, elements }
  | .error defect => .error (.defect defect)

/-- The annotations for the constraints of a parameter. -/
def constraintAnnotations (p : Raml.Parameter) : Except Failure (List Annotation) :=
  (constraints p).mapM Constraint.annotation

/-- Puts the annotation for a constraint on a site; one without a finite bound is left bare. -/
def annotateConstraint (site : Site) (c : Constraint) : Build Unit :=
  match c.elements with
  | .ok elements => Build.annotate site c.type elements
  | .error defect => do
    Build.annotate site c.type []
    throw (.defect defect)

/-- Puts the annotations for the constraints of a parameter on a site. -/
def annotateConstraints (p : Raml.Parameter) (site : Site) : Build Unit := do
  for c in constraints p do
    annotateConstraint site c

end RamlInterfaces.Generation
