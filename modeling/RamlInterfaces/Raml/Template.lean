/-
**Templates and references to them.**

Traits and resource types are declared at the root as a mapping from names to bodies, or as a list
of such mappings, later declarations of a name replacing earlier ones.  A reference is a name, or a
mapping from one name to the arguments of the template.

* `TemplateKind`: trait or resource type;
* `namedTemplates`: the bodies by name;
* `Templates`: the traits and the resource types of a document;
* `Reference`, `Reference.ofValue?`: a name with arguments.
-/

import RamlInterfaces.Value.Listing

namespace RamlInterfaces.Raml

/-- The kinds of template. -/
inductive TemplateKind where
  | trait
  | resourceType
deriving DecidableEq, Repr

/-- The kind in words. -/
def TemplateKind.words : TemplateKind → String
  | .trait => "trait"
  | .resourceType => "resource type"

/-- The declared bodies by name: those of a mapping, or of every mapping in a list. -/
def namedTemplates : Value → Entries
  | .map entries => entries
  | .list items => items.foldl (fun found item => Entries.putAll found (item.entries?.getD [])) []
  | _ => []

/-- The templates that a document declares. -/
structure Templates where
  traits : Entries
  resourceTypes : Entries

/-- The templates that the root of a document declares. -/
def Templates.ofRoot (root : Entries) : Templates where
  traits := namedTemplates (root.get "traits")
  resourceTypes := namedTemplates (root.get "resourceTypes")

/-- The templates of a kind. -/
def Templates.ofKind (templates : Templates) : TemplateKind → Entries
  | .trait => templates.traits
  | .resourceType => templates.resourceTypes

/-- A reference to a template: its name and the arguments for it. -/
structure Reference where
  name : String
  arguments : Entries

/-- The reference that a value denotes: a mapping with one key gives arguments to the template of
that name, and any other value is a name.  What has no text denotes none. -/
def Reference.ofValue? : Value → Option Reference
  | .map [(name, arguments)] => name.toText?.map (⟨·, arguments.entries?.getD []⟩)
  | other => other.toText?.map (⟨·, []⟩)

end RamlInterfaces.Raml
