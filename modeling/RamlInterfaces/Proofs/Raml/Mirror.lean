/-
**The description mirrors the document.**

The resources of a description stand in the order of the keys that declare them, the methods of a
resource in that of theirs, and every path is put together from the keys that lead to it.

* `MirrorsMethod`, `Mirrors`: a method, and a list of resources, stand for entries of the document;
* `forall₂_extractActions`: the methods of a resource;
* `mirrors_followsExtraction`, `mirrors_extractResources`: a resource and all below it;
* `mirrors_extractDescription`: **the resources of a description mirror those of its document**.
-/

import Mathlib.Data.List.Forall2
import RamlInterfaces.Proofs.Except
import RamlInterfaces.Proofs.Raml.Application
import RamlInterfaces.Proofs.Raml.Extraction

namespace RamlInterfaces.Raml

/-- The entries that declare resources, in their order. -/
def resourceEntries (entries : Entries) : Entries :=
  entries.filter fun entry => isResourceKey entry.1

/-- The entries that declare methods, in their order. -/
def methodEntries (entries : Entries) : Entries :=
  entries.filter fun entry => (verbKey? entry.1).isSome

/-- A method of the resource with the given path stands for an entry: the key is its verb. -/
structure MirrorsMethod (path : String) (entry : Scalar × Value) (action : Action) : Prop where
  named : entry.1.string? = some action.verb.word
  resourcePath : action.resourcePath = path

/-- Resources stand one by one for entries, which the keys `above` lead to: the key is the relative
path, all keys together are the path, and the methods and the resources below stand for the entries
of the value that declare such. -/
inductive Mirrors : List String → Entries → List Resource → Prop where
  | nil {above : List String} : Mirrors above [] []
  | cons {above : List String} {entry : Scalar × Value} {entries : Entries} {resource : Resource}
    {resources : List Resource}
    (named : entry.1.string? = some resource.relativePath)
    (path : resource.path = String.join (above ++ [resource.relativePath]))
    (actions : List.Forall₂ (MirrorsMethod resource.path) (methodEntries (entriesOf entry.2))
      resource.actions)
    (below : Mirrors (above ++ [resource.relativePath]) (resourceEntries (entriesOf entry.2))
      resource.resources)
    (rest : Mirrors above entries resources) :
    Mirrors above (entry :: entries) (resource :: resources)

variable {members root : Entries} {path : String} {actions : List Action} {action : Action}
  {verb : Verb} {value : Value} {description : Description}

theorem mirrorsMethod_extractAction {key : Scalar} (isVerb : verbKey? key = some verb)
    (extracted : extractAction verb path value = .ok action) :
    MirrorsMethod path (key, value) action := by
  obtain ⟨sameVerb, samePath⟩ := verb_of_extractAction extracted
  rw [← sameVerb] at isVerb
  exact ⟨verbKey?_eq_some_iff.mp isVerb, samePath⟩

/-- **The methods of a resource** are the entries of its verbs, in their order. -/
theorem forall₂_extractActions (extracted : extractActions path members = .ok actions) :
    List.Forall₂ (MirrorsMethod path) (methodEntries members) actions := by
  unfold extractActions at extracted
  induction members generalizing actions with
  | nil =>
    cases extracted
    exact .nil
  | cons entry rest ih =>
    obtain ⟨key, child⟩ := entry
    unfold methodEntries at ih ⊢
    cases isVerb : verbKey? key with
    | none =>
      rw [List.filterMap_cons_none (by simp only [isVerb, Option.map_none])] at extracted
      rw [List.filter_cons_of_neg (by simp [isVerb])]
      exact ih extracted
    | some verb =>
      rw [List.filterMap_cons_some (by simp only [isVerb, Option.map_some]; rfl),
        List.mapM_cons] at extracted
      obtain ⟨action, here, extracted⟩ := bind_eq_ok_iff.mp extracted
      obtain ⟨others, later, same⟩ := bind_eq_ok_iff.mp extracted
      cases same
      rw [List.filter_cons_of_pos (by simp [isVerb])]
      exact .cons (mirrorsMethod_extractAction isVerb here) (ih later)

theorem join_concat (texts : List String) (text : String) :
    String.join (texts ++ [text]) = String.join texts ++ text := by
  unfold String.join
  rw [List.foldl_append]
  rfl

/-- **A resource mirrors the entry that declares it**, with all below. -/
theorem mirrors_followsExtraction : FollowsExtraction
    (fun parentPath relative value resource => ∀ above key, String.join above = parentPath →
      key.string? = some relative → Mirrors above [(key, value)] [resource])
    (fun parentPath members resources => ∀ above, String.join above = parentPath →
      Mirrors above (resourceEntries members) resources) where
  bare := by
    rintro parentPath relative value resource noMap isBare above key rfl named
    have nothing : entriesOf value = [] := by
      cases value with
      | map => cases noMap
      | _ => rfl
    refine .cons (named.trans (congrArg some isBare.relative.symm)) ?_ ?_ ?_ .nil
    · rw [isBare.path, isBare.relative, join_concat]
    · rw [isBare.actions, nothing]
      exact .nil
    · rw [isBare.resources, nothing]
      exact .nil
  node := by
    rintro parentPath relative members resource content below above key rfl named
    have path : resource.path = String.join (above ++ [resource.relativePath]) := by
      rw [content.path, content.relative, join_concat]
    exact .cons (named.trans (congrArg some content.relative.symm)) path
      (forall₂_extractActions content.actions) (below _ path.symm) .nil
  nil := fun _ _ => .nil
  skip := by
    intro parentPath key child rest resources isPath later above isParent
    unfold resourceEntries
    rw [List.filter_cons_of_neg (by simp [isResourceKey, isPath])]
    exact later above isParent
  cons := by
    intro parentPath key relative child rest resource others isPath first later above isParent
    unfold resourceEntries
    rw [List.filter_cons_of_pos (by simp [isResourceKey, isPath])]
    cases first above key isParent (resourceKey?_eq_some_iff.mp isPath).1 with
    | cons named path actions below _ =>
      exact .cons named path actions below (later above isParent)

/-- **The resources of a node mirror the entries that declare them.** -/
theorem mirrors_extractResources {above : List String} {resources : List Resource}
    (members : List (Scalar × Value))
    (extracted : extractResources (String.join above) members = .ok resources) :
    Mirrors above (resourceEntries members) resources :=
  mirrors_followsExtraction.of_resources members extracted above rfl

/-- **The resources of a description mirror those of its document**, at every depth. -/
theorem mirrors_extractDescription (extracted : extractDescription root = .ok description) :
    Mirrors [] (resourceEntries root) description.resources :=
  mirrors_extractResources root (resources_of_extractDescription extracted).1

/-- A document with resources at two depths, one of them nothing, and with a key that is no text. -/
def libraryDocument : Entries :=
  [(.text "/shelves", .map [(.text "get", .null), (.int 5, .null),
      (.text "/{id}", .map [(.text "delete", .map []), (.text "/books", .null)]),
      (.text "post", .null)]),
    (.text "title", .text "t"), (.text "/members", .null)]

theorem mirrors_libraryDocument : ∃ description,
    extractDescription libraryDocument = .ok description ∧
      Mirrors [] (resourceEntries libraryDocument) description.resources := by
  obtain ⟨description, extracted⟩ :
      ∃ description, extractDescription libraryDocument = .ok description := ⟨_, rfl⟩
  exact ⟨description, extracted, mirrors_extractDescription extracted⟩

end RamlInterfaces.Raml
