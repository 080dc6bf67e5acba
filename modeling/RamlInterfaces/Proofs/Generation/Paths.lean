/-
**Paths of interfaces and methods.**

The path of a resource is put together on the way down to it, and taken apart again for the
interface and the method that it is bound to.  No segment of it is lost, and where no slash is
doubled no character is.

* `segments`: the parts of a path between its slashes;
* `segments_methodPath`, `join_methodPath`: **a path that is taken apart can be put together**;
* `waysFrom`: the actions in a tree with the relative paths on the way to each;
* `ways_extractDescription`: **the path of an action is what was declared on the way to it**;
* `buildModel_paths`: **an interface and its methods are bound to the paths of their actions**.
-/

import Mathlib.Data.List.Forall2
import RamlInterfaces.Proofs.Except
import RamlInterfaces.Proofs.Generation.Flattening
import RamlInterfaces.Proofs.Raml.Extraction
import RamlInterfaces.Proofs.Raml.Merge
import RamlInterfaces.Proofs.Text.Runs

namespace RamlInterfaces.Generation

open Java
open Settings (Configuration)

/-! ### Segments -/

/-- The parts of a path between its slashes, without empty ones. -/
def segmentsOf (path : List Char) : List (List Char) :=
  (Text.pieces '/' path).filter fun piece => !piece.isEmpty

/-- The parts of a path between its slashes, without empty ones. -/
def segments (path : String) : List (List Char) := segmentsOf path.toList

theorem segmentsOf_append (left right : List Char) :
    segmentsOf (left ++ '/' :: right) = segmentsOf left ++ segmentsOf right := by
  unfold segmentsOf
  rw [Text.pieces_append, List.filter_append]

theorem segmentsOf_cons_slash (path : List Char) : segmentsOf ('/' :: path) = segmentsOf path :=
  segmentsOf_append [] path

theorem withoutLeadingSlashes_cons_slash (path : List Char) :
    withoutLeadingSlashes ('/' :: path) = withoutLeadingSlashes path := rfl

theorem withoutLeadingSlashes_cons_other {c : Char} (other : c ≠ '/') (path : List Char) :
    withoutLeadingSlashes (c :: path) = c :: path := by
  unfold withoutLeadingSlashes
  rw [List.dropWhile_cons_of_neg (by rw [beq_iff_eq]; exact other)]

theorem segmentsOf_withoutLeadingSlashes (path : List Char) :
    segmentsOf (withoutLeadingSlashes path) = segmentsOf path := by
  induction path with
  | nil => rfl
  | cons c rest ih =>
    by_cases slash : c = '/'
    · rw [slash, withoutLeadingSlashes_cons_slash, ih, segmentsOf_cons_slash]
    · rw [withoutLeadingSlashes_cons_other slash]

/-! ### Taking a path apart -/

/-- What follows the path of a resource in the path of one below: nothing, or a slash and more. -/
def Follows (rest : List Char) : Prop := ∀ c more, rest = c :: more → c = '/'

variable {relative path : String} {rest tail : List Char}

/-- The path of an interface is the relative path of its resource without slashes around it. -/
theorem exists_trailing_slashes (relative : String) : ∃ trailing,
    withoutLeadingSlashes relative.toList = (interfacePath relative).toList ++ trailing ∧
      ∀ c ∈ trailing, c = '/' := by
  obtain ⟨trailing, split, slashes⟩ :=
    Text.exists_dropLastWhile_append (· == '/') (withoutLeadingSlashes relative.toList)
  refine ⟨trailing, ?_, fun c member => beq_iff_eq.mp (slashes c member)⟩
  unfold interfacePath
  rw [String.toList_ofList]
  exact split

/-- Only slashes in front of a path are left out. -/
theorem withoutLeadingSlashes_append {start : List Char}
    (some : withoutLeadingSlashes start ≠ []) (rest : List Char) :
    withoutLeadingSlashes (start ++ rest) = withoutLeadingSlashes start ++ rest := by
  unfold withoutLeadingSlashes at some ⊢
  rw [List.dropWhile_append, if_neg (mt List.isEmpty_iff.mp some)]

/-- An interface whose path is empty has its methods under their whole paths. -/
theorem methodPath_of_empty (empty : interfacePath relative = "") :
    (methodPath path (interfacePath relative)).toList = withoutLeadingSlashes path.toList := by
  unfold methodPath
  rw [empty]
  exact String.toList_ofList

/-- The path of a method is what follows the path of its interface and a slash. -/
theorem methodPath_of_append (some : interfacePath relative ≠ "")
    (split : withoutLeadingSlashes path.toList = (interfacePath relative).toList ++ tail)
    (follows : Follows tail) :
    (methodPath path (interfacePath relative)).toList = tail.tail := by
  have isSome : (interfacePath relative).isEmpty = false := by
    simpa using some
  unfold methodPath
  rw [isSome, split]
  cases tail with
  | nil =>
    have longer : ((interfacePath relative).toList ++ ['/']).isPrefixOf
        ((interfacePath relative).toList ++ []) = false := by
      refine Bool.eq_false_iff.mpr fun isStart => ?_
      have short := (List.isPrefixOf_iff_prefix.mp isStart).length_le
      rw [List.length_append, List.append_nil] at short
      exact absurd short (Nat.not_succ_le_self _)
    simp only [longer]
    rfl
  | cons c more =>
    have start : ((interfacePath relative).toList ++ ['/']).isPrefixOf
        ((interfacePath relative).toList ++ c :: more) = true := by
      rw [follows c more rfl]
      exact List.isPrefixOf_iff_prefix.mpr ⟨more, by simp⟩
    simp only [start]
    rw [follows c more rfl]
    simp

theorem Follows.append {trailing : List Char} (slashes : ∀ c ∈ trailing, c = '/')
    (follows : Follows rest) : Follows (trailing ++ rest) := by
  intro c more same
  cases trailing with
  | nil => exact follows c more same
  | cons _ others =>
    cases same
    exact slashes c List.mem_cons_self

/-- **No segment of a path is lost** between an interface and its method. -/
theorem segments_methodPath (absolute : path.toList = relative.toList ++ rest)
    (follows : Follows rest) :
    segments (interfacePath relative) ++ segments (methodPath path (interfacePath relative)) =
      segments path := by
  unfold segments
  by_cases empty : interfacePath relative = ""
  · rw [methodPath_of_empty empty, segmentsOf_withoutLeadingSlashes, empty]
    rfl
  · obtain ⟨trailing, plain, slashes⟩ := exists_trailing_slashes relative
    have some : withoutLeadingSlashes relative.toList ≠ [] := by
      rw [plain]
      exact List.append_ne_nil_of_left_ne_nil (String.toList_eq_nil_iff.not.mpr empty) _
    have split : withoutLeadingSlashes path.toList =
        (interfacePath relative).toList ++ (trailing ++ rest) := by
      rw [absolute, withoutLeadingSlashes_append some, plain, List.append_assoc]
    have further := Follows.append slashes follows
    rw [methodPath_of_append empty split further,
      ← segmentsOf_withoutLeadingSlashes path.toList, split]
    cases tail : trailing ++ rest with
    | nil => simp [segmentsOf, Text.pieces]
    | cons c more =>
      rw [further c more tail, segmentsOf_append]
      rfl

/-- A relative path with no slash doubled at its start and none at its end. -/
structure Tidy (relative : String) : Prop where
  start : ¬ ['/', '/'] <+: relative.toList
  last : relative.toList.getLast? ≠ some '/'

/-- A relative path without doubled slashes is a slash and the path of its interface. -/
theorem Tidy.toList_eq (tidy : Tidy relative) (slash : relative.toList.head? = some '/') :
    relative.toList = '/' :: (interfacePath relative).toList ∧ interfacePath relative ≠ "" ∧
      withoutLeadingSlashes relative.toList = (interfacePath relative).toList := by
  obtain ⟨plain, isPlain⟩ := List.head?_eq_some_iff.mp slash
  have unchanged : withoutLeadingSlashes relative.toList = plain := by
    rw [isPlain, withoutLeadingSlashes_cons_slash]
    cases plain with
    | nil => rfl
    | cons c others =>
      refine withoutLeadingSlashes_cons_other (fun isSlash => tidy.start ?_) others
      rw [isPlain, isSlash]
      exact ⟨others, rfl⟩
  obtain ⟨trailing, split, slashes⟩ := exists_trailing_slashes relative
  -- a slash at the end of what is left would be at the end of the relative path
  have none : trailing = [] := by
    refine Classical.byContradiction fun some => tidy.last ?_
    have last := slashes _ (List.getLast_mem some)
    rw [isPlain, ← unchanged, split, ← List.cons_append, List.getLast?_append_of_ne_nil _ some,
      List.getLast?_eq_some_getLast some, last]
  rw [none, List.append_nil] at split
  have isPath : relative.toList = '/' :: (interfacePath relative).toList := by
    rw [isPlain, ← split, unchanged]
  refine ⟨isPath, fun empty => tidy.last ?_, split⟩
  rw [isPath, empty]
  rfl

/-- **No character of a path is lost** where no slash is doubled. -/
theorem join_methodPath (absolute : path.toList = relative.toList ++ rest) (tidy : Tidy relative)
    (slash : relative.toList.head? = some '/') (follows : Follows rest) (more : rest ≠ ['/']) :
    "/" ++ interfacePath relative ++ (if methodPath path (interfacePath relative) = "" then ""
      else "/" ++ methodPath path (interfacePath relative)) = path := by
  obtain ⟨isPath, some, plain⟩ := tidy.toList_eq slash
  have split : withoutLeadingSlashes path.toList = (interfacePath relative).toList ++ rest := by
    rw [absolute, withoutLeadingSlashes_append, plain]
    rw [plain]
    exact String.toList_eq_nil_iff.not.mpr some
  have below := methodPath_of_append some split follows
  apply String.toList_inj.mp
  rw [absolute, isPath]
  cases rest with
  | nil =>
    rw [if_pos (String.toList_eq_nil_iff.mp below)]
    simp
  | cons c others =>
    have isSlash := follows c others rfl
    rw [isSlash] at more
    rw [if_neg]
    · simp [below, isSlash]
    · intro empty
      rw [empty] at below
      exact more (congrArg _ below.symm)

/-! ### Ways through a tree -/

/-- An action with one more relative path at the start of the way to it. -/
def startWay (relative : String) (entry : List String × Raml.Action) : List String × Raml.Action :=
  (relative :: entry.1, entry.2)

/-- The actions of a resource and of all resources below it, each with the relative paths on the way
to it. -/
def waysFrom : Raml.Resource → List (List String × Raml.Action)
  | ⟨relativePath, _, _, _, _, actions, resources⟩ =>
    (actions.map (Prod.mk []) ++ waysFromAll resources).map (startWay relativePath)
where
  /-- The actions of resources one after the other. -/
  waysFromAll : List Raml.Resource → List (List String × Raml.Action)
    | [] => []
    | resource :: rest => waysFrom resource ++ waysFromAll rest

theorem waysFrom_eq (resource : Raml.Resource) :
    waysFrom resource = (resource.actions.map (Prod.mk []) ++
      waysFrom.waysFromAll resource.resources).map (startWay resource.relativePath) := by
  cases resource
  unfold waysFrom
  rfl

mutual

/-- There is a way to every action. -/
theorem map_waysFrom : (resource : Raml.Resource) →
    (waysFrom resource).map (·.2) = (actionsFrom resource).map (·.2)
  | ⟨relativePath, path, displayName, description, pathParameters, actions, resources⟩ => by
    unfold waysFrom actionsFrom
    have actionsOf : (·.2) ∘ startWay relativePath = (·.2) := rfl
    rw [List.map_map, actionsOf, List.map_append, List.map_append, map_waysFromAll resources,
      List.map_map, List.map_map]
    rfl

theorem map_waysFromAll : (resources : List Raml.Resource) →
    (waysFrom.waysFromAll resources).map (·.2) =
      (actionsFrom.actionsFromAll resources).map (·.2)
  | [] => rfl
  | resource :: rest => by
    unfold waysFrom.waysFromAll actionsFrom.actionsFromAll
    rw [List.map_append, List.map_append, map_waysFrom resource, map_waysFromAll rest]

end

/-- A way below a path to an action: the relative paths start with slashes, and they make up the
path of the action. -/
structure IsWay (parentPath : String) (entry : List String × Raml.Action) : Prop where
  absolute : entry.2.resourcePath = parentPath ++ String.join entry.1
  slashes : ∀ relative ∈ entry.1, relative.toList.head? = some '/'

/-- The methods of a resource are found under its path. -/
theorem resourcePath_of_extractActions {members : Entries} {actions : List Raml.Action}
    (extracted : Raml.extractActions path members = .ok actions) :
    ∀ action ∈ actions, action.resourcePath = path := by
  intro action member
  obtain ⟨⟨verb, child⟩, _, made⟩ := exists_of_mem_mapM extracted member
  exact (Raml.verb_of_extractAction made).2

/-- **The path of an action is what was declared on the way to it.** -/
theorem ways_followsExtraction : Raml.FollowsExtraction
    (fun parentPath relative _ resource => relative.toList.head? = some '/' →
      ∀ entry ∈ waysFrom resource, IsWay parentPath entry)
    (fun parentPath _ resources =>
      ∀ entry ∈ waysFrom.waysFromAll resources, IsWay parentPath entry) where
  bare := by
    rintro parentPath relative value ⟨⟩ - ⟨-, -, rfl, rfl⟩ - entry member
    exact absurd member List.not_mem_nil
  node := by
    intro parentPath relative members resource content deeper slash entry member
    rw [waysFrom_eq, content.relative] at member
    obtain ⟨below, isBelow, rfl⟩ := List.mem_map.mp member
    have way : IsWay resource.path below := by
      rcases List.mem_append.mp isBelow with here | further
      · obtain ⟨action, isAction, rfl⟩ := List.mem_map.mp here
        refine ⟨?_, fun _ member => absurd member List.not_mem_nil⟩
        rw [resourcePath_of_extractActions content.actions action isAction]
        simp
      · exact deeper below further
    refine ⟨?_, List.forall_mem_cons.mpr ⟨slash, way.slashes⟩⟩
    show below.2.resourcePath = parentPath ++ String.join (relative :: below.1)
    rw [way.absolute, content.path, String.join_cons, String.append_assoc]
  nil := fun _ member => absurd member List.not_mem_nil
  skip := fun _ later => later
  cons := by
    intro parentPath key relative child rest resource others named here later
    unfold waysFrom.waysFromAll
    exact List.forall_mem_append.mpr ⟨here (Raml.resourceKey?_eq_some_iff.mp named).2, later⟩

theorem mem_waysFromAll {resources : List Raml.Resource} {resource : Raml.Resource}
    {entry : List String × Raml.Action} (isResource : resource ∈ resources)
    (member : entry ∈ waysFrom resource) : entry ∈ waysFrom.waysFromAll resources := by
  induction resources with
  | nil => exact absurd isResource List.not_mem_nil
  | cons first rest ih =>
    unfold waysFrom.waysFromAll
    rcases List.mem_cons.mp isResource with rfl | later
    · exact List.mem_append_left _ member
    · exact List.mem_append_right _ (ih later)

/-- **The paths of the actions of a description are absolute.** -/
theorem ways_extractDescription {root : Entries} {description : Raml.Description}
    (extracted : Raml.extractDescription root = .ok description) :
    ∀ resource ∈ description.resources, ∀ entry ∈ waysFrom resource, IsWay "" entry := by
  intro resource isResource entry member
  obtain ⟨isResources, -⟩ := Raml.resources_of_extractDescription extracted
  exact ways_followsExtraction.of_resources root isResources entry
    (mem_waysFromAll isResource member)

/-- The way to an action of a resource starts with the relative path of the resource. -/
theorem exists_below_of_mem_waysFrom {resource : Raml.Resource}
    {entry : List String × Raml.Action} (member : entry ∈ waysFrom resource) :
    ∃ below, entry.1 = resource.relativePath :: below := by
  rw [waysFrom_eq] at member
  obtain ⟨below, _, rfl⟩ := List.mem_map.mp member
  exact ⟨below.1, rfl⟩

/-! ### The paths of a model -/

/-- An interface of the first path and its method of the second are bound to the path of an
action: together they have its segments, and its characters where no slash is doubled. -/
structure IsSplit (above below : String) (entry : List String × Raml.Action) : Prop where
  absolute : entry.2.resourcePath = String.join entry.1
  sameSegments : segments above ++ segments below = segments entry.2.resourcePath
  same : (∀ relative ∈ entry.1, Tidy relative) →
    "/" ++ above ++ (if below = "" then "" else "/" ++ below) = entry.2.resourcePath

/-- What was declared below a resource starts with a slash. -/
theorem follows_join {below : List String}
    (slashes : ∀ relative ∈ below, relative.toList.head? = some '/') :
    Follows (String.join below).toList := by
  intro c more same
  cases below with
  | nil => cases same
  | cons first others =>
    obtain ⟨plain, isPlain⟩ := List.head?_eq_some_iff.mp (slashes first List.mem_cons_self)
    rw [String.join_cons, String.toList_append, isPlain, List.cons_append] at same
    exact (List.cons.inj same).1.symm

/-- More than a slash is declared below a resource. -/
theorem join_ne_slash {below : List String}
    (slashes : ∀ relative ∈ below, relative.toList.head? = some '/')
    (tidy : ∀ relative ∈ below, Tidy relative) : (String.join below).toList ≠ ['/'] := by
  intro same
  cases below with
  | nil => cases same
  | cons first others =>
    obtain ⟨plain, isPlain⟩ := List.head?_eq_some_iff.mp (slashes first List.mem_cons_self)
    rw [String.join_cons, String.toList_append, isPlain, List.cons_append] at same
    have none : plain = [] := (List.append_eq_nil_iff.mp (List.cons.inj same).2).1
    refine (tidy first List.mem_cons_self).last ?_
    rw [isPlain, none]
    rfl

/-- **The path of an action is split between its interface and its method.** -/
theorem IsWay.isSplit {resource : Raml.Resource} {entry : List String × Raml.Action}
    (member : entry ∈ waysFrom resource) (way : IsWay "" entry) :
    IsSplit (interfacePath resource.relativePath)
      (methodPath entry.2.resourcePath (interfacePath resource.relativePath)) entry := by
  obtain ⟨below, isBelow⟩ := exists_below_of_mem_waysFrom member
  have absolute : entry.2.resourcePath = String.join entry.1 := by
    rw [way.absolute, String.empty_append]
  have split : entry.2.resourcePath.toList =
      resource.relativePath.toList ++ (String.join below).toList := by
    rw [absolute, isBelow, String.join_cons, String.toList_append]
  have slashes := way.slashes
  rw [isBelow, List.forall_mem_cons] at slashes
  refine ⟨absolute, segments_methodPath split (follows_join slashes.2), fun tidy => ?_⟩
  rw [isBelow, List.forall_mem_cons] at tidy
  exact join_methodPath split tidy.1 slashes.1 (follows_join slashes.2)
    (join_ne_slash slashes.2 tidy.2)

/-- The annotation is one for a path. -/
def isPathMark (mark : Annotation) : Bool := mark.type.qualifiedName == "javax.ws.rs.Path"

/-- Of the annotations, one is for a path, and it is the given one. -/
def BoundTo (path : String) (annotations : List Annotation) : Prop :=
  annotations.filter isPathMark = [pathMark path]

theorem boundTo_pathMark (path : String) : BoundTo path [pathMark path] := rfl

/-- No verb is annotated with a path. -/
theorem isPathMark_verbReference (base : String) (verb : Verb) :
    isPathMark ⟨verbReference base verb, []⟩ = false := by
  have declared (name : String) : TypePath.qualifiedName ⟨supportPackageOf base, name, []⟩ =
      supportPackageOf base ++ "." ++ name := by
    show TypePath.qualify (supportPackageOf base) name = _
    rw [TypePath.qualify, supportPackageOf_isEmpty]
    rfl
  refine beq_false_of_ne fun same => ?_
  have last := congrArg (·.toList.getLast?) same
  cases verb <;> simp [verbReference, platformVerbType?, TypeRef.qualifiedName, declared,
    Verb.name] at last

theorem boundTo_verb (base : String) (verb : Verb) (path : String) :
    BoundTo path [⟨verbReference base verb, []⟩, pathMark path] := by
  unfold BoundTo
  rw [List.filter_cons_of_neg]
  · rfl
  · rw [isPathMark_verbReference]
    exact Bool.false_ne_true

/-- Members that look alike one by one. -/
theorem forall₂_of_map_eq {α β γ : Type} {view : α → γ} {other : β → γ} {items : List α}
    {others : List β} (same : items.map view = others.map other) :
    List.Forall₂ (fun item another => (item ∈ items ∧ another ∈ others) ∧
      view item = other another) items others := by
  rw [← List.forall₂_eq_eq_eq, List.forall₂_map_left_iff, List.forall₂_map_right_iff,
    List.forall₂_iff_zip] at same
  exact List.forall₂_iff_zip.mpr ⟨same.1, fun pair => ⟨List.of_mem_zip pair, same.2 pair⟩⟩

/-- An enum has no methods. -/
theorem methods_of_mem_enumsOf (requests : List Request) :
    ∀ inner ∈ enumsOf requests, inner.methods = [] := by
  unfold enumsOf
  refine List.foldlRecOn (motive := fun nested => ∀ inner ∈ nested, TypeDecl.methods inner = [])
    requests askFor (fun _ member => absurd member List.not_mem_nil)
      fun nested plain request _ => ?_
  unfold askFor
  split
  · exact plain
  · exact List.forall_mem_append.mpr ⟨plain, List.forall_mem_singleton.mpr rfl⟩

/-- The methods of an interface are bound to the paths of the actions in the tree of its resource.
-/
theorem methods_isSplit {base : String} {resource : Raml.Resource} {decl : TypeDecl}
    (ways : ∀ entry ∈ waysFrom resource, IsWay "" entry)
    (outlined : outlineOf decl = interfaceOutline base resource) :
    List.Forall₂ (fun method entry => ∃ below, BoundTo below method.annotations ∧
      IsSplit (interfacePath resource.relativePath) below entry) decl.methods
      (waysFrom resource) := by
  let path := interfacePath resource.relativePath
  let annotationsFor (action : Raml.Action) : List Annotation :=
    [⟨verbReference base action.verb, []⟩, pathMark (methodPath action.resourcePath path)]
  have methods : decl.methods.map methodOutline =
      (actionsFrom resource).map (methodFor base path) := congrArg Outline.methods outlined
  have marks : decl.methods.map (·.annotations) =
      (waysFrom resource).map fun entry => annotationsFor entry.2 := by
    have marked := congrArg (List.map MethodOutline.annotations) methods
    rw [List.map_map, List.map_map] at marked
    have others := congrArg (List.map annotationsFor) (map_waysFrom resource)
    rw [List.map_map, List.map_map] at others
    exact marked.trans others.symm
  refine (forall₂_of_map_eq marks).imp fun method entry alike => ?_
  refine ⟨methodPath entry.2.resourcePath path, ?_, (ways entry alike.1.2).isSplit alike.1.2⟩
  rw [alike.2]
  exact boundTo_verb base entry.2.verb _

/-- **An interface and its methods are bound to the paths of their actions.**  The segments of the
path of an action are those of its interface and its method together, and where no relative path on
the way to it starts with two slashes or ends with one, it is these two joined by slashes.  No other
type has a method. -/
theorem buildModel_paths {configuration : Configuration} {root : Entries}
    {description : Raml.Description} {session : Session}
    (extracted : Raml.extractDescription root = .ok description)
    (built : buildModel configuration description = .ok session) :
    List.Forall₂ (fun unit resource => ∃ above, BoundTo above unit.type.annotations ∧
        List.Forall₂ (fun method entry => ∃ below, BoundTo below method.annotations ∧
          IsSplit above below entry) unit.type.methods (waysFrom resource))
      (session.model.units.filter (·.type.kind == .interface)) description.resources ∧
    ∀ unit ∈ session.model.units, (unit.type.kind ≠ .interface → unit.type.methods = []) ∧
      (unit.type.kind = .interface → ∀ inner ∈ unit.type.nested, inner.methods = []) := by
  have reached := buildModel_reached built
  have interfaces := reached.outlined.filter_interface
  have outlines := reached.outlined.interfaces
  rw [← interfaces] at outlines
  refine ⟨(forall₂_of_map_eq outlines).imp fun unit resource alike => ?_, fun unit member => ?_⟩
  · refine ⟨interfacePath resource.relativePath, ?_, ?_⟩
    · have marks : unit.type.annotations = [pathMark (interfacePath resource.relativePath)] :=
        congrArg Outline.annotations alike.2
      rw [marks]
      exact boundTo_pathMark _
    · exact methods_isSplit (ways_extractDescription extracted resource alike.1.2) alike.2
  · refine ⟨fun other => ?_, fun isInterface inner isInner => ?_⟩
    · rcases (reached.outlined.units unit member).role with ⟨_, kind⟩ | ⟨_, _, empty⟩
      · exact absurd kind other
      · exact empty
    · have isOutline : outlineOf unit.type ∈
          description.resources.map (interfaceOutline configuration.basePackage) := by
        rw [← outlines]
        refine List.mem_map_of_mem (f := (outlineOf ·.type)) (List.mem_filter.mpr ⟨member, ?_⟩)
        exact beq_iff_eq.mpr isInterface
      obtain ⟨resource, _, same⟩ := List.mem_map.mp isOutline
      have nested : unit.type.nested = enumsOf (requestsFrom (actionsFrom resource)) :=
        congrArg Outline.nested same.symm
      rw [nested] at isInner
      exact methods_of_mem_enumsOf _ inner isInner

/-- A document with a resource for its pages, one below for each page, and one for its root. -/
def pages : Entries :=
  [(.text "title", .text "t"),
    (.text "/pages", .map [
      (.text "get", .null),
      (.text "/{id}/text", .map [(.text "get", .null), (.text "put", .null)])]),
    (.text "/", .map [(.text "/about//us/", .map [(.text "get", .null)])])]

theorem paths_pages : ∃ description session,
    Raml.extractDescription pages = .ok description ∧
    buildModel { basePackage := "api" } description = .ok session ∧
    (List.Forall₂ (fun unit resource => ∃ above, BoundTo above unit.type.annotations ∧
        List.Forall₂ (fun method entry => ∃ below, BoundTo below method.annotations ∧
          IsSplit above below entry) unit.type.methods (waysFrom resource))
      (session.model.units.filter (·.type.kind == .interface)) description.resources ∧
    ∀ unit ∈ session.model.units, (unit.type.kind ≠ .interface → unit.type.methods = []) ∧
      (unit.type.kind = .interface → ∀ inner ∈ unit.type.nested, inner.methods = [])) ∧
    (description.resources.flatMap waysFrom).map (fun entry => (entry.1, entry.2.resourcePath)) =
      [(["/pages"], "/pages"),
        (["/pages", "/{id}/text"], "/pages/{id}/text"),
        (["/pages", "/{id}/text"], "/pages/{id}/text"),
        (["/", "/about//us/"], "//about//us/")] := by
  have ways : ((Raml.extractDescription pages).toOption.bind fun description =>
      (buildModel { basePackage := "api" } description).toOption.map fun _ =>
        (description.resources.flatMap waysFrom).map fun entry =>
          (entry.1, entry.2.resourcePath)) =
      some [(["/pages"], "/pages"),
        (["/pages", "/{id}/text"], "/pages/{id}/text"),
        (["/pages", "/{id}/text"], "/pages/{id}/text"),
        (["/", "/about//us/"], "//about//us/")] := by
    decide +kernel
  obtain ⟨description, isDescription, ways⟩ := Option.bind_eq_some_iff.mp ways
  obtain ⟨session, isSession, ways⟩ := Option.map_eq_some_iff.mp ways
  have extracted := toOption_eq_some_iff.mp isDescription
  have built := toOption_eq_some_iff.mp isSession
  exact ⟨description, session, extracted, built, buildModel_paths extracted built, ways⟩

end RamlInterfaces.Generation
