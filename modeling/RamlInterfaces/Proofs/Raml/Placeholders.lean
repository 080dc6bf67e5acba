/-
**The placeholders of a path.**

A relative path names parameters between braces.  These are found in one pass over its characters,
which starts again at every opening brace, so that braces may be repeated, nested, empty or left
open.

* `leadingPlaceholder?`, `pathPlaceholders`: the placeholders of a path, read off the texts that
  start at each of its characters;
* `placeholderNames_eq`: **one pass finds the placeholders**;
* `uriNames`: the names that a resource declares for its path;
* `keys_extractParameters`: **declared parameters are named as they are declared, each once**;
* `withImplicit_eq`: **a name that is not declared has an implicit parameter**;
* `keys_withImplicit`: the names of the declared parameters, and then those of the implicit ones.
-/

import Mathlib.Data.List.Induction
import Mathlib.Data.List.Nodup
import RamlInterfaces.Proofs.Except
import RamlInterfaces.Raml.Extraction

namespace RamlInterfaces.Raml

/-! ### Placeholders -/

/-- The character is a brace. -/
def isBrace (c : Char) : Bool := c == '\x7b' || c == '\x7d'

/-- The name that ends with the first brace of a text after what was read of it, if that brace
closes and the name is not empty. -/
def closedName? (read rest : List Char) : Option String :=
  let name := read ++ rest.takeWhile (!isBrace ·)
  if name ≠ [] ∧ (rest.dropWhile (!isBrace ·)).head? = some '\x7d' then
    some (String.ofList name) else none

/-- The name of the placeholder that a text starts with. -/
def leadingPlaceholder? : List Char → Option String
  | [] => none
  | c :: rest => if c = '\x7b' then closedName? [] rest else none

/-- The names of the placeholders of a path, in order. -/
def pathPlaceholders (path : String) : List String :=
  path.toList.tails.filterMap leadingPlaceholder?

theorem closedName?_open (read rest : List Char) : closedName? read ('\x7b' :: rest) = none := by
  unfold closedName?
  rw [List.dropWhile_cons_of_neg (by decide)]
  exact if_neg fun closed => by cases closed.2

theorem closedName?_close (read rest : List Char) : closedName? read ('\x7d' :: rest) =
    if read = [] then none else some (String.ofList read) := by
  unfold closedName?
  rw [List.dropWhile_cons_of_neg (by decide), List.takeWhile_cons_of_neg (by decide)]
  simp

theorem closedName?_other {c : Char} (other : isBrace c = false) (read rest : List Char) :
    closedName? read (c :: rest) = closedName? (read ++ [c]) rest := by
  have dropped : (c :: rest).dropWhile (!isBrace ·) = rest.dropWhile (!isBrace ·) :=
    List.dropWhile_cons_of_pos (by simp [other])
  have taken : (c :: rest).takeWhile (!isBrace ·) = c :: rest.takeWhile (!isBrace ·) :=
    List.takeWhile_cons_of_pos (by simp [other])
  unfold closedName?
  rw [dropped, taken, List.append_assoc]
  rfl

/-- **The names that a pass finds** are the one that it is in and those of later placeholders. -/
theorem namesInBraces_eq (open? : Option (List Char)) (rest : List Char) :
    namesInBraces open? rest =
      (open?.bind fun read => closedName? read.reverse rest).toList ++
        rest.tails.filterMap leadingPlaceholder? := by
  induction rest generalizing open? with
  | nil =>
    have unclosed (read : List Char) : closedName? read [] = none :=
      if_neg fun closed => by cases closed.2
    cases open? <;> simp [namesInBraces, leadingPlaceholder?, unclosed]
  | cons c rest ih =>
    have later : (c :: rest).tails = (c :: rest) :: rest.tails := by simp
    rw [later, List.filterMap_cons]
    unfold namesInBraces
    by_cases opens : c = '\x7b'
    · -- whatever was read is given up
      have none : (open?.bind fun read => closedName? read.reverse (c :: rest)) = none := by
        rw [opens]
        cases open? with
        | none => rfl
        | some read => exact closedName?_open read.reverse rest
      have starts : leadingPlaceholder? (c :: rest) = closedName? [] rest := if_pos opens
      rw [none, if_pos opens, ih, starts]
      cases found : closedName? [] rest <;> simp [found]
    · have starts : leadingPlaceholder? (c :: rest) = none := if_neg opens
      rw [if_neg opens, starts]
      by_cases closes : c = '\x7d'
      · rw [if_pos closes, closes]
        cases open? with
        | none => exact ih none
        | some read =>
          cases read with
          | nil => exact ih none
          | cons last others =>
            have found : closedName? (last :: others).reverse ('\x7d' :: rest) =
                some (String.ofList (last :: others).reverse) := by
              rw [closedName?_close, if_neg (by simp)]
            rw [Option.bind_some, found]
            exact congrArg (_ :: ·) (ih none)
      · have other : isBrace c = false := by simp [isBrace, opens, closes]
        rw [if_neg closes, ih]
        cases open? with
        | none => rfl
        | some read =>
          rw [Option.map_some, Option.bind_some, Option.bind_some, List.reverse_cons,
            closedName?_other other]

/-- **One pass finds the placeholders of a path.** -/
theorem placeholderNames_eq (path : String) : placeholderNames path = pathPlaceholders path :=
  (namesInBraces_eq none path.toList).trans (List.nil_append _)

example : pathPlaceholders "/\x7ba\x7b\x7bb\x7d\x7d/\x7b\x7d\x7bc\x7d" = ["b", "c"] := by
  decide +kernel

/-! ### Declared parameters -/

/-- Names in the order in which they first come, when another comes. -/
theorem eraseDups_concat (names : List String) (name : String) : (names ++ [name]).eraseDups =
    if name ∈ names then names.eraseDups else names.eraseDups ++ [name] := by
  have single : [name].eraseDups = [name] := rfl
  rw [List.eraseDups_append]
  by_cases known : name ∈ names <;> simp [List.removeAll, known, single]

theorem nodup_eraseDups (names : List String) : names.eraseDups.Nodup := by
  induction names using List.reverseRecOn with
  | nil => exact List.nodup_nil
  | append_singleton names name ih =>
    rw [eraseDups_concat]
    split
    · exact ih
    · rename_i new
      rw [← List.concat_eq_append]
      exact List.Nodup.concat (mt List.mem_eraseDups.mp new) ih

theorem keys_putParameter (parameters : Parameters) (name : String) (parameter : Parameter) :
    (putParameter parameters name parameter).map (·.1) =
      if name ∈ parameters.map (·.1) then parameters.map (·.1)
      else parameters.map (·.1) ++ [name] := by
  induction parameters with
  | nil => rfl
  | cons first rest ih =>
    obtain ⟨key, old⟩ := first
    unfold putParameter
    by_cases same : key = name
    · simp [same]
    · have other : name ≠ key := Ne.symm same
      rw [if_neg same, List.map_cons, ih, List.map_cons]
      by_cases known : name ∈ rest.map (·.1)
      · rw [if_pos known, if_pos (List.mem_cons_of_mem _ known)]
      · rw [if_neg known, if_neg (List.not_mem_cons_of_ne_of_not_mem other known)]
        rfl

/-- The names of the entries of a mapping: the texts of its keys.  Anything else has none. -/
def entryNames : Value → List String
  | .map entries => entries.filterMap (·.1.toText?)
  | _ => []

theorem mappingEntries_names {value : Value} {entries : Entries}
    (found : mappingEntries value = .ok entries) :
    entries.filterMap (·.1.toText?) = entryNames value := by
  unfold mappingEntries at found
  split at found
  · rename_i empty
    cases found
    cases value with
    | map entries => rw [List.isEmpty_iff.mp empty]; rfl
    | _ => rfl
  · split at found
    · cases found
      rfl
    · cases found

/-- **Parameters are named as they are declared**, in order and each name once. -/
theorem keys_extractParameters {requiredDefault : Bool} {value : Value} {parameters : Parameters}
    (extracted : extractParameters requiredDefault value = .ok parameters) :
    parameters.map (·.1) = (entryNames value).eraseDups := by
  unfold extractParameters at extracted
  obtain ⟨entries, found, extracted⟩ := bind_eq_ok_iff.mp extracted
  rw [← mappingEntries_names found]
  -- what was declared before the entries that are left
  have later (left earlier : Entries) (before after : Parameters)
      (keys : before.map (·.1) = (earlier.filterMap (·.1.toText?)).eraseDups)
      (walk : left.foldlM (fun parameters (entry : Scalar × Value) => do
        let name ← written entry.1.toText?
        let parameter ← extractParameter requiredDefault entry.2
        pure (putParameter parameters name parameter)) before = .ok after) :
      after.map (·.1) = ((earlier ++ left).filterMap (·.1.toText?)).eraseDups := by
    induction left generalizing earlier before with
    | nil =>
      cases walk
      rw [List.append_nil, keys]
    | cons entry rest ih =>
      rw [List.foldlM_cons] at walk
      obtain ⟨middle, step, walk⟩ := bind_eq_ok_iff.mp walk
      obtain ⟨name, named, step⟩ := bind_eq_ok_iff.mp step
      obtain ⟨parameter, _, step⟩ := bind_eq_ok_iff.mp step
      cases step
      rw [List.append_cons]
      refine ih (earlier ++ [entry]) _ ?_ walk
      rw [keys_putParameter, List.filterMap_append, List.filterMap_cons, written_eq_ok_iff.mp named,
        List.filterMap_nil, eraseDups_concat, keys]
      simp only [List.mem_eraseDups]
  exact later entries [] [] parameters rfl extracted

/-! ### Implicit parameters -/

/-- An implicit parameter: required, and of no declared type. -/
def implicitEntry (name : String) : String × Parameter := (name, { required := true })

/-- **The names that are not declared have implicit parameters**, in order and each one once. -/
theorem withImplicit_eq (parameters : Parameters) (names : List String) :
    withImplicit parameters names = parameters ++
      (names.removeAll (parameters.map (·.1))).eraseDups.map implicitEntry := by
  induction names generalizing parameters with
  | nil => simp [withImplicit, List.removeAll]
  | cons name rest ih =>
    unfold withImplicit at ih ⊢
    rw [List.foldl_cons, ih]
    by_cases known : name ∈ parameters.map (·.1)
    · have found : (parameters.any fun entry => entry.1 == name) = true := by
        simpa [List.any_eq_true] using known
      have left : (name :: rest).removeAll (parameters.map (·.1)) =
          rest.removeAll (parameters.map (·.1)) := List.filter_cons_of_neg (by simpa using known)
      rw [if_pos found, left]
    · have missing : ¬ (parameters.any fun entry => entry.1 == name) = true := by
        simpa [List.any_eq_true] using known
      have taken : (name :: rest).removeAll (parameters.map (·.1)) =
          name :: rest.removeAll (parameters.map (·.1)) :=
        List.filter_cons_of_pos (by simpa using known)
      have others : rest.removeAll ((parameters ++ [implicitEntry name]).map (·.1)) =
          (rest.removeAll (parameters.map (·.1))).filter (fun other => !other == name) := by
        have keys : (parameters ++ [implicitEntry name]).map (·.1) =
            parameters.map (·.1) ++ [name] := List.map_append
        rw [keys, List.removeAll, List.removeAll, List.filter_filter]
        refine List.filter_congr fun other _ => ?_
        rw [List.elem_eq_mem, List.elem_eq_mem, ← Bool.not_or]
        simp only [List.mem_append, List.mem_singleton, Bool.decide_or, Bool.or_comm]
        rfl
      have added : ∀ others : List (String × Parameter),
          parameters ++ [(name, { required := true })] ++ others =
            parameters ++ implicitEntry name :: others := fun others => List.append_assoc _ _ _
      rw [if_neg missing, added, taken, List.eraseDups_cons, List.map_cons, ← others]
      rfl

/-- The names that a resource with the given members declares for its path. -/
def uriNames (members : Entries) : List String := entryNames (members.get "uriParameters")

/-- The names that are bound in a path: those declared for it, then those of its other
placeholders. -/
def boundNames (declared : List String) (path : String) : List String :=
  declared.eraseDups ++ ((pathPlaceholders path).removeAll declared).eraseDups

/-- The names of the parameters of a path. -/
theorem keys_withImplicit {parameters : Parameters} {declared : List String}
    (keys : parameters.map (·.1) = declared.eraseDups) (path : String) :
    (withImplicit parameters (placeholderNames path)).map (·.1) = boundNames declared path := by
  have plain : (·.1) ∘ implicitEntry = id := rfl
  have others : (pathPlaceholders path).removeAll declared.eraseDups =
      (pathPlaceholders path).removeAll declared := by
    unfold List.removeAll
    refine List.filter_congr fun name _ => ?_
    simp
  rw [withImplicit_eq, List.map_append, List.map_map, plain, List.map_id, keys,
    placeholderNames_eq, others]
  rfl

/-- A bound name is bound once. -/
theorem nodup_boundNames (declared : List String) (path : String) :
    (boundNames declared path).Nodup := by
  have whole : boundNames declared path = (declared ++ pathPlaceholders path).eraseDups :=
    List.eraseDups_append.symm
  rw [whole]
  exact nodup_eraseDups _

/-- Every placeholder is bound. -/
theorem mem_boundNames {declared : List String} {path name : String}
    (member : name ∈ pathPlaceholders path) : name ∈ boundNames declared path := by
  unfold boundNames
  rw [List.mem_append, List.mem_eraseDups, List.mem_eraseDups]
  by_cases known : name ∈ declared
  · exact .inl known
  · exact .inr (List.mem_filter.mpr ⟨member, by simpa using known⟩)

/-- A placeholder that is not declared has its implicit parameter. -/
theorem implicitEntry_mem {parameters : Parameters} {declared : List String}
    (keys : parameters.map (·.1) = declared.eraseDups) {path name : String}
    (member : name ∈ pathPlaceholders path) (undeclared : name ∉ declared) :
    implicitEntry name ∈ withImplicit parameters (placeholderNames path) := by
  rw [withImplicit_eq, placeholderNames_eq]
  refine List.mem_append_right _ (List.mem_map_of_mem (List.mem_eraseDups.mpr ?_))
  refine List.mem_filter.mpr ⟨member, ?_⟩
  simpa [keys] using undeclared

end RamlInterfaces.Raml
