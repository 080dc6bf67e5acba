/-
**Values of a document.**

A value is a scalar, a list of values, a mapping from scalars to values, a set of scalars, or a pair
as an ordered mapping has them for its items.  A mapping keeps its entries in the order in which
their keys first came; a key that comes again replaces the value and keeps the place.

* `Value`, `Entries`: the values, and the entries of a mapping;
* `Value.ofMembers`: the set of written scalars;
* `Entries.find?`, `Entries.get`, `Entries.put`: looking up and setting an entry;
* `Entries.ofList`: the entries of a written sequence;
* `Value.alike`: equality of values, blind to the order of mappings;
* `Value.isEmptyLike`: nothing, false, zero, an empty text or an empty collection.
-/

import RamlInterfaces.Value.Scalar

namespace RamlInterfaces

/-- A value of a document. -/
inductive Value where
  | scalar (value : Scalar)
  | list (items : List Value)
  | map (entries : List (Scalar × Value))
  | set (members : List Scalar)
  | pair (key value : Value)
deriving Repr

/-- The entries of a mapping, in order. -/
abbrev Entries := List (Scalar × Value)

namespace Value

/-- The value that is nothing. -/
abbrev null : Value := .scalar .null

/-- The value that is a text. -/
abbrev text (s : String) : Value := .scalar (.text s)

instance : Inhabited Value := ⟨null⟩

/-- The value is nothing. -/
def isNull : Value → Bool
  | .scalar .null => true
  | _ => false

theorem isNull_iff {value : Value} : value.isNull = true ↔ value = .scalar .null := by
  constructor
  · intro nothing
    unfold isNull at nothing
    split at nothing
    · rfl
    · cases nothing
  · rintro rfl
    rfl

/-- The value is a mapping. -/
def isMap : Value → Bool
  | .map _ => true
  | _ => false

/-- The value is a list. -/
def isList : Value → Bool
  | .list _ => true
  | _ => false

/-- The value counts as a scalar: it is neither a list nor a mapping. -/
def isScalar : Value → Bool
  | .list _ | .map _ | .scalar (.enclosing _) => false
  | _ => true

/-- The entries of a mapping. -/
def entries? : Value → Option Entries
  | .map entries => some entries
  | _ => none

/-- The text of a value that is a string. -/
def string? : Value → Option String
  | .scalar s => s.string?
  | _ => none

/-- The text that a string or bytes spell out, or that there is none because the bytes are not
UTF-8; other values spell nothing. -/
def spelling? : Value → Option (Option String)
  | .scalar (.bytes bytes) => some (String.fromUTF8? (ByteArray.mk bytes.toArray))
  | other => other.string?.map some

/-- The value holds a mark of a collection that holds itself, so that it has no end. -/
def isEndless : Value → Bool
  | .scalar (.enclosing _) => true
  | .scalar _ | .set _ => false
  | .list items => someEndless items
  | .map entries => someEndlessEntry entries
  | .pair key value => isEndless key || isEndless value
where
  /-- One of the values has no end. -/
  someEndless : List Value → Bool
    | [] => false
    | item :: rest => isEndless item || someEndless rest
  /-- One of the entries has no end. -/
  someEndlessEntry : List (Scalar × Value) → Bool
    | [] => false
    | entry :: rest => isEndless entry.2 || someEndlessEntry rest

/-- The value is made of scalars, save bytes, by lists, mappings and pairs that do not hold
themselves. -/
def isPlain : Value → Bool
  | .scalar s => s.isPlain
  | .list items => allPlain items
  | .map entries => allPlainEntries entries
  | .set _ => false
  | .pair key value => isPlain key && isPlain value
where
  /-- All of the values are plain. -/
  allPlain : List Value → Bool
    | [] => true
    | item :: rest => isPlain item && allPlain rest
  /-- All of the entries are plain. -/
  allPlainEntries : List (Scalar × Value) → Bool
    | [] => true
    | entry :: rest => entry.1.isPlain && isPlain entry.2 && allPlainEntries rest

/-- A value that counts as absent where content is expected: nothing, false, zero, an empty text,
no bytes, an empty list, an empty mapping or an empty set. -/
def isEmptyLike : Value → Bool
  | .scalar .null => true
  | .scalar (.bool value) => !value
  | .scalar (.int value) => value == 0
  | .scalar (.float value) => value.isZero
  | .scalar (.text value) => value.isEmpty
  | .scalar (.included target) => target.isEmpty
  | .scalar (.bytes value) => value.isEmpty
  | .scalar _ => false
  | .list items => items.isEmpty
  | .map entries => entries.isEmpty
  | .set members => members.isEmpty
  | .pair _ _ => false

/-- The set of the given scalars.  Whole numbers stand in ascending order, and members among which
there are others as they were written. -/
def ofMembers (written : List Scalar) : Value :=
  match written.mapM fun member => member.whole?.map fun n => (n, member) with
  | some counted => .set ((counted.mergeSort fun a b => a.1 ≤ b.1).map (·.2))
  | none => .set written

end Value

namespace Entries

/-- The value under a key, if the key is there. -/
def find? : Entries → Scalar → Option Value
  | [], _ => none
  | (key, value) :: rest, wanted => if key.alike wanted then some value else find? rest wanted

/-- The value under a text key, nothing if it is not there. -/
def get (entries : Entries) (key : String) : Value := (find? entries (.text key)).getD .null

/-- The key is among the entries. -/
def has (entries : Entries) (key : Scalar) : Bool := (find? entries key).isSome

/-- The entries with a value under a key: in the place of the key if it is there, else at the
end. -/
def put : Entries → Scalar → Value → Entries
  | [], key, value => [(key, value)]
  | (first, old) :: rest, key, value =>
    if first.alike key then (first, value) :: rest else (first, old) :: put rest key value

/-- The entries with further entries put in one after the other. -/
def putAll (entries further : Entries) : Entries :=
  further.foldl (fun sofar entry => put sofar entry.1 entry.2) entries

/-- The entries of a written sequence in which a key may come more than once; the number that is
none is a key of its own each time. -/
def ofList (written : List (Scalar × Value)) : Entries :=
  written.foldl (fun sofar entry =>
    if entry.1.isNan then sofar ++ [entry] else put sofar entry.1 entry.2) []


/-- The entries without those under a key. -/
def erase (entries : Entries) (key : Scalar) : Entries :=
  entries.filter fun entry => !entry.1.alike key

@[simp] theorem find?_put_self (entries : Entries) (key : Scalar) (value : Value) :
    find? (put entries key value) key = some value := by
  induction entries with
  | nil => simp [put, find?]
  | cons entry rest ih =>
    obtain ⟨first, old⟩ := entry
    by_cases same : first.alike key = true <;> simp [put, find?, same, ih]

/-- A value that is found stands in an entry with an alike key. -/
theorem exists_of_find? {entries : Entries} {key : Scalar} {value : Value}
    (found : find? entries key = some value) :
    ∃ entry ∈ entries, entry.1.alike key = true ∧ entry.2 = value := by
  induction entries with
  | nil => cases found
  | cons entry rest ih =>
    unfold find? at found
    split at found
    · exact ⟨entry, List.mem_cons_self, by assumption, by simpa using found⟩
    · obtain ⟨other, member, same⟩ := ih found
      exact ⟨other, List.mem_cons_of_mem _ member, same⟩

end Entries

namespace Value

/-- Two values are alike when they are alike scalars, lists of alike values in the same order, or
mappings with alike values under alike keys in any order, sets with alike members, or pairs of alike
values. -/
def alike : Value → Value → Bool
  | .scalar a, .scalar b => a.alike b
  | .list items, .list others => alikeLists items others
  | .map entries, .map others => entries.length == others.length && alikeEntries entries others
  | .set members, .set others =>
    members.length == others.length &&
      members.all fun member => others.any fun other => other.alike member
  | .pair key value, .pair other another => alike key other && alike value another
  | _, _ => false
where
  /-- Lists that are alike place by place. -/
  alikeLists : List Value → List Value → Bool
    | [], [] => true
    | first :: rest, other :: others => alike first other && alikeLists rest others
    | _, _ => false
  /-- Every entry has an alike one among the others. -/
  alikeEntries : List (Scalar × Value) → List (Scalar × Value) → Bool
    | [], _ => true
    | (key, value) :: rest, others =>
      (match Entries.find? others key with
        | some other => alike value other
        | none => false) && alikeEntries rest others

/-- The value is alike one of the list. -/
def isAmong (value : Value) (values : List Value) : Bool :=
  values.any fun other => other.alike value

end Value

end RamlInterfaces
