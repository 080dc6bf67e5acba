/-
**The grammar of documents.**

The documents without problems are those of a grammar.  A node is the value of a symbol, and what a
member of a mapping may be follows from its key.

* `Symbol`, `Derives`: the symbols, and the values of each;
* `Member`, `Member.unique`: the symbol of a member of a mapping, which its key determines;
* `facetProblems_eq_nil_iff`, `parameterProblems_eq_nil_iff`, `parametersProblems_eq_nil_iff`:
  **named parameters without problems**.
-/

import Mathlib.Data.List.Nodup
import RamlInterfaces.Proofs.Raml.Validated

namespace RamlInterfaces.Raml

/-! ### Symbols -/

/-- What a node of a document is. -/
inductive Symbol where
  | anything
  | scalar
  | text
  | flag
  | length
  | number
  | choices
  | parameter
  | parameters
  | reference (kind : TemplateKind)
  | traits
  | method
  | resource
deriving DecidableEq

/-- The node is a mapping, or left out. -/
def Symbol.isMapping : Symbol → Bool
  | .parameter | .parameters | .method | .resource => true
  | _ => false

/-- The members of a mapping that have names of their own. -/
def Symbol.members : Symbol → List (String × Symbol)
  | .parameter =>
    [("displayName", .scalar), ("description", .scalar), ("type", .text), ("enum", .choices),
      ("pattern", .text), ("minLength", .length), ("maxLength", .length), ("minimum", .number),
      ("maximum", .number), ("example", .scalar), ("repeat", .flag), ("required", .flag),
      ("default", .scalar)]
  | .method =>
    [("description", .scalar), ("headers", .parameters), ("queryParameters", .parameters),
      ("body", .anything), ("responses", .anything), ("protocols", .anything), ("is", .traits),
      ("securedBy", .anything), ("baseUriParameters", .parameters)]
  | .resource =>
    [("displayName", .scalar), ("description", .scalar), ("uriParameters", .parameters),
      ("baseUriParameters", .parameters), ("type", .reference .resourceType), ("is", .traits),
      ("securedBy", .anything)]
  | _ => []

/-- The member of a mapping with a key is a node of a symbol; `names` are the keys that named
parameters may have. -/
inductive Member (names : Scalar → Prop) : Symbol → Scalar → Symbol → Prop
  | listed {symbol inner : Symbol} {key : Scalar} {name : String} (named : key.string? = some name)
    (isListed : (name, inner) ∈ symbol.members) : Member names symbol key inner
  | parameter {key : Scalar} (named : names key) : Member names .parameters key .parameter
  | verb {key : Scalar} {verb : Verb} (named : key.string? = some verb.word) :
    Member names .resource key .method
  | path {key : Scalar} {name : String} (named : key.string? = some name)
    (slash : name.toList.head? = some '/') : Member names .resource key .resource

/-- The value is one of a symbol, in a document with the given templates. -/
inductive Derives (names : Scalar → Prop) (templates : Templates) : Symbol → Value → Prop
  | anything {value : Value} : Derives names templates .anything value
  | scalar {value : Value} (isScalar : value.isScalar = true) :
    Derives names templates .scalar value
  | text {value : Value} {text : String} (isText : value.string? = some text) :
    Derives names templates .text value
  | flag {value : Bool} : Derives names templates .flag (.scalar (.bool value))
  | length {n : Nat} : Derives names templates .length (.scalar (.int n))
  | whole {n : Int} : Derives names templates .number (.scalar (.int n))
  | float {x : Binary64} : Derives names templates .number (.scalar (.float x))
  | choices {items : List Value} (nonempty : items ≠ [])
    (each : ∀ item ∈ items, item.isScalar = true ∧ item.isNull = false) :
    Derives names templates .choices (.list items)
  | name {kind : TemplateKind} {value : Value} {name : String} (named : value.string? = some name)
    (declared : (templates.ofKind kind).has (.text name) = true) :
    Derives names templates (.reference kind) value
  | application {kind : TemplateKind} {key : Scalar} {name : String} {arguments : Value}
    (fits : (arguments.isNull || arguments.isMap) = true) (named : key.toText? = some name)
    (declared : (templates.ofKind kind).has (.text name) = true) :
    Derives names templates (.reference kind) (.map [(key, arguments)])
  | trait {value : Value} (one : Derives names templates (.reference .trait) value) :
    Derives names templates .traits value
  | traits {items : List Value}
    (each : ∀ item ∈ items, Derives names templates (.reference .trait) item) :
    Derives names templates .traits (.list items)
  | nothing {symbol : Symbol} (isMapping : symbol.isMapping = true) :
    Derives names templates symbol .null
  | mapping {symbol : Symbol} {entries : Entries} (isMapping : symbol.isMapping = true)
    (known : ∀ entry ∈ entries, ∃ inner, Member names symbol entry.1 inner)
    (each : ∀ entry ∈ entries, ∀ inner, Member names symbol entry.1 inner →
      Derives names templates inner entry.2) : Derives names templates symbol (.map entries)
  | alternatives {items : List Value}
    (each : ∀ item ∈ items, Derives names templates .parameter item) :
    Derives names templates .parameter (.list items)

variable {names : Scalar → Prop} {templates : Templates} {symbol inner : Symbol} {key : Scalar}
  {value : Value} {path : String}

/-! ### Members -/

/-- A name is listed once. -/
theorem symbol_eq_of_listed {name : String} {other : Symbol}
    (first : (name, inner) ∈ symbol.members) (second : (name, other) ∈ symbol.members) :
    inner = other := by
  have distinct : (symbol.members.map Prod.fst).Nodup := by
    cases symbol with
    | reference kind => exact List.nodup_nil
    | _ => decide
  exact congrArg Prod.snd (List.inj_on_of_nodup_map distinct first second rfl)

/-- The members of a resource with names of their own are neither methods nor resources. -/
theorem isOther_of_listed : ∀ entry ∈ Symbol.resource.members,
    Verb.ofWord? entry.1 = none ∧ entry.1.toList.head? ≠ some '/' := by
  decide

theorem head?_word (verb : Verb) : verb.word.toList.head? ≠ some '/' := by
  cases verb <;> decide

/-- **A key determines the symbol of its member.** -/
theorem Member.unique {other : Symbol} (first : Member names symbol key inner)
    (second : Member names symbol key other) : inner = other := by
  have same {name another : String} (named : key.string? = some name)
      (isNamed : key.string? = some another) : name = another :=
    Option.some.inj (named.symm.trans isNamed)
  have noVerb {name : String} {verb : Verb} {symbol : Symbol} (named : key.string? = some name)
      (isVerb : key.string? = some verb.word)
      (isListed : (name, symbol) ∈ Symbol.resource.members) : False := by
    obtain rfl := same named isVerb
    cases (Verb.ofWord?_word verb).symm.trans (isOther_of_listed _ isListed).1
  have noPath {name another : String} {symbol : Symbol} (named : key.string? = some name)
      (isPath : key.string? = some another) (slash : another.toList.head? = some '/')
      (isListed : (name, symbol) ∈ Symbol.resource.members) : False := by
    obtain rfl := same named isPath
    exact (isOther_of_listed _ isListed).2 slash
  cases first with
  | listed named isListed =>
    cases second with
    | listed isNamed alsoListed =>
      obtain rfl := same named isNamed
      exact symbol_eq_of_listed isListed alsoListed
    | parameter => cases isListed
    | verb isVerb => exact (noVerb named isVerb isListed).elim
    | path isPath slash => exact (noPath named isPath slash isListed).elim
  | parameter =>
    cases second with
    | listed _ isListed => cases isListed
    | parameter => rfl
  | verb isVerb =>
    cases second with
    | listed named isListed => exact (noVerb named isVerb isListed).elim
    | verb => rfl
    | path isPath slash =>
      obtain rfl := same isPath isVerb
      exact absurd slash (head?_word _)
  | path isPath slash =>
    cases second with
    | listed named isListed => exact (noPath named isPath slash isListed).elim
    | verb isVerb =>
      obtain rfl := same isPath isVerb
      exact absurd slash (head?_word _)
    | path => rfl

theorem Member.of_verbKey? (isVerb : (verbKey? key).isSome = true) :
    Member names .resource key .method := by
  obtain ⟨verb, isVerb⟩ := Option.isSome_iff_exists.mp isVerb
  exact .verb (verbKey?_eq_some_iff.mp isVerb)

theorem Member.of_resourceKey? {relative : String} (isPath : resourceKey? key = some relative) :
    Member names .resource key .resource := by
  obtain ⟨named, slash⟩ := resourceKey?_eq_some_iff.mp isPath
  exact .path named slash

/-- A key is one that members may have, and the value is what the key says. -/
def Belongs (names : Scalar → Prop) (templates : Templates) (symbol : Symbol)
    (entry : Scalar × Value) : Prop :=
  ∃ inner, Member names symbol entry.1 inner ∧ Derives names templates inner entry.2

/-- The value of a member whose symbol is known. -/
theorem Member.belongs_iff (member : Member names symbol key inner) :
    Belongs names templates symbol (key, value) ↔ Derives names templates inner value := by
  constructor
  · rintro ⟨other, isMember, derived⟩
    rw [member.unique isMember]
    exact derived
  · exact fun derived => ⟨inner, member, derived⟩

theorem derives_map_iff {entries : Entries} (isMapping : symbol.isMapping = true) :
    Derives names templates symbol (.map entries) ↔
      ∀ entry ∈ entries, Belongs names templates symbol entry := by
  constructor
  · intro derived entry isEntry
    cases derived with
    | mapping _ known each =>
      obtain ⟨inner, member⟩ := known entry isEntry
      exact ⟨inner, member, each entry isEntry inner member⟩
    | _ => cases isMapping
  · intro belongs
    refine .mapping isMapping (fun entry isEntry => ?_) fun entry isEntry inner member => ?_
    · obtain ⟨inner, member, _⟩ := belongs entry isEntry
      exact ⟨inner, member⟩
    · exact member.belongs_iff.mp (belongs entry isEntry)

/-- A member that is declared is what its name says. -/
theorem derives_get {entries : Entries} {name : String}
    (belongs : ∀ entry ∈ entries, Belongs names templates symbol entry)
    (isListed : (name, inner) ∈ symbol.members) (something : (entries.get name).isNull = false) :
    Derives names templates inner (entries.get name) := by
  unfold Entries.get at something ⊢
  cases found : entries.find? (.text name) with
  | none =>
    rw [found] at something
    cases something
  | some value =>
    obtain ⟨entry, member, alike, rfl⟩ := Entries.exists_of_find? found
    have named := Scalar.string?_of_alike_text alike
    exact (Member.listed named isListed).belongs_iff.mp (belongs entry member)

/-! ### Named parameters -/

/-- A condition that is complained about where it fails. -/
theorem unless_eq_nil_iff {condition : Prop} [Decidable condition] {complaint : Complaint} :
    (if condition then .ok [] else complain path complaint) = .ok [] ↔ condition := by
  split
  · exact iff_of_true rfl ‹_›
  · exact iff_of_false (complain_ne_nil _ _) ‹_›

theorem scalarProblems_eq_nil_iff_isScalar :
    scalarProblems path value = .ok [] ↔ value.isScalar = true := unless_eq_nil_iff

theorem scalarProblems_eq_nil_iff :
    scalarProblems path value = .ok [] ↔ Derives names templates .scalar value := by
  rw [scalarProblems_eq_nil_iff_isScalar]
  constructor
  · exact .scalar
  · intro derived
    cases derived with
    | scalar isScalar => exact isScalar
    | nothing isMapping | mapping isMapping => cases isMapping

/-- Facets of the different shapes. -/
theorem flag_iff : (match value with
    | .scalar (.bool _) => Except.ok []
    | _ => complain path .notBoolean) = .ok [] ↔ Derives names templates .flag value := by
  split
  · exact iff_of_true rfl .flag
  · refine iff_of_false (complain_ne_nil _ _) fun derived => ?_
    cases derived with
    | flag => simp_all
    | nothing isMapping | mapping isMapping => cases isMapping

theorem length_iff : (match value with
    | .scalar (.int n) => if n < 0 then complain path .notLength else .ok []
    | _ => complain path .notLength) = .ok [] ↔ Derives names templates .length value := by
  split
  · rename_i n
    by_cases negative : n < 0
    · rw [if_pos negative]
      refine iff_of_false (complain_ne_nil _ _) fun derived => ?_
      cases derived with
      | length => omega
    · rw [if_neg negative]
      obtain ⟨length, rfl⟩ := Int.eq_ofNat_of_zero_le (Int.not_lt.mp negative)
      exact iff_of_true rfl .length
  · refine iff_of_false (complain_ne_nil _ _) fun derived => ?_
    cases derived with
    | length => simp_all
    | nothing isMapping | mapping isMapping => cases isMapping

theorem number_iff : (match value with
    | .scalar (.int _) | .scalar (.float _) => Except.ok []
    | _ => complain path .notNumber) = .ok [] ↔ Derives names templates .number value := by
  split
  · exact iff_of_true rfl .whole
  · exact iff_of_true rfl .float
  · refine iff_of_false (complain_ne_nil _ _) fun derived => ?_
    cases derived with
    | whole | float => simp_all
    | nothing isMapping | mapping isMapping => cases isMapping

theorem choices_iff : (match value with
    | .list [] => complain path .enumEmpty
    | .list items =>
      if items.any fun item => !item.isScalar || item.isNull then complain path .enumNotScalars
      else .ok []
    | _ => complain path .enumEmpty) = .ok [] ↔ Derives names templates .choices value := by
  split
  · refine iff_of_false (complain_ne_nil _ _) fun derived => ?_
    cases derived with
    | choices nonempty => exact nonempty rfl
  · rename_i items nonempty
    split
    · rename_i wrong
      obtain ⟨item, isItem, wrong⟩ := List.any_eq_true.mp wrong
      refine iff_of_false (complain_ne_nil _ _) fun derived => ?_
      cases derived with
      | choices _ each =>
        obtain ⟨isScalar, something⟩ := each item isItem
        simp [isScalar, something] at wrong
    · rename_i fine
      have each : ∀ item ∈ items, item.isScalar = true ∧ item.isNull = false := by
        simpa using fine
      exact iff_of_true rfl (.choices nonempty each)
  · refine iff_of_false (complain_ne_nil _ _) fun derived => ?_
    cases derived with
    | choices => simp_all
    | nothing isMapping | mapping isMapping => cases isMapping

theorem text_iff : (if value.string?.isSome then .ok [] else complain path .notText) = .ok [] ↔
    Derives names templates .text value := by
  rw [unless_eq_nil_iff, Option.isSome_iff_exists]
  constructor
  · rintro ⟨text, isText⟩
    exact .text isText
  · intro derived
    cases derived with
    | text isText => exact ⟨_, isText⟩
    | nothing isMapping | mapping isMapping => cases isMapping

theorem scalar_of_other : ∀ name ∈ parameterKeys,
    ¬ (name == "required" || name == "repeat") = true →
    ¬ (name == "minLength" || name == "maxLength") = true →
    ¬ (name == "minimum" || name == "maximum") = true → ¬ (name == "enum") = true →
    ¬ (name == "type" || name == "pattern") = true →
      (name, .scalar) ∈ Symbol.parameter.members := by
  decide

/-- **A facet without problems** is one that parameters may have, of the shape it says. -/
theorem facetProblems_eq_nil_iff :
    facetProblems path key value = .ok [] ↔ Belongs names templates .parameter (key, value) := by
  unfold facetProblems
  cases named : key.string? with
  | none =>
    refine iff_of_false (complain_ne_nil _ _) ?_
    rintro ⟨inner, member, _⟩
    cases member with
    | listed isNamed => cases named.symm.trans isNamed
  | some name =>
    have listed (inner : Symbol) (words : List String)
        (each : ∀ name ∈ words, (name, inner) ∈ Symbol.parameter.members) (member : name ∈ words) :
        Belongs names templates .parameter (key, value) ↔ Derives names templates inner value :=
      (Member.listed named (each name member)).belongs_iff
    dsimp only
    split
    · rename_i unknown
      refine iff_of_false (complain_ne_nil _ _) ?_
      rintro ⟨inner, member, _⟩
      cases member with
      | listed isNamed isListed =>
        obtain rfl : name = _ := Option.some.inj (named.symm.trans isNamed)
        have known : name ∈ Symbol.parameter.members.map Prod.fst :=
          List.mem_map_of_mem isListed
        have contains : parameterKeys.contains name = true := List.contains_iff_mem.mpr known
        rw [contains] at unknown
        cases unknown
    rename_i known
    split
    · rename_i isFlag
      rw [listed .flag ["required", "repeat"] (by decide) (by simpa using isFlag)]
      exact flag_iff
    rename_i noFlag
    split
    · rename_i isLength
      rw [listed .length ["minLength", "maxLength"] (by decide) (by simpa using isLength)]
      exact length_iff
    rename_i noLength
    split
    · rename_i isNumber
      rw [listed .number ["minimum", "maximum"] (by decide) (by simpa using isNumber)]
      exact number_iff
    rename_i noNumber
    split
    · rename_i isEnum
      rw [listed .choices ["enum"] (by decide) (by simpa using isEnum)]
      exact choices_iff
    rename_i noEnum
    split
    · rename_i isText
      rw [listed .text ["type", "pattern"] (by decide) (by simpa using isText)]
      exact text_iff
    · rename_i noText
      have isKnown : name ∈ parameterKeys := by simpa using known
      have isListed := scalar_of_other name isKnown noFlag noLength noNumber noEnum noText
      rw [(Member.listed named isListed).belongs_iff]
      exact scalarProblems_eq_nil_iff

/-- The key has a text, by which the place of its member is told. -/
def IsNameable (key : Scalar) : Prop := ∃ text, key.toText? = some text

/-- The members of mappings are told by the texts of their keys, if the names of parameters can be
written. -/
theorem Member.isNameable (member : Member IsNameable symbol key inner) : IsNameable key := by
  have isText {name : String} (named : key.string? = some name) : IsNameable key :=
    ⟨name, Scalar.toText?_of_string? named⟩
  cases member with
  | listed named => exact isText named
  | parameter named => exact named
  | verb named => exact isText named
  | path named => exact isText named

/-- A mapping without problems has members without problems. -/
theorem inEach_eq_nil_iff_derives {entries : Entries} {each : Scalar × Value → String → Findings}
    (isMapping : symbol.isMapping = true)
    (each_iff : ∀ entry name, entry.1.toText? = some name →
      (each entry name = .ok [] ↔ Belongs IsNameable templates symbol entry)) :
    inEach (fun entry => atKey entry.1 (each entry)) entries = .ok [] ↔
      Derives IsNameable templates symbol (.map entries) := by
  rw [derives_map_iff isMapping, Findings.inEach_eq_nil_iff]
  refine forall₂_congr fun entry _ => Findings.atKey_eq_nil_iff.trans ⟨?_, fun belongs => ?_⟩
  · rintro ⟨name, isText, nothing⟩
    exact (each_iff entry name isText).mp nothing
  · obtain ⟨inner, member, -⟩ := id belongs
    obtain ⟨name, isText⟩ := member.isNameable
    exact ⟨name, isText, (each_iff entry name isText).mpr belongs⟩

/-- A node of a symbol of mappings is nothing, a mapping or a list of alternatives. -/
theorem Derives.shape (derived : Derives names templates symbol value)
    (isMapping : symbol.isMapping = true) :
    value = .null ∨ value.isMap = true ∨ symbol = .parameter ∧ value.isList = true := by
  cases derived with
  | nothing => exact .inl rfl
  | mapping => exact .inr (.inl rfl)
  | alternatives => exact .inr (.inr ⟨rfl, rfl⟩)
  | _ => cases isMapping

/-- So anything else is complained about. -/
theorem complain_iff_of_other {complaint : Complaint} (isMapping : symbol.isMapping = true)
    (something : value ≠ .null) (noMapping : value.isMap = false)
    (noList : symbol = .parameter → value.isList = false) :
    complain path complaint = .ok [] ↔ Derives names templates symbol value := by
  refine iff_of_false (complain_ne_nil path complaint) fun derived => ?_
  rcases derived.shape isMapping with rfl | isMap | ⟨isParameter, isList⟩
  · exact something rfl
  · cases noMapping.symm.trans isMap
  · cases (noList isParameter).symm.trans isList

mutual

/-- **A parameter without problems** is nothing, a mapping of facets, or a list of parameters. -/
theorem parameterProblems_eq_nil_iff (path : String) : (value : Value) →
    (parameterProblems path value = .ok [] ↔ Derives IsNameable templates .parameter value)
  | .map facets => by
    unfold parameterProblems
    exact inEach_eq_nil_iff_derives rfl fun _ _ _ => facetProblems_eq_nil_iff
  | .list alternatives => by
    unfold parameterProblems
    rw [alternativeProblems_eq_nil_iff path alternatives]
    constructor
    · exact .alternatives
    · intro derived
      cases derived with
      | alternatives each => exact each
  | .scalar s => by
    cases s with
    | null => exact iff_of_true rfl (.nothing rfl)
    | _ => exact complain_iff_of_other rfl nofun rfl fun _ => rfl
  | .set _ | .pair _ _ =>
    complain_iff_of_other rfl nofun rfl fun _ => rfl

theorem alternativeProblems_eq_nil_iff (path : String) : (alternatives : List Value) →
    (parameterProblems.alternativeProblems path alternatives = .ok [] ↔
      ∀ alternative ∈ alternatives, Derives IsNameable templates .parameter alternative)
  | [] => iff_of_true rfl fun _ member => absurd member List.not_mem_nil
  | alternative :: rest => by
    unfold parameterProblems.alternativeProblems
    rw [Findings.append_eq_nil_iff, List.forall_mem_cons,
      parameterProblems_eq_nil_iff path alternative,
      alternativeProblems_eq_nil_iff path rest]

end

/-- **Named parameters without problems.** -/
theorem parametersProblems_eq_nil_iff :
    parametersProblems path value = .ok [] ↔ Derives IsNameable templates .parameters value := by
  cases value with
  | map parameters =>
    refine inEach_eq_nil_iff_derives rfl fun entry name isText => ?_
    rw [parameterProblems_eq_nil_iff]
    exact (Member.parameter ⟨name, isText⟩).belongs_iff.symm
  | scalar s =>
    cases s with
    | null => exact iff_of_true rfl (.nothing rfl)
    | _ => exact complain_iff_of_other rfl nofun rfl nofun
  | _ => exact complain_iff_of_other rfl nofun rfl nofun

end RamlInterfaces.Raml
