/-
**The methods of a resolved resource.**

The types on a chain are merged into one another from the last one on, and the result into the
resource.  A resource at a place of a resolved document has so gathered its methods.  They come in
the order in which the resource and the bodies on the chain declare them; each is merged from what
was declared for it and from what was offered optionally after that; and nothing optional is left
that the resource did not declare itself.

* `cells_mergeTypeBody`: what the body of a type does to the parts of a method;
* `parts_gatherTypes`: **a method is merged from its parts**;
* `IsMergedFrom`: what the content of a method is merged from;
* `GatheredMethods`: what becomes of the methods on a chain;
* `gatheredMethods_of_resolved`: **every resource of a resolved document has gathered its methods
  so**.
-/

import RamlInterfaces.Proofs.Raml.MethodParts
import RamlInterfaces.Proofs.Raml.Sources

namespace RamlInterfaces.Raml

/-! ### Bodies on a chain -/

section Chains

variable {verb : Verb} {index : Nat} {sources : List Entries} {good : Part → Prop}
  {entries node body : Entries} {value : Value}
  {parts plain optional inherited inheritedOptional : List Part}

theorem distinct_untyped (distinct : Distinct entries) :
    Distinct (entries.filter fun entry => !isTypeKey entry.1) :=
  List.Pairwise.sublist (List.filter_sublist.map Prod.fst) distinct

theorem optionalFirst_untyped (order : OptionalFirst verb entries) :
    OptionalFirst verb (entries.filter fun entry => !isTypeKey entry.1) :=
  List.Pairwise.sublist (List.filter_sublist.map Prod.fst) order

theorem Cells.untyped (cells : Cells verb good entries plain optional) :
    Cells verb good (entries.filter fun entry => !isTypeKey entry.1) plain optional := by
  have wordOther : verb.word ≠ "type" := by
    cases verb <;> decide
  exact ⟨cells.plain.congr (Collects.find?_untyped wordOther entries),
    cells.optional.congr (Collects.find?_untyped (optionalName_ne_type _) entries)⟩

/-- No key comes twice in a node with the body of a type. -/
theorem distinct_mergeTypeBody (derived : Bool) (distinct : Distinct node) (body : Entries) :
    Distinct (mergeTypeBody derived node body) := by
  refine mergeTypeBody_keeps derived body (distinct_untyped distinct)
    fun merged entry _ isMerged => ?_
  rcases keys_mergeTypeEntry derived merged entry.1 entry.2 with ⟨same, -⟩ | ⟨same, missing, -⟩
  · unfold Distinct
    rw [same]
    exact isMerged
  · rw [same]
    exact distinct_concat_iff.mpr ⟨isMerged, Entries.alike_eq_false_of_missing missing⟩

/-- An optional method comes to stand in a type only where the method does not. -/
theorem optionalFirst_mergeTypeBody (derived : Bool) (order : OptionalFirst verb node)
    (body : Entries) : OptionalFirst verb (mergeTypeBody derived node body) := by
  refine mergeTypeBody_keeps derived body (optionalFirst_untyped order)
    fun merged entry _ isMerged => ?_
  rcases keys_mergeTypeEntry derived merged entry.1 entry.2 with ⟨same, -⟩ | ⟨same, -, marked⟩
  · unfold OptionalFirst
    rw [same]
    exact isMerged
  · unfold OptionalFirst
    rw [same, List.map_append]
    refine List.pairwise_append.mpr ⟨isMerged, List.pairwise_singleton _ _, ?_⟩
    rintro first member last isLast ⟨isPlain, isOptional⟩
    rw [List.mem_singleton.mp isLast] at isOptional
    obtain ⟨-, missing⟩ := marked _ (optionalKey?_of_named isOptional)
    obtain ⟨other, isOther, rfl⟩ := List.mem_map.mp member
    have unlike := Entries.alike_eq_false_of_missing missing other isOther
    rw [Scalar.alike_text isPlain rfl, beq_self_eq_true] at unlike
    cases unlike

/-- The entries are those of a type with the bodies that it inherits: `sources` are its own body and
these, the first with the given index. -/
structure Gathered (verb : Verb) (good : Part → Prop) (index : Nat) (sources : List Entries)
    (entries : Entries) : Prop where
  distinct : Distinct entries
  order : OptionalFirst verb entries
  strays : Everywhere (FromStrays verb good) entries
  cells : ∃ plain optional, Cells verb good entries plain optional ∧
    partsFor verb plain = methodParts verb.word false index sources ∧
    partsFor verb (optional ++ plain) = methodParts verb.word true index sources

/-- Everything that the sources have under the word of a verb, whatever its marks, is good. -/
def GoodSources (verb : Verb) (good : Part → Prop) (index : Nat) (sources : List Entries) : Prop :=
  ∀ i source key content, sources[i]? = some source → source.find? (.text key) = some content →
    stem key = verb.word → good ⟨index + i, key, content⟩

theorem GoodSources.tail {source : Entries}
    (isGood : GoodSources verb good index (source :: sources)) :
    GoodSources verb good (index + 1) sources := by
  intro i other key content isOther found isKey
  have same : index + 1 + i = index + (i + 1) := by omega
  rw [same]
  exact isGood (i + 1) other key content isOther found isKey

/-- What a source has under a key is a part. -/
theorem cell_partUnder {source : Entries} {key : String}
    (isGood : GoodSources verb good index (source :: sources)) (isKey : stem key = verb.word) :
    Cell good source key (partUnder source index key) := by
  unfold partUnder
  cases found : source.find? (.text key) with
  | none => exact Cell.of_missing found
  | some content =>
    refine Cell.of_found found (.single ⟨index, key, content⟩) fun part member => ?_
    rw [List.mem_singleton.mp member]
    exact isGood 0 source key content rfl found isKey

theorem cells_partUnder {source : Entries}
    (isGood : GoodSources verb good index (source :: sources)) : Cells verb good source
      (partUnder source index verb.word) (partUnder source index (optionalName verb.word)) := by
  refine ⟨cell_partUnder isGood (stem_word verb), cell_partUnder isGood ?_⟩
  rw [stem_optionalName, stem_word]

theorem partsFor_partUnder (source : Entries) (index : Nat) {key : String}
    (isKey : key = verb.word ∨ key = optionalName verb.word) :
    partsFor verb (partUnder source index key) = partUnder source index key := by
  refine List.filter_eq_self.mpr fun part member => ?_
  obtain ⟨-, rfl, -⟩ := mem_partUnder_iff.mp member
  unfold Part.isFor
  rw [Bool.or_eq_true, beq_iff_eq, beq_iff_eq]
  exact isKey

/-- Values under stray keys of a source are parts themselves. -/
theorem strays_source {source : Entries} (distinct : Distinct source)
    (isGood : GoodSources verb good index (source :: sources)) :
    Everywhere (FromStrays verb good) source := by
  intro entry member text named stray
  have found : source.find? (.text text) = some entry.2 := by
    rw [← find?_of_string? named]
    exact find?_of_mem distinct member
  refine ⟨[⟨index, text, entry.2⟩], .single _, fun part isPart => ?_, ?_⟩
  · rw [List.mem_singleton.mp isPart]
    exact isGood 0 source text entry.2 rfl found stray.stem
  · refine List.filter_eq_nil_iff.mpr fun part isPart => ?_
    rw [List.mem_singleton.mp isPart]
    unfold Part.isFor
    simp [stray.notPlain, stray.notOptional]

/-- The source does not declare the method for the verb and offer it optionally as well. -/
def NotBoth (verb : Verb) (source : Entries) : Prop :=
  ¬ (source.has (.text verb.word) = true ∧ source.has (.text (optionalName verb.word)) = true)

/-- **The method of a node with what its type gives**: its parts are those of the node and of the
sources behind it. -/
theorem cells_mergeTypeBody (derived : Bool)
    (isGood : GoodSources verb good index (node :: sources))
    (gathered : Gathered verb good (index + 1) sources body) : ∃ plain optional,
      Cells verb good (mergeTypeBody derived node body) plain optional ∧
        partsFor verb plain = methodParts verb.word false index (node :: sources) ∧
        (derived = true → NotBoth verb node →
          partsFor verb (optional ++ plain) =
            methodParts verb.word true index (node :: sources)) := by
  obtain ⟨inherited, inheritedOptional, isBody, plainParts, allParts⟩ := gathered.cells
  have own := (cells_partUnder isGood).untyped
  obtain ⟨plain, optional, isResult, merges, stays⟩ := cells_foldl derived
    (distinct_untyped gathered.distinct) (optionalFirst_untyped gathered.order)
    (gathered.strays.filter _) own isBody.untyped
  have isPlain : partsFor verb (partUnder node index verb.word) = partUnder node index verb.word :=
    partsFor_partUnder node index (.inl rfl)
  have isOptional : partsFor verb (partUnder node index (optionalName verb.word)) =
      partUnder node index (optionalName verb.word) := partsFor_partUnder node index (.inr rfl)
  have step (declared : Bool) : methodParts verb.word declared index (node :: sources) =
      (if declared then partUnder node index (optionalName verb.word) else []) ++
        partUnder node index verb.word ++
          methodParts verb.word (declared || node.has (.text verb.word)) (index + 1) sources := rfl
  rw [partsFor_append] at allParts
  refine ⟨plain, optional, isResult, ?_⟩
  by_cases has : node.has (.text verb.word) = true
  · obtain ⟨samePlain, sameOptional⟩ := merges (partUnder_ne_nil has)
    rw [partsFor_append, partsFor_append, isPlain, allParts] at samePlain
    refine ⟨?_, fun _ notBoth => ?_⟩
    · rw [samePlain, step, has]
      rfl
    · have nothing : partUnder node index (optionalName verb.word) = [] :=
        partUnder_eq_nil fun offered => notBoth ⟨has, offered⟩
      rw [partsFor_append, sameOptional, isOptional, samePlain, step, nothing, has]
      rfl
  · have nothing : partUnder node index verb.word = [] := partUnder_eq_nil has
    obtain ⟨samePlain, sameOptional⟩ := stays nothing
    refine ⟨?_, fun isDerived _ => ?_⟩
    · rw [samePlain, plainParts, step, nothing, Bool.eq_false_iff.mpr has]
      rfl
    · rw [partsFor_append, sameOptional isDerived, partsFor_append, isOptional, samePlain,
        List.append_assoc, allParts, step, nothing, Bool.eq_false_iff.mpr has, if_pos rfl,
        List.append_nil]
      rfl

theorem optionalFirst_of_notBoth (notBoth : NotBoth verb node) : OptionalFirst verb node := by
  have has_of_mem {name : String} {key : Scalar} (member : key ∈ node.map Prod.fst)
      (named : key.string? = some name) : node.has (.text name) = true := by
    unfold Entries.has
    rw [Option.isSome_iff_ne_none]
    intro missing
    obtain ⟨entry, isEntry, rfl⟩ := List.mem_map.mp member
    have unlike := Entries.alike_eq_false_of_missing missing entry isEntry
    rw [Scalar.alike_text named rfl, beq_self_eq_true] at unlike
    cases unlike
  refine List.pairwise_of_forall_mem_list fun first isFirst second isSecond => ?_
  rintro ⟨isPlain, isOptional⟩
  exact notBoth ⟨has_of_mem isFirst isPlain, has_of_mem isSecond isOptional⟩

/-- **A type is gathered from its own body and those that it inherits**, none of which both declares
the method and offers it optionally. -/
theorem gathered_gatherTypes (node : Entries) (bodies : List Entries)
    (distinct : ∀ source ∈ node :: bodies, Distinct source)
    (notBoth : ∀ source ∈ node :: bodies, NotBoth verb source)
    (isGood : GoodSources verb good index (node :: bodies)) :
    Gathered verb good index (node :: bodies) (gatherTypes true node bodies) := by
  induction bodies generalizing node index with
  | nil =>
    have isNode := List.mem_singleton_self node
    refine ⟨distinct node isNode, optionalFirst_of_notBoth (notBoth node isNode),
      strays_source (distinct node isNode) isGood, _, _, cells_partUnder isGood, ?_, ?_⟩
    · rw [partsFor_partUnder _ _ (.inl rfl)]
      exact (List.append_nil _).symm
    · rw [partsFor_append, partsFor_partUnder _ _ (.inl rfl), partsFor_partUnder _ _ (.inr rfl)]
      exact (List.append_nil _).symm
  | cons body rest ih =>
    obtain ⟨isDistinct, others⟩ := List.forall_mem_cons.mp distinct
    obtain ⟨isApart, laterApart⟩ := List.forall_mem_cons.mp notBoth
    have gathered := ih body others laterApart isGood.tail
    obtain ⟨plain, optional, cells, plainParts, allParts⟩ :=
      cells_mergeTypeBody true isGood gathered
    refine ⟨distinct_mergeTypeBody true isDistinct _,
      optionalFirst_mergeTypeBody true (optionalFirst_of_notBoth isApart) _,
      mergeable_fromStrays.mergeTypeBody (strays_source isDistinct isGood) gathered.strays,
      plain, optional, cells, plainParts, allParts rfl isApart⟩

/-- **A method of a resource is merged from its parts**, and beside these only from what the types
have under stray keys. -/
theorem parts_gatherTypes {content : Value} (node : Entries) (bodies : List Entries)
    (distinct : ∀ source ∈ bodies, Distinct source)
    (notBoth : ∀ source ∈ bodies, NotBoth verb source)
    (isGood : GoodSources verb good 0 (node :: bodies))
    (found : (gatherTypes false node bodies).find? (.text verb.word) = some content) :
    ∃ parts, Blend parts content ∧ (∀ part ∈ parts, good part) ∧
      partsFor verb parts = methodParts verb.word false 0 (node :: bodies) := by
  cases bodies with
  | nil =>
    have cell := (cells_partUnder isGood).plain
    refine ⟨_, cell.blend found, cell.1, ?_⟩
    rw [partsFor_partUnder _ _ (.inl rfl)]
    exact (List.append_nil _).symm
  | cons body rest =>
    have gathered := gathered_gatherTypes body rest distinct notBoth isGood.tail
    obtain ⟨plain, _, cells, isParts, -⟩ := cells_mergeTypeBody false isGood gathered
    exact ⟨plain, cells.plain.blend found, cells.plain.1, isParts⟩

end Chains

/-! ### Methods of a resource -/

variable {root resolved node content declared : Entries} {bodies sources : List Entries}
  {place : List String} {depth : Nat} {verb : Verb} {result : Value}

/-- The part is what one of the sources has under its key. -/
def IsPartOf (sources : List Entries) (part : Part) : Prop :=
  ∃ source, sources[part.source]? = some source ∧
    source.find? (.text part.key) = some part.content

/-- The content of a method is merged from what a resource and the bodies on its chain have under
its word, whatever the marks: from all that is declared, in order, and from what a body offers
optionally exactly when the resource or an earlier body declares the method. -/
def IsMergedFrom (verb : Verb) (declared : Entries) (bodies : List Entries) (content : Value) :
    Prop :=
  ∃ parts, Blend parts content ∧
    (∀ part ∈ parts, IsPartOf (declared :: bodies) part ∧ stem part.key = verb.word) ∧
    partsFor verb parts = methodParts verb.word false 0 (declared :: bodies) ∧
    ∀ i body offered, bodies[i]? = some body →
      body.find? (.text (optionalName verb.word)) = some offered →
        (⟨i + 1, optionalName verb.word, offered⟩ ∈ parts ↔
          declared.has (.text verb.word) = true ∨
            ∃ earlier ∈ bodies.take i, earlier.has (.text verb.word) = true)

/-- The members of a resource with its types and traits have come from what it declares and from the
bodies on its chain: the methods in this order, each from its parts and then with its traits, and no
optional key that the resource does not declare. -/
structure GatheredMethods (templates : Templates) (stop : Stop) (bodies : List Entries)
    (members : Entries) : Prop where
  chain : TypeChain templates.resourceTypes (resourceArguments stop.path) stop.declared bodies
  order : methodsOf members = followedBy (methodsOf stop.declared) (bodies.flatMap methodsOf)
  content : ∀ verb method, (∀ body ∈ bodies, NotBoth verb body) →
    members.find? (.text verb.word) = some method → ∃ content,
      IsMergedFrom verb stop.declared bodies content ∧
        applyTraits templates (resourceArguments stop.path)
          (referenceList (stop.resource.get "is")) verb.word content = .ok method
  optional : ∀ key ∈ members.map Prod.fst, (optionalKey? key).isSome = true →
    key ∈ stop.declared.map Prod.fst

/-- The bodies on a chain have no key twice, if the declared types have none. -/
theorem TypeChain.keyed {types arguments : Entries} (keyed : Everywhere (fun _ => Keyed) types)
    (chain : TypeChain types arguments node bodies) : ∀ body ∈ bodies, Keyed (.map body) := by
  induction chain with
  | last => exact fun body member => absurd member List.not_mem_nil
  | next given _ ih =>
    obtain ⟨-, template, found, filled⟩ := given
    exact List.forall_mem_cons.mpr ⟨keyed_templateBody (keyed.find? found) filled, ih⟩

/-- **A method that is gathered along a chain is merged from what the chain has for it.** -/
theorem isMergedFrom_of_gatherTypes {content : Value}
    (distinct : ∀ body ∈ bodies, Distinct body) (notBoth : ∀ body ∈ bodies, NotBoth verb body)
    (found : (gatherTypes false declared bodies).find? (.text verb.word) = some content) :
    IsMergedFrom verb declared bodies content := by
  have isGood : GoodSources verb
      (fun part => IsPartOf (declared :: bodies) part ∧ stem part.key = verb.word) 0
      (declared :: bodies) := by
    intro i source key content isSource isContent isKey
    rw [Nat.zero_add]
    exact ⟨⟨source, isSource, isContent⟩, isKey⟩
  obtain ⟨parts, blend, good, same⟩ :=
    parts_gatherTypes declared bodies distinct notBoth isGood found
  refine ⟨parts, blend, good, same, fun i body offered isBody isOffered => ?_⟩
  have isFor : Part.isFor verb ⟨i + 1, optionalName verb.word, offered⟩ = true := by
    simp [Part.isFor]
  have isPart : ⟨i + 1, optionalName verb.word, offered⟩ ∈ parts ↔
      (⟨i + 1, optionalName verb.word, offered⟩ : Part) ∈ partsFor verb parts := by
    simp [partsFor, isFor]
  rw [isPart, same, mem_methodParts_iff]
  constructor
  · rintro ⟨j, source, -, isIndex, -, isWord | ⟨-, absurdity | ⟨earlier, member, has⟩⟩⟩
    · exact absurd isWord (optionalName_ne_word verb)
    · cases absurdity
    · rw [Nat.zero_add] at isIndex
      subst isIndex
      rcases List.mem_cons.mp member with rfl | later
      · exact .inl has
      · exact .inr ⟨earlier, later, has⟩
  · intro known
    refine ⟨i + 1, body, isBody, (Nat.zero_add _).symm, isOffered, .inr ⟨rfl, .inr ?_⟩⟩
    rcases known with has | ⟨earlier, member, has⟩
    · exact ⟨declared, List.mem_cons_self, has⟩
    · exact ⟨earlier, List.mem_cons_of_mem _ member, has⟩

/-- At a place where the application passes, the last stop has the content of its chain. -/
theorem Passes.typed {templates : Templates} {path : String} {entries : Entries} {stop : Stop}
    (passes : Passes templates path entries place stop) :
    applyType templates (resourceArguments stop.path) stop.declared = .ok stop.resource := by
  induction passes with
  | here _ under => exact under.typed
  | further _ _ ih => exact ih

/-- **Every resource of a resolved document has gathered its methods from its chain of types.** -/
theorem gatheredMethods_of_resolved (keyed : (Value.map root).isKeyed = true)
    (applied : applyTemplatesWithin depth root = .ok resolved)
    (leads : LeadsToResource (place.map .text))
    (there : (Value.map resolved).at? (place.map .text) = some result) :
    ∃ stop bodies members, Passes (Templates.ofRoot root) "" root place stop ∧ stop.ahead = [] ∧
      stop.path = pathOf place ∧ result = .map members ∧
      GatheredMethods (Templates.ofRoot root) stop bodies members := by
  obtain ⟨stop, below, members, passes, arrives, isPlace, rfl, walked⟩ :=
    exists_stop_of_resource applied leads there
  obtain ⟨bodies, chain, isGathered⟩ := applyType_eq_gatherTypes passes.typed
  have sameKeys := Entries.keys_of_mapM (fun _ _ => memberStep_key) walked
  have distinct (body : Entries) (member : body ∈ bodies) : Distinct body :=
    (keyed_map_iff.mp (chain.keyed (keyed_templates keyed "resourceTypes") body member)).1
  refine ⟨stop, bodies, members, passes, arrives, isPlace, rfl, chain, ?_, ?_, ?_⟩
  · unfold methodsOf
    rw [sameKeys, isGathered]
    exact methodsOf_gatherTypes false stop.declared bodies
  · intro verb method notBoth isMethod
    obtain ⟨content, found, withTraits⟩ := exists_content_of_method walked isMethod
    rw [isGathered] at found
    exact ⟨content, isMergedFrom_of_gatherTypes distinct notBoth found, withTraits⟩
  · intro key member isOptional
    rw [sameKeys, isGathered] at member
    exact mem_keys_of_optional bodies member isOptional

/-- A document with a resource whose type inherits another one; both offer methods optionally. -/
def lending : Entries :=
  [(.text "title", .text "t"),
    (.text "resourceTypes", .map [
      (.text "stored", .map [(.text "get?", .map [(.text "description", .text "read")]),
        (.text "post?", .map [(.text "description", .text "add")]), (.text "put?", .null),
        (.text "delete", .null)]),
      (.text "lent", .map [(.text "type", .text "stored"), (.text "get?", .null),
        (.text "post", .map [(.text "headers", .map [])])])]),
    (.text "/books", .map [(.text "type", .text "lent"), (.text "patch?", .null),
      (.text "get", .null)])]

/-- The resource has its own method, one of its type and one that this inherits. -/
theorem gatheredMethods_of_books : (Value.map lending).isKeyed = true ∧ ∃ stop bodies members,
    (∃ resolved, applyTemplatesWithin 1 lending = .ok resolved ∧
      (Value.map resolved).at? [.text "/books"] = some (.map members)) ∧
    methodsOf members = [.get, .post, .delete] ∧
    GatheredMethods (Templates.ofRoot lending) stop bodies members := by
  have keyed : (Value.map lending).isKeyed = true := by decide +kernel
  have ends : ((((applyTemplatesWithin 1 lending).toOption.bind fun resolved =>
      (Value.map resolved).at? [.text "/books"]).bind Value.entries?).map methodsOf) =
        some [.get, .post, .delete] := by
    decide +kernel
  obtain ⟨members, found, methods⟩ := Option.map_eq_some_iff.mp ends
  obtain ⟨result, isResult, isMap⟩ := Option.bind_eq_some_iff.mp found
  obtain ⟨resolved, isResolved, there⟩ := Option.bind_eq_some_iff.mp isResult
  have applied := toOption_eq_some_iff.mp isResolved
  have leads : LeadsToResource (["/books"].map .text) := ⟨List.cons_ne_nil _ _, by decide⟩
  obtain ⟨stop, bodies, others, -, -, -, rfl, gathered⟩ :=
    gatheredMethods_of_resolved keyed applied leads there
  cases isMap
  exact ⟨keyed, stop, bodies, members, ⟨resolved, applied, there⟩, methods, gathered⟩

end RamlInterfaces.Raml
