/-
**What is told about a description.**

The rows that are listed are those of the model, and the counts are those of the description.  The
two agree: there is a row for every action, in the order of a walk downwards, with its verb, its
path and its arguments.

* `ShowsTable`, `ShowsFields`: what is shown of a table and of named fields in each format;
* `listMethods_run`, `summarize_run`: what the commands print;
* `inspection_agrees`: **what is told about a description is what is generated for it**.
-/

import RamlInterfaces.Command.Execution
import RamlInterfaces.Proofs.Command.MethodRows
import RamlInterfaces.Proofs.Json.RoundTrip

namespace RamlInterfaces.Command

open Generation
open Settings (Configuration)

variable {configuration : Configuration} {description : Raml.Description} {session : Session}

/-! ### What the commands print -/

/-- A command after it has printed more. -/
def Progress.printed (progress : Progress) (transcript : Transcript) : Progress :=
  { progress with transcript := progress.transcript ++ transcript }

/-- How a command ends that shows a table last.  In plain text the headers and each row stand on a
line of their own, with tabs between the cells; JSON is read as a list with an object for each row,
with the cells under the headers; in the rich format the terminal shows the table, or fails to. -/
def ShowsTable (console : Console) (table : Table) (before : Progress)
    (ended : Except Stop Unit × Progress) : Prop :=
  match console.format with
  | .plain => ended = (.ok (), before.printed {
      output := String.join ((table.headers :: table.rows).map ("\t".intercalate · ++ "\n")) })
  | .json => ∃ text, Json.read? text = some (.list (table.rows.map fun cells =>
      .map ((table.headers.zip cells).map fun (header, cell) => (.text header, textValue cell)))) ∧
      ended = (.ok (), before.printed { output := text })
  | .rich | .auto =>
    match console.renderer.table table with
    | .ok shown => ended = (.ok (), before.printed { output := shown })
    | .error failure => ended = (.error ⟨failure, none⟩, before)

/-- Named fields as one value. -/
def fieldsValue (fields : List (String × Scalar)) : Value :=
  .map (fields.map fun (name, field) => (.text name, .scalar field))

/-- How a command ends that shows named fields.  In plain text each stands on a line of its own,
with a tab after its name; in the other formats they are written as JSON, which the terminal shows
in the rich format.  An integer of too many digits cannot be written. -/
def ShowsFields (console : Console) (fields : List (String × Scalar)) (before : Progress)
    (ended : Except Stop Unit × Progress) : Prop :=
  match console.format with
  | .plain =>
    match fields.mapM fun (name, field) => field.toText?.map (name ++ "\t" ++ ·) with
    | some lines =>
      ended = (.ok (), before.printed { output := String.join (lines.map (· ++ "\n")) })
    | none => ended = (.error ⟨.defect .tooManyDigits, none⟩, before)
  | .json =>
    match Json.write .unicode (fieldsValue fields) with
    | some text => ended = (.ok (), before.printed { output := text ++ "\n" })
    | none => ended = (.error ⟨.defect .unwritableValue, none⟩, before)
  | .rich | .auto =>
    match Json.write .unicode (fieldsValue fields) with
    | some text =>
      match console.renderer.json text with
      | .ok shown => ended = (.ok (), before.printed { output := shown })
      | .error failure => ended = (.error ⟨failure, none⟩, before)
    | none => ended = (.error ⟨.defect .unwritableValue, none⟩, before)

section Printing

variable {console : Console} {table : Table} {progress : Progress}

theorem concat_data (lines : List String) : Transcript.concat (lines.map Console.data) =
    { output := String.join (lines.map (· ++ "\n")) } := by
  have after (start : Transcript) : (lines.map Console.data).foldl (· ++ ·) start =
      ⟨start.output ++ String.join (lines.map (· ++ "\n")), start.errors⟩ := by
    induction lines generalizing start with
    | nil => rw [List.map_nil, List.map_nil, List.foldl_nil, String.join_nil, String.append_empty]
    | cons line rest ih =>
      have step : start ++ Console.data line =
          ⟨start.output ++ (line ++ "\n"), start.errors⟩ :=
        congrArg (Transcript.mk _) String.append_empty
      rw [List.map_cons, List.foldl_cons, ih, step, List.map_cons, String.join_cons,
        String.append_assoc]
  unfold Transcript.concat
  rw [after]
  exact congrArg (Transcript.mk · "") String.empty_append

/-- What is printed of a result that there is, or the failure that it is. -/
theorem printResult_run (result : Except Failure Transcript) : (do
      let printed ← Execution.ofResult result Execution.noAdvice
      Execution.print printed : Execution Unit).run progress =
    match result with
    | .ok printed => (.ok (), progress.printed printed)
    | .error failure => (.error ⟨failure, none⟩, progress) := by
  cases result <;> rfl

/-- The rows of a table are objects in which no name comes twice. -/
theorem rowObject_eq {headers : List String} (distinct : headers.Nodup) (cells : List String) :
    Console.rowObject headers cells = .map ((headers.zip cells).map fun (header, cell) =>
      (Scalar.text header, textValue cell)) ∧ Json.Storable (Console.rowObject headers cells) := by
  have apart : Raml.Distinct ((headers.zip cells).map fun (header, cell) =>
      (Scalar.text header, textValue cell)) := by
    have names : (headers.zip cells).Pairwise fun cell other => cell.1 ≠ other.1 := by
      refine List.pairwise_iff_getElem.mpr fun i j before after less => ?_
      rw [List.getElem_zip, List.getElem_zip]
      exact List.pairwise_iff_getElem.mp distinct i j _ _ less
    unfold Raml.Distinct
    rw [List.map_map]
    refine List.pairwise_map.mpr (names.imp fun different => ?_)
    rw [Function.comp_apply, Function.comp_apply, Scalar.alike_text rfl rfl]
    exact beq_false_of_ne different
  have same : Console.rowObject headers cells = .map ((headers.zip cells).map fun (header, cell) =>
      (Scalar.text header, textValue cell)) :=
    congrArg Value.map (Raml.ofList_of_distinct apart)
  refine ⟨same, ?_⟩
  rw [same]
  refine .map (fun entry member => ?_) apart fun entry member => ?_
  · obtain ⟨pair, -, rfl⟩ := List.mem_map.mp member
    exact ⟨pair.1, rfl⟩
  · obtain ⟨pair, -, rfl⟩ := List.mem_map.mp member
    exact .text pair.2

/-- **A table is shown** in the format of the console. -/
theorem showsTable (distinct : table.headers.Nodup) : ShowsTable console table progress ((do
      let printed ← Execution.ofResult (console.table table) Execution.noAdvice
      Execution.print printed : Execution Unit).run progress) := by
  rw [printResult_run]
  unfold ShowsTable Console.table
  cases console.format with
  | plain =>
    show (_, progress.printed (Transcript.concat (table.lines.map Console.data))) = _
    rw [concat_data, Table.lines, List.map_map]
    rfl
  | json =>
    have storable : Json.Storable (.list (table.rows.map (Console.rowObject table.headers))) := by
      refine .list fun object member => ?_
      obtain ⟨cells, -, rfl⟩ := List.mem_map.mp member
      exact (rowObject_eq distinct cells).2
    obtain ⟨text, isWritten, reads⟩ := Json.read?_write .unicode storable
    rw [List.map_congr_left fun cells _ => (rowObject_eq distinct cells).1] at reads
    refine ⟨text ++ "\n", reads, ?_⟩
    unfold Console.json
    rw [isWritten]
    rfl
  | rich | auto => cases console.renderer.table table <;> rfl

/-- The plain lines of named fields. -/
theorem plainLines_fieldsValue (fields : List (String × Scalar)) :
    Console.plainLines (fieldsValue fields) =
      written (fields.mapM fun (name, field) => field.toText?.map (name ++ "\t" ++ ·)) := by
  unfold fieldsValue Console.plainLines
  dsimp only
  induction fields with
  | nil => rfl
  | cons field rest ih =>
    rw [List.map_cons, List.mapM_cons, List.mapM_cons, ih]
    show (do
      let line ← (do
        let text ← written field.2.toText?
        return field.1 ++ "\t" ++ text)
      let others ← written (rest.mapM fun (name, field) =>
        (field : Scalar).toText?.map (name ++ "\t" ++ ·))
      return line :: others) = _
    cases field.2.toText? with
    | none => rfl
    | some text =>
      cases rest.mapM fun (name, field) => field.toText?.map (name ++ "\t" ++ ·) <;> rfl

/-- **Named fields are shown** in the format of the console. -/
theorem showsFields (fields : List (String × Scalar)) : ShowsFields console fields progress ((do
      let printed ← Execution.ofResult (console.response (fieldsValue fields)) Execution.noAdvice
      Execution.print printed : Execution Unit).run progress) := by
  rw [printResult_run]
  unfold ShowsFields Console.response Console.json
  rw [plainLines_fieldsValue]
  cases console.format with
  | plain =>
    cases fields.mapM fun (name, field) => field.toText?.map (name ++ "\t" ++ ·) with
    | none => rfl
    | some lines =>
      show (_, progress.printed (Transcript.concat (lines.map Console.data))) = _
      rw [concat_data]
  | json => cases Json.write .unicode (fieldsValue fields) <;> rfl
  | rich | auto =>
    cases Json.write .unicode (fieldsValue fields) with
    | none => rfl
    | some text =>
      show match console.renderer.json text with
        | .ok shown => _
        | .error failure => _
      cases shown : console.renderer.json text <;>
        simp [shown, bind, Except.bind, pure, Except.pure]

end Printing

section Commands

variable {host : Host} {console : Console} {source package : String} {progress : Progress}

theorem get_run (progress : Progress) :
    (get : Execution Progress).run progress = (.ok progress, progress) := rfl

theorem ofResult_run {α : Type} (value : α) (advice : Failure → Option String)
    (progress : Progress) :
    (Execution.ofResult (.ok value) advice).run progress = (.ok value, progress) := rfl

/-- A model is built in a run as it is on its own, and what the session has is reported. -/
theorem build_run (built : buildModel configuration description = .ok session)
    (before : Generation.Progress) :
    (Generation.Run.build configuration description).run before =
      (.ok session.model, { before with records := before.records ++ session.records }) := by
  unfold buildModel at built
  obtain ⟨start, started, built⟩ := bind_eq_ok_iff.mp built
  have starts :
      (ofExcept (.ok start : Except Failure Session) : Generation.Run Session).run before =
        (.ok start, before) := rfl
  unfold Generation.Run.build
  rw [started, run_bind_ok _ starts]
  cases ran : (buildInterfaces description).run start with
  | mk outcome final =>
    rw [ran] at built
    cases outcome with
    | error failure => cases built
    | ok done =>
      cases built
      rfl

theorem performRun_build (built : buildModel configuration description = .ok session) :
    (Execution.performRun console (Generation.Run.build configuration description)
        Execution.noAdvice).run progress =
      (.ok session.model, progress.printed (.concat (session.records.map console.report))) := by
  unfold Execution.performRun
  rw [run_bind_ok _ (get_run progress), build_run built]
  rfl

theorem loadDescription_run {content : String}
    (loaded : Raml.load host.codecs progress.world host.supply inspectionEncoding source =
      .ok content)
    (parsed : Raml.parse content = .ok description) :
    (loadDescription host source).run progress = (.ok description, progress) := by
  unfold loadDescription
  rw [run_bind_ok _ (get_run progress), loaded, run_bind_ok _ (ofResult_run content _ progress),
    parsed]
  exact ofResult_run description _ progress

/-- What stands on the standard input is loaded unless it is blank. -/
theorem load_input {codecs : File.Codecs} {world : File.World} {encodingName content : String}
    (written : Text.isAllBlank content = false) :
    Raml.load codecs world { input := .text content } encodingName "-" = .ok content := by
  show (if Text.isAllBlank content = true then _ else _) = _
  rw [written]
  rfl

theorem exists_extractDescription_of_parse {content : String}
    (parsed : Raml.parse content = .ok description) :
    ∃ root, Raml.extractDescription root = .ok description := by
  unfold Raml.parse at parsed
  cases declared : Raml.version content with
  | error fault =>
    rw [declared] at parsed
    cases parsed
  | ok declaredVersion =>
    rw [declared] at parsed
    obtain ⟨root, _, parsed⟩ := bind_eq_ok_iff.mp parsed
    dsimp only at parsed
    split at parsed
    · cases parsed
    · obtain ⟨sound, _, parsed⟩ := bind_eq_ok_iff.mp parsed
      obtain ⟨resolved, _, described⟩ := bind_eq_ok_iff.mp parsed
      exact ⟨resolved, described⟩

/-- What is told about a description: its texts and its counts, with the given numbers of resources
and of actions. -/
def toldOf (description : Raml.Description) (resources actions : Nat) : List (String × Scalar) :=
  [("title", .text description.title), ("version", .text (description.version.getD "")),
    ("base_uri", .text (description.baseUri.getD "")),
    ("media_type", .text (description.mediaType.getD "")),
    ("top_level_resources", .int description.resources.length), ("resources", .int resources),
    ("actions", .int actions)]

theorem summarize_run
    (loaded : (loadDescription host source).run progress = (.ok description, progress)) :
    ShowsFields console (toldOf description (Raml.countResources description.resources).1
        (Raml.countResources description.resources).2) progress
      ((perform host console (.summarize source)).run progress) := by
  show ShowsFields _ _ _ ((summarize host console source).run progress)
  unfold summarize
  rw [run_bind_ok _ loaded]
  exact showsFields _

theorem listMethods_run {rows : List MethodRow}
    (loaded : (loadDescription host source).run progress = (.ok description, progress))
    (built : buildModel { basePackage := package } description = .ok session)
    (listed : methodRows session.model = .ok rows) :
    ShowsTable console (methodTable description rows)
      (progress.printed (.concat (session.records.map console.report)))
      ((perform host console (.listMethods source package)).run progress) := by
  show ShowsTable _ _ _ ((listMethods host console source package).run progress)
  unfold listMethods
  rw [run_bind_ok _ loaded, run_bind_ok _ (performRun_build built), listed,
    run_bind_ok _ (ofResult_run rows _ _)]
  have distinct : MethodRow.headers.Nodup := by decide
  exact showsTable distinct

end Commands

/-! ### What is told and what is generated -/

/-- The actions of a description, each with the top-level resource that it is below, in the order of
a walk downwards. -/
def actionsBelow (description : Raml.Description) :
    List (Raml.Resource × Raml.Resource × Raml.Action) :=
  description.resources.flatMap fun top => ((nodesFrom top).flatMap actionsAt).map (Prod.mk top)

/-- Every row tells of the action at its place. -/
theorem forall₂_isRow {root : Entries} {rows : List MethodRow}
    (extracted : Raml.extractDescription root = .ok description)
    (isRows : rows =
      description.resources.flatMap fun top => (actionsFrom top).map (actionRow top)) :
    List.Forall₂ (fun place cells => IsRow place.1 place.2 cells) (actionsBelow description)
      (rows.map MethodRow.cells) := by
  rw [isRows, List.forall₂_map_right_iff]
  have tops : List.Forall₂ (fun top other => top = other ∧ ∀ way ∈ waysFrom top, IsWay "" way)
      description.resources description.resources :=
    List.forall₂_same.mpr fun top member => ⟨rfl, ways_extractDescription extracted top member⟩
  refine List.rel_flatMap tops ?_
  rintro top _ ⟨rfl, ways⟩
  show List.Forall₂ _ (((nodesFrom top).flatMap actionsAt).map _) ((actionsFrom top).map _)
  rw [← actionsFrom_eq, List.forall₂_map_left_iff, List.forall₂_map_right_iff, List.forall₂_same]
  exact fun entry member => isRow_actionRow ways member

/-- There are as many actions as the nodes of the tree have. -/
theorem length_actionsBelow (description : Raml.Description) : (actionsBelow description).length =
    ((description.resources.flatMap nodesFrom).flatMap actionsAt).length := by
  unfold actionsBelow
  rw [List.flatMap_assoc, List.length_flatMap, List.length_flatMap]
  simp only [List.length_map]

/-- **What is told about a description is what is generated for it.**  There is a row for every
action at its place in the walk; one command shows these rows in a table, after the reports of
building the model, and another the number of nodes and the number of rows. -/
theorem inspection_agrees {root : Entries} {package : String}
    (extracted : Raml.extractDescription root = .ok description)
    (built : buildModel { basePackage := package } description = .ok session) :
    ∃ rows, methodRows session.model = .ok rows ∧
      List.Forall₂ (fun place cells => IsRow place.1 place.2 cells) (actionsBelow description)
        (rows.map MethodRow.cells) ∧
      ∀ host console source content progress,
        Raml.load host.codecs progress.world host.supply inspectionEncoding source = .ok content →
        Raml.parse content = .ok description →
        ShowsTable console
            { title := description.title ++ " -- Methods (" ++ toString rows.length ++ ")"
              headers := ["Interface", "Method", "Verb", "Path", "Parameters"]
              rows := rows.map MethodRow.cells }
            (progress.printed (.concat (session.records.map console.report)))
            ((perform host console (.listMethods source package)).run progress) ∧
          ShowsFields console
            (toldOf description (description.resources.flatMap nodesFrom).length rows.length)
            progress ((perform host console (.summarize source)).run progress) := by
  have isRow := forall₂_isRow extracted rfl
  have counted := isRow.length_eq.trans (List.length_map _)
  have counts := countResources_eq description.resources
  refine ⟨_, methodRows_eq built, isRow, ?_⟩
  intro host console source content progress loaded parsed
  have described := loadDescription_run loaded parsed
  have told : ShowsFields console _ progress _ := summarize_run described
  rw [counts, ← length_actionsBelow, counted] at told
  exact ⟨listMethods_run described built (methodRows_eq built), told⟩

/-- A document with a path that ends with a slash, a verb that is not of the platform, and a
resource without methods. -/
def catalogue : String :=
  "#%RAML 0.8\ntitle: t\n/items:\n  get:\n    queryParameters:\n      page-size:\n" ++
    "  /{id}/:\n    patch:\n    /tags:\n      get:\n/about:\n"

/-- What is listed of it. -/
def catalogueRows : List (List String) :=
  [["Items", "getItems", "GET", "/items", "pageSize"],
    ["Items", "patchItemsById", "PATCH", "/items/{id}/", "id"],
    ["Items", "getItemsByIdTags", "GET", "/items/{id}//tags", "-"]]

/-- What is listed and told of the catalogue on a plain console, which does not show its title. -/
theorem inspection_agrees_catalogue : ∃ root description session,
    Raml.extractDescription root = .ok description ∧
    buildModel { basePackage := "api" } description = .ok session ∧
    List.Forall₂ (fun place cells => IsRow place.1 place.2 cells) (actionsBelow description)
      catalogueRows ∧
    ∀ environment console (progress : Progress), console.format = .plain →
      (perform { environment, supply := { input := .text catalogue } } console
          (.listMethods "-" "api")).run progress =
        (.ok (), (progress.printed (.concat (session.records.map console.report))).printed {
          output := "Interface\tMethod\tVerb\tPath\tParameters\n" ++
            "Items\tgetItems\tGET\t/items\tpageSize\n" ++
            "Items\tpatchItemsById\tPATCH\t/items/{id}/\tid\n" ++
            "Items\tgetItemsByIdTags\tGET\t/items/{id}//tags\t-\n" }) ∧
      (perform { environment, supply := { input := .text catalogue } } console
          (.summarize "-")).run progress =
        (.ok (), progress.printed {
          output := "title\tt\nversion\t\nbase_uri\t\nmedia_type\t\n" ++
            "top_level_resources\t2\nresources\t4\nactions\t3\n" }) := by
  have told : ((Raml.parse catalogue).toOption.bind fun description =>
      (buildModel { basePackage := "api" } description).toOption.map fun session =>
        ((methodRows session.model).toOption.map (·.map MethodRow.cells),
          Raml.countResources description.resources, description.resources.length,
          [some description.title, description.version, description.baseUri,
            description.mediaType])) =
      some (some catalogueRows, (4, 3), 2, [some "t", none, none, none]) := by
    decide +kernel
  obtain ⟨description, isDescription, told⟩ := Option.bind_eq_some_iff.mp told
  obtain ⟨session, isSession, told⟩ := Option.map_eq_some_iff.mp told
  simp only [Prod.mk.injEq, List.cons.injEq, Option.some.injEq, and_true] at told
  obtain ⟨listed, counts, tops, title, version, baseUri, mediaType⟩ := told
  obtain ⟨rows, isRows, cells⟩ := Option.map_eq_some_iff.mp listed
  have parsed := toOption_eq_some_iff.mp isDescription
  have built := toOption_eq_some_iff.mp isSession
  obtain ⟨root, extracted⟩ := exists_extractDescription_of_parse parsed
  obtain ⟨others, isOthers, isRow, commands⟩ := inspection_agrees extracted built
  cases isOthers.symm.trans (toOption_eq_some_iff.mp isRows)
  rw [cells] at isRow commands
  refine ⟨root, description, session, extracted, built, isRow,
    fun environment console progress plain => ?_⟩
  have nonblank : Text.isAllBlank catalogue = false := by
    decide +kernel
  have printed := commands { environment, supply := { input := .text catalogue } } console "-"
    catalogue progress (load_input nonblank) parsed
  have length : rows.length = 3 := by
    rw [← List.length_map (f := MethodRow.cells), cells]
    rfl
  rw [countResources_eq, Prod.mk.injEq] at counts
  unfold ShowsTable ShowsFields toldOf at printed
  rw [plain, counts.1, length, tops, title, version, baseUri, mediaType] at printed
  exact printed

end RamlInterfaces.Command
