import FileNest.Processing.World

/-!
# Any list of stages

The pipeline is written for any stages with a name and a method `run`.  It calls them in order
and stops at the first that does not pass; what becomes of the file is in two variables of the
loop: that the virus scan stopped it, or the reason another stage gave.  A reason may be `None`,
and then the file ends as if every stage had passed.

## Main definitions

* `ProcessingStage` — the interface of a stage.
* `runStageLoop`, `PipelineExecutor.executeStages`, `PipelineExecutor.run` — the pipeline.
* `StagesFolded` — the file ends as the first stage that stops the pipeline says.
* `OutcomeCarries` — the event has that stage's reason, and the row its category.

## Main results

* `execute_eq_executeStages` — the stages of the repository are such a list.
* `stagesFolded_iff` — **a stage that stops the pipeline, not the scan, gives a reason.**
* `outcomeCarries_iff` — **no stage before the classification stops the pipeline, or the row was
  classified before and it is not a scan with a reason.**
-/

namespace FileNest

open RowStore Processing

/-- Structural interface every pipeline stage must satisfy. -/
structure ProcessingStage where
  name : String
  run (filename declaredContentType : String) (content : List UInt8) : Except String StageResult

namespace ProcessingStage

variable (record : File) (content : List UInt8)

/-- What the stage returns or raises for a file. -/
def outcome (stage : ProcessingStage) : Except String StageResult :=
  stage.run record.filename record.contentType content

/-- The stage does not pass, or raises. -/
def stops (stage : ProcessingStage) : Bool :=
  match stage.outcome record content with
  | .ok result => !result.passed
  | .error _ => true

end ProcessingStage

/-- The loop over the stages: the ones that are called, and what it leaves behind. -/
def runStageLoop (record : File) (content : List UInt8) :
    List ProcessingStage → Option String → List ProcessingStage × Except String StagesOutcome
  | [], category => ([], .ok { category := category })
  | stage :: stages, category =>
      match stage.outcome record content with
      | .error text => ([stage], .error text)
      | .ok result =>
          let category := result.category.orElse fun _ => category
          if result.passed then
            let (called, out) := runStageLoop record content stages category
            (stage :: called, out)
          else if stage.name = "virus_scan" then
            ([stage], .ok { category := category, quarantined := true })
          else ([stage], .ok { category := category, failedReason := result.reason })

/-- The stages of the repository. -/
def Stage.processing (env : PipelineEnv) : Stage → ProcessingStage
  | virusScan => ⟨"virus_scan", fun filename _ content => VirusScanStage.run env filename content⟩
  | mimeValidation => ⟨"mime_validation", fun _ declaredContentType content =>
      MimeValidationStage.run env declaredContentType content⟩
  | classification => ⟨"classification", fun filename _ _ => .ok (ClassificationStage.run filename)⟩

namespace PipelineExecutor

/-- `_execute`, with any stages. -/
def executeStages (env : PipelineEnv) (db : Database) (target : Target)
    (stages : ProjectConfig → List ProcessingStage) : Except String (Option Outcome) := do
  let record ← orText
    (FileRepository.get db target.fileId target.organizationId target.projectId)
  if record.status ≠ .processing then return none
  else
    let config ← orText
      (ProjectConfigRepository.getForProject db target.projectId target.organizationId)
    let provider ← orText (provider env db target)
    let content ← env.downloadBytes provider record.storageKey
    let out ← (runStageLoop record content (stages config) none).2
    return some (outcomeOf record out)

/-- `run`: an exception fails the file, and one in `_mark_failed` is swallowed. -/
def run (env : PipelineEnv) (db : Database) (target : Target)
    (stages : ProjectConfig → List ProcessingStage) : Database :=
  match executeStages env db target stages with
  | .ok none => db
  | .ok (some o) => applyAll (o.writes env target) db
  | .error reason =>
      match markFailed db target reason with
      | .ok o => applyAll (o.writes env target) db
      | .error _ => db

/-- The run gets as far as the stages. -/
structure Loads (env : PipelineEnv) (db : Database) (target : Target) (record : File)
    (config : ProjectConfig) (content : List UInt8) : Prop where
  get_eq : FileRepository.get db target.fileId target.organizationId target.projectId = .ok record
  processing : record.status = .processing
  config_eq : ProjectConfigRepository.getForProject db target.projectId target.organizationId
    = .ok config
  content_eq : ∃ p, provider env db target = .ok p
    ∧ env.downloadBytes p record.storageKey = .ok content

end PipelineExecutor

/-- The stages are called in order up to the first that stops the pipeline, and the file ends as
that one says. -/
structure StagesFolded (env : PipelineEnv) (db : Database) (target : Target) (record : File)
    (config : ProjectConfig) (content : List UInt8)
    (stages : ProjectConfig → List ProcessingStage) : Prop where
  called : (runStageLoop record content (stages config) none).1
    = (stages config).takeWhile (fun stage => !stage.stops record content)
      ++ ((stages config).find? (ProcessingStage.stops record content)).toList
  ready : (FileRepository.get (PipelineExecutor.run env db target stages) target.fileId
      target.organizationId target.projectId).map File.status = .ok .ready
    ↔ ∀ stage ∈ stages config, ∃ result, stage.outcome record content = .ok result
      ∧ result.passed = true
  quarantined : (FileRepository.get (PipelineExecutor.run env db target stages) target.fileId
      target.organizationId target.projectId).map File.status = .ok .quarantined
    ↔ ∃ stage result, (stages config).find? (ProcessingStage.stops record content) = some stage
      ∧ stage.outcome record content = .ok result ∧ stage.name = "virus_scan"
  failed : (FileRepository.get (PipelineExecutor.run env db target stages) target.fileId
      target.organizationId target.projectId).map File.status = .ok .failed
    ↔ ∃ stage, (stages config).find? (ProcessingStage.stops record content) = some stage
      ∧ ∀ result, stage.outcome record content = .ok result → stage.name ≠ "virus_scan"

/-- The event of a failed or quarantined outcome has the reason of the stage that stopped the
pipeline, and the row has the category of its filename. -/
structure OutcomeCarries (env : PipelineEnv) (o : Outcome) (content : List UInt8)
    (stages : List ProcessingStage) : Prop where
  reason : o.status = .failed ∨ o.status = .quarantined → ∀ stage result,
    stages.find? (ProcessingStage.stops o.record content) = some stage →
    stage.outcome o.record content = .ok result →
      Fields.get? o.payload "reason" = some (.optStr result.reason)
  category : (o.saved env.now).category = (ClassificationStage.run o.record.filename).category

/-! ### The loop -/

section Loop

variable {record : File} {content : List UInt8} {stages : List ProcessingStage}

theorem ProcessingStage.stops_of_ok {stage : ProcessingStage} {result : StageResult}
    (h : stage.outcome record content = .ok result) :
    stage.stops record content = !result.passed := by
  rw [stops, h]

theorem ProcessingStage.stops_of_error {stage : ProcessingStage} {text : String}
    (h : stage.outcome record content = .error text) : stage.stops record content = true := by
  rw [stops, h]

theorem runStages_eq (env : PipelineEnv) (record : File) (content : List UInt8)
    (stages : List Stage) (category : Option String) : runStages env record content stages category
      = (runStageLoop record content (stages.map (Stage.processing env)) category).2 := by
  induction stages generalizing category with
  | nil => rfl
  | cons stage stages ih =>
    have houtcome : (stage.processing env).outcome record content
        = stage.run env record content := by
      cases stage with
      | virusScan => rfl
      | mimeValidation => rfl
      | classification => rfl
    have hname : (stage.processing env).name = "virus_scan" ↔ stage = .virusScan := by
      cases stage with
      | virusScan => exact ⟨fun _ => rfl, fun _ => rfl⟩
      | mimeValidation =>
        exact ⟨fun h => absurd (show "mime_validation" = "virus_scan" from h) (by decide), nofun⟩
      | classification =>
        exact ⟨fun h => absurd (show "classification" = "virus_scan" from h) (by decide), nofun⟩
    rw [runStages, List.map_cons, runStageLoop, houtcome]
    cases stage.run env record content with
    | error text => rfl
    | ok result =>
      simp only [hname]
      show (if result.passed = true then _ else if stage = .virusScan then _ else _) = _
      by_cases hpassed : result.passed = true
      · simp only [hpassed, if_true]
        exact ih _
      · simp only [hpassed]
        by_cases hscan : stage = .virusScan
        · simp only [hscan, if_true]
          rfl
        · simp only [hscan, if_false]
          rfl

/-- **The stages of the repository** are such a list. -/
theorem execute_eq_executeStages (env : PipelineEnv) (db : Database) (target : Target) :
    PipelineExecutor.execute env db target = PipelineExecutor.executeStages env db target
      fun config => (stageList config).map (Stage.processing env) := by
  unfold PipelineExecutor.execute PipelineExecutor.executeStages
  simp only [runStages_eq]

/-- The category after stages have been called. -/
def categoryAfter (record : File) (content : List UInt8) :
    List ProcessingStage → Option String → Option String
  | [], category => category
  | stage :: stages, category =>
      match stage.outcome record content with
      | .error _ => category
      | .ok result =>
          let category := result.category.orElse fun _ => category
          if result.passed then categoryAfter record content stages category else category

/-- What the loop leaves behind is what the stage that stops it says. -/
theorem runStageLoop_snd (stages : List ProcessingStage) (category : Option String) :
    (runStageLoop record content stages category).2
      = match stages.find? (ProcessingStage.stops record content) with
        | none => .ok { category := categoryAfter record content stages category }
        | some stage =>
            match stage.outcome record content with
            | .error text => .error text
            | .ok result =>
                if stage.name = "virus_scan" then
                  .ok { category := categoryAfter record content stages category
                        quarantined := true }
                else .ok { category := categoryAfter record content stages category
                           failedReason := result.reason } := by
  induction stages generalizing category with
  | nil => rfl
  | cons stage stages ih =>
    rw [runStageLoop, categoryAfter]
    cases houtcome : stage.outcome record content with
    | error text =>
      rw [List.find?_cons_of_pos (ProcessingStage.stops_of_error houtcome)]
      simp only [houtcome]
    | ok result =>
      have hstops := ProcessingStage.stops_of_ok houtcome
      by_cases hpassed : result.passed = true
      · rw [hpassed] at hstops
        rw [List.find?_cons_of_neg (by simp [hstops])]
        simp only [hpassed, if_true]
        exact ih _
      · rw [Bool.not_eq_true] at hpassed
        rw [hpassed] at hstops
        rw [List.find?_cons_of_pos hstops]
        simp only [hpassed, houtcome]
        by_cases hscan : stage.name = "virus_scan"
        · simp only [hscan, if_true]
          rfl
        · simp only [hscan, if_false]
          rfl

theorem runStageLoop_fst (stages : List ProcessingStage) (category : Option String) :
    (runStageLoop record content stages category).1
      = stages.takeWhile (fun stage => !stage.stops record content)
        ++ (stages.find? (ProcessingStage.stops record content)).toList := by
  induction stages generalizing category with
  | nil => rfl
  | cons stage stages ih =>
    rw [runStageLoop]
    cases houtcome : stage.outcome record content with
    | error text =>
      have hstops := ProcessingStage.stops_of_error houtcome
      rw [List.find?_cons_of_pos hstops, List.takeWhile_cons_of_neg (by simp [hstops])]
      rfl
    | ok result =>
      have hstops := ProcessingStage.stops_of_ok houtcome
      by_cases hpassed : result.passed = true
      · rw [hpassed] at hstops
        rw [List.find?_cons_of_neg (by simp [hstops]),
          List.takeWhile_cons_of_pos (by simp [hstops])]
        simp only [hpassed, if_true]
        rw [ih, List.cons_append]
      · rw [Bool.not_eq_true] at hpassed
        rw [hpassed] at hstops
        rw [List.find?_cons_of_pos hstops, List.takeWhile_cons_of_neg (by simp [hstops])]
        simp only [hpassed]
        by_cases hscan : stage.name = "virus_scan"
        · simp only [hscan, if_true]
          rfl
        · simp only [hscan, if_false]
          rfl

end Loop

/-! ### Where the file ends -/

section Ends

variable {env : PipelineEnv} {db : Database} {target : Target} {record : File}
  {config : ProjectConfig} {content : List UInt8} {stages : ProjectConfig → List ProcessingStage}

/-- The row after the commit of an outcome. -/
theorem get_writes {o : Outcome} (h : FileRepository.get db target.fileId target.organizationId
    target.projectId = .ok o.record) :
    FileRepository.get (applyAll (o.writes env target) db) target.fileId target.organizationId
      target.projectId = .ok (o.saved env.now) := by
  obtain ⟨-, hid, -, -, -⟩ := FileRepository.of_get h
  rw [FileRepository.get, oneOr_eq_ok] at h ⊢
  rw [o.applyAll_files, List.filter_map]
  have hkept : ((fun r : File => r.id == target.fileId && r.organizationId == target.organizationId
        && r.projectId == target.projectId && r.deletedAt.isNone) ∘ fun f : File =>
        if f.id = o.record.id then (o.record.flush (o.saved env.now)).toFun f else f)
      = fun r : File => r.id == target.fileId && r.organizationId == target.organizationId
        && r.projectId == target.projectId && r.deletedAt.isNone := by
    funext f
    by_cases hf : f.id = o.record.id
    · simp only [Function.comp_apply, if_pos hf, File.flush, Outcome.saved, flushColumn_self]
    · simp only [Function.comp_apply, if_neg hf]
  rw [hkept, h, List.map_singleton, if_pos rfl]
  simp only [File.flush, Outcome.saved, flushColumn_current]

/-- The run, once the stages are reached. -/
theorem executeStages_of_loads
    (h : PipelineExecutor.Loads env db target record config content) :
    PipelineExecutor.executeStages env db target stages
      = (runStageLoop record content (stages config) none).2.map fun out =>
          some (outcomeOf record out) := by
  obtain ⟨p, hprovider, hcontent⟩ := h.content_eq
  unfold PipelineExecutor.executeStages
  rw [h.get_eq, h.config_eq, hprovider]
  show (if record.status ≠ .processing then _ else _) = _
  rw [if_neg (not_not.mpr h.processing)]
  show (env.downloadBytes p record.storageKey >>= _) = _
  rw [hcontent]
  show ((runStageLoop record content (stages config) none).2 >>= _) = _
  cases (runStageLoop record content (stages config) none).2 with
  | error text => rfl
  | ok out => rfl

/-- The status the pipeline gives the file: a reason that is `None` is none. -/
def foldedStatus (record : File) (content : List UInt8) (stages : List ProcessingStage) :
    FileStatus :=
  match stages.find? (ProcessingStage.stops record content) with
  | none => .ready
  | some stage =>
      match stage.outcome record content with
      | .error _ => .failed
      | .ok result =>
          if stage.name = "virus_scan" then .quarantined
          else if result.reason.isSome then .failed
          else .ready

theorem status_run (h : PipelineExecutor.Loads env db target record config content)
    (stages : ProjectConfig → List ProcessingStage) :
    (FileRepository.get (PipelineExecutor.run env db target stages) target.fileId
      target.organizationId target.projectId).map File.status
      = .ok (foldedStatus record content (stages config)) := by
  have hget := h.get_eq
  have hcommit (o : Outcome) (ho : o.record = record) :
      (FileRepository.get (applyAll (o.writes env target) db) target.fileId
        target.organizationId target.projectId).map File.status = .ok o.status := by
    rw [get_writes (by rw [ho]; exact hget)]
    rfl
  have hfail (text : String) : PipelineExecutor.markFailed db target text = .ok
      { record := record, status := .failed, category := none
        event := "file.processing_failed"
        payload := [("file_id", .str target.fileId), ("reason", .str text)] } := by
    rw [PipelineExecutor.markFailed, hget]
    rfl
  unfold PipelineExecutor.run foldedStatus
  rw [executeStages_of_loads h, runStageLoop_snd]
  cases (stages config).find? (ProcessingStage.stops record content) with
  | none => exact hcommit _ rfl
  | some stage =>
    cases hstage : stage.outcome record content with
    | error text =>
      simp only [hstage, Except.map, hfail]
      exact hcommit _ rfl
    | ok result =>
      simp only [hstage]
      by_cases hscan : stage.name = "virus_scan"
      · simp only [hscan, if_true]
        exact hcommit _ rfl
      · simp only [hscan, if_false]
        cases hreason : result.reason with
        | none => exact hcommit _ rfl
        | some reason => exact hcommit _ rfl

theorem find?_stops_eq_none {stages : List ProcessingStage} :
    stages.find? (ProcessingStage.stops record content) = none ↔
      ∀ stage ∈ stages, ∃ result, stage.outcome record content = .ok result
        ∧ result.passed = true := by
  rw [List.find?_eq_none]
  refine forall₂_congr fun stage _ => ?_
  cases hstage : stage.outcome record content with
  | error text =>
    rw [ProcessingStage.stops_of_error hstage]
    exact ⟨fun h => absurd rfl h, nofun⟩
  | ok result =>
    rw [ProcessingStage.stops_of_ok hstage]
    constructor
    · intro h
      exact ⟨result, rfl, by simpa using h⟩
    · rintro ⟨_, ⟨⟩, hpassed⟩
      simp [hpassed]

/-- No stage stops the pipeline. -/
theorem stagesFolded_ready (h : PipelineExecutor.Loads env db target record config content)
    (hfind : (stages config).find? (ProcessingStage.stops record content) = none) :
    StagesFolded env db target record config content stages := by
  have hstatus := status_run h stages
  have hready : foldedStatus record content (stages config) = .ready := by
    simp only [foldedStatus, hfind]
  rw [hready] at hstatus
  refine ⟨runStageLoop_fst _ _, ?_, ?_, ?_⟩
  · exact iff_of_true hstatus (find?_stops_eq_none.mp hfind)
  · rw [hstatus, hfind]
    exact iff_of_false nofun nofun
  · rw [hstatus, hfind]
    exact iff_of_false nofun nofun

/-- Not all stages pass if one stops the pipeline. -/
theorem not_forall_passed {stages : List ProcessingStage} {stage : ProcessingStage}
    (hfind : stages.find? (ProcessingStage.stops record content) = some stage) :
    ¬∀ stage ∈ stages, ∃ result, stage.outcome record content = .ok result
      ∧ result.passed = true := by
  rw [← find?_stops_eq_none, hfind]
  exact nofun

/-- The scan stops it. -/
theorem stagesFolded_quarantined (h : PipelineExecutor.Loads env db target record config content)
    {stage : ProcessingStage} {result : StageResult}
    (hfind : (stages config).find? (ProcessingStage.stops record content) = some stage)
    (houtcome : stage.outcome record content = .ok result) (hname : stage.name = "virus_scan") :
    StagesFolded env db target record config content stages := by
  have hstatus := status_run h stages
  have hquarantined : foldedStatus record content (stages config) = .quarantined := by
    simp only [foldedStatus, hfind, houtcome, hname, if_true]
  rw [hquarantined] at hstatus
  refine ⟨runStageLoop_fst _ _, ?_, ?_, ?_⟩
  · rw [hstatus]
    exact iff_of_false nofun (not_forall_passed hfind)
  · exact iff_of_true hstatus ⟨stage, result, hfind, houtcome, hname⟩
  · rw [hstatus]
    refine iff_of_false nofun ?_
    rintro ⟨stage', hfind', hother⟩
    obtain rfl := Option.some.inj (hfind.symm.trans hfind')
    exact hother result houtcome hname

/-- Another stage stops it, and the file fails. -/
theorem stagesFolded_failed (h : PipelineExecutor.Loads env db target record config content)
    {stage : ProcessingStage}
    (hfind : (stages config).find? (ProcessingStage.stops record content) = some stage)
    (hname : ∀ result, stage.outcome record content = .ok result → stage.name ≠ "virus_scan")
    (hfailed : foldedStatus record content (stages config) = .failed) :
    StagesFolded env db target record config content stages := by
  have hstatus := status_run h stages
  rw [hfailed] at hstatus
  refine ⟨runStageLoop_fst _ _, ?_, ?_, ?_⟩
  · rw [hstatus]
    exact iff_of_false nofun (not_forall_passed hfind)
  · rw [hstatus]
    refine iff_of_false nofun ?_
    rintro ⟨stage', result, hfind', houtcome, hscan⟩
    obtain rfl := Option.some.inj (hfind.symm.trans hfind')
    exact hname result houtcome hscan
  · exact iff_of_true hstatus ⟨stage, hfind, hname⟩

/-- **A stage that stops the pipeline, not the scan, gives a reason**: then the file ends as that
stage says. -/
theorem stagesFolded_iff (h : PipelineExecutor.Loads env db target record config content)
    (stages : ProjectConfig → List ProcessingStage) :
    StagesFolded env db target record config content stages ↔
      ∀ stage result, (stages config).find? (ProcessingStage.stops record content) = some stage →
        stage.outcome record content = .ok result →
          stage.name = "virus_scan" ∨ result.reason ≠ none := by
  constructor
  · intro hfolded stage result hfind houtcome
    by_contra hnone
    obtain ⟨hscan, hreason⟩ := not_or.mp hnone
    rw [not_not] at hreason
    -- the file ends ready, though a stage has stopped the pipeline
    have hready : foldedStatus record content (stages config) = .ready := by
      simp only [foldedStatus, hfind, houtcome, hscan, if_false, hreason]
      rfl
    have hstatus := status_run h stages
    rw [hready] at hstatus
    exact not_forall_passed hfind (hfolded.ready.mp hstatus)
  · intro hcond
    cases hfind : (stages config).find? (ProcessingStage.stops record content) with
    | none => exact stagesFolded_ready h hfind
    | some stage =>
      cases houtcome : stage.outcome record content with
      | error text =>
        refine stagesFolded_failed h hfind (fun result hok => ?_) ?_
        · cases houtcome.symm.trans hok
        · simp only [foldedStatus, hfind, houtcome]
      | ok result =>
        by_cases hname : stage.name = "virus_scan"
        · exact stagesFolded_quarantined h hfind houtcome hname
        · have hreason := (hcond stage result hfind houtcome).resolve_left hname
          refine stagesFolded_failed h hfind (fun _ _ => hname) ?_
          simp only [foldedStatus, hfind, houtcome, hname, if_false,
            Option.isSome_iff_ne_none.mpr hreason, if_true]

theorem classification_ne_empty (filename : String) :
    ∃ category, (ClassificationStage.run filename).category = some category ∧ category ≠ "" := by
  refine ⟨_, rfl, ?_⟩
  cases hfind : categoryMap.find? fun c =>
      c.2.contains (Text.lower (Text.pathSuffix filename)) with
  | none => exact (by decide : "other" ≠ "")
  | some c =>
    have hnames : ∀ c ∈ categoryMap, c.1 ≠ "" := by decide
    exact hnames c (List.mem_of_find?_eq_some hfind)

/-- Stages that classify nothing leave the category to the last one. -/
theorem categoryAfter_append {before : List ProcessingStage}
    (hquiet : ∀ stage ∈ before, ∀ result, stage.outcome record content = .ok result →
      result.category = none) :
    categoryAfter record content (before ++ [Stage.classification.processing env]) none
      = match before.find? (ProcessingStage.stops record content) with
        | none => (ClassificationStage.run record.filename).category
        | some _ => none := by
  induction before with
  | nil => rfl
  | cons stage before ih =>
    obtain ⟨hstage, hbefore⟩ := List.forall_mem_cons.mp hquiet
    rw [List.cons_append, categoryAfter]
    cases houtcome : stage.outcome record content with
    | error text =>
      rw [List.find?_cons_of_pos (ProcessingStage.stops_of_error houtcome)]
    | ok result =>
      have hstops := ProcessingStage.stops_of_ok houtcome
      by_cases hpassed : result.passed = true
      · rw [hpassed] at hstops
        rw [List.find?_cons_of_neg (by simp [hstops])]
        simp only [hstage result houtcome, hpassed, if_true]
        exact ih hbefore
      · rw [Bool.not_eq_true] at hpassed
        rw [hpassed] at hstops
        rw [List.find?_cons_of_pos hstops]
        simp only [hstage result houtcome, hpassed]
        rfl

theorem optStr_inj {a b : Option String} : Json.optStr a = Json.optStr b ↔ a = b := by
  cases a with
  | none =>
    cases b with
    | none => exact iff_of_true rfl rfl
    | some b => exact iff_of_false nofun nofun
  | some a =>
    cases b with
    | none => exact iff_of_false nofun nofun
    | some b => simp [Json.optStr]

theorem outcomeOf_category (record : File) (out : StagesOutcome) :
    (outcomeOf record out).category = out.category := by
  unfold outcomeOf
  split
  · rfl
  · split
    · rfl
    · rfl

/-- What is carried when a stage stops the pipeline that classified nothing. -/
theorem outcomeCarries_stopped {stages : List ProcessingStage} {stage : ProcessingStage}
    {result : StageResult} {out : StagesOutcome}
    (hfind : stages.find? (ProcessingStage.stops record content) = some stage)
    (houtcome : stage.outcome record content = .ok result) (hout : out.category = none) :
    OutcomeCarries env (outcomeOf record out) content stages ↔
      record.category = (ClassificationStage.run record.filename).category ∧
        ((outcomeOf record out).status = .failed ∨ (outcomeOf record out).status = .quarantined →
          Fields.get? (outcomeOf record out).payload "reason"
            = some (.optStr result.reason)) := by
  have hrecord := outcomeOf_record record out
  have hcategory : ((outcomeOf record out).saved env.now).category = record.category := by
    rw [Outcome.saved, outcomeOf_category, hout, hrecord]
    rfl
  constructor
  · rintro ⟨hreason, hsaved⟩
    rw [hrecord] at hreason hsaved
    exact ⟨hcategory.symm.trans hsaved, fun hstatus => hreason hstatus stage result hfind houtcome⟩
  · rintro ⟨hsaved, hreason⟩
    refine ⟨fun hstatus stage' result' hfind' houtcome' => ?_, ?_⟩
    · rw [hrecord] at hfind' houtcome'
      obtain rfl := Option.some.inj (hfind.symm.trans hfind')
      obtain rfl := Except.ok.inj (houtcome.symm.trans houtcome')
      exact hreason hstatus
    · rw [hcategory, hrecord]
      exact hsaved

/-- The classification is reached. -/
theorem outcomeCarries_classified {stages : List ProcessingStage} {category : String}
    (hcategory : (ClassificationStage.run record.filename).category = some category)
    (hne : category ≠ "") :
    OutcomeCarries env (outcomeOf record { category := some category }) content stages := by
  refine ⟨?_, ?_⟩
  · rintro (hstatus | hstatus)
    · cases hstatus
    · cases hstatus
  · show (orNone (some category)).orElse _ = (ClassificationStage.run record.filename).category
    rw [hcategory, orNone_of_ne hne]
    rfl

/-- The scan stops the pipeline: the event has no reason. -/
theorem outcomeCarries_quarantined {stages : List ProcessingStage} {stage : ProcessingStage}
    {result : StageResult}
    (hfind : stages.find? (ProcessingStage.stops record content) = some stage)
    (houtcome : stage.outcome record content = .ok result) :
    OutcomeCarries env (outcomeOf record { category := none, quarantined := true }) content stages ↔
      record.category = (ClassificationStage.run record.filename).category
        ∧ result.reason = none := by
  rw [outcomeCarries_stopped hfind houtcome rfl]
  refine and_congr_right fun _ => ?_
  show (_ → some (Json.optStr none) = some (Json.optStr result.reason)) ↔ _
  rw [Option.some_inj, optStr_inj]
  exact ⟨fun hreason => (hreason (.inr rfl)).symm, fun hreason _ => hreason.symm⟩

/-- Another stage does: the event has its reason. -/
theorem outcomeCarries_failed {stages : List ProcessingStage} {stage : ProcessingStage}
    {result : StageResult}
    (hfind : stages.find? (ProcessingStage.stops record content) = some stage)
    (houtcome : stage.outcome record content = .ok result) :
    OutcomeCarries env (outcomeOf record { category := none, failedReason := result.reason })
        content stages ↔
      record.category = (ClassificationStage.run record.filename).category := by
  rw [outcomeCarries_stopped hfind houtcome rfl]
  refine and_iff_left ?_
  cases result.reason with
  | none =>
    rintro (hstatus | hstatus)
    · cases hstatus
    · cases hstatus
  | some reason => exact fun _ => rfl

/-- **No stage before the classification stops the pipeline**; or the row has had its category
before, and the stage that does is not a scan that gives a reason. -/
theorem outcomeCarries_iff (h : PipelineExecutor.Loads env db target record config content)
    (before : ProjectConfig → List ProcessingStage)
    (hquiet : ∀ stage ∈ before config, ∀ result, stage.outcome record content = .ok result →
      result.category = none) {o : Outcome}
    (ho : PipelineExecutor.executeStages env db target (fun config =>
      before config ++ [Stage.classification.processing env]) = .ok (some o)) :
    OutcomeCarries env o content (before config ++ [Stage.classification.processing env]) ↔
      ∀ stage result, (before config).find? (ProcessingStage.stops record content) = some stage →
        stage.outcome record content = .ok result →
          record.category = (ClassificationStage.run record.filename).category
            ∧ (stage.name = "virus_scan" → result.reason = none) := by
  have hcls : [Stage.classification.processing env].find? (ProcessingStage.stops record content)
      = none := rfl
  obtain ⟨category, hcategory, hne⟩ := classification_ne_empty record.filename
  rw [executeStages_of_loads h, runStageLoop_snd, categoryAfter_append hquiet, List.find?_append,
    hcls, hcategory] at ho
  cases hfind : (before config).find? (ProcessingStage.stops record content) with
  | none =>
    simp only [hfind] at ho
    obtain rfl : outcomeOf record { category := some category } = o :=
      Option.some.inj (Except.ok.inj ho)
    exact iff_of_true (outcomeCarries_classified hcategory hne) nofun
  | some stage =>
    have hfirst : (before config ++ [Stage.classification.processing env]).find?
        (ProcessingStage.stops record content) = some stage := by
      rw [List.find?_append, hfind]
      rfl
    cases houtcome : stage.outcome record content with
    | error text =>
      simp only [hfind, Option.some_or, houtcome] at ho
      cases ho
    | ok result =>
      simp only [hfind, Option.some_or, houtcome] at ho
      -- the stage that stops the pipeline is this one
      have hcond (P : ProcessingStage → StageResult → Prop) :
          (∀ stage' result', some stage = some stage' →
            stage'.outcome record content = .ok result' → P stage' result') ↔ P stage result := by
        constructor
        · intro hall
          exact hall stage result rfl houtcome
        · rintro hP _ result' ⟨⟩ houtcome'
          rw [houtcome] at houtcome'
          cases houtcome'
          exact hP
      rw [hcond]
      by_cases hname : stage.name = "virus_scan"
      · simp only [hname, if_true] at ho
        obtain rfl : outcomeOf record { category := none, quarantined := true } = o :=
          Option.some.inj (Except.ok.inj ho)
        rw [outcomeCarries_quarantined hfirst houtcome]
        exact and_congr_right fun _ => ⟨fun hreason _ => hreason, fun hreason => hreason hname⟩
      · simp only [hname, if_false] at ho
        obtain rfl : outcomeOf record { category := none, failedReason := result.reason } = o :=
          Option.some.inj (Except.ok.inj ho)
        rw [outcomeCarries_failed hfirst houtcome]
        exact (and_iff_left fun hscan => absurd hscan hname).symm

end Ends

/-! ### A file that is processed -/

/-- The stages of a project that scans, up to the classification. -/
def scanStages (env : PipelineEnv) : List ProcessingStage :=
  [Stage.virusScan.processing env, Stage.mimeValidation.processing env]

/-- The stages of the repository classify nothing before the classification. -/
theorem scanStages_quiet {env : PipelineEnv} {record : File} {content : List UInt8} :
    ∀ stage ∈ scanStages env, ∀ result, stage.outcome record content = .ok result →
      result.category = none := by
  intro stage hstage result houtcome
  rcases List.mem_cons.mp hstage with rfl | hstage
  · change VirusScanStage.run env record.filename content = .ok result at houtcome
    simp only [VirusScanStage.run] at houtcome
    split at houtcome
    · cases houtcome
    · split at houtcome
      · cases houtcome
        rfl
      · split at houtcome
        · cases houtcome
        · cases houtcome
          rfl
  · obtain rfl := List.mem_singleton.mp hstage
    change MimeValidationStage.run env record.contentType content = .ok result at houtcome
    unfold MimeValidationStage.run at houtcome
    obtain ⟨detected, -, houtcome⟩ := bind_eq_ok.mp houtcome
    cases detected with
    | none =>
      cases houtcome
      rfl
    | some detected =>
      simp only at houtcome
      split at houtcome
      · cases houtcome
        rfl
      · cases houtcome
        rfl

/-- A run for the file of `scannedDb`, with a reply of clamd. -/
def scannedPipeline (reply : ScanReply) : PipelineEnv :=
  { devPipeline "e0" 5 with instream := fun _ => reply }

theorem loads_scannedDb (reply : ScanReply) : ∃ config,
    PipelineExecutor.Loads (scannedPipeline reply) scannedDb ⟨"f0", "acme", "p0"⟩ scannedFile config
      [97] := by
  have hok : (PipelineExecutor.provider (scannedPipeline reply) scannedDb
      ⟨"f0", "acme", "p0"⟩).toOption.isSome = true := rfl
  have hprovider : ∃ p, PipelineExecutor.provider (scannedPipeline reply) scannedDb
      ⟨"f0", "acme", "p0"⟩ = .ok p := by
    cases h : PipelineExecutor.provider (scannedPipeline reply) scannedDb
        ⟨"f0", "acme", "p0"⟩ with
    | error e =>
      rw [h] at hok
      cases hok
    | ok p => exact ⟨p, rfl⟩
  obtain ⟨p, hp⟩ := hprovider
  exact ⟨_, rfl, rfl, rfl, p, hp, rfl⟩

/-- A stage that fails and says no more. -/
def silentStage : ProcessingStage := ⟨"checksum", fun _ _ _ => .ok { passed := false }⟩

/-- A file that a stage has failed is ready. -/
theorem silentStage_ready : ∃ config,
    PipelineExecutor.Loads (scannedPipeline (.replied (some ("OK", none)))) scannedDb
        ⟨"f0", "acme", "p0"⟩ scannedFile config [97] ∧
      silentStage.outcome scannedFile [97] = .ok { passed := false } ∧
      (FileRepository.get (PipelineExecutor.run (scannedPipeline (.replied (some ("OK", none))))
        scannedDb ⟨"f0", "acme", "p0"⟩ fun _ => [silentStage]) "f0" "acme" "p0").map File.status
          = .ok .ready ∧
      ¬ StagesFolded (scannedPipeline (.replied (some ("OK", none)))) scannedDb
        ⟨"f0", "acme", "p0"⟩ scannedFile config [97] fun _ => [silentStage] := by
  obtain ⟨config, hloads⟩ := loads_scannedDb (.replied (some ("OK", none)))
  have hready := status_run hloads fun _ => [silentStage]
  refine ⟨config, hloads, rfl, hready, fun hfolded => ?_⟩
  obtain ⟨result, houtcome, hpassed⟩ := hfolded.ready.mp hready silentStage List.mem_cons_self
  obtain rfl := Except.ok.inj houtcome
  cases hpassed

theorem stagesFolded_iff_scan : ∃ config,
    StagesFolded (scannedPipeline .timedOut) scannedDb ⟨"f0", "acme", "p0"⟩ scannedFile config [97]
        (fun _ => scanStages (scannedPipeline .timedOut)) ↔
      ∀ stage result, (scanStages (scannedPipeline .timedOut)).find?
          (ProcessingStage.stops scannedFile [97]) = some stage →
        stage.outcome scannedFile [97] = .ok result →
          stage.name = "virus_scan" ∨ result.reason ≠ none := by
  obtain ⟨config, hloads⟩ := loads_scannedDb .timedOut
  exact ⟨config, stagesFolded_iff hloads fun _ => scanStages (scannedPipeline .timedOut)⟩

/-- A virus in the file. -/
def infectedPipeline : PipelineEnv := scannedPipeline (.replied (some ("FOUND", some "Eicar")))

/-- The event of a quarantine has no reason, and the row no category. -/
theorem infected_carries_nothing : ∃ o,
    PipelineExecutor.execute infectedPipeline scannedDb ⟨"f0", "acme", "p0"⟩ = .ok (some o) ∧
      o.status = .quarantined ∧ Fields.get? o.payload "reason" = some .null ∧
      (Stage.virusScan.processing infectedPipeline).outcome scannedFile [97]
        = .ok { passed := false, reason := some "Virus detected: Eicar" } ∧
      (o.saved infectedPipeline.now).category = none ∧
      ¬ OutcomeCarries infectedPipeline o [97]
        (scanStages infectedPipeline ++ [Stage.classification.processing infectedPipeline]) := by
  refine ⟨_, rfl, rfl, rfl, rfl, rfl, fun hcarries => ?_⟩
  cases hcarries.category

theorem outcomeCarries_iff_clean :
    OutcomeCarries (scannedPipeline (.replied (some ("OK", none)))) scannedOutcome [97]
        (scanStages (scannedPipeline (.replied (some ("OK", none))))
          ++ [Stage.classification.processing (scannedPipeline (.replied (some ("OK", none))))]) ↔
      ∀ stage result, (scanStages (scannedPipeline (.replied (some ("OK", none))))).find?
          (ProcessingStage.stops scannedFile [97]) = some stage →
        stage.outcome scannedFile [97] = .ok result →
          scannedFile.category = (ClassificationStage.run scannedFile.filename).category
            ∧ (stage.name = "virus_scan" → result.reason = none) := by
  obtain ⟨config, hloads⟩ := loads_scannedDb (.replied (some ("OK", none)))
  exact outcomeCarries_iff hloads
    (fun _ => scanStages (scannedPipeline (.replied (some ("OK", none))))) scanStages_quiet rfl

end FileNest
