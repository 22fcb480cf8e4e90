import FileNest.Lib.Subjects
import FileNest.Processing.Lifecycle
import FileNest.Uploads.Admission
import FileNest.Webhook.Worker

/-!
# The subjects of events

Publishers put the subject of an event together from organisation, project and event type;
the workers subscribe to patterns and take the subjects apart again.  Event types have two
tokens, which the pattern of the webhook worker and its parse rely on — all but the one that
announces an upload.

## Main definitions

* `webhookSubject`, `processingSubject` — the subscriptions of the workers.
* `Publisher`, `Publisher.enqueued` — what enqueues events, and the events.
* `SubjectReadsBack` — what the workers are to make of an event.

## Main results

* `Publisher.publishes` — every event is one of those its publisher names.
* `readsBack_file_iff` — an event type of two tokens is read back.
* `subjects_readBack_iff` — **so is every event but that of `init_upload`.**
* `initiated_unread` — an upload that no webhook hears of.
-/

namespace FileNest

open Subject Webhook

/-- What the webhook worker subscribes to. -/
def webhookSubject : String := "filenest.*.*.file.*"

/-- What the processing worker subscribes to. -/
def processingSubject : String := "filenest.*.*.file.uploaded"

/-- What the stream of events takes. -/
def streamSubject : String := "filenest.>"

/-! ### Publishers -/

/-- What enqueues events: a service operation, a run of the pipeline, and the handler of a run
that raised. -/
inductive Publisher where
  | operation (call : ServiceCall)
  | run (env : PipelineEnv) (target : Target)
  | failure (env : PipelineEnv) (target : Target) (reason : String)

namespace Publisher

/-- What it writes, given the database it reads. -/
def writes (db : Database) : Publisher → Option (List DbWrite)
  | operation call => call.writes db
  | run env target =>
      match PipelineExecutor.execute env db target with
      | .ok (some o) => some (o.writes env target)
      | .ok none | .error _ => none
  | failure env target reason =>
      match PipelineExecutor.markFailed db target reason with
      | .ok o => some (o.writes env target)
      | .error _ => none

/-- The events it enqueues. -/
def enqueued (db : Database) (publisher : Publisher) : List OutboxMessage :=
  ((publisher.writes db).map Outbox.enqueued).getD []

/-- The types of the events it may enqueue, less their first token. -/
def eventNames : Publisher → List String
  | operation call =>
      match call.op with
      | .initUpload _ => ["upload.initiated"]
      | .confirmUpload _ | .multipartComplete _ _ => ["uploaded", "ready"]
      | .restoreVersion _ _ => ["restored"]
      | .deleteFile _ => ["deleted"]
      | _ => []
  | run _ _ => ["quarantined", "processing_failed", "ready"]
  | failure _ _ _ => ["processing_failed"]

/-- It is `init_upload`. -/
def initiates : Publisher → Bool
  | operation call =>
      match call.op with
      | .initUpload _ => true
      | _ => false
  | run _ _ | failure _ _ _ => false

end Publisher

/-- The row announces an event of this type for its organisation and project. -/
def OutboxMessage.Announces (row : OutboxMessage) (event : String) : Prop :=
  row.subject = eventSubject row.organizationId row.projectId event

/-! ### The events -/

section Events

variable {db : Database} {row : OutboxMessage}

theorem settleEvent_announces (ctx : TenantContext) (projectId : String) (config : ProjectConfig)
    (record : File) (id : String) (now : ℕ) :
    ∃ name ∈ ["uploaded", "ready"],
      (settleEvent ctx projectId config record id now).Announces ("file." ++ name) := by
  cases hscan : config.virusScanEnabled with
  | true => exact ⟨"uploaded", by simp, by rw [OutboxMessage.Announces, settleEvent, hscan]; rfl⟩
  | false => exact ⟨"ready", by simp, by rw [OutboxMessage.Announces, settleEvent, hscan]; rfl⟩

/-- What settling an upload enqueues. -/
theorem mem_enqueued_settleWrites {ctx : TenantContext} {env : Env} {projectId : String}
    {config : ProjectConfig} {record : File} {version : Option String} {pre : List DbWrite}
    (hpre : ∀ x ∈ pre, x.table ≠ .outboxMessages)
    (h : row ∈ Outbox.enqueued (pre ++ settleWrites ctx env projectId config record version)) :
    ∃ name ∈ ["uploaded", "ready"], row.Announces ("file." ++ name) := by
  rw [settleWrites, Processing.enqueued_append, Processing.enqueued_append,
    Processing.enqueued_of_table_ne hpre, Processing.enqueued_of_table_ne fun x hx => by
      rw [mem_settleVersions_table ctx env projectId record version hx]; decide] at h
  obtain rfl := List.mem_singleton.mp h
  exact settleEvent_announces ctx projectId config record _ _

/-- **Every event of an operation** is one of those it may enqueue. -/
theorem Publisher.operation_publishes (hdb : db.Good) {call : ServiceCall} {ws : List DbWrite}
    (hws : call.writes db = some ws) (h : row ∈ Outbox.enqueued ws) :
    ∃ name ∈ (operation call).eventNames, row.Announces ("file." ++ name) := by
  obtain ⟨r, hr⟩ := ServiceResult.writes_eq_some.mp hws
  have hsound := Operation.sound hdb hr
  obtain ⟨ctx, env, projectId, op⟩ := call
  have hquiet : Table.outboxMessages ∉ op.tables → False := fun htable => by
    refine htable ?_
    exact hsound.tables _ (Outbox.mem_enqueued.mp h)
  cases op with
  | initUpload req =>
    obtain ⟨_, _, _, -, -, -, -, rfl⟩ := FileService.initUpload_eq_ok.mp hr
    obtain rfl := List.mem_singleton.mp h
    exact ⟨"upload.initiated", List.mem_singleton_self _, rfl⟩
  | confirmUpload fileId =>
    obtain ⟨record, config, -, -, -, rfl⟩ := FileService.confirmUpload_eq_ok.mp hr
    rw [← List.nil_append (settleWrites ..)] at h
    exact mem_enqueued_settleWrites (by simp) h
  | multipartComplete uploadId req =>
    obtain ⟨session, record, config, provider, -, -, -, -, -, -, -, rfl⟩ :=
      MultipartUploadService.complete_eq_ok.mp hr
    rw [← List.singleton_append] at h
    exact mem_enqueued_settleWrites (by simp [UploadSession.save]) h
  | restoreVersion fileId versionId =>
    simp only [ServiceCall.result, Operation.run, FileService.restoreVersion, bind_eq_ok,
      pure_eq_ok, Prod.mk.injEq] at hr
    obtain ⟨record, -, version, -, -, rfl⟩ := hr
    obtain rfl := List.mem_singleton.mp h
    exact ⟨"restored", List.mem_singleton_self _, rfl⟩
  | deleteFile fileId =>
    simp only [ServiceCall.result, Operation.run, FileService.deleteFile, bind_eq_ok, pure_eq_ok,
      Prod.mk.injEq] at hr
    obtain ⟨record, -, -, rfl⟩ := hr
    obtain rfl := List.mem_singleton.mp h
    exact ⟨"deleted", List.mem_singleton_self _, rfl⟩
  -- the rest does not write to the outbox
  | _ => exact (hquiet (by simp [Operation.tables])).elim

theorem outcomeEvent_eq_some {status : FileStatus} {event : String}
    (h : outcomeEvent status = some event) :
    ∃ name ∈ ["quarantined", "processing_failed", "ready"], event = "file." ++ name := by
  cases status with
  | ready => exact ⟨"ready", by simp, (Option.some.inj h).symm⟩
  | failed => exact ⟨"processing_failed", by simp, (Option.some.inj h).symm⟩
  | quarantined => exact ⟨"quarantined", by simp, (Option.some.inj h).symm⟩
  | _ => cases h

/-- What an outcome enqueues. -/
theorem Outcome.mem_enqueued {o : Outcome} {env : PipelineEnv} {target : Target}
    (h : row ∈ Outbox.enqueued (o.writes env target)) : row.Announces o.event := by
  obtain rfl := List.mem_singleton.mp h
  rfl

/-- **Every event** is one of those its publisher may enqueue. -/
theorem Publisher.publishes (hdb : db.Good) {publisher : Publisher}
    (h : row ∈ publisher.enqueued db) :
    ∃ name ∈ publisher.eventNames, row.Announces ("file." ++ name) := by
  cases hws : publisher.writes db with
  | none =>
    rw [enqueued, hws] at h
    cases h
  | some ws =>
    rw [enqueued, hws] at h
    cases publisher with
    | operation call => exact operation_publishes hdb hws h
    | run env target =>
      rw [writes] at hws
      split at hws
      · rename_i o ho
        obtain rfl := Option.some.inj hws
        obtain ⟨name, hname, hevent⟩ :=
          outcomeEvent_eq_some (PipelineExecutor.execute_eq_some ho).1.event_eq
        exact ⟨name, hname, hevent ▸ o.mem_enqueued h⟩
      · cases hws
      · cases hws
    | failure env target reason =>
      rw [writes] at hws
      -- a run that is given up fails the file, and says so
      split at hws
      · rename_i o ho
        obtain rfl := Option.some.inj hws
        obtain ⟨hterminal, hfailed⟩ := PipelineExecutor.markFailed_eq_ok ho
        have hevent := hterminal.event_eq
        rw [hfailed] at hevent
        refine ⟨"processing_failed", List.mem_singleton_self _, ?_⟩
        rw [show "file." ++ "processing_failed" = o.event from Option.some.inj hevent]
        exact o.mem_enqueued h
      · cases hws

/-- `init_upload` enqueues one type of event, and all others are made of two words. -/
theorem Publisher.name_cases {publisher : Publisher} {name : String}
    (h : name ∈ publisher.eventNames) :
    publisher.initiates = true ∧ name = "upload.initiated"
      ∨ publisher.initiates = false ∧ isPlain name = true := by
  have hplain : ∀ names : List String, names.all isPlain = true → name ∈ names →
      isPlain name = true := fun names hall hmem => List.all_eq_true.mp hall name hmem
  cases publisher with
  | operation call =>
    obtain ⟨ctx, env, projectId, op⟩ := call
    cases op with
    | initUpload req => exact .inl ⟨rfl, List.mem_singleton.mp h⟩
    | confirmUpload _ | multipartComplete _ _ =>
      exact .inr ⟨rfl, hplain ["uploaded", "ready"] (by decide) h⟩
    | restoreVersion _ _ => exact .inr ⟨rfl, hplain ["restored"] (by decide) h⟩
    | deleteFile _ => exact .inr ⟨rfl, hplain ["deleted"] (by decide) h⟩
    | _ => cases h
  | run _ _ =>
    exact .inr ⟨rfl, hplain ["quarantined", "processing_failed", "ready"] (by decide) h⟩
  | failure _ _ _ => exact .inr ⟨rfl, hplain ["processing_failed"] (by decide) h⟩

end Events

/-! ### The workers -/

/-- What the workers make of an event of a type that is sent on its subject: the webhook worker
gets it and reads off the subject what was published, so that a webhook subscribed to nothing
in particular gets it; the processing worker gets it if it is told of an upload. -/
structure SubjectReadsBack (broker : Broker) (row : OutboxMessage) (event : String) : Prop where
  received : broker.delivers webhookSubject row.subject = true
  parsed : ∀ data, EventMessage.event ⟨row.subject, .ok data⟩
    = .ok ⟨row.organizationId, row.projectId, event, data⟩
  unrestricted : ∀ (db : Database) (data : String) (read : Webhook.Event),
    EventMessage.event ⟨row.subject, .ok data⟩ = .ok read →
    ∀ w ∈ WebhookRepository.listActiveForProject db row.organizationId row.projectId,
      w.events = "" → w ∈ matching db read
  processed : broker.delivers processingSubject row.subject = true ↔ event = "file.uploaded"

section SubjectReadsBack

variable {broker : Broker} {row : OutboxMessage}

theorem tokens_eventSubject {o p : String} (ho : '.' ∉ o.toList) (hp : '.' ∉ p.toList)
    (event : String) :
    tokens (eventSubject o p event) = "filenest" :: o :: p :: tokens event := by
  have hsubject : eventSubject o p event
      = "filenest" ++ "." ++ (o ++ "." ++ (p ++ "." ++ event)) := by
    simp only [eventSubject, String.append_assoc]
    rfl
  rw [hsubject, tokens_append (by decide), tokens_append ho, tokens_append hp]

/-- The pattern of the webhook worker, on the tokens of a subject. -/
theorem covers_webhookSubject (t o p : String) (ts : List String) :
    covers (tokens webhookSubject) (t :: o :: p :: ts)
      = ("filenest" == t && covers ["file", "*"] ts) := by
  rw [show tokens webhookSubject = ["filenest", "*", "*", "file", "*"] from rfl,
    covers_word (by decide), covers_any, covers_any]

/-- The pattern of the processing worker. -/
theorem covers_processingSubject (t o p : String) (ts : List String) :
    covers (tokens processingSubject) (t :: o :: p :: ts)
      = ("filenest" == t && covers ["file", "uploaded"] ts) := by
  rw [show tokens processingSubject = ["filenest", "*", "*", "file", "uploaded"] from rfl,
    covers_word (by decide), covers_any, covers_any]

/-- The processing worker is subscribed to what its pattern covers. -/
theorem subscribed_eq_covers (m : Message) : ProcessingWorker.subscribed m
    = covers (tokens processingSubject) (tokens m.subject) := by
  rw [Bool.eq_iff_iff, show tokens processingSubject = ["filenest", "*", "*", "file", "uploaded"]
    from rfl, covers_word_iff (by decide)]
  simp only [covers_any_iff, covers_word_iff (show "file" ≠ "*" ∧ "file" ≠ ">" by decide),
    covers_word_iff (show "uploaded" ≠ "*" ∧ "uploaded" ≠ ">" by decide), covers_nil_iff]
  rw [tokens, ProcessingWorker.subscribed]
  split
  · rename_i o p hsplit
    exact iff_of_true rfl ⟨_, hsplit, o, _, rfl, p, _, rfl, _, rfl, _, rfl, rfl⟩
  · rename_i hnot
    refine iff_of_false Bool.false_ne_true ?_
    rintro ⟨_, htokens, o, _, rfl, p, _, rfl, _, rfl, _, rfl, rfl⟩
    exact hnot o p htokens

/-- The stream takes every event whose tokens the broker takes. -/
theorem stream_delivers {event : String} (hrow : row.Announces event)
    (ho : '.' ∉ row.organizationId.toList) (hp : '.' ∉ row.projectId.toList)
    (htokens : ∀ t ∈ tokens row.subject, broker.isToken t = true) :
    broker.delivers streamSubject row.subject = true := by
  refine Broker.delivers_iff.mpr ⟨htokens, ?_⟩
  rw [hrow, tokens_eventSubject ho hp]
  rfl

/-- **An event type of two tokens is read back**, if the ids are tokens. -/
theorem readsBack_file_iff {name : String} (hrow : row.Announces ("file." ++ name))
    (ho : '.' ∉ row.organizationId.toList) (hp : '.' ∉ row.projectId.toList)
    (hname : isPlain name = true) : SubjectReadsBack broker row ("file." ++ name) ↔
      broker.isToken row.organizationId = true ∧ broker.isToken row.projectId = true := by
  have htokens : tokens row.subject
      = ["filenest", row.organizationId, row.projectId, "file", name] := by
    rw [hrow, tokens_eventSubject ho hp, show "file." ++ name = "file" ++ "." ++ name from rfl,
      tokens_append (by decide), tokens_of_notMem (dot_notMem_of_isPlain hname)]
  have hparsed : ∀ data, EventMessage.event ⟨row.subject, .ok data⟩
      = .ok ⟨row.organizationId, row.projectId, "file." ++ name, data⟩ := by
    intro data
    -- the worker splits the subject where the broker does
    have hsplit : Text.split '.' row.subject = _ := htokens
    simp only [EventMessage.event, hsplit]
    rfl
  constructor
  · intro h
    have hall := (Broker.delivers_iff.mp h.received).1
    rw [htokens] at hall
    exact ⟨hall _ (by simp), hall _ (by simp)⟩
  · rintro ⟨horganization, hproject⟩
    have hall : ∀ t ∈ ["filenest", row.organizationId, row.projectId, "file", name],
        broker.isToken t = true := by
      simp only [List.mem_cons, List.not_mem_nil, or_false, forall_eq_or_imp, forall_eq]
      exact ⟨broker.isToken_of_isPlain _ (by decide), horganization, hproject,
        broker.isToken_of_isPlain _ (by decide), broker.isToken_of_isPlain _ hname⟩
    refine ⟨?_, hparsed, ?_, ?_⟩
    · rw [Broker.delivers_iff, htokens]
      refine ⟨hall, ?_⟩
      rw [covers_webhookSubject, covers_word (by decide), covers_any]
      rfl
    · intro db data read hread w hw hevents
      rw [hparsed] at hread
      obtain rfl := Except.ok.inj hread
      exact List.mem_filter.mpr ⟨hw, by rw [hevents]; rfl⟩
    · rw [Broker.delivers_iff, htokens]
      rw [covers_processingSubject, covers_word (by decide), covers_word (by decide),
        beq_self_eq_true, beq_self_eq_true, Bool.true_and, Bool.true_and]
      constructor
      · rintro ⟨-, hname⟩
        rw [Bool.and_eq_true, beq_iff_eq] at hname
        rw [← hname.1]
        rfl
      · intro hevent
        obtain rfl : name = "uploaded" := by
          have hlist := congrArg String.toList hevent
          rw [String.toList_append] at hlist
          exact String.toList_injective (List.append_cancel_left hlist)
        exact ⟨hall, rfl⟩

/-- The event of `init_upload` has a token too many. -/
theorem not_readsBack_initiated (hrow : row.Announces "file.upload.initiated")
    (ho : '.' ∉ row.organizationId.toList) (hp : '.' ∉ row.projectId.toList) (event : String) :
    ¬SubjectReadsBack broker row event := by
  intro h
  have hcovers := (Broker.delivers_iff.mp h.received).2
  rw [hrow, tokens_eventSubject ho hp, covers_webhookSubject] at hcovers
  exact absurd hcovers Bool.false_ne_true

/-- **Every event is read back but that of `init_upload`**, whatever the ids, if the broker takes
them for tokens. -/
theorem subjects_readBack_iff {db : Database} (hdb : db.Good) {publisher : Publisher}
    (hrow : row ∈ publisher.enqueued db) (ho : '.' ∉ row.organizationId.toList)
    (hp : '.' ∉ row.projectId.toList) :
    (∃ event, row.Announces event ∧ SubjectReadsBack broker row event) ↔
      publisher.initiates = false ∧ broker.isToken row.organizationId = true
        ∧ broker.isToken row.projectId = true := by
  obtain ⟨name, hname, hannounces⟩ := publisher.publishes hdb hrow
  rcases publisher.name_cases hname with ⟨hinitiates, rfl⟩ | ⟨hinitiates, hplain⟩
  · refine iff_of_false ?_ ?_
    · rintro ⟨event, -, h⟩
      exact not_readsBack_initiated hannounces ho hp event h
    · rintro ⟨hnot, -⟩
      rw [hinitiates] at hnot
      cases hnot
  · have hread : SubjectReadsBack broker row ("file." ++ name) ↔ _ :=
      readsBack_file_iff hannounces ho hp hplain
    rw [← hread]
    constructor
    · rintro ⟨event, hevent, h⟩
      obtain rfl := Processing.eventSubject_inj (hannounces.symm.trans hevent)
      exact ⟨hinitiates, h⟩
    · exact fun h => ⟨_, hannounces, h.2⟩

/-- A broker that takes nothing but plain words. -/
def wordBroker : Broker := ⟨isPlain, fun _ h => h⟩

/-- A run of the pipeline that makes a file ready. -/
def scannedRun : Publisher :=
  .run (devPipeline "e0" 5) ⟨"f0", "acme", "p0"⟩

/-- Its event is read back. -/
theorem subjects_readBack_iff_ready : ∃ row ∈ scannedRun.enqueued Processing.scannedDb,
    ∃ event, row.Announces event ∧ SubjectReadsBack wordBroker row event := by
  have hgood := (reached_runAll .empty scannedUpload).good
  let row : OutboxMessage :=
    { id := "e0", subject := "filenest.acme.p0.file.ready"
      payload := .obj Processing.scannedOutcome.payload
      createdAt := 5, organizationId := "acme", projectId := "p0" }
  have hrow : row ∈ scannedRun.enqueued Processing.scannedDb := .head _
  exact ⟨row, hrow, (subjects_readBack_iff hgood hrow (by decide) (by decide)).mpr
    ⟨rfl, by decide, by decide⟩⟩

/-- A project, and an upload that begins there. -/
def initiatedUpload : Publisher :=
  .operation ⟨orgContext "acme", devEnv "f" 2, "p0",
    .initUpload ⟨"a.txt", "text/plain", 1, none, [], []⟩⟩

/-- Its event is in the stream, and no worker gets it. -/
theorem initiated_unread :
    ¬∀ (broker : Broker) (db : Database) (publisher : Publisher) (row : OutboxMessage), Reached db →
      row ∈ publisher.enqueued db → '.' ∉ row.organizationId.toList → '.' ∉ row.projectId.toList →
      (broker.isToken row.organizationId && broker.isToken row.projectId) = true →
      ∃ event, row.Announces event ∧ SubjectReadsBack broker row event := by
  intro h
  let db := runAll [⟨orgContext "acme", devEnv "p" 1, "", .createProject devProject⟩] Database.empty
  let row : OutboxMessage :=
    { id := "f1", subject := "filenest.acme.p0.file.upload.initiated"
      payload := .obj [("file_id", .str "f0"), ("filename", .str "a.txt"), ("size_bytes", .int 1)]
      createdAt := 2, organizationId := "acme", projectId := "p0" }
  have hrow : row ∈ initiatedUpload.enqueued db := .head _
  obtain ⟨event, -, hread⟩ := h wordBroker db initiatedUpload row
    (reached_runAll .empty _) hrow (by decide) (by decide) (by decide)
  have hannounces : row.Announces "file.upload.initiated" := rfl
  exact not_readsBack_initiated hannounces (by decide) (by decide) event hread

end SubjectReadsBack

end FileNest
