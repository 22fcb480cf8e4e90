import FileNest.Console.UploadProxy
import FileNest.Console.UploadQueue
import FileNest.Lib.Refines
import FileNest.Sdk.Chunks

/-!
# What becomes of an upload of the console

An upload of the queue goes on after its item is removed, and whatever else happens.  When it
ends, the multipart session it began has been completed or aborted; and if it ends well, the
bytes of the file have been put, and the backend has been told.

What an upload asks of the backend and of the store is what the plain program for the console
asks: the display only adds to it.

## Main definitions

* `sessionEvents` — what an upload does to its session.
* `onWire` — what it asks, without the display.
* `Delivered`, `DeliveredByProxy` — the bytes are in the store, and the backend has been told.

## Main results

* `uploadQueue_sessions` — **no upload leaves its session open.**
* `sendMultipart_refines` — the multipart upload does as the plain one.
* `uploadQueue_delivers` — **an item that is done has been delivered.**
-/

namespace FileNest

open Exchange EventLoop Pieces

/-! ### Sessions -/

/-- What happens to a session. -/
inductive SessionEvent where
  | begun (uploadId : String)
  | completed (uploadId : String)
  | aborted (uploadId : String)
  deriving DecidableEq

/-- An event of an upload. -/
abbrev UploadJob.Event := Σ a, @Act.Answer ConsoleRequest ItemPatch ConsoleRequest.Answer a

/-- What an event does to the session. -/
def UploadJob.Event.session? : UploadJob.Event → Option SessionEvent
  | ⟨.request (.initiateMultipart _ _), .returned (some (uploadId, _)) none⟩ =>
    some (.begun uploadId)
  | ⟨.request (.completeMultipart _ uploadId _), .returned _ none⟩ => some (.completed uploadId)
  | ⟨.request (.abortMultipart _ uploadId), _⟩ => some (.aborted uploadId)
  | _ => none

/-- What an upload does to its session, in order. -/
def sessionEvents (t : UploadJob.Transcript) : List SessionEvent :=
  t.filterMap UploadJob.Event.session?

/-- What the session has come to when the upload ends; one with an empty id is not aborted. -/
def Closes (events : List SessionEvent) : Prop :=
  events = [] ∨ ∃ uploadId, events = [.begun uploadId, .completed uploadId] ∨
    events = [.begun uploadId, .aborted uploadId] ∨ (uploadId = "" ∧ events = [.begun uploadId])

section Sessions

variable {rounding : Rounding} {item : UploadItem} {config : UploadConfig}
  {t t' : UploadJob.Transcript}

theorem sessionEvents_append : sessionEvents (t ++ t') = sessionEvents t ++ sessionEvents t' :=
  List.filterMap_append

/-- The event leaves the session. -/
abbrev LeavesSession (e : UploadJob.Event) : Prop := e.session? = none

theorem sessionEvents_eq_nil (h : ∀ e ∈ t, LeavesSession e) : sessionEvents t = [] :=
  List.filterMap_eq_nil_iff.mpr h

theorem leaves_emit {patch : ItemPatch} : Every LeavesSession (emit patch : UploadJob Unit) :=
  fun _ => ⟨rfl, trivial⟩

theorem leaves_xhrPut (url : String) (body : List UInt8) (contentType : String) (shown : ℤ → ℤ) :
    Every LeavesSession (xhrPut url body contentType shown) := by
  refine fun x => ⟨rfl, ?_⟩
  cases x with
  | threw thrown => exact trivial
  | networkError => exact trivial
  | timedOut => exact trivial
  | loaded status etag responseText =>
    show Every LeavesSession (if _ then _ else _)
    split <;> exact trivial

theorem leaves_orThrow {α : Type} (fallback : String) (answer : ActionAnswer α) :
    Every LeavesSession (answer.orThrow fallback) := by
  cases answer with
  | rejected thrown => exact trivial
  | returned data err => cases data <;> cases err <;> exact trivial

theorem leaves_sendPart (uploadId contentType : String) (chunkCount i : ℕ) (chunk : List UInt8) :
    Every LeavesSession (sendPart rounding config uploadId contentType chunkCount i chunk) := by
  refine .bind (.bind (fun _ => ⟨rfl, trivial⟩) (leaves_orThrow _)) fun url => ?_
  refine .bind (leaves_xhrPut _ _ _ _) fun etag => ?_
  split <;> exact trivial

theorem leaves_sendSingle : Every LeavesSession (sendSingle item config) := by
  refine .bind (.bind (fun _ => ⟨rfl, trivial⟩) (leaves_orThrow _)) fun ⟨fileId, uploadUrl⟩ => ?_
  refine .bind leaves_emit fun _ => .bind (leaves_xhrPut _ _ _ _) fun _ => ?_
  refine .bind leaves_emit fun _ => .bind (fun _ => ⟨rfl, trivial⟩) fun answer => ?_
  cases answer with
  | rejected thrown => exact trivial
  | returned data err => cases err <;> exact trivial

theorem leaves_sendServerSide : Every LeavesSession (sendServerSide item config) := by
  refine fun x => ⟨rfl, ?_⟩
  cases x with
  | rejected thrown => exact trivial
  | answered status json =>
    show Every LeavesSession (if _ then _ else _)
    split
    · cases json <;> exact trivial
    · exact trivial

/-- A part that leaves the session may fail, or come first. -/
theorem ensures_bind_of_leaves {α β : Type} {p : UploadJob β} {f : β → UploadJob α}
    {events : List SessionEvent} (hp : Every LeavesSession p)
    (hf : ∀ b, Ensures (f b) (fun t _ => sessionEvents t = events) fun t _ =>
      sessionEvents t = []) :
    Ensures (p >>= f) (fun t _ => sessionEvents t = events) fun t _ => sessionEvents t = [] := by
  refine .bind (fun t _ => sessionEvents t = []) ?_ fun t b ht => ?_
  · intro t out hrun
    have ht : sessionEvents t = [] := sessionEvents_eq_nil (hp.runs hrun)
    cases out with
    | ok b => exact ht
    | error e => exact ht
  · simpa only [sessionEvents_append, ht, List.nil_append] using hf b

/-- Once there is a session, it is completed or the upload fails. -/
theorem sendParts_sessions (uploadId fileId : String) :
    Ensures (sendParts rounding item config uploadId fileId)
      (fun t _ => sessionEvents t = [.completed uploadId]) (fun t _ => sessionEvents t = []) := by
  refine ensures_bind_of_leaves leaves_emit fun _ => ?_
  refine ensures_bind_of_leaves (.each (leaves_sendPart uploadId _ _) _ _) fun parts => ?_
  refine ensures_bind_of_leaves leaves_emit fun _ => .ask fun answer => ?_
  cases answer with
  | rejected thrown => exact .fail rfl
  | returned data err =>
    cases err with
    | none => exact .done rfl
    | some err => exact .fail rfl

theorem abortSession_sessions (uploadId : String) (err : Thrown) :
    Ensures (abortSession config uploadId >>= fun _ => (.fail err : UploadJob Unit))
      (fun _ _ => False) fun t _ => sessionEvents t = [.aborted uploadId] ∨
        (uploadId = "" ∧ sessionEvents t = []) := by
  unfold abortSession
  split
  · next h => exact .fail (.inr ⟨h, rfl⟩)
  · exact .ask fun _ => .fail (.inl rfl)

/-- A multipart upload closes the session it begins, and completes it if it succeeds. -/
theorem sendMultipart_sessions : Ensures (sendMultipart rounding item config)
    (fun t _ => ∃ uploadId, sessionEvents t = [.begun uploadId, .completed uploadId])
    (fun t _ => Closes (sessionEvents t)) := by
  refine .ask fun answer => ?_
  cases answer with
  | rejected thrown => exact .fail (.inl rfl)
  | returned data err =>
    cases data with
    | none => cases err <;> exact .fail (.inl rfl)
    | some ids =>
      obtain ⟨uploadId, fileId⟩ := ids
      cases err with
      | some err => exact .fail (.inl rfl)
      | none =>
        refine .rescue (p := sendParts rounding item config uploadId fileId)
          (fun t _ => sessionEvents t = []) ?_ fun t err ht => ?_
        · refine (sendParts_sessions uploadId fileId).mono (fun t _ ht => ?_) fun t _ ht => ht
          exact ⟨uploadId, congrArg (List.cons _) ht⟩
        · refine (abortSession_sessions uploadId err).mono (fun t _ h => h.elim) fun t' _ h => ?_
          have hevents (u : UploadJob.Event) :
              sessionEvents (u :: (t ++ t')) = (u.session?).toList ++ sessionEvents t' := by
            rw [sessionEvents, List.filterMap_cons, ← sessionEvents, sessionEvents_append, ht]
            cases u.session? <;> rfl
          refine .inr ⟨uploadId, .inr ?_⟩
          rw [hevents]
          rcases h with h | ⟨hid, h⟩
          · exact .inl (congrArg (List.cons _) h)
          · exact .inr ⟨hid, congrArg (List.cons _) h⟩

theorem send_sessions : Ensures (send rounding item config)
    (fun t _ => Closes (sessionEvents t)) (fun t _ => Closes (sessionEvents t)) := by
  have hleaves {p : UploadJob Unit} (hp : Every LeavesSession p) :
      Ensures p (fun t _ => Closes (sessionEvents t)) (fun t _ => Closes (sessionEvents t)) := by
    intro t out hrun
    have ht : Closes (sessionEvents t) := .inl (sessionEvents_eq_nil (hp.runs hrun))
    cases out with
    | ok a => exact ht
    | error e => exact ht
  unfold send
  split
  · exact hleaves leaves_sendServerSide
  · split
    · exact sendMultipart_sessions.mono (fun t _ ⟨uploadId, h⟩ => .inr ⟨uploadId, .inl h⟩)
        fun t _ h => h
    · exact hleaves leaves_sendSingle

theorem sessionEvents_shown {sent : UploadJob.Transcript} {patch patch' : ItemPatch} :
    sessionEvents (shown patch :: (sent ++ [shown patch'])) = sessionEvents sent := by
  rw [sessionEvents, List.filterMap_cons_none rfl, List.filterMap_append]
  exact List.append_nil _

/-- **No upload that is over has left its session open**, whether its item is still shown or not:
it has been told that the session is completed, or has asked for its abort.  It knows of a session
once it is told its id. -/
theorem uploadQueue_sessions {l : UploadQueue} (h : l.Reached rounding) {τ : UploadTask}
    (hτ : τ ∈ l.tasks) (hended : τ.rest = .done ()) : Closes (sessionEvents τ.transcript) := by
  obtain ⟨config, -, hcases⟩ := shows_view (h.sound.tasks τ hτ)
  rcases hcases with ⟨-, r, next, hrest⟩ | ⟨-, -, sent, hrun, ht⟩ | ⟨-, -, err, -, sent, hrun, ht⟩
  · rw [hended] at hrest
    cases hrest
  · rw [ht, sessionEvents_shown]
    exact send_sessions sent _ hrun
  · rw [ht, sessionEvents_shown]
    exact send_sessions sent _ hrun

end Sessions

/-- Every file that is large enough has an upload that completes its session. -/
theorem exists_completed {file : BrowserFile} (hsize : chunkSize ≤ file.data.length) :
    ∃ l : UploadQueue, l.Reached devRounding ∧ ∃ τ ∈ l.tasks, τ.rest = .done () ∧
      ∃ uploadId, sessionEvents τ.transcript = [.begun uploadId, .completed uploadId] := by
  obtain ⟨l, hreached, item, -, -, τ, hτ, horigin, hended, sent, hrun, ht⟩ :=
    exists_done devRounding file (consoleUpload .presigned)
  refine ⟨l, hreached, τ, hτ, hended, ?_⟩
  have hmultipart : τ.origin.isMultipart = true := by
    rw [horigin]
    exact decide_eq_true hsize
  have hsend : send devRounding τ.origin (consoleUpload .presigned)
      = sendMultipart devRounding τ.origin (consoleUpload .presigned) := if_pos hmultipart
  rw [ht, sessionEvents_shown]
  rw [hsend] at hrun
  exact sendMultipart_sessions sent _ hrun

/-- A file of two parts. -/
def twoPartFile : BrowserFile := ⟨"a.bin", "", List.replicate (2 * chunkSize) 0⟩

theorem chunkSize_le_twoPartFile : chunkSize ≤ twoPartFile.data.length := by
  rw [twoPartFile, List.length_replicate]
  exact Nat.le_mul_of_pos_left chunkSize Nat.two_pos

/-- Its upload, which is over, has completed a session. -/
theorem uploadQueue_sessions_done : ∃ l : UploadQueue, l.Reached devRounding ∧
    ∃ τ ∈ l.tasks, τ.rest = .done () ∧ Closes (sessionEvents τ.transcript) ∧
      ∃ uploadId, sessionEvents τ.transcript = [.begun uploadId, .completed uploadId] := by
  obtain ⟨l, hreached, τ, hτ, hended, hcompleted⟩ := exists_completed chunkSize_le_twoPartFile
  exact ⟨l, hreached, τ, hτ, hended, uploadQueue_sessions hreached hτ hended, hcompleted⟩

/-! ### The wire -/

/-- The data of an action, if it succeeds. -/
def ActionAnswer.data? {α : Type} : ActionAnswer α → Except SdkFailure α
  | .returned (some data) none => .ok data
  | _ => .error (.untyped "Error")

/-- Whether an action succeeds, where its data does not matter. -/
def ActionAnswer.succeeded {α : Type} (data : α) : ActionAnswer α → Except SdkFailure α
  | .returned data' none => .ok (data'.getD data)
  | _ => .error (.untyped "Error")

/-- What the store does with the PUT. -/
def XhrAnswer.toPut : XhrAnswer → PutAnswer
  | .loaded status etag _ => .answered status etag
  | _ => .unreachable

/-- What an event of an upload is without the display. -/
def UploadJob.Event.onWire : UploadJob.Event → Option (Σ r, UploadStep.Answer r)
  | ⟨.request (.initiateUpload _ body), answer⟩ => some ⟨.init body, ActionAnswer.data? answer⟩
  | ⟨.request (.confirmUpload _ fileId), answer⟩ =>
    some ⟨.confirm fileId, ActionAnswer.succeeded () answer⟩
  | ⟨.request (.initiateMultipart _ body), answer⟩ =>
    some ⟨.start body, (ActionAnswer.data? answer).map Prod.fst⟩
  | ⟨.request (.getPartUrl _ uploadId part), answer⟩ =>
    some ⟨.partUrl uploadId part, ActionAnswer.data? answer⟩
  | ⟨.request (.completeMultipart _ uploadId parts), answer⟩ =>
    some ⟨.complete uploadId parts, ActionAnswer.succeeded "" answer⟩
  | ⟨.request (.abortMultipart _ uploadId), answer⟩ =>
    some ⟨.abort uploadId, ActionAnswer.succeeded () answer⟩
  | ⟨.request (.xhrPut url body contentType _), answer⟩ =>
    some ⟨.put url body (some contentType), XhrAnswer.toPut answer⟩
  | ⟨.request (.postUpload _), _⟩ => none
  | ⟨.emit _, _⟩ => none

/-- What an upload asks of the backend and of the store. -/
def onWire (t : UploadJob.Transcript) : UploadTranscript := t.filterMap UploadJob.Event.onWire

/-- The options of the plain upload. -/
def UploadConfig.options (config : UploadConfig) (file : BrowserFile) : UploadOptions where
  filename := file.name
  mimeType := some file.type
  folderId := config.folderId
  metadata := config.metadata
  tags := config.tags

section Wire

variable {rounding : Rounding} {item : UploadItem} {config : UploadConfig}

theorem emit_refines (patch : ItemPatch) {α β : Type} {g : α → β} {f : Unit → UploadJob α}
    {q : ClientUpload β} (h : Refines UploadJob.Event.onWire g (f ()) q) :
    Refines UploadJob.Event.onWire g (emit patch >>= f) q :=
  .silent (fun _ => rfl) fun _ => h

theorem orThrow_refines {α β : Type} (g : α → β) (fallback : String) (answer : ActionAnswer α) :
    Refines UploadJob.Event.onWire g (answer.orThrow fallback)
      (Prog.lift (answer.data?.map g) : ClientUpload β) := by
  cases answer with
  | rejected thrown => exact .fail
  | returned data err =>
    cases data with
    | none => cases err <;> exact .fail
    | some data =>
      cases err with
      | none => exact .done rfl
      | some err => exact .fail

theorem throwError_refines {α : Type} (data : α) (fallback : String) (answer : ActionAnswer α) :
    Refines UploadJob.Event.onWire id (answer.throwError fallback)
      (Prog.lift (answer.succeeded data) >>= fun _ => pure () : ClientUpload Unit) := by
  cases answer with
  | rejected thrown => exact .fail
  | returned data' err =>
    cases err with
    | none => exact .done rfl
    | some err => exact .fail

theorem unquote_etag (etag : Option String) :
    ((etag.filter (· ≠ "")).map unquote).getD "" = unquote (etag.getD "") := by
  cases etag with
  | none => rfl
  | some raw =>
    by_cases hraw : raw = ""
    · subst hraw
      rfl
    · rw [Option.filter_some, if_pos (by simpa using hraw)]
      rfl

/-- A PUT that is not 2xx fails, with an ETag that is asked for or not. -/
theorem xhrPut_refines {url : String} {body : List UInt8} {contentType : String} {shown : ℤ → ℤ}
    (i : ℕ) (missing : String) :
    Refines UploadJob.Event.onWire id
      (xhrPut url body contentType shown >>= fun etag =>
        if etag.getD "" = "" then (.fail (.error missing) : UploadJob UploadedPart)
        else pure { partNumber := i + 1, etag := etag.getD "" })
      (webPut url body (some contentType) >>= fun etag => pure { partNumber := i + 1, etag }) := by
  refine .ask XhrAnswer.toPut (fun _ => rfl) fun answer => ?_
  cases answer with
  | threw thrown => exact .fail
  | networkError => exact .fail
  | timedOut => exact .fail
  | loaded status etag responseText =>
    simp only [XhrAnswer.toPut]
    by_cases hok : 200 ≤ status ∧ status < 300
    · rw [if_pos hok, if_pos hok]
      by_cases htag : unquote (etag.getD "") = ""
      · rw [if_pos htag]
        simp only [Prog.bind, unquote_etag, if_pos htag]
        exact .fail
      · rw [if_neg htag]
        simp only [Prog.bind, unquote_etag, if_neg htag]
        exact .done rfl
    · rw [if_neg hok]
      exact .fail

/-- A part is sent as the plain program sends it. -/
theorem sendPart_refines (uploadId contentType : String) (chunkCount i : ℕ) (chunk : List UInt8) :
    Refines UploadJob.Event.onWire id
      (sendPart rounding config uploadId contentType chunkCount i chunk)
      (uploadPart webPut uploadId (some contentType) i chunk) := by
  refine .bind id ?_ fun url => xhrPut_refines i _
  refine .ask ActionAnswer.data? (fun _ => rfl) fun answer => ?_
  have h := orThrow_refines id ("Failed to get URL for part " ++ toString (i + 1)) answer
  rwa [Except.map_id] at h

/-- **The multipart upload of the console does as the plain one.** -/
theorem sendMultipart_refines : Refines UploadJob.Event.onWire id
    (sendMultipart rounding item config)
    (WebConsole.uploadMultipart item.file (config.options item.file)) := by
  refine .bind Prod.fst ?_ ?_
  · refine .ask (fun answer => (ActionAnswer.data? answer).map Prod.fst) (fun _ => rfl) ?_
    exact fun answer => orThrow_refines Prod.fst _ answer
  · rintro ⟨uploadId, fileId⟩
    refine .rescue (emit_refines _ ?_) fun err => ?_
    · refine .bind (List.map id) (.each (sendPart_refines uploadId _ _) 0 _) fun parts => ?_
      rw [List.map_id]
      refine emit_refines _ (.ask (ActionAnswer.succeeded "") (fun _ => rfl) fun answer => ?_)
      exact throwError_refines "" _ answer
    · exact (abortSession_sessions uploadId err).mono (fun _ _ h => h) fun _ _ _ => trivial

end Wire

/-! ### Delivery -/

section Delivery

variable {rounding : Rounding} {item : UploadItem} {config : UploadConfig}

theorem granted_singleton {e : Σ r, UploadStep.Answer r} (h : UploadEvent.granted e = true) :
    Granted [e] := List.forall_mem_singleton.mpr h

theorem granted_bind {α β : Type} {p : ClientUpload β} {f : β → ClientUpload α}
    (hp : Ensures p (fun t _ => Granted t) fun _ _ => True)
    (hf : ∀ b, Ensures (f b) (fun t _ => Granted t) fun _ _ => True) :
    Ensures (p >>= f) (fun t _ => Granted t) fun _ _ => True :=
  .bind_of_append (U := Granted) (F := fun _ => True)
    (fun _ _ h h' => granted_append.mpr ⟨h, h'⟩) (fun _ _ _ _ => trivial) hp hf

theorem granted_done {α : Type} {a : α} :
    Ensures (.done a : ClientUpload α) (fun t _ => Granted t) fun _ _ => True :=
  .done fun _ h => absurd h List.not_mem_nil

theorem webPut_granted (url : String) (data : List UInt8) (contentType : Option String) :
    Ensures (webPut url data contentType) (fun t _ => Granted t) fun _ _ => True := by
  refine .ask fun answer => ?_
  cases answer with
  | unreachable => exact .fail trivial
  | answered status etag =>
    by_cases hok : 200 ≤ status ∧ status < 300
    · simp only [if_pos hok]
      by_cases htag : unquote (etag.getD "") = ""
      · rw [if_pos htag]
        exact .fail trivial
      · rw [if_neg htag]
        refine .done (granted_singleton ?_)
        cases etag with
        | none => exact absurd rfl htag
        | some etag =>
          have hle : 200 ≤ status ∧ status ≤ 299 := ⟨hok.1, Nat.le_of_lt_succ hok.2⟩
          simp only [UploadEvent.granted, decide_eq_true hle, Bool.true_and]
          exact bne_iff_ne.mpr htag
    · simp only [if_neg hok]
      exact .fail trivial

/-- Where the plain upload succeeds, everything was granted. -/
theorem WebConsole.uploadMultipart_granted (file : BrowserFile) (options : UploadOptions) :
    Ensures (WebConsole.uploadMultipart file options) (fun t _ => Granted t) fun _ _ => True := by
  refine granted_bind (.ask fun answer => ?_) fun uploadId => ?_
  · cases answer with
    | error e => exact .fail trivial
    | ok uploadId => exact .done (granted_singleton rfl)
  · refine .rescue (fun _ _ => True) (granted_bind ?_ fun parts => granted_bind ?_ fun _ => ?_) ?_
    · refine .each_of_append (fun e h => absurd h List.not_mem_nil)
        (fun t t' h h' => granted_append.mpr ⟨h, h'⟩) (fun _ _ _ _ => trivial) fun i chunk => ?_
      refine granted_bind (.ask fun answer => ?_) fun url => ?_
      · cases answer with
        | error e => exact .fail trivial
        | ok url => exact .done (granted_singleton rfl)
      · exact granted_bind (webPut_granted _ _ _) fun etag => granted_done
    · refine .ask fun answer => ?_
      cases answer with
      | error e => exact .fail trivial
      | ok fileId => exact .done (granted_singleton rfl)
    · exact granted_done
    · exact fun t e _ => .ask fun _ => .fail trivial

/-- The bytes of the file have been put and granted, whole or in parts, and the backend has been
told of it. -/
def Delivered (file : BrowserFile) (t : UploadTranscript) : Prop :=
  if chunkSize ≤ file.data.length then Granted t ∧ UploadsInParts file.data t
  else DeliversWhole file t

theorem sendMultipart_delivers (hsize : chunkSize ≤ item.file.data.length)
    {t : UploadJob.Transcript} (hrun : Runs (sendMultipart rounding item config) t (.ok ())) :
    Granted (onWire t) ∧ UploadsInParts item.file.data (onWire t) := by
  have hplain : Runs (WebConsole.uploadMultipart item.file (config.options item.file)) (onWire t)
      (.ok ()) := sendMultipart_refines t () hrun
  have hgranted : Granted (onWire t) := WebConsole.uploadMultipart_granted _ _ _ _ hplain
  have hdelivers := ChunkingClient.webConsole.delivers
    ⟨item.file.name, item.file.type, _, _, hplain⟩ hgranted
  refine ⟨hgranted, hdelivers.uploadsInParts_iff.mpr ?_⟩
  refine (ChunkingClient.isCut_chunks_iff .webConsole).mpr (.inr ?_)
  exact List.ne_nil_of_length_pos (lt_of_lt_of_le (by decide) hsize)

theorem sendSingle_delivers : Ensures (sendSingle item config)
    (fun t _ => DeliversWhole item.file (onWire t)) (fun _ _ => True) := by
  refine .ask fun answer => ?_
  cases answer with
  | rejected thrown => exact .fail trivial
  | returned data err =>
    cases data with
    | none => cases err <;> exact .fail trivial
    | some ids =>
      obtain ⟨fileId, url⟩ := ids
      cases err with
      | some err => exact .fail trivial
      | none =>
        refine .ask fun _ => .ask fun answer => ?_
        cases answer with
        | threw thrown => exact .fail trivial
        | networkError => exact .fail trivial
        | timedOut => exact .fail trivial
        | loaded status etag responseText =>
          by_cases hok : 200 ≤ status ∧ status < 300
          · simp only [if_pos hok]
            refine .ask fun _ => .ask fun answer => ?_
            cases answer with
            | rejected thrown => exact .fail trivial
            | returned data err =>
              cases err with
              | some err => exact .fail trivial
              | none =>
                have hstatus : IsOk status := ⟨hok.1, Nat.le_of_lt_succ hok.2⟩
                exact .done ⟨item.body config, fileId, url, _, status, etag, hstatus, rfl⟩
          · simp only [if_neg hok]
            exact .fail trivial

/-- What the proxy gets as a form. -/
def UploadForm.fields (form : UploadForm) : ProxyForm where
  file := some form.file
  projectId := some form.projectId
  folderId := form.folderId
  tags := some form.tags
  metadata := some form.metadata

/-- What the console sees of the route. -/
def ProxyAnswer.ofResponse : Except Unit ProxyResponse → ProxyAnswer
  | .ok response => .answered response.status (.ok response.error)
  | .error _ => .answered 500 (.error .other)

/-- The upload was answered by the proxy, and whatever the route did for this answer has delivered
the file. -/
def DeliveredByProxy (file : BrowserFile) (t : UploadJob.Transcript) : Prop :=
  ∃ form answer, ⟨.request (.postUpload form), answer⟩ ∈ t ∧
    ∀ t' out, Runs (UploadProxy.post (some form.fields)) t' out →
      answer = ProxyAnswer.ofResponse out → DeliversWhole file (t'.filterMap UploadProxy.onWire)

theorem sendServerSide_delivers : Ensures (sendServerSide item config)
    (fun t _ => DeliveredByProxy item.file t) (fun _ _ => True) := by
  refine .ask fun answer => ?_
  cases answer with
  | rejected thrown => exact .fail trivial
  | answered status json =>
    by_cases hok : 200 ≤ status ∧ status ≤ 299
    · simp only [if_pos hok]
      cases json with
      | error thrown => exact .fail trivial
      | ok error =>
        refine .done ⟨_, _, List.mem_cons_self, fun t' out hrun h => ?_⟩
        cases out with
        | error u => cases h
        | ok response =>
          obtain ⟨rfl, -⟩ := ProxyAnswer.answered.inj h
          obtain ⟨fields, file, hfields, hfile, hdelivers⟩ :=
            UploadProxy.post_delivers _ t' (.ok response) hrun hok
          obtain rfl := Option.some.inj hfields
          obtain rfl : item.file = file := Option.some.inj hfile
          exact hdelivers
    · simp only [if_neg hok]
      exact .fail trivial

theorem onWire_shown {sent : UploadJob.Transcript} {patch patch' : ItemPatch} :
    onWire (shown patch :: (sent ++ [shown patch'])) = onWire sent := by
  rw [onWire, List.filterMap_cons_none rfl, List.filterMap_append]
  exact List.append_nil _

theorem file_foldl (ps : List ItemPatch) (item : UploadItem) :
    (ps.foldl UploadItem.update item).file = item.file := by
  induction ps generalizing item with
  | nil => rfl
  | cons p ps ih => exact ih (item.update p)

theorem DeliveredByProxy.mono {file : BrowserFile} {t t' : UploadJob.Transcript}
    (h : DeliveredByProxy file t) (ht : ∀ e ∈ t, e ∈ t') : DeliveredByProxy file t' := by
  obtain ⟨form, answer, hmem, hroute⟩ := h
  exact ⟨form, answer, ht _ hmem, hroute⟩

/-- **A file whose item is done has been delivered**, by its upload or by the proxy for it. -/
theorem uploadQueue_delivers {l : UploadQueue} (h : l.Reached rounding) (hitem : item ∈ l.records)
    (hdone : item.status = .done) : ∃ τ ∈ l.tasks, τ.origin.id = item.id ∧
      (Delivered item.file (onWire τ.transcript) ∨ DeliveredByProxy item.file τ.transcript) := by
  rcases shows_of_sound h.sound hitem with ⟨hqueued, -⟩ | ⟨τ, hτ, hid, config, -, hcases⟩
  · rw [hdone] at hqueued
    cases hqueued
  have hfile : τ.origin.file = item.file := by
    rw [h.sound.shown item hitem τ hτ hid]
    exact (file_foldl _ _).symm
  have hfresh : τ.origin = newItem τ.origin.id τ.origin.file := (h.sound.tasks τ hτ).fresh
  refine ⟨τ, hτ, hid, ?_⟩
  rcases hcases with ⟨hactive, -⟩ | ⟨-, -, sent, hrun, ht⟩ | ⟨herror, -⟩
  · rw [hdone] at hactive
    exact absurd hactive (by decide)
  · rw [ht, onWire_shown, ← hfile]
    unfold send at hrun
    unfold Delivered
    split at hrun
    · refine .inr ((sendServerSide_delivers sent _ hrun).mono fun e he => ?_)
      exact List.mem_cons_of_mem _ (List.mem_append_left _ he)
    · rw [show τ.origin.isMultipart = decide (chunkSize ≤ τ.origin.file.data.length) by
        rw [hfresh]; rfl] at hrun
      by_cases hsize : chunkSize ≤ τ.origin.file.data.length
      · rw [if_pos hsize]
        rw [if_pos (decide_eq_true hsize)] at hrun
        exact .inl (sendMultipart_delivers hsize hrun)
      · rw [if_neg hsize]
        rw [if_neg (by simpa using hsize)] at hrun
        exact .inl (sendSingle_delivers sent _ hrun)
  · rw [hdone] at herror
    cases herror

end Delivery

/-- Every file can be delivered. -/
theorem exists_delivered (file : BrowserFile) : ∃ l : UploadQueue, l.Reached devRounding ∧
    ∃ item ∈ l.records, item.status = .done ∧ item.file = file := by
  obtain ⟨l, hreached, item, hitem, hdone, τ, hτ, horigin, -⟩ :=
    exists_done devRounding file (consoleUpload .presigned)
  refine ⟨l, hreached, item, hitem, hdone, ?_⟩
  have hkey : τ.origin.id = item.id := by rw [horigin]; rfl
  rw [(UploadQueue.Reached.sound hreached).shown item hitem τ hτ hkey]
  exact (file_foldl _ _).trans (congrArg UploadItem.file horigin)

/-- The file of two parts has been delivered. -/
theorem uploadQueue_delivers_parts : ∃ l : UploadQueue, l.Reached devRounding ∧
    ∃ item ∈ l.records, item.status = .done ∧ item.file = twoPartFile ∧
      ∃ τ ∈ l.tasks, τ.origin.id = item.id ∧
        (Delivered item.file (onWire τ.transcript) ∨ DeliveredByProxy item.file τ.transcript) := by
  obtain ⟨l, hreached, item, hitem, hdone, hfile⟩ := exists_delivered twoPartFile
  exact ⟨l, hreached, item, hitem, hdone, hfile, uploadQueue_delivers hreached hitem hdone⟩

end FileNest
