import FileNest.Lib.Interleaving
import FileNest.Isolation
import FileNest.Webhook.Signature

/-!
# The webhook worker

Every event is posted to every webhook that is active and subscribed to it, at most three
times each, and every attempt is recorded before the next one.  The deliveries run side by
side, and what they raise is gathered and dropped: an attempt that cannot be recorded ends
its delivery, and the message is acknowledged all the same.

## Main definitions

* `HttpOutcome`, `Recording` — what a POST comes to, and what recording it comes to.
* `deliverWithRetry` — the attempts for one webhook.
* `handle` — one delivery of a message to the worker.
* `Delivered` — what an acknowledgement is to say about a webhook.
* `Recordable` — the condition: no recording is lost, and none raises before the end.

## Main results

* `deliverFrom_iff` — the loop, from any attempt on.
* `webhook_acknowledged_iff` — **what is acknowledged is delivered exactly if it could be
  recorded.**
* `acknowledged_unrecorded` — a single attempt, without a row, acknowledged.
-/

namespace FileNest

open RowStore

namespace Webhook

/-- `_MAX_ATTEMPTS`. -/
def maxAttempts : ℕ := 3

/-- `_RETRY_DELAYS`, in seconds. -/
def retryDelays : List ℕ := [30, 60, 120]

/-- A request to a webhook. -/
structure Post where
  url : String
  content : String
  headers : List (String × String)

/-- What a POST comes to. -/
inductive HttpOutcome where
  /-- A response, whose text may fail to decode. -/
  | response (statusCode : ℕ) (text : Except String String)
  | raised (message : String)

/-- `text[:n]`. -/
def cap (n : ℕ) (text : String) : String := String.ofList (text.toList.take n)

namespace HttpOutcome

/-- The status to record. -/
def status : HttpOutcome → String
  | response statusCode (.ok _) =>
      if 200 ≤ statusCode ∧ statusCode < 300 then "success" else "failed"
  | response _ (.error _) | raised _ => "failed"

def responseStatusCode : HttpOutcome → Option ℕ
  | response statusCode _ => some statusCode
  | raised _ => none

def responseBody : HttpOutcome → String
  | response _ (.ok text) => cap 2000 text
  | response _ (.error message) | raised message => cap 500 message

end HttpOutcome

/-- What recording an attempt comes to.  A commit that raises may have stored the row. -/
inductive Recording where
  | committed
  | raised (message : String) (stored : Bool)

/-- The row of the attempt is on record. -/
def Recording.stored : Recording → Bool
  | committed => true
  | raised _ stored => stored

/-- What one attempt finds. -/
structure AttemptEnv where
  /-- `int(time.time())`. -/
  timestamp : ℕ
  http : Post → HttpOutcome
  /-- `datetime.now(UTC)`, for the next attempt. -/
  now : ℕ
  /-- The id of the row, and when it is created. -/
  uuid4 : String
  createdAt : ℕ
  recording : Recording

/-- An event, as the worker reads it from a message. -/
structure Event where
  organizationId : String
  projectId : String
  eventType : String
  payload : String

/-- The attempts made for a webhook, the rows stored, and what the delivery raised. -/
structure Delivery where
  attempts : List HttpOutcome := []
  rows : List WebhookDelivery := []
  raised : Option String := none

/-- `_event_matches`. -/
def eventMatches (webhookEvents eventType : String) : Bool :=
  webhookEvents == "" ||
    (((Text.split ',' webhookEvents).map Text.strip).filter (· != "")).contains eventType

section Deliver

variable (hmac : HmacSha256) (w : Webhook) (event : Event)

/-- The request of an attempt. -/
def post (env : AttemptEnv) : Post where
  url := w.url
  content := event.payload
  headers := [("X-FileNest-Signature",
    signatureHeader hmac w.signingSecret env.timestamp event.payload),
    ("Content-Type", "application/json")]

/-- What the attempt comes to. -/
def outcome (env : AttemptEnv) : HttpOutcome := env.http (post hmac w event env)

/-- The row of an attempt. -/
def deliveryRow (env : AttemptEnv) (attempt : ℕ) : WebhookDelivery :=
  let o := outcome hmac w event env
  { id := env.uuid4, webhookId := w.id, organizationId := event.organizationId
    projectId := event.projectId, eventType := event.eventType, payloadJson := event.payload
    status := o.status, attemptCount := attempt, responseStatusCode := o.responseStatusCode
    responseBody := some o.responseBody
    nextRetryAt :=
      if o.status = "failed" ∧ ¬maxAttempts ≤ attempt then
        some (env.now + retryDelays.getD (attempt - 1) 0 * second)
      else none
    createdAt := env.createdAt }

/-- The loop of `_deliver_with_retry`: `n` attempts are left. -/
def deliverFrom (envs : ℕ → AttemptEnv) (attempt : ℕ) : ℕ → Delivery
  | 0 => {}
  | n + 1 =>
      let env := envs attempt
      let o := outcome hmac w event env
      let row := deliveryRow hmac w event env attempt
      match env.recording with
      | .raised message stored =>
          { attempts := [o], rows := if stored then [row] else [], raised := some message }
      | .committed =>
          if o.status = "success" then { attempts := [o], rows := [row] }
          else
            let rest := deliverFrom envs (attempt + 1) n
            { rest with attempts := o :: rest.attempts, rows := row :: rest.rows }

/-- `_deliver_with_retry`. -/
def deliverWithRetry (envs : ℕ → AttemptEnv) : Delivery :=
  deliverFrom hmac w event envs 1 maxAttempts

end Deliver

/-! ### A message -/

/-- A message, its data decoded or not. -/
structure EventMessage where
  subject : String
  data : Except String String

/-- `filenest.<organization>.<project>.file.<event>`. -/
def EventMessage.event (msg : EventMessage) : Except String Event :=
  match Text.split '.' msg.subject with
  | _ :: organizationId :: projectId :: kind :: name :: _ => do
      let payload ← msg.data
      return ⟨organizationId, projectId, kind ++ "." ++ name, payload⟩
  | _ => throw "list index out of range"

/-- What one delivery of a message finds: the database, what keeps it from being read, the
attempts for each webhook, and what the broker raises. -/
structure HandleEnv where
  db : Database
  listError : Option String := none
  attempts : (webhookId : String) → ℕ → AttemptEnv
  ackError : Option String := none
  nakError : Option String := none

/-- What became of the message. -/
inductive Disposition where
  | acked | nacked | unanswered
  deriving DecidableEq

/-- A message that was handled, with the deliveries that were made. -/
structure Handled where
  disposition : Disposition
  deliveries : List (Webhook × Delivery) := []

/-- The webhooks an event goes to. -/
def matching (db : Database) (event : Event) : List Webhook :=
  (WebhookRepository.listActiveForProject db event.organizationId event.projectId).filter
    fun w => eventMatches w.events event.eventType

/-- `msg.nak()`, whatever it raises. -/
def nak (env : HandleEnv) : Disposition :=
  if env.nakError.isSome then .unanswered else .nacked

/-- `msg.ack()`; a message that cannot be acknowledged is handed back. -/
def ack (env : HandleEnv) : Disposition :=
  if env.ackError.isSome then nak env else .acked

/-- `_handle`.  The deliveries are gathered with their exceptions. -/
def handle (hmac : HmacSha256) (env : HandleEnv) (msg : EventMessage) : Handled :=
  match msg.event, env.listError with
  | .error _, _ | .ok _, some _ => { disposition := nak env }
  | .ok event, none =>
      let deliveries := (matching env.db event).map fun w =>
        (w, deliverWithRetry hmac w event (env.attempts w.id))
      { disposition := ack env, deliveries := deliveries }

/-! ### The attempts for one webhook -/

/-- What an acknowledgement is to say, from an attempt on with `n` left: one attempt succeeds or
all are made; the rows count them and tell what they came to, a success last, and announce a
retry exactly where another attempt follows. -/
structure DeliveredFrom (first n : ℕ) (attempts : List HttpOutcome)
    (rows : List WebhookDelivery) : Prop where
  complete : (attempts.filter fun o => o.status = "success").length = 1 ∨ attempts.length = n
  numbered : rows.map WebhookDelivery.attemptCount = List.range' first attempts.length
  statuses : rows.map WebhookDelivery.status = attempts.map HttpOutcome.status
  success_last : ∀ i row, rows[i]? = some row → row.status = "success" → i + 1 = rows.length
  retried : ∀ i row, rows[i]? = some row → (row.nextRetryAt ≠ none ↔ i + 1 < rows.length)

/-- The webhook got the event, or every attempt was made, and the rows say so. -/
def Delivered (attempts : List HttpOutcome) (rows : List WebhookDelivery) : Prop :=
  DeliveredFrom 1 maxAttempts attempts rows

section Deliver

variable (hmac : HmacSha256) (w : Webhook) (event : Event) (envs : ℕ → AttemptEnv)

/-- Every attempt that is reached from `first` on can be recorded, and none but the last raises. -/
def RecordableFrom (first n : ℕ) : Prop :=
  ∀ k, first ≤ k → k < first + n →
    (∀ j, first ≤ j → j < k → (outcome hmac w event (envs j)).status ≠ "success") →
    (envs k).recording.stored = true
      ∧ ∀ message stored, (envs k).recording = .raised message stored →
        (outcome hmac w event (envs k)).status = "success" ∨ k = maxAttempts

/-- **The condition** for one webhook. -/
def Recordable : Prop := RecordableFrom hmac w event envs 1 maxAttempts

theorem HttpOutcome.status_eq_failed_iff (o : HttpOutcome) :
    o.status = "failed" ↔ o.status ≠ "success" := by
  rcases o with ⟨statusCode, message | text⟩ | message
  · simp [status]
  · simp only [status]
    split <;> simp
  · simp [status]

variable {hmac w event envs} {first n : ℕ}

/-- A retry is announced after a failure that is not the last attempt. -/
theorem deliveryRow_nextRetryAt {env : AttemptEnv} {attempt : ℕ} :
    (deliveryRow hmac w event env attempt).nextRetryAt ≠ none ↔
      (outcome hmac w event env).status ≠ "success" ∧ attempt < maxAttempts := by
  simp only [deliveryRow, HttpOutcome.status_eq_failed_iff, not_le]
  split <;> simp_all

theorem deliverFrom_attempts_length_pos :
    0 < (deliverFrom hmac w event envs first n).attempts.length ↔ 0 < n := by
  cases n with
  | zero => simp [deliverFrom]
  | succ n =>
    simp only [deliverFrom, Nat.zero_lt_succ, iff_true]
    split
    · simp
    · split <;> simp

/-- The first attempt ends the delivery. -/
theorem deliveredFrom_singleton {env : AttemptEnv} (hlast : first + n = maxAttempts) :
    DeliveredFrom first (n + 1) [outcome hmac w event env] [deliveryRow hmac w event env first] ↔
      (outcome hmac w event env).status = "success" ∨ n = 0 := by
  have hretry : (deliveryRow hmac w event env first).nextRetryAt ≠ none ↔ _ :=
    deliveryRow_nextRetryAt
  constructor
  · intro h
    by_contra hnot
    obtain ⟨hfailed, hn⟩ := not_or.mp hnot
    -- a retry is announced, and there is none
    have hsome := hretry.mpr ⟨hfailed, by omega⟩
    exact absurd ((h.retried 0 _ rfl).mp hsome) (by simp)
  · intro h
    refine ⟨?_, rfl, rfl, fun i row hi _ => ?_, fun i row hi => ?_⟩
    · rcases h with h | rfl
      · exact .inl (by simp [h])
      · exact .inr rfl
    · obtain ⟨rfl, rfl⟩ : i = 0 ∧ deliveryRow hmac w event env first = row := by
        simpa [List.getElem?_singleton] using hi
      rfl
    · obtain ⟨rfl, rfl⟩ : i = 0 ∧ deliveryRow hmac w event env first = row := by
        simpa [List.getElem?_singleton] using hi
      refine hretry.trans (iff_of_false ?_ (by simp))
      rintro ⟨hfailed, hlt⟩
      rcases h with h | rfl
      · exact hfailed h
      · omega

/-- A failed attempt goes before the others. -/
theorem deliveredFrom_cons {env : AttemptEnv} {attempts : List HttpOutcome}
    {rows : List WebhookDelivery} (hlast : first + n = maxAttempts)
    (hfailed : (outcome hmac w event env).status ≠ "success") (hpos : 0 < attempts.length ↔ 0 < n) :
    DeliveredFrom first (n + 1) (outcome hmac w event env :: attempts)
        (deliveryRow hmac w event env first :: rows)
      ↔ DeliveredFrom (first + 1) n attempts rows := by
  have hretry : (deliveryRow hmac w event env first).nextRetryAt ≠ none ↔ _ :=
    deliveryRow_nextRetryAt
  constructor
  · intro h
    refine ⟨?_, ?_, ?_, fun i row hi hs => ?_, fun i row hi => ?_⟩
    · simpa [hfailed] using h.complete
    · simpa [List.range'_succ] using (List.cons.inj h.numbered).2
    · exact (List.cons.inj h.statuses).2
    · simpa using h.success_last (i + 1) row hi hs
    · simpa using h.retried (i + 1) row hi
  · intro h
    have hlength : rows.length = attempts.length := by
      simpa using congrArg List.length h.numbered
    refine ⟨?_, ?_, ?_, fun i row hi hs => ?_, fun i row hi => ?_⟩
    · simpa [hfailed] using h.complete
    · rw [List.map_cons, h.numbered, List.length_cons, List.range'_succ]
      rfl
    · rw [List.map_cons, h.statuses]
      rfl
    · cases i with
      | zero =>
        obtain rfl := Option.some.inj hi
        exact absurd hs hfailed
      | succ i => simpa using h.success_last i row hi hs
    · cases i with
      | zero =>
        obtain rfl := Option.some.inj hi
        rw [hretry, List.length_cons]
        constructor
        · rintro ⟨-, hlt⟩
          have := hpos.mpr (by omega)
          omega
        · intro hlt
          have := hpos.mp (by omega)
          exact ⟨hfailed, by omega⟩
      | succ i => simpa using h.retried i row hi

/-- The condition, one attempt at a time. -/
theorem recordableFrom_succ (hlast : first + n = maxAttempts) :
    RecordableFrom hmac w event envs first (n + 1) ↔
      (envs first).recording.stored = true
        ∧ (∀ message stored, (envs first).recording = .raised message stored →
          (outcome hmac w event (envs first)).status = "success" ∨ n = 0)
        ∧ ((outcome hmac w event (envs first)).status ≠ "success" →
          RecordableFrom hmac w event envs (first + 1) n) := by
  constructor
  · intro h
    obtain ⟨hstored, hraised⟩ := h first le_rfl (by omega) fun j hj hlt => by omega
    refine ⟨hstored, fun message stored hr => ?_, fun hfailed k hk hlt hbefore => ?_⟩
    · exact (hraised message stored hr).imp_right fun hmax => by omega
    · refine h k (by omega) (by omega) fun j hj hjk => ?_
      by_cases hfirst : j = first
      · rwa [hfirst]
      · exact hbefore j (by omega) hjk
  · rintro ⟨hstored, hraised, hrest⟩ k hk hlt hbefore
    by_cases hfirst : k = first
    · subst hfirst
      exact ⟨hstored, fun message stored hr =>
        (hraised message stored hr).imp_right fun hn => by omega⟩
    · exact hrest (hbefore first le_rfl (by omega)) k (by omega) (by omega) fun j hj hjk =>
        hbefore j (by omega) hjk

/-- **The loop, from any attempt on.**  Where a recording raises, its attempt is the last one. -/
theorem deliverFrom_iff (hlast : first + n = maxAttempts + 1) :
    DeliveredFrom first n (deliverFrom hmac w event envs first n).attempts
        (deliverFrom hmac w event envs first n).rows
      ↔ RecordableFrom hmac w event envs first n := by
  induction n generalizing first with
  | zero =>
    refine iff_of_true ⟨.inr rfl, rfl, rfl, fun i row hi => ?_, fun i row hi => ?_⟩
      fun k hk hlt => ?_
    · cases hi
    · cases hi
    · omega
  | succ n ih =>
    have hlast' : first + n = maxAttempts := by omega
    rw [recordableFrom_succ hlast', deliverFrom]
    cases hrecording : (envs first).recording with
    | committed =>
      simp only [Recording.stored, reduceCtorEq, false_implies, implies_true, true_and]
      by_cases hsuccess : (outcome hmac w event (envs first)).status = "success"
      · rw [if_pos hsuccess, deliveredFrom_singleton hlast']
        exact iff_of_true (.inl hsuccess) fun hfailed => absurd hsuccess hfailed
      · rw [if_neg hsuccess, deliveredFrom_cons hlast' hsuccess deliverFrom_attempts_length_pos,
          ih (by omega)]
        exact ⟨fun h _ => h, fun h => h hsuccess⟩
    | raised message stored =>
      cases stored with
      | false =>
        -- an attempt without a row
        refine iff_of_false (fun h => ?_) fun h => (by cases h.1)
        have hnumbered := congrArg List.length h.numbered
        simp at hnumbered
      | true =>
        refine (deliveredFrom_singleton hlast').trans ⟨?_, ?_⟩
        · intro h
          refine ⟨rfl, fun _ _ _ => h, fun hfailed => ?_⟩
          obtain rfl := h.resolve_left hfailed
          exact fun k hk hlt => by omega
        · exact fun h => h.2.1 message true rfl

theorem deliverWithRetry_iff :
    Delivered (deliverWithRetry hmac w event envs).attempts
      (deliverWithRetry hmac w event envs).rows
      ↔ Recordable hmac w event envs :=
  deliverFrom_iff rfl

/-- Rows tell the webhook. -/
theorem deliverFrom_webhookId : ∀ row ∈ (deliverFrom hmac w event envs first n).rows,
    row.webhookId = w.id := by
  induction n generalizing first with
  | zero => exact fun row hrow => by cases hrow
  | succ n ih =>
    intro row hrow
    rw [deliverFrom] at hrow
    split at hrow
    · rename_i message stored _
      cases stored with
      | false => cases hrow
      | true =>
        obtain rfl := List.mem_singleton.mp hrow
        rfl
    · split at hrow
      · obtain rfl := List.mem_singleton.mp hrow
        rfl
      · rcases List.mem_cons.mp hrow with rfl | hrow
        · rfl
        · exact ih row hrow

end Deliver

/-! ### Acknowledged messages -/

/-- Every webhook the event goes to got it, or had all its attempts, as the rows say that were
recorded meanwhile. -/
def AllDelivered (db : Database) (event : Event) (handled : Handled)
    (rows : List WebhookDelivery) : Prop :=
  ∀ w ∈ matching db event, ∃ d, (w, d) ∈ handled.deliveries
    ∧ Delivered d.attempts (rows.filter fun row => row.webhookId = w.id)

/-- The rows that the deliveries record, side by side. -/
def Handled.Records (handled : Handled) (rows : List WebhookDelivery) : Prop :=
  Interleaving (handled.deliveries.map fun d => (d.1.id, d.2.rows)) rows

/-- **What is acknowledged is delivered exactly if it could be recorded.** -/
theorem webhook_acknowledged_iff {hmac : HmacSha256} {env : HandleEnv} {msg : EventMessage}
    {event : Event} {rows : List WebhookDelivery} (hdb : env.db.Good)
    (hevent : msg.event = .ok event)
    (hack : (handle hmac env msg).disposition = .acked)
    (hrows : (handle hmac env msg).Records rows) :
    AllDelivered env.db event (handle hmac env msg) rows ↔
      ∀ w ∈ matching env.db event, Recordable hmac w event (env.attempts w.id) := by
  have hhandle : (handle hmac env msg).deliveries = (matching env.db event).map fun w =>
      (w, deliverWithRetry hmac w event (env.attempts w.id)) := by
    cases hlist : env.listError with
    | none => rw [handle, hevent, hlist]
    | some e =>
      -- not acknowledged
      rw [handle, hevent, hlist] at hack
      simp only [nak] at hack
      split at hack <;> cases hack
  have hids : ((matching env.db event).map Webhook.id).Nodup := by
    refine ((List.filter_sublist.trans List.filter_sublist).map Webhook.id).nodup ?_
    exact hdb.uniquePk .webhooks
  have hfilter : ∀ w ∈ matching env.db event, rows.filter (fun row => row.webhookId = w.id)
      = (deliverWithRetry hmac w event (env.attempts w.id)).rows := by
    intro w hw
    rw [Handled.Records, hhandle, List.map_map] at hrows
    refine hrows.filter_eq ?_ ?_ (w.id, _) (List.mem_map.mpr ⟨w, hw, rfl⟩)
    · rwa [List.map_map]
    · intro t ht row hrow
      obtain ⟨w', -, rfl⟩ := List.mem_map.mp ht
      exact deliverFrom_webhookId row hrow
  refine forall₂_congr fun w hw => ?_
  rw [hfilter w hw, ← deliverWithRetry_iff, hhandle]
  constructor
  · rintro ⟨d, hd, hdelivered⟩
    obtain ⟨w', -, heq⟩ := List.mem_map.mp hd
    cases heq
    exact hdelivered
  · exact fun h => ⟨_, List.mem_map.mpr ⟨w, hw, rfl⟩, h⟩

/-- A project with a webhook. -/
def hookProject : List ServiceCall :=
  [⟨orgContext "acme", devEnv "p" 1, "", .createProject devProject⟩,
   ⟨orgContext "acme", devEnv "w" 2, "p0", .createWebhook { url := "https://acme.example/hook" }⟩]

/-- An event of that project. -/
def hookMessage : EventMessage where
  subject := "filenest.acme.p0.file.ready"
  data := .ok "\x7b\"event\": \"file.ready\"\x7d"

def hookEvent : Event := ⟨"acme", "p0", "file.ready", "\x7b\"event\": \"file.ready\"\x7d"⟩

/-- An endpoint that answers with an error, and what recording its answers comes to. -/
def hookEnv (recording : Recording) : HandleEnv where
  db := runAll hookProject Database.empty
  attempts _ k :=
    { timestamp := k, http := fun _ => .response 500 (.ok ""), now := k * second
      uuid4 := "d" ++ toString k, createdAt := k * second, recording := recording }

theorem good_hookEnv (recording : Recording) : (hookEnv recording).db.Good :=
  (reached_runAll .empty hookProject).good

/-- The webhook. -/
def hook : Webhook where
  id := "w0"
  organizationId := "acme"
  projectId := "p0"
  url := "https://acme.example/hook"
  events := ""
  signingSecret := "wsecret"
  isActive := true
  createdAt := 2
  updatedAt := 2

/-- Its delivery. -/
def hookDelivery (recording : Recording) : Delivery :=
  deliverWithRetry sampleHmac hook hookEvent ((hookEnv recording).attempts "w0")

theorem hookMessage_event : hookMessage.event = .ok hookEvent := rfl

theorem handle_hook (recording : Recording) : handle sampleHmac (hookEnv recording) hookMessage
    = { disposition := .acked, deliveries := [(hook, hookDelivery recording)] } := by
  rw [handle, hookMessage_event]
  rfl

theorem records_hook (recording : Recording) :
    (handle sampleHmac (hookEnv recording) hookMessage).Records (hookDelivery recording).rows := by
  rw [handle_hook]
  exact .singleton _ _

/-- Three attempts that fail, on record. -/
theorem webhook_acknowledged_failed :
    AllDelivered (hookEnv .committed).db hookEvent
      (handle sampleHmac (hookEnv .committed) hookMessage) (hookDelivery .committed).rows := by
  refine (webhook_acknowledged_iff (good_hookEnv _) hookMessage_event ?_ (records_hook _)).mpr ?_
  · rw [handle_hook]
  · exact fun w hw k _ _ _ => ⟨rfl, fun _ _ h => by cases h⟩

/-- One attempt that fails and cannot be recorded: acknowledged, and forgotten. -/
theorem acknowledged_unrecorded :
    ¬∀ (hmac : HmacSha256) (env : HandleEnv) (msg : EventMessage) (event : Event)
      (rows : List WebhookDelivery), env.db.Good → msg.event = .ok event →
      (handle hmac env msg).disposition = .acked → (handle hmac env msg).Records rows →
      AllDelivered env.db event (handle hmac env msg) rows := by
  intro h
  have hall := h _ _ _ _ _ (good_hookEnv (.raised "connection refused" false)) hookMessage_event
    (by rw [handle_hook]) (records_hook _)
  rw [handle_hook] at hall
  obtain ⟨d, hd, hdelivered⟩ := hall hook List.mem_cons_self
  cases List.mem_singleton.mp hd
  -- an attempt, no row
  exact absurd (congrArg List.length hdelivered.numbered) (by decide)

end Webhook

end FileNest
