import FileNest.Projects.ConfigLists
import FileNest.Webhook.Worker

/-!
# Subscriptions of webhooks

The event types of a webhook are a list in the API and comma-separated text in the table, which
the response and the delivery worker take apart again, each for itself.  Empty text stands for all
events.  The elements are trimmed and blank ones dropped, so that text can be empty that was not
meant to be, and a comma makes two elements of one.

## Main definitions

* `SubscribedWith` — a webhook just saved with a list.
* `SubscriptionAgrees` — the worker goes by the list, and saving what is shown changes nothing.
* `Subscribable` — what a list must be.

## Main results

* `subscribedWith_events` — what is stored of the list.
* `eventMatches_eventsToStr_iff` — the worker goes by the list exactly if it is well-formed.
* `subscriptionAgrees_iff` — **nor does anything else go wrong.**
* `blank_subscription` — a blank element subscribes to everything.
-/

namespace FileNest

open RowStore Webhook

/-- The list of event types a call supplies. -/
def Operation.subscription : Operation → Option (List String)
  | createWebhook req => some req.events
  | updateWebhook _ req => req.events
  | _ => none

/-- The webhook of the database was just created or updated with the list. -/
def SubscribedWith (values : List String) (db' : Database) (w : Webhook) : Prop :=
  ∃ (db : Database) (c : ServiceCall) (response : WebhookResponse) (ws : List DbWrite),
    db.Good ∧ c.op.subscription = some values ∧ c.result db = .ok (.webhook response, ws)
      ∧ Admissible ws db ∧ db' = applyAll ws db ∧ w ∈ db' .webhooks ∧ w.id = response.id

/-- The worker selects the webhook, if it is active, for the events of its list, or for all of
them if the list is empty; and to save the list that is shown changes nothing. -/
structure SubscriptionAgrees (values : List String) : Prop where
  selected : ∀ db w, SubscribedWith values db w → ∀ eventType payload,
    w ∈ matching db ⟨w.organizationId, w.projectId, eventType, payload⟩ ↔
      w.isActive = true ∧ (values = [] ∨ eventType ∈ values)
  resaved : ∀ db w, SubscribedWith values db w → ∀ (c : ServiceCall) r ws,
    c.op = .updateWebhook w.id { events := some (WebhookResponse.ofRecord w none).events } →
    c.result db = .ok (r, ws) → applyAll ws db = db

/-- No element of the list is blank, has blanks around it, or has a comma. -/
def Subscribable (values : List String) : Prop :=
  ∀ v ∈ values, v ≠ "" ∧ Text.strip v = v ∧ ',' ∉ v.toList

/-! ### The text -/

section Text

variable {values : List String}

theorem eventsToStr_eq_empty : eventsToStr values = "" ↔ trimmed values = [] := by
  show Text.joinWith "," (trimmed values) = "" ↔ _
  cases htrimmed : trimmed values with
  | nil => exact iff_of_true rfl rfl
  | cons w ws =>
    obtain ⟨-, -, -, hw⟩ := mem_trimmed.mp (htrimmed ▸ List.mem_cons_self)
    exact iff_of_false (joinWith_ne_empty hw "," ws) (List.cons_ne_nil _ _)

theorem eventMatches_iff {text eventType : String} :
    eventMatches text eventType = true ↔
      text = "" ∨ eventType ∈ trimmed (Text.split ',' text) := by
  rw [eventMatches, Bool.or_eq_true, beq_iff_eq, List.contains_eq_mem, decide_eq_true_iff]
  rfl

/-- A well-formed list is stored as it is. -/
theorem Subscribable.trimmed_eq (h : Subscribable values) : trimmed values = values := by
  have hmap : values.map Text.strip = values :=
    (List.map_congr_left fun v hv => (h v hv).2.1).trans (List.map_id _)
  rw [trimmed, hmap, List.filter_eq_self]
  exact fun v hv => bne_iff_ne.mpr (h v hv).1

/-- … and read as it is. -/
theorem Subscribable.split_eventsToStr (h : Subscribable values) (hne : values ≠ []) :
    Text.split ',' (eventsToStr values) = values := by
  show Text.split ',' (Text.joinWith "," (trimmed values)) = values
  rw [h.trimmed_eq]
  exact Text.split_joinWith rfl (fun v hv => (h v hv).2.2) hne

/-- **The worker goes by the list** exactly if it is well-formed. -/
theorem eventMatches_eventsToStr_iff :
    (∀ eventType, eventMatches (eventsToStr values) eventType = true ↔
      values = [] ∨ eventType ∈ values) ↔ Subscribable values := by
  simp only [eventMatches_iff, eventsToStr_eq_empty]
  constructor
  · intro h v hv
    have hne : values ≠ [] := List.ne_nil_of_mem hv
    -- not every word is an element of the list
    have htrimmed : trimmed values ≠ [] := by
      intro hnil
      have hword := ((h "a").mp (.inl hnil)).resolve_left hne
      exact absurd (trimmed_eq_nil.mp hnil "a" hword) (by decide)
    obtain ⟨piece, hpiece, hstrip, hblank⟩ :=
      mem_trimmed.mp (((h v).mpr (.inr hv)).resolve_left htrimmed)
    refine ⟨hblank, ?_, ?_⟩
    · rw [← hstrip]
      exact Text.stripBy_stripBy _ _
    · rw [← hstrip, comma_mem_strip]
      exact Text.notMem_of_mem_split hpiece
  · intro h eventType
    rw [h.trimmed_eq]
    refine or_congr_right' fun hne => ?_
    rw [h.split_eventsToStr hne, h.trimmed_eq]

/-- What is shown of a well-formed list is the list. -/
theorem Subscribable.strToEvents_eventsToStr (h : Subscribable values) :
    strToEvents (eventsToStr values) = values := by
  rw [strToEvents]
  split
  · rename_i hempty
    rw [← h.trimmed_eq, eventsToStr_eq_empty.mp hempty]
  · rename_i hne
    have hvalues : values ≠ [] := by
      rintro rfl
      exact hne rfl
    rw [h.split_eventsToStr hvalues]
    exact h.trimmed_eq

end Text

/-! ### The table -/

section Table

variable {values : List String} {db : Database} {w : Webhook}

/-- Saving a webhook as it is. -/
theorem applyAll_save_self (loaded : Webhook) (now : ℕ) (db : Database) :
    applyAll [loaded.save loaded now] db = db := by
  funext t
  by_cases ht : t = .webhooks
  · subst ht
    show (Webhook.save loaded loaded now).apply db .webhooks = db .webhooks
    rw [Webhook.save, apply_update_self]
    refine (List.map_congr_left fun (r : Webhook) _ => ?_).trans (List.map_id _)
    have hsame : (loaded.flush loaded now).toFun r = r := by
      simp only [Webhook.flush, flushColumn_self, if_true]
    rw [hsame, ite_self]
    rfl
  · exact applyAll_of_table_ne (List.forall_mem_singleton.mpr (Ne.symm ht)) db

/-- **What is stored of the list.** -/
theorem subscribedWith_events (h : SubscribedWith values db w) :
    w.events = eventsToStr values ∧ db.UniquePk := by
  obtain ⟨before, c, response, ws, hgood, hsubscription, hresult, hadm, rfl, hw, hid⟩ := h
  refine ⟨?_, uniquePk_applyAll hgood.uniquePk hadm⟩
  obtain ⟨ctx, env, projectId, op⟩ := c
  cases op with
  | createWebhook req =>
    obtain rfl := Option.some.inj hsubscription
    simp only [ServiceCall.result, Operation.run, WebhookService.create, pure_eq_ok,
      Prod.mk.injEq, Response.webhook.injEq] at hresult
    obtain ⟨rfl, rfl⟩ := hresult
    rw [applyAll_cons, applyAll_nil, apply_insert_self, List.mem_append, List.mem_singleton] at hw
    rcases hw with hold | rfl
    · exact absurd hid (hadm.1 w hold)
    · rfl
  | updateWebhook webhookId req =>
    simp only [ServiceCall.result, Operation.run, WebhookService.update, bind_eq_ok, pure_eq_ok,
      Prod.mk.injEq, Response.webhook.injEq] at hresult
    obtain ⟨webhook, hget, rfl, rfl⟩ := hresult
    obtain ⟨hmem, -⟩ := WebhookRepository.of_get hget
    have hsupplied : req.events = some values := hsubscription
    rw [applyAll_cons, applyAll_nil, Webhook.save, apply_update_self] at hw
    obtain ⟨row, hrow, rfl⟩ := List.mem_map.mp hw
    -- a patch keeps the key, so the row is the one that was loaded
    have hpk : ∀ f : Patch Table.Row .webhooks,
        pk (if pk row = webhook.id then f.toFun row else row) = pk row := by
      intro f
      split
      · exact f.pk_toFun row
      · rfl
    obtain rfl : row = webhook :=
      hgood.uniquePk.eq_of_pk (t := .webhooks) hrow hmem ((hpk _).symm.trans hid)
    have hself : pk row = Webhook.id row := rfl
    rw [if_pos hself]
    show flushColumn row.events ((req.events.map eventsToStr).getD row.events) row.events = _
    rw [flushColumn_current, hsupplied]
    rfl
  | _ => cases hsubscription

theorem mem_matching {eventType payload : String} (hw : w ∈ db .webhooks) :
    w ∈ matching db ⟨w.organizationId, w.projectId, eventType, payload⟩ ↔
      w.isActive = true ∧ eventMatches w.events eventType = true := by
  rw [matching, WebhookRepository.listActiveForProject, List.mem_filter, List.mem_filter]
  simp only [hw, beq_self_eq_true, Bool.true_and, true_and]

/-- To save what is shown of a well-formed list changes nothing. -/
theorem Subscribable.resaved (h : Subscribable values) (hw : SubscribedWith values db w)
    {c : ServiceCall} {r : Response} {ws : List DbWrite}
    (hop : c.op = .updateWebhook w.id { events := some (WebhookResponse.ofRecord w none).events })
    (hresult : c.result db = .ok (r, ws)) : applyAll ws db = db := by
  obtain ⟨hevents, hunique⟩ := subscribedWith_events hw
  obtain ⟨-, -, -, -, -, -, -, -, -, hmem, -⟩ := hw
  obtain ⟨ctx, env, projectId, op⟩ := c
  subst hop
  simp only [ServiceCall.result, Operation.run, WebhookService.update, bind_eq_ok, pure_eq_ok,
    Prod.mk.injEq] at hresult
  obtain ⟨webhook, hget, -, rfl⟩ := hresult
  obtain ⟨hmem', hid, -⟩ := WebhookRepository.of_get hget
  obtain rfl : w = webhook := hunique.eq_of_pk (t := .webhooks) hmem hmem' hid.symm
  have hshown : eventsToStr (WebhookResponse.ofRecord w none).events = w.events := by
    rw [WebhookResponse.ofRecord, hevents, h.strToEvents_eventsToStr]
  simp only [Option.map_some, Option.getD_some, Option.getD_none, hshown]
  exact applyAll_save_self w env.now db

/-- Any list can be supplied. -/
theorem exists_subscribedWith (values : List String) :
    ∃ db w, SubscribedWith values db w ∧ w.isActive = true := by
  let call : ServiceCall := ⟨orgContext "acme", devEnv "w" 1, "p0",
    .createWebhook { url := "https://acme.test", events := values }⟩
  let webhook : Webhook :=
    { id := "w0", organizationId := "acme", projectId := "p0", url := "https://acme.test"
      events := eventsToStr values, signingSecret := "wsecret", isActive := true
      createdAt := 1, updatedAt := 1 }
  have hadm : Admissible [.insert .webhooks webhook] Database.empty :=
    ⟨List.forall_mem_nil _, trivial⟩
  exact ⟨applyAll [.insert .webhooks webhook] Database.empty, webhook,
    ⟨Database.empty, call, .ofRecord webhook (some "wsecret"), [.insert .webhooks webhook],
      Database.good_empty, rfl, rfl, hadm, rfl, .head _, rfl⟩, rfl⟩

/-- A list that the worker goes by is well-formed. -/
theorem SubscriptionAgrees.subscribable (h : SubscriptionAgrees values) : Subscribable values := by
  refine eventMatches_eventsToStr_iff.mp fun eventType => ?_
  obtain ⟨db, w, hw, hactive⟩ := exists_subscribedWith values
  obtain ⟨hevents, -⟩ := subscribedWith_events hw
  have hselected := h.selected db w hw eventType ""
  obtain ⟨-, -, -, -, -, -, -, -, -, hmem, -⟩ := hw
  rw [mem_matching hmem, hactive, hevents] at hselected
  simpa only [true_and] using hselected

end Table

/-- **The worker goes by the list that was supplied, and what is shown can be saved again, exactly
if the list is well-formed.** -/
theorem subscriptionAgrees_iff (values : List String) :
    SubscriptionAgrees values ↔ Subscribable values := by
  constructor
  · exact SubscriptionAgrees.subscribable
  · intro h
    refine ⟨fun db w hw eventType payload => ?_, fun db w hw c r ws => h.resaved hw⟩
    obtain ⟨hevents, -⟩ := subscribedWith_events hw
    obtain ⟨-, -, -, -, -, -, -, -, -, hmem, -⟩ := hw
    rw [mem_matching hmem, hevents]
    exact and_congr_right fun _ => eventMatches_eventsToStr_iff.mpr h eventType

/-- A list with a blank in it is not empty, and subscribes to everything. -/
theorem blank_subscription : ¬∀ values, SubscriptionAgrees values := by
  intro h
  have hblank := (h [" "]).subscribable " " (List.mem_singleton_self " ")
  exact absurd hblank.2.1 (by decide)

end FileNest
