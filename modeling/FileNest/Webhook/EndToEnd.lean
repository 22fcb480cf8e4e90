import FileNest.Lib.Consumer
import FileNest.Outbox.Subjects

/-!
# From a committed event to the webhooks

The outbox and the webhook worker together: a business transaction commits its events, the outbox
workers hand them to the broker, and the broker hands what it has accepted to the webhook worker
until it is acknowledged.  Transactions, publish cycles and handlers take their steps in any order,
and any of them may die.

## Main definitions

* `World`, `Step`, `Reached` — the outbox and the consumer, and what may happen.
* `Offered` — a webhook had the event, or three attempts at it, or a failure to record one.

## Main results

* `rows_of_broker` — what the broker has accepted is in the outbox.
* `no_lost_event` — **a committed event waits in the outbox, or at the broker, or was offered to
  every webhook that was active and subscribed when a handler received it.**
-/

namespace FileNest

open RowStore Subject

namespace Webhook

/-- The outbox, and the webhook worker as a consumer of what the broker has accepted. -/
structure World where
  outbox : Outbox.World
  consumer : Consumer.State (String × Message) Database HandleEnv

section World

variable (hmac : HmacSha256) (broker : Broker) (dumps : Json → String)

/-- The worker is subscribed to the message. -/
def takes (x : String × Message) : Bool := broker.delivers webhookSubject x.2.subject

/-- The message as the worker gets it. -/
def delivered (x : String × Message) : EventMessage := ⟨x.2.subject, .ok (dumps x.2.payload)⟩

/-- A handler that finds this acknowledges the message. -/
def acknowledges (x : String × Message) (env : HandleEnv) : Bool :=
  decide ((handle hmac env (delivered dumps x)).disposition = .acked)

/-- What may happen. -/
inductive Step : World → World → Prop
  | outbox {w : World} {o : Outbox.World} (hs : Outbox.Step w.outbox o)
      (hbroker : o.broker = w.outbox.broker) : Step w { w with outbox := o }
  /-- The broker accepts a message. -/
  | accept {w : World} {o : Outbox.World} {x : String × Message} (hs : Outbox.Step w.outbox o)
      (hbroker : o.broker = x :: w.outbox.broker) :
      Step w ⟨o, w.consumer.accept (takes broker) x⟩
  /-- A handler reads the webhooks when it receives a message. -/
  | work {w : World} {c : Consumer.State (String × Message) Database HandleEnv}
      (hs : Consumer.Step (acknowledges hmac dumps) (fun db env => env.db = db) w.outbox.db
        w.consumer c) : Step w { w with consumer := c }

/-- The worlds that can be reached. -/
inductive Reached : World → Prop
  | init : Reached ⟨.init, .init⟩
  | step {w w' : World} (h : Reached w) (hs : Step hmac broker dumps w w') : Reached w'

end World

/-! ### What the broker has accepted -/

/-- The event is in the outbox of the database. -/
def InOutbox (x : String × Message) (db : Database) : Prop :=
  ∃ row ∈ db .outboxMessages, OutboxMessage.id row = x.1 ∧ row.message = x.2

/-- Every step of the outbox keeps its rows, marks apart. -/
theorem InOutbox.step {w w' : Outbox.World} (h : Outbox.Invariant w) (hs : Outbox.Step w w')
    {x : String × Message} (hx : InOutbox x w.db) : InOutbox x w'.db := by
  obtain ⟨row, hrow, hid, hmessage⟩ := hx
  cases hs with
  | begin writes henq hfresh => exact ⟨row, hrow, hid, hmessage⟩
  | commit pre post hadm =>
    rename_i db writes cycles broker
    have henq : ∀ x ∈ writes, Enqueues x := h.enqueues ⟨writes, .live⟩ (by simp)
    refine ⟨row, ?_, hid, hmessage⟩
    show row ∈ applyAll writes db .outboxMessages
    rw [Outbox.applyAll_enqueued henq]
    exact List.mem_append_left _ hrow
  | rollback pre post => exact ⟨row, hrow, hid, hmessage⟩
  | select now n => exact ⟨row, hrow, hid, hmessage⟩
  | publish pre post => exact ⟨row, hrow, hid, hmessage⟩
  | publishRaises pre post taken => exact ⟨row, hrow, hid, hmessage⟩
  | commitCycle pre post =>
    rename_i db transactions now published broker
    refine ⟨Outbox.Cycle.mark ⟨now, published, []⟩ row, ?_, ?_, ?_⟩
    · show _ ∈ applyAll (Outbox.Cycle.writes ⟨now, published, []⟩) db .outboxMessages
      rw [Outbox.applyAll_cycle]
      exact List.mem_map_of_mem hrow
    · rw [Outbox.Cycle.mark_id, hid]
    · rw [Outbox.Cycle.mark_message, hmessage]
  | crash pre post => exact ⟨row, hrow, hid, hmessage⟩

/-- What a step hands to the broker is in the outbox. -/
theorem inOutbox_of_step {w w' : Outbox.World} (h : Outbox.Invariant w) (hs : Outbox.Step w w')
    {x : String × Message} (hx : x ∈ w'.broker) : x ∈ w.broker ∨ InOutbox x w.db := by
  cases hs with
  | begin writes henq hfresh => exact .inl hx
  | commit pre post hadm => exact .inl hx
  | rollback pre post => exact .inl hx
  | select now n => exact .inl hx
  | publish pre post =>
    rcases List.mem_cons.mp hx with rfl | hx
    · exact .inr (h.locked _ (List.mem_append_right _ List.mem_cons_self) _
        (List.mem_append_right _ List.mem_cons_self))
    · exact .inl hx
  | publishRaises pre post taken =>
    cases taken with
    | false => exact .inl hx
    | true =>
      rcases List.mem_cons.mp hx with rfl | hx
      · exact .inr (h.locked _ (List.mem_append_right _ List.mem_cons_self) _
          (List.mem_append_right _ List.mem_cons_self))
      · exact .inl hx
  | commitCycle pre post => exact .inl hx
  | crash pre post => exact .inl hx

/-- **What the broker has accepted is in the outbox.** -/
theorem rows_of_broker {w : Outbox.World} (hw : Outbox.Reached w) :
    ∀ x ∈ w.broker, InOutbox x w.db := by
  induction hw with
  | init => exact fun x hx => absurd hx List.not_mem_nil
  | step hreached hs ih =>
    intro x hx
    have hbefore := inOutbox_of_step hreached.invariant hs hx
    exact (hbefore.elim (ih x) fun hx => hx).step hreached.invariant hs

/-! ### The outbox and the consumer together -/

section EndToEnd

variable {hmac : HmacSha256} {broker : Broker} {dumps : Json → String} {w : World}

/-- What holds in every world that can be reached. -/
structure Invariant (hmac : HmacSha256) (broker : Broker) (dumps : Json → String) (w : World) :
    Prop where
  outbox : Outbox.Reached w.outbox
  stream : w.consumer.stream = w.outbox.broker.reverse
  consumer : Consumer.Sound (takes broker) (acknowledges hmac dumps) (fun db env => env.db = db)
    InOutbox w.consumer

theorem Invariant.step {w' : World} (h : Invariant hmac broker dumps w)
    (hs : Step hmac broker dumps w w') : Invariant hmac broker dumps w' := by
  cases hs with
  | outbox hs hbroker =>
    exact ⟨h.outbox.step hs, h.stream.trans (congrArg List.reverse hbroker.symm), h.consumer⟩
  | accept hs hbroker =>
    refine ⟨h.outbox.step hs, ?_, h.consumer.accept _⟩
    rw [hbroker, List.reverse_cons, ← h.stream]
    rfl
  | work hs =>
    have hright : ∀ x ∈ w.consumer.stream, InOutbox x w.outbox.db := by
      intro x hx
      rw [h.stream] at hx
      exact rows_of_broker h.outbox x (List.mem_reverse.mp hx)
    exact ⟨h.outbox, hs.stream_eq.trans h.stream, h.consumer.step hright hs⟩

theorem Reached.invariant (hw : Reached hmac broker dumps w) : Invariant hmac broker dumps w := by
  induction hw with
  | init => exact ⟨.init, rfl, .init⟩
  | step _ hs ih => exact ih.step hs

/-- The webhook got the event, or all the attempts were made, or one could not be recorded. -/
def Offered (handled : Handled) (hook : Webhook) : Prop :=
  ∃ d, (hook, d) ∈ handled.deliveries ∧ ((∃ o ∈ d.attempts, o.status = "success") ∨
    d.attempts.length = maxAttempts ∨ d.raised ≠ none)

theorem deliverFrom_complete (hook : Webhook) (event : Event) (envs : ℕ → AttemptEnv)
    (first n : ℕ) : (∃ o ∈ (deliverFrom hmac hook event envs first n).attempts,
        o.status = "success") ∨ (deliverFrom hmac hook event envs first n).attempts.length = n ∨
      (deliverFrom hmac hook event envs first n).raised ≠ none := by
  induction n generalizing first with
  | zero => exact .inr (.inl rfl)
  | succ n ih =>
    rw [deliverFrom]
    cases hrecording : (envs first).recording with
    | raised message stored => exact .inr (.inr (Option.some_ne_none _))
    | committed =>
      by_cases hsuccess : (outcome hmac hook event (envs first)).status = "success"
      · simp only [if_pos hsuccess]
        exact .inl ⟨_, List.mem_cons_self, hsuccess⟩
      · simp only [if_neg hsuccess]
        rcases ih (first + 1) with ⟨o, ho, hstatus⟩ | hlength | hraised
        · exact .inl ⟨o, List.mem_cons_of_mem _ ho, hstatus⟩
        · exact .inr (.inl (congrArg (· + 1) hlength))
        · exact .inr (.inr hraised)

/-- A message that is acknowledged was offered to every webhook it goes to. -/
theorem offered_of_acked {env : HandleEnv} {msg : EventMessage}
    (hack : (handle hmac env msg).disposition = .acked) : ∃ event, msg.event = .ok event ∧
      ∀ hook ∈ matching env.db event, Offered (handle hmac env msg) hook := by
  have hnak : nak env ≠ .acked := by
    unfold nak
    split <;> exact fun h => by cases h
  rw [handle] at hack ⊢
  cases hevent : msg.event with
  | error e =>
    rw [hevent] at hack
    exact absurd hack hnak
  | ok event =>
    cases hlist : env.listError with
    | some e =>
      rw [hevent, hlist] at hack
      exact absurd hack hnak
    | none =>
      refine ⟨event, rfl, fun hook hhook => ?_⟩
      exact ⟨_, List.mem_map.mpr ⟨hook, hhook, rfl⟩, deliverFrom_complete hook event _ _ _⟩

/-- The event has not been accepted by the broker, and is unmarked; or the broker still hands it
out; or one of the handlers, which received it when it was already committed, has offered it to
every webhook that was active and subscribed then, and acknowledged it. -/
def World.Keeps (hmac : HmacSha256) (dumps : Json → String) (w : World) (row : OutboxMessage) :
    Prop :=
  ((row.id, row.message) ∉ w.outbox.broker ∧ row.publishedAt = none) ∨
    (∃ seq ∈ w.consumer.unacked, w.consumer.stream[seq]? = some (row.id, row.message)) ∨
    ∃ x env event, (x, env) ∈ w.consumer.log ∧ x.message = (row.id, row.message) ∧
      env.db = x.context ∧ InOutbox x.message x.context ∧
      (delivered dumps x.message).event = .ok event ∧
      (handle hmac env (delivered dumps x.message)).disposition = .acked ∧
      ∀ hook ∈ matching x.context event, Offered (handle hmac env (delivered dumps x.message)) hook

/-- **No committed event is lost to the webhooks.** -/
theorem no_lost_event (hw : Reached hmac broker dumps w) {row : OutboxMessage}
    (hrow : row ∈ w.outbox.table)
    (htakes : broker.delivers webhookSubject row.subject = true) : w.Keeps hmac dumps row := by
  have h := hw.invariant
  by_cases hbroker : (row.id, row.message) ∈ w.outbox.broker
  · have hstream : (row.id, row.message) ∈ w.consumer.stream := by
      rw [h.stream]
      exact List.mem_reverse.mpr hbroker
    obtain ⟨seq, hseq⟩ := List.mem_iff_getElem?.mp hstream
    rcases h.consumer.covered seq _ hseq htakes with hunacked | ⟨e, he, rfl, hacks⟩
    · exact .inr (.inl ⟨seq, hunacked, hseq⟩)
    · obtain ⟨hsound, hdb⟩ := h.consumer.log e he
      have hmessage : e.1.message = (row.id, row.message) :=
        Option.some.inj (hsound.place.symm.trans hseq)
      have hack : (handle hmac e.2 (delivered dumps e.1.message)).disposition = .acked :=
        of_decide_eq_true hacks
      obtain ⟨event, hevent, hoffered⟩ := offered_of_acked hack
      rw [hdb] at hoffered
      exact .inr (.inr ⟨e.1, e.2, event, he, hmessage, hdb, hsound.right, hevent, hack, hoffered⟩)
  · refine .inl ⟨hbroker, ?_⟩
    by_contra hpublished
    exact hbroker (h.outbox.invariant.published row hrow hpublished)

end EndToEnd

/-- An event, and the webhook it goes to. -/
def readyRow : OutboxMessage :=
  ⟨"e1", "filenest.acme.p0.file.ready", .obj [], 1, none, "acme", "p0"⟩

def readyWrites : List DbWrite := [.insert .webhooks hook, .insert .outboxMessages readyRow]

/-- The event was accepted by the broker, and a handler that received it has come to its end. -/
theorem no_lost_event_handled : ∃ w : World, readyRow ∈ w.outbox.table ∧
    w.outbox.broker = [(readyRow.id, readyRow.message)] ∧ w.consumer.log.length = 1 ∧
      w.Keeps sampleHmac (fun _ => "") readyRow := by
  let db := applyAll readyWrites Database.empty
  have hinit : Reached sampleHmac wordBroker (fun _ => "") ⟨.init, .init⟩ := .init
  have hbegin := hinit.step (.outbox (.begin readyWrites (by simp [readyWrites, Enqueues, readyRow])
    (by decide)) rfl)
  have hcommit := hbegin.step (.outbox (.commit [] [] (by decide)) rfl)
  have hselect : Reached sampleHmac wordBroker (fun _ => "")
      ⟨⟨db, [⟨readyWrites, .committed⟩], [⟨5, [], [readyRow]⟩], []⟩, .init⟩ :=
    hcommit.step (.outbox (.select 5 100) rfl)
  have hpublish := hselect.step (.accept (.publish [] []) rfl)
  have hdeliver := hpublish.step (.work (.deliver List.mem_cons_self rfl))
  have hfinish := hdeliver.step
    (.work (.finish [] [] (d := { hookEnv .committed with db := db }) rfl))
  refine ⟨_, ?_, rfl, rfl, no_lost_event hfinish ?_ (by decide)⟩
  all_goals exact List.mem_cons_self

end Webhook

end FileNest
