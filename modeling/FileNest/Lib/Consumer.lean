import Mathlib.Data.List.Basic

/-!
# A durable consumer of a stream

A broker keeps what it accepts in a stream, and hands the messages a consumer has subscribed to
to the handlers of that consumer, again and again until one of them acknowledges.  Handlers run side
by side, may find anything, and may die.

## Main definitions

* `Receipt`, `State` — a message in the hands of a handler, and the state of the consumer.
* `State.accept`, `Step` — the broker accepts a message; what a handler does.
* `Sound` — what holds throughout.

## Main results

* `Sound.accept`, `Sound.step` — a message that is taken is unacknowledged, or **it was acknowledged
  by a handler that had received it**.
-/

namespace Consumer

variable {M C D : Type}

/-- A message that was handed to a handler, and what the handler found then. -/
structure Receipt (M C : Type) where
  seq : ℕ
  message : M
  context : C

/-- The stream, the places that are not acknowledged, the messages in hand, and what became of
those that are not. -/
structure State (M C D : Type) where
  stream : List M
  unacked : List ℕ
  receipts : List (Receipt M C)
  log : List (Receipt M C × D)

/-- Nothing was accepted. -/
def State.init : State M C D := ⟨[], [], [], []⟩

variable (takes : M → Bool)

/-- The broker accepts a message. -/
def State.accept (s : State M C D) (m : M) : State M C D :=
  { s with
    stream := s.stream ++ [m]
    unacked := if takes m then s.stream.length :: s.unacked else s.unacked }

variable (acks : M → D → Bool) (comes : C → D → Prop)

/-- What a handler does, where `context` is what it may find. -/
inductive Step (context : C) : State M C D → State M C D → Prop
  | deliver {s : State M C D} {seq : ℕ} {m : M} (hseq : seq ∈ s.unacked)
      (hm : s.stream[seq]? = some m) :
      Step context s { s with receipts := ⟨seq, m, context⟩ :: s.receipts }
  | finish {stream : List M} {unacked : List ℕ} (pre post : List (Receipt M C))
      {x : Receipt M C} {log : List (Receipt M C × D)} {d : D} (hd : comes x.context d) :
      Step context ⟨stream, unacked, pre ++ x :: post, log⟩
        ⟨stream, if acks x.message d then unacked.filter (· ≠ x.seq) else unacked, pre ++ post,
          (x, d) :: log⟩
  | crash {stream : List M} {unacked : List ℕ} (pre post : List (Receipt M C))
      {x : Receipt M C} {log : List (Receipt M C × D)} :
      Step context ⟨stream, unacked, pre ++ x :: post, log⟩ ⟨stream, unacked, pre ++ post, log⟩

/-- A receipt is of a message of the stream, and its context was right for the message. -/
structure Receipt.Sound (right : M → C → Prop) (stream : List M) (x : Receipt M C) : Prop where
  place : stream[x.seq]? = some x.message
  right : right x.message x.context

/-- What holds throughout. -/
structure Sound (right : M → C → Prop) (s : State M C D) : Prop where
  receipts : ∀ x ∈ s.receipts, x.Sound right s.stream
  log : ∀ e ∈ s.log, e.1.Sound right s.stream ∧ comes e.1.context e.2
  covered : ∀ (seq : ℕ) (m : M), s.stream[seq]? = some m → takes m = true →
    seq ∈ s.unacked ∨ ∃ e ∈ s.log, e.1.seq = seq ∧ acks e.1.message e.2 = true

section Sound

variable {takes acks comes} {right : M → C → Prop} {s s' : State M C D}

theorem Step.stream_eq {context : C} (h : Step acks comes context s s') :
    s'.stream = s.stream := by
  cases h with
  | deliver hseq hm => rfl
  | finish pre post hd => rfl
  | crash pre post => rfl

theorem Receipt.Sound.append {x : Receipt M C} {stream : List M} (h : x.Sound right stream)
    (m : M) : x.Sound right (stream ++ [m]) where
  place := by
    rw [List.getElem?_append_left (List.getElem?_eq_some_iff.mp h.place).1]
    exact h.place
  right := h.right

theorem Sound.init : Sound takes acks comes right (.init : State M C D) where
  receipts x hx := absurd hx List.not_mem_nil
  log e he := absurd he List.not_mem_nil
  covered seq m hm := by simp [State.init] at hm

theorem Sound.accept (h : Sound takes acks comes right s) (m : M) :
    Sound takes acks comes right (s.accept takes m) where
  receipts x hx := (h.receipts x hx).append m
  log e he := ⟨(h.log e he).1.append m, (h.log e he).2⟩
  covered seq m' hm' htakes := by
    simp only [State.accept] at hm' ⊢
    by_cases hlt : seq < s.stream.length
    · rw [List.getElem?_append_left hlt] at hm'
      rcases h.covered seq m' hm' htakes with hseq | hlog
      · refine .inl ?_
        split
        · exact List.mem_cons_of_mem _ hseq
        · exact hseq
      · exact .inr hlog
    · -- the new message is unacknowledged
      rw [List.getElem?_append_right (Nat.le_of_not_lt hlt), List.getElem?_singleton] at hm'
      split at hm'
      · next hzero =>
        obtain rfl := Option.some.inj hm'
        have hseq : seq = s.stream.length := by omega
        rw [if_pos htakes, hseq]
        exact .inl List.mem_cons_self
      · cases hm'

/-- **A step loses no message.** -/
theorem Sound.step {context : C} (h : Sound takes acks comes right s)
    (hright : ∀ m ∈ s.stream, right m context) (hs : Step acks comes context s s') :
    Sound takes acks comes right s' := by
  cases hs with
  | deliver hseq hm =>
    refine { h with receipts := List.forall_mem_cons.mpr ⟨⟨hm, ?_⟩, h.receipts⟩ }
    exact hright _ (List.mem_of_getElem? hm)
  | finish pre post hd =>
    rename_i stream unacked x log d
    have hx := h.receipts x (List.mem_append_right _ List.mem_cons_self)
    refine ⟨fun y hy => h.receipts y ?_, List.forall_mem_cons.mpr ⟨⟨hx, hd⟩, h.log⟩, ?_⟩
    · rcases List.mem_append.mp hy with hy | hy
      · exact List.mem_append_left _ hy
      · exact List.mem_append_right _ (List.mem_cons_of_mem _ hy)
    · intro seq m hm htakes
      rcases h.covered seq m hm htakes with hseq | ⟨e, he, hacked⟩
      · by_cases hacks : acks x.message d = true
        · by_cases hne : seq = x.seq
          · exact .inr ⟨(x, d), List.mem_cons_self, hne.symm, hacks⟩
          · refine .inl ?_
            simp only [if_pos hacks]
            exact List.mem_filter.mpr ⟨hseq, decide_eq_true hne⟩
        · simp only [if_neg hacks]
          exact .inl hseq
      · exact .inr ⟨e, List.mem_cons_of_mem _ he, hacked⟩
  | crash pre post =>
    refine { h with receipts := fun y hy => h.receipts y ?_ }
    rcases List.mem_append.mp hy with hy | hy
    · exact List.mem_append_left _ hy
    · exact List.mem_append_right _ (List.mem_cons_of_mem _ hy)

end Sound

end Consumer
