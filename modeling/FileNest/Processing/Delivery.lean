import FileNest.Processing.World

/-!
# No file stuck in processing

A file that is `processing` is owed a run.  The debt is carried by the event of its
confirmation: first by an outbox row the broker has not taken, then by a message that is
not acknowledged and that no handler has given up on.  A handler gives up when it has
seen the file settled, or when its failure handler raises; the second leaves the file
where it was, and the message is acknowledged all the same.

## Main definitions

* `Ledger` — how rows, messages and handlers hang together.
* `Handler.Spent` — the handler will not settle the file any more.
* `Covered` — a row or message that is still good for a run.
* `NotSwallowed` — the condition: no failure handler raises on a file still `processing`.

## Main results

* `Tracked.step` — every step that meets the condition keeps every processing file covered.
* `no_stuck_file` — **an event or message is left for every processing file.**
* `stuck_file` — without the condition there may be none.
-/

namespace FileNest

open RowStore

namespace Processing

/-! ### Rows, messages and handlers -/

/-- What the broker took are messages of rows; unacknowledged messages and handlers go by
their place in the stream; publish cycles work on rows, and have sent what they list as
published. -/
structure Ledger (w : World) : Prop where
  stream : ∀ x ∈ w.stream, ∃ row ∈ w.db .outboxMessages, OutboxMessage.id row = x.1
  unacked : ∀ x ∈ w.unacked, ∃ i, w.stream[x.1]? = some (i, x.2)
  handlers : ∀ x ∈ w.handlers, ∃ i m, w.stream[x.seq]? = some (i, m)
    ∧ ProcessingWorker.target m = some x.target
  locked : ∀ c ∈ w.cycles, ∀ m ∈ c.locked, ∃ row ∈ w.db .outboxMessages,
    OutboxMessage.id row = m.id ∧ row.message = m.message
  published : ∀ c ∈ w.cycles, ∀ m ∈ c.published, ∃ x ∈ w.stream, x.1 = m.id

/-- The rows of one database are in another, marks apart. -/
def KeepsRows (db db' : Database) : Prop :=
  ∀ row ∈ db .outboxMessages, ∃ row' ∈ db' .outboxMessages,
    OutboxMessage.id row' = OutboxMessage.id row ∧ row'.message = row.message

theorem KeepsRows.refl (db : Database) : KeepsRows db db := fun row hrow => ⟨row, hrow, rfl, rfl⟩

theorem keepsRows_cycle (c : Outbox.Cycle) (db : Database) :
    KeepsRows db (applyAll c.writes db) := by
  intro row hrow
  refine ⟨c.mark row, ?_, c.mark_id row, c.mark_message row⟩
  rw [Outbox.applyAll_cycle]
  exact List.mem_map_of_mem hrow

section Ledger

variable {w w' : World}

theorem Commits.outbox {e : Entry} (hc : Commits w e w') (h : Consistent w) :
    w'.db .outboxMessages = w.db .outboxMessages ++ Outbox.enqueued e.what.writes := by
  rw [hc.db]
  exact Outbox.applyAll_enqueued (hc.enqueues h) w.db

theorem Commits.keepsRows {e : Entry} (hc : Commits w e w') (h : Consistent w) :
    KeepsRows w.db w'.db := by
  intro row hrow
  refine ⟨row, ?_, rfl, rfl⟩
  rw [hc.outbox h]
  exact List.mem_append_left _ hrow

/-- Messages may be acknowledged, handlers move on, and cycles end. -/
theorem Ledger.mono (h : Ledger w) (hrows : KeepsRows w.db w'.db) (hstream : w'.stream = w.stream)
    (hunacked : ∀ x ∈ w'.unacked, x ∈ w.unacked)
    (hhandlers : ∀ y ∈ w'.handlers, ∃ x ∈ w.handlers, x.seq = y.seq ∧ x.target = y.target)
    (hcycles : ∀ c ∈ w'.cycles, c ∈ w.cycles) : Ledger w' where
  stream x hx := by
    rw [hstream] at hx
    obtain ⟨row, hrow, hid⟩ := h.stream x hx
    obtain ⟨row', hrow', hid', -⟩ := hrows row hrow
    exact ⟨row', hrow', hid'.trans hid⟩
  unacked x hx := hstream ▸ h.unacked x (hunacked x hx)
  handlers y hy := by
    obtain ⟨x, hx, hseq, htarget⟩ := hhandlers y hy
    rw [hstream, ← hseq, ← htarget]
    exact h.handlers x hx
  locked c hc m hm := by
    obtain ⟨row, hrow, hid, hmessage⟩ := h.locked c (hcycles c hc) m hm
    obtain ⟨row', hrow', hid', hmessage'⟩ := hrows row hrow
    exact ⟨row', hrow', hid'.trans hid, hmessage'.trans hmessage⟩
  published c hc := hstream ▸ h.published c (hcycles c hc)

/-- The broker takes the message of a row. -/
theorem Ledger.accept (h : Ledger w) {m : OutboxMessage}
    (hm : ∃ row ∈ w.db .outboxMessages, OutboxMessage.id row = m.id ∧ row.message = m.message) :
    Ledger (w.accept m) where
  stream x hx := by
    rcases List.mem_append.mp hx with hx | hx
    · exact h.stream x hx
    · obtain rfl := List.mem_singleton.mp hx
      obtain ⟨row, hrow, hid, -⟩ := hm
      exact ⟨row, hrow, hid⟩
  unacked x hx := by
    rcases List.mem_cons.mp hx with rfl | hx
    · exact ⟨m.id, by simp [World.accept]⟩
    · obtain ⟨i, hi⟩ := h.unacked x hx
      exact ⟨i, List.getElem?_append_left (List.getElem?_eq_some_iff.mp hi).1 ▸ hi⟩
  handlers x hx := by
    obtain ⟨i, m', hi, htarget⟩ := h.handlers x hx
    exact ⟨i, m', List.getElem?_append_left (List.getElem?_eq_some_iff.mp hi).1 ▸ hi, htarget⟩
  locked := h.locked
  published c hc m' hm' := by
    obtain ⟨x, hx, hid⟩ := h.published c hc m' hm'
    exact ⟨x, List.mem_append_left _ hx, hid⟩

/-- When one handler moves on, nobody changes message or target. -/
theorem handlers_replaced {pre post : List Handler} {seq : ℕ} {target : Target}
    {phase phase' : Phase} (hh : w.handlers = pre ++ ⟨seq, target, phase⟩ :: post) :
    ∀ y ∈ pre ++ ⟨seq, target, phase'⟩ :: post, ∃ x ∈ w.handlers, x.seq = y.seq
      ∧ x.target = y.target := by
  intro y hy
  rcases mem_replace (x := ⟨seq, target, phase⟩) hy with rfl | hy
  · exact ⟨⟨seq, target, phase⟩, by rw [hh]; simp, rfl, rfl⟩
  · exact ⟨y, hh ▸ hy, rfl, rfl⟩

/-- Cycles that ended. -/
theorem cycles_dropped {pre post : List Outbox.Cycle} {c : Outbox.Cycle}
    (hc : w.cycles = pre ++ c :: post) : ∀ d ∈ pre ++ post, d ∈ w.cycles :=
  fun _ hd => hc ▸ ReadCommitted.mem_of_mem_erase hd

/-- The next row of a cycle is a row of the table. -/
theorem Ledger.next (h : Ledger w) {pre post : List Outbox.Cycle} {now : ℕ}
    {published remaining : List OutboxMessage} {m : OutboxMessage}
    (hc : w.cycles = pre ++ ⟨now, published, m :: remaining⟩ :: post) :
    ∃ row ∈ w.db .outboxMessages, OutboxMessage.id row = m.id ∧ row.message = m.message :=
  h.locked ⟨now, published, m :: remaining⟩ (by rw [hc]; simp) m
    (by simp [Outbox.Cycle.locked])

theorem Ledger.step (h : Ledger w) (hcons : Consistent w) {l : Label} (hs : Step w l w') :
    Ledger w' := by
  have hsame : ∀ y ∈ w.handlers, ∃ x ∈ w.handlers, x.seq = y.seq ∧ x.target = y.target :=
    fun y hy => ⟨y, hy, rfl, rfl⟩
  have hkeep : KeepsRows w.db w.db := .refl _
  have hcommit : ∀ e, l = .commit e → KeepsRows w.db w'.db := by
    rintro e rfl
    exact hs.commits.keepsRows hcons
  cases hs with
  | read call => exact h.mono hkeep rfl (fun x hx => hx) hsame fun c hc => hc
  | commit pre post hr hws he hadm =>
    exact h.mono (hcommit _ rfl) rfl (fun x hx => hx) hsame fun c hc => hc
  | rollback pre post hr => exact h.mono hkeep rfl (fun x hx => hx) hsame fun c hc => hc
  | select now batch hbatch =>
    refine { h with locked := ?_, published := ?_ }
    · intro c hc m hm
      rcases List.mem_cons.mp hc with rfl | hc
      · exact ⟨m, (hbatch m (by simpa [Outbox.Cycle.locked] using hm)).1, rfl, rfl⟩
      · exact h.locked c hc m hm
    · intro c hc m hm
      rcases List.mem_cons.mp hc with rfl | hc
      · cases hm
      · exact h.published c hc m hm
  | publish pre post hc =>
    rename_i now published remaining m
    have haccept := h.accept (h.next hc)
    have hold : (⟨now, published, m :: remaining⟩ : Outbox.Cycle) ∈ w.cycles := by simp [hc]
    refine { haccept with locked := ?_, published := ?_ }
    · intro c hcm m' hm'
      rcases mem_replace (x := ⟨now, published, m :: remaining⟩) hcm with rfl | hcm
      · exact h.locked _ hold m' (by simpa [Outbox.Cycle.locked] using hm')
      · exact h.locked c (hc ▸ hcm) m' hm'
    · intro c hcm m' hm'
      rcases mem_replace (x := ⟨now, published, m :: remaining⟩) hcm with rfl | hcm
      · rcases List.mem_append.mp hm' with hm' | hm'
        · exact haccept.published _ hold m' hm'
        · obtain rfl := List.mem_singleton.mp hm'
          exact ⟨(m'.id, m'.message), List.mem_append_right _ (by simp), rfl⟩
      · exact haccept.published c (hc ▸ hcm) m' hm'
  | publishRaises pre post taken hc =>
    cases taken
    · exact h.mono hkeep rfl (fun x hx => hx) hsame (cycles_dropped hc)
    · exact (h.accept (h.next hc)).mono hkeep rfl (fun x hx => hx) hsame (cycles_dropped hc)
  | mark pre post hc =>
    exact h.mono (keepsRows_cycle _ _) rfl (fun x hx => hx) hsame (cycles_dropped hc)
  | abandon pre post hc => exact h.mono hkeep rfl (fun x hx => hx) hsame (cycles_dropped hc)
  | deliver hm hsub htarget =>
    refine { h with handlers := ?_ }
    intro x hx
    rcases List.mem_cons.mp hx with rfl | hx
    · obtain ⟨i, hi⟩ := h.unacked _ hm
      exact ⟨i, _, hi, htarget⟩
    · exact h.handlers x hx
  | start pre post hh =>
    exact h.mono hkeep rfl (fun x hx => hx) (handlers_replaced hh) fun c hc => hc
  | skip pre post env hh hskip =>
    exact h.mono hkeep rfl (fun x hx => hx) (handlers_replaced hh) fun c hc => hc
  | settle pre post hh ho he hadm hnext =>
    exact h.mono (hcommit _ rfl) rfl (fun x hx => hx) (handlers_replaced hh) fun c hc => hc
  | raise pre post reason hh hphase =>
    exact h.mono hkeep rfl (fun x hx => hx) (handlers_replaced hh) fun c hc => hc
  | load pre post hh =>
    exact h.mono hkeep rfl (fun x hx => hx) (handlers_replaced hh) fun c hc => hc
  | fail pre post env hh ho he hadm =>
    exact h.mono (hcommit _ rfl) rfl (fun x hx => hx) (handlers_replaced hh) fun c hc => hc
  | swallow pre post hh hphase =>
    exact h.mono hkeep rfl (fun x hx => hx) (handlers_replaced hh) fun c hc => hc
  | ack pre post hh =>
    exact h.mono hkeep rfl (fun x hx => (List.mem_filter.mp hx).1)
      (fun y hy => ⟨y, hh ▸ ReadCommitted.mem_of_mem_erase hy, rfl, rfl⟩) fun c hc => hc
  | drop pre post hh =>
    exact h.mono hkeep rfl (fun x hx => hx)
      (fun y hy => ⟨y, hh ▸ ReadCommitted.mem_of_mem_erase hy, rfl, rfl⟩) fun c hc => hc

end Ledger

/-! ### What a processing file is owed -/

/-- The handler will not settle its file any more: it saw it settled, or has returned. -/
def Handler.Spent (x : Handler) : Prop :=
  match x.phase with
  | .executing snapshot _ => ∃ record, FileRepository.get snapshot x.target.fileId
      x.target.organizationId x.target.projectId = .ok record ∧ record.status ≠ .processing
  | .failing _ snapshot _ => ∃ record, FileRepository.get snapshot x.target.fileId
      x.target.organizationId x.target.projectId = .ok record ∧ record.status = .failed
  | .returned => True
  | .received | .raised _ => False

/-- The event of the file's upload waits for a publish cycle. -/
def Waiting (w : World) (f : File) : Prop :=
  ∃ row ∈ w.db .outboxMessages, row.message.announces f "file.uploaded" = true
    ∧ row.publishedAt = none ∧ ∀ x ∈ w.stream, x.1 ≠ row.id

/-- The message of the file's upload is not acknowledged, and none of its handlers is
spent. -/
def Deliverable (w : World) (f : File) : Prop :=
  ∃ x ∈ w.unacked, x.2.announces f "file.uploaded" = true
    ∧ ∀ y ∈ w.handlers, y.seq = x.1 → ¬y.Spent

/-- A row or message that is still good for a run. -/
def Covered (w : World) (f : File) : Prop := Waiting w f ∨ Deliverable w f

/-- **The condition**: a failure handler does not raise while its file is `processing`. -/
def NotSwallowed (w : World) : Label → Prop
  | .swallow target => ∀ f ∈ w.db .files, File.id f = target.fileId → f.deletedAt = none →
      f.status ≠ .processing
  | _ => True

/-- What holds in every world of a run. -/
structure Tracked (w : World) : Prop where
  consistent : Consistent w
  ledger : Ledger w
  covered : ∀ f ∈ w.db .files, File.deletedAt f = none → f.status = .processing → Covered w f

section Covered

variable {w w' : World} {f : File}

/-- A message that announces a file is handled for that file. -/
theorem Ledger.target_eq (h : Ledger w) {x : ℕ × Message} (hx : x ∈ w.unacked) {event : String}
    (hm : x.2.announces f event = true) {y : Handler} (hy : y ∈ w.handlers) (hseq : y.seq = x.1) :
    y.target.fileId = f.id := by
  obtain ⟨i, hi⟩ := h.unacked x hx
  obtain ⟨j, m, hj, htarget⟩ := h.handlers y hy
  rw [hseq, hi, Option.some.injEq, Prod.mk.injEq] at hj
  obtain ⟨-, rfl⟩ := hj
  simp only [Message.announces, Bool.and_eq_true, beq_iff_eq] at hm
  rw [ProcessingWorker.target, hm.2] at htarget
  split at htarget
  · rename_i heq _
    rw [Option.some.injEq] at htarget heq
    rw [← htarget, heq]
  · cases htarget

/-- The debt of a file is carried on if rows and messages stay and no handler of the file's
messages is newly spent. -/
theorem Covered.mono (h : Covered w f) (hledger : Ledger w')
    (hrows : ∀ row ∈ w.db .outboxMessages, row ∈ w'.db .outboxMessages)
    (hstream : w'.stream = w.stream) (hunacked : w'.unacked = w.unacked)
    (hspent : ∀ y ∈ w'.handlers, y.Spent →
      (∃ x ∈ w.handlers, x.seq = y.seq ∧ x.Spent) ∨ y.target.fileId ≠ f.id) : Covered w' f := by
  rcases h with ⟨row, hrow, hm, hnone, hfresh⟩ | ⟨x, hx, hm, hlive⟩
  · exact .inl ⟨row, hrows row hrow, hm, hnone, by rwa [hstream]⟩
  · refine .inr ⟨x, by rwa [hunacked], hm, fun y hy hseq hy' => ?_⟩
    rcases hspent y hy hy' with ⟨z, hz, hzseq, hz'⟩ | hne
    · exact hlive z hz (hzseq.trans hseq) hz'
    · exact hne (hledger.target_eq (by rwa [hunacked]) hm hy hseq)

/-- One handler moves on. -/
theorem spent_replaced {pre post : List Handler} {seq : ℕ} {target : Target} {phase phase' : Phase}
    (hh : w.handlers = pre ++ ⟨seq, target, phase⟩ :: post)
    (hspent : Handler.Spent ⟨seq, target, phase'⟩ →
      Handler.Spent ⟨seq, target, phase⟩ ∨ target.fileId ≠ f.id) :
    ∀ y ∈ pre ++ ⟨seq, target, phase'⟩ :: post, y.Spent →
      (∃ x ∈ w.handlers, x.seq = y.seq ∧ x.Spent) ∨ y.target.fileId ≠ f.id := by
  intro y hy hy'
  rcases mem_replace (x := ⟨seq, target, phase⟩) hy with rfl | hy
  · rcases hspent hy' with hold | hne
    · exact .inl ⟨⟨seq, target, phase⟩, by rw [hh]; simp, rfl, hold⟩
    · exact .inr hne
  · exact .inl ⟨y, hh ▸ hy, rfl, hy'⟩

/-- What is read of a file that is not deleted is the file. -/
theorem eq_of_get {db : Database} (hdb : db.Good) (hf : f ∈ db .files) {target : Target}
    {record : File} (hget : FileRepository.get db target.fileId target.organizationId
      target.projectId = .ok record) (hid : target.fileId = f.id) : record = f := by
  obtain ⟨hmem, hrid, -⟩ := FileRepository.of_get hget
  exact hdb.uniquePk.eq_of_pk (t := .files) hmem hf (hrid.trans hid)

/-- The broker takes a message: that of a waiting row becomes deliverable. -/
theorem Covered.accept (h : Covered w f) (hcons : Consistent w) (hledger : Ledger w)
    {m : OutboxMessage} (hm : ∃ row ∈ w.db .outboxMessages, OutboxMessage.id row = m.id
      ∧ row.message = m.message) : Covered (w.accept m) f := by
  rcases h with ⟨row, hrow, hannounces, hnone, hfresh⟩ | ⟨x, hx, hannounces, hlive⟩
  · by_cases hid : row.id = m.id
    · obtain ⟨row', hrow', hid', hmessage⟩ := hm
      obtain rfl : row = row' := hcons.good.uniquePk.eq_of_pk (t := .outboxMessages) hrow hrow'
        (hid.trans hid'.symm)
      refine .inr ⟨(w.stream.length, m.message), List.mem_cons_self, hmessage ▸ hannounces,
        fun y hy hseq _ => ?_⟩
      -- no handler has the new sequence number yet
      obtain ⟨i, m', hi, -⟩ := hledger.handlers y hy
      have hlt := (List.getElem?_eq_some_iff.mp hi).1
      exact absurd hseq hlt.ne
    · refine .inl ⟨row, hrow, hannounces, hnone, fun x hx => ?_⟩
      rcases List.mem_append.mp hx with hx | hx
      · exact hfresh x hx
      · obtain rfl := List.mem_singleton.mp hx
        exact fun heq => hid heq.symm
  · exact .inr ⟨x, List.mem_cons_of_mem _ hx, hannounces, hlive⟩

/-- Marking a batch leaves the rows alone that the broker has not taken. -/
theorem Covered.mark (h : Covered w f) (hledger : Ledger w) {c : Outbox.Cycle}
    (hc : c ∈ w.cycles) {cycles : List Outbox.Cycle} :
    Covered { w with db := applyAll c.writes w.db, cycles := cycles } f := by
  rcases h with ⟨row, hrow, hannounces, hnone, hfresh⟩ | hdeliverable
  · refine .inl ⟨row, ?_, hannounces, hnone, hfresh⟩
    have hmark : c.mark row = row := by
      refine if_neg fun hmem => ?_
      obtain ⟨m, hm, hid⟩ := List.mem_map.mp hmem
      obtain ⟨x, hx, hxid⟩ := hledger.published c hc m hm
      exact hfresh x hx (hxid.trans hid)
    change row ∈ applyAll c.writes w.db .outboxMessages
    rw [Outbox.applyAll_cycle, ← hmark]
    exact List.mem_map_of_mem hrow
  · exact .inr hdeliverable

/-- Steps that commit nothing. -/
theorem Tracked.silent (h : Tracked w) (hledger : Ledger w') {l : Label} (hs : Step w l w')
    (hl : ∀ e, l ≠ .commit e) (hcond : NotSwallowed w l) (hf : f ∈ w.db .files)
    (hdel : f.deletedAt = none) (hstatus : f.status = .processing) : Covered w' f := by
  have hcov := h.covered f hf hdel hstatus
  have hsame : ∀ y ∈ w.handlers, y.Spent →
      (∃ x ∈ w.handlers, x.seq = y.seq ∧ x.Spent) ∨ y.target.fileId ≠ f.id :=
    fun y hy hspent => .inl ⟨y, hy, rfl, hspent⟩
  -- what a handler reads now of this file is that it is `processing`
  have hread : ∀ {target : Target} {record : File}, FileRepository.get w.db target.fileId
      target.organizationId target.projectId = .ok record → record.status ≠ .processing →
      target.fileId ≠ f.id := fun hget hne hid =>
    hne (eq_of_get h.consistent.good hf hget hid ▸ hstatus)
  cases hs with
  | commit pre post hr hws he hadm => exact absurd rfl (hl _)
  | settle pre post hh ho he hadm hnext => exact absurd rfl (hl _)
  | fail pre post env hh ho he hadm => exact absurd rfl (hl _)
  | read call => exact hcov.mono hledger (fun row hrow => hrow) rfl rfl hsame
  | rollback pre post hr => exact hcov.mono hledger (fun row hrow => hrow) rfl rfl hsame
  | select now batch hbatch => exact hcov.mono hledger (fun row hrow => hrow) rfl rfl hsame
  | publish pre post hc => exact hcov.accept h.consistent h.ledger (h.ledger.next hc)
  | publishRaises pre post taken hc =>
    cases taken
    · exact hcov
    · exact hcov.accept h.consistent h.ledger (h.ledger.next hc)
  | mark pre post hc => exact hcov.mark h.ledger (hc ▸ List.mem_append_right _ List.mem_cons_self)
  | abandon pre post hc => exact hcov
  | deliver hm hsub htarget =>
    refine hcov.mono hledger (fun row hrow => hrow) rfl rfl fun y hy hspent => ?_
    rcases List.mem_cons.mp hy with rfl | hy
    · exact hspent.elim
    · exact hsame y hy hspent
  | start pre post hh =>
    refine hcov.mono hledger (fun row hrow => hrow) rfl rfl (spent_replaced hh fun hspent => ?_)
    obtain ⟨record, hget, hne⟩ := hspent
    exact .inr (hread hget hne)
  | skip pre post env hh hskip =>
    refine hcov.mono hledger (fun row hrow => hrow) rfl rfl (spent_replaced hh fun _ => .inl ?_)
    exact PipelineExecutor.execute_eq_none hskip
  | raise pre post reason hh hphase =>
    exact hcov.mono hledger (fun row hrow => hrow) rfl rfl (spent_replaced hh fun hspent =>
      hspent.elim)
  | load pre post hh =>
    refine hcov.mono hledger (fun row hrow => hrow) rfl rfl (spent_replaced hh fun hspent => ?_)
    obtain ⟨record, hget, hfailed⟩ := hspent
    exact .inr (hread hget (by simp [hfailed]))
  | swallow pre post hh hphase =>
    refine hcov.mono hledger (fun row hrow => hrow) rfl rfl (spent_replaced hh fun _ => .inr ?_)
    exact fun hid => hcond f hf hid.symm hdel hstatus
  | ack pre post hh =>
    rename_i seq target
    rcases hcov with hwaiting | ⟨x, hx, hannounces, hlive⟩
    · exact .inl hwaiting
    · refine .inr ⟨x, List.mem_filter.mpr ⟨hx, ?_⟩, hannounces, fun y hy hseq =>
        hlive y (hh ▸ ReadCommitted.mem_of_mem_erase hy) hseq⟩
      -- the handler that acknowledges has returned, so it is not one of this message
      rw [bne_iff_ne]
      exact fun hseq => hlive ⟨seq, target, .returned⟩
        (hh ▸ List.mem_append_right _ List.mem_cons_self) hseq.symm trivial
  | drop pre post hh =>
    refine hcov.mono hledger (fun row hrow => hrow) rfl rfl fun y hy hspent => ?_
    exact hsame y (hh ▸ ReadCommitted.mem_of_mem_erase hy) hspent

/-- The event of a commit waits until a publish cycle comes. -/
theorem Commits.waiting {e : Entry} (hc : Commits w e w') (h : Tracked w)
    (hstream : w'.stream = w.stream) {row : OutboxMessage}
    (hrow : .insert .outboxMessages row ∈ e.what.writes)
    (hannounces : row.message.announces f "file.uploaded" = true) : Waiting w' f := by
  have henq := hc.enqueues h.consistent
  have hmem := Outbox.mem_enqueued.mpr hrow
  have houtbox := hc.outbox h.consistent
  refine ⟨row, houtbox ▸ List.mem_append_right _ hmem, hannounces,
    Outbox.publishedAt_of_enqueued henq hmem, fun x hx hid => ?_⟩
  rw [hstream] at hx
  obtain ⟨old, hold, hoid⟩ := h.ledger.stream x hx
  -- ids of rows are unique, and the broker has only taken messages of older ones
  have hnodup := (h.consistent.commit hc).1.uniquePk .outboxMessages
  rw [houtbox, List.map_append, List.nodup_append] at hnodup
  exact hnodup.2.2 _ (List.mem_map_of_mem hold) _ (List.mem_map_of_mem hmem) (hoid.trans hid)

/-- A commit of a handler or request carries a debt on if it spends no handler of the file. -/
theorem Commits.covered {e : Entry} (hc : Commits w e w') (h : Tracked w) (hledger : Ledger w')
    (hcov : Covered w f) (hstream : w'.stream = w.stream) (hunacked : w'.unacked = w.unacked)
    (hspent : ∀ y ∈ w'.handlers, y.Spent →
      (∃ x ∈ w.handlers, x.seq = y.seq ∧ x.Spent) ∨ y.target.fileId ≠ f.id) : Covered w' f :=
  hcov.mono hledger (fun _ hrow => hc.outbox h.consistent ▸ List.mem_append_left _ hrow)
    hstream hunacked hspent

/-- A file that is not deleted after a save was not before. -/
theorem deletedAt_of_flush {record new : File} (hrecord : record.deletedAt = none)
    (h : ((record.flush new).toFun f : File).deletedAt = none) : f.deletedAt = none := by
  have hflush : flushColumn record.deletedAt new.deletedAt f.deletedAt = none := h
  by_cases hnew : new.deletedAt = none
  · rwa [hrecord, hnew, flushColumn_self] at hflush
  · exact (flushColumn_ne hflush hnew).1

/-- The commit of a request: what it leaves `processing` was so before, or is announced. -/
theorem Tracked.request (h : Tracked w) (hledger : Ledger w') {r : InFlight} {ws : List DbWrite}
    {m : ℕ} (hr : r ∈ w.requests) (hws : r.call.writes r.snapshot = some ws)
    (hc : Commits w ⟨.request r.call r.snapshot ws, r.readAt, m⟩ w')
    (hstream : w'.stream = w.stream) (hunacked : w'.unacked = w.unacked)
    (hhandlers : w'.handlers = w.handlers) {f' : File}
    (hf' : f' ∈ applyAll ws w.db .files) (hdel : f'.deletedAt = none)
    (hstatus : f'.status = .processing) : Covered w' f' := by
  have hread := h.consistent.requests r hr
  have hcarry : ∀ f : File, Covered w f → Covered w' f := fun f hcov =>
    hc.covered h hledger hcov hstream hunacked fun y hy hspent =>
      .inl ⟨y, hhandlers ▸ hy, rfl, hspent⟩
  obtain ⟨_, hres⟩ := ServiceResult.writes_eq_some.mp hws
  cases (Operation.fileEffect hread.good hres).rowEffect hf' with
  | old hf hop => exact hcarry f' (h.covered f' hf hdel hstatus)
  | created hpending =>
    rw [hpending] at hstatus
    cases hstatus
  | changed hf hid hrecord hflush hchange =>
    rename_i f record new
    subst hflush
    obtain ⟨hmem, -, horg, hproj, hlive⟩ := FileRepository.of_get hrecord
    have hnew : flushColumn record.status new.status f.status = .processing := hstatus
    have hold : f.status = .processing → Covered w' f := fun hprocessing =>
      hcarry f (h.covered f hf (deletedAt_of_flush hlive hdel) hprocessing)
    cases hchange with
    | modify hop hsaved =>
      refine hold ?_
      rcases hsaved with hsaved | hsaved
      · rwa [hsaved, flushColumn_self] at hnew
      · exact (flushColumn_ne hnew (by simp [hsaved])).1
    | restore hop hsaved => exact hold (flushColumn_ne hnew (by simp [hsaved])).1
    | settle hop hconfig hsettle hevent =>
      obtain ⟨name, payload, rfl, hfile, hcase⟩ := settleUpload_cases hsettle
      obtain ⟨-, -, rfl⟩ | ⟨-, hready, -⟩ := hcase
      · -- the confirmation enqueues the event of the file
        have howner := hread.owner_eq h.consistent.good hmem hf hid
        refine .inl (hc.waiting (f := f) h hstream hevent ?_)
        simp [Message.announces, OutboxMessage.message, Message.fileId, hfile, howner.1, howner.2,
          horg, hproj, hid]
      · exact hold (flushColumn_ne hnew (by simp [hready])).1

/-- The commit of a handler's outcome: what stays `processing` was so before, and if it is the
handler's file, the handler had read the outcome's status. -/
theorem Tracked.outcome (h : Tracked w) (hledger : Ledger w') {e : Entry} (hc : Commits w e w')
    {env : PipelineEnv} {seq : ℕ} {target : Target} {phase next : Phase} {snapshot : Database}
    {o : Outcome} {pre post : List Handler}
    (hh : w.handlers = pre ++ ⟨seq, target, phase⟩ :: post)
    (hh' : w'.handlers = pre ++ ⟨seq, target, next⟩ :: post)
    (hstream : w'.stream = w.stream) (hunacked : w'.unacked = w.unacked)
    (ho : o.Terminal snapshot target)
    (hspent : o.record.status = o.status → Handler.Spent ⟨seq, target, phase⟩)
    {f' : File} (hf' : f' ∈ applyAll (o.writes env target) w.db .files)
    (hdel : f'.deletedAt = none) (hstatus : f'.status = .processing) : Covered w' f' := by
  obtain ⟨-, hrid, -, -, hlive⟩ := FileRepository.of_get ho.get_eq
  have hcarry : ∀ f : File, Covered w f →
      (target.fileId = f.id → o.record.status = o.status) → Covered w' f := by
    intro f hcov hread
    refine hc.covered h hledger hcov hstream hunacked ?_
    rw [hh']
    refine spent_replaced hh fun _ => ?_
    by_cases hid : target.fileId = f.id
    · exact .inl (hspent (hread hid))
    · exact .inr hid
  rw [o.applyAll_files] at hf'
  obtain ⟨f, hf, rfl⟩ := List.mem_map.mp hf'
  by_cases hid : f.id = o.record.id
  · rw [if_pos hid] at hdel hstatus ⊢
    have hnew : flushColumn o.record.status o.status f.status = .processing := hstatus
    have hne : o.status ≠ .processing := by
      intro heq
      have hevent := ho.event_eq
      rw [heq] at hevent
      cases hevent
    obtain ⟨hprocessing, hsame⟩ := flushColumn_ne hnew hne
    exact hcarry f (h.covered f hf (deletedAt_of_flush hlive hdel) hprocessing) fun _ => hsame.symm
  · rw [if_neg hid] at hdel hstatus ⊢
    exact hcarry f (h.covered f hf hdel hstatus) fun htarget =>
      absurd (htarget.symm.trans hrid.symm) hid

/-- **Every step that meets the condition keeps every processing file covered.** -/
theorem Tracked.step (h : Tracked w) {l : Label} (hs : Step w l w') (hcond : NotSwallowed w l) :
    Tracked w' := by
  have hledger := h.ledger.step h.consistent hs
  refine ⟨h.consistent.step hs, hledger, fun f' hf' hdel hstatus => ?_⟩
  by_cases hl : ∃ e, l = .commit e
  swap
  · have hsilent : ∀ e, l ≠ .commit e := fun e he => hl ⟨e, he⟩
    rw [(hs.silently hsilent).files] at hf'
    exact h.silent hledger hs hsilent hcond hf' hdel hstatus
  obtain ⟨e, rfl⟩ := hl
  have hc := hs.commits
  rw [hc.db] at hf'
  cases hs with
  | commit pre post hr hws he hadm =>
    subst he
    exact h.request hledger (hr ▸ List.mem_append_right _ List.mem_cons_self) hws hc rfl rfl rfl
      hf' hdel hstatus
  | settle pre post hh ho he hadm hnext =>
    subst he
    obtain ⟨hterminal, hprocessing, -⟩ := PipelineExecutor.execute_eq_some ho
    refine h.outcome hledger hc hh rfl rfl rfl hterminal (fun hsame => ?_) hf' hdel hstatus
    -- it read `processing`, and that is no outcome
    have hevent := hterminal.event_eq
    rw [← hsame, hprocessing] at hevent
    cases hevent
  | fail pre post env hh ho he hadm =>
    subst he
    obtain ⟨hterminal, hfailed⟩ := PipelineExecutor.markFailed_eq_ok ho
    exact h.outcome hledger hc hh rfl rfl rfl hterminal
      (fun hsame => ⟨_, hterminal.get_eq, hsame.trans hfailed⟩) hf' hdel hstatus

end Covered

/-! ### Runs -/

/-- Nothing has happened yet. -/
def World.init : World := { db := Database.empty }

theorem Tracked.init : Tracked World.init where
  consistent := ⟨Database.good_empty, fun r hr => (by cases hr), fun x hx => (by cases hx)⟩
  ledger := ⟨fun x hx => (by cases hx), fun x hx => (by cases hx), fun x hx => (by cases hx),
    fun c hc => (by cases hc), fun c hc => (by cases hc)⟩
  covered f hf := by cases hf

/-- An unpublished event, or an unacknowledged message, of the upload of a file. -/
def Owed (w : World) (f : File) : Prop :=
  (∃ row ∈ w.db .outboxMessages, OutboxMessage.publishedAt row = none
      ∧ row.message.announces f "file.uploaded" = true)
    ∨ ∃ x ∈ w.unacked, x.2.announces f "file.uploaded" = true

/-- **No file is stuck in processing.**  In every run that meets the condition there is an
unpublished event or an unacknowledged message for every file that is `processing`. -/
theorem no_stuck_file {w : World} (h : Run NotSwallowed World.init w) :
    ∀ f ∈ w.db .files, File.deletedAt f = none → f.status = .processing → Owed w f := by
  have htracked : Tracked w := by
    induction h with
    | refl => exact .init
    | tail _ hs ih =>
      obtain ⟨l, hs, hcond⟩ := hs
      exact ih.step hs hcond
  intro f hf hdel hstatus
  rcases htracked.covered f hf hdel hstatus with ⟨row, hrow, hm, hnone, -⟩ | ⟨x, hx, hm, -⟩
  · exact .inl ⟨row, hrow, hnone, hm⟩
  · exact .inr ⟨x, hx, hm⟩

/-! ### A failure handler that raises -/

/-- Requests that run one after the other. -/
theorem run_runAll {allows : World → Label → Prop} (hsilent : ∀ w, allows w .silent)
    (hcommit : ∀ w e, allows w (.commit e)) (calls : List ServiceCall) (db : Database)
    (log : List Entry) :
    ∃ log', Run allows { db := db, log := log } { db := runAll calls db, log := log' } := by
  induction calls generalizing db log with
  | nil => exact ⟨log, .refl⟩
  | cons c calls ih =>
    rcases hr : c.result db with e | ⟨r, ws⟩
    · simp only [runAll, commit, hr]
      exact ih db log
    · simp only [runAll, commit, hr]
      split
      · rename_i hadm
        have hws : c.writes db = some ws := ServiceResult.writes_eq_some.mpr ⟨r, hr⟩
        have hread : Run allows { db := db, log := log } _ :=
          Run.step .refl (.read c) (hsilent _)
        have hwrite := hread.step (.commit [] [] rfl hws rfl hadm)
          (hcommit _ _)
        obtain ⟨log', hrest⟩ := ih (applyAll ws db)
          (⟨.request c db ws, log.length, log.length + 1⟩ :: log)
        exact ⟨log', hwrite.trans hrest⟩
      · exact ih db log

/-- The outbox row of the upload. -/
def scannedRow : OutboxMessage where
  id := "u1"
  subject := scannedMessage.subject
  payload := scannedMessage.payload
  createdAt := 4
  organizationId := "acme"
  projectId := "p0"

/-- The database once that row is marked. -/
def publishedDb : Database := applyAll (Outbox.Cycle.writes ⟨5, [scannedRow], []⟩) scannedDb

theorem mem_publishedDb : scannedFile ∈ publishedDb .files := by decide

/-- The message of the upload has been published and delivered. -/
theorem run_delivered (allows : World → Label → Prop) (hsilent : ∀ w, allows w .silent)
    (hcommit : ∀ w e, allows w (.commit e)) :
    ∃ log, Run allows World.init
      { db := publishedDb
        log := log
        stream := [("u1", scannedMessage)]
        unacked := [(0, scannedMessage)]
        handlers := [⟨0, ⟨"f0", "acme", "p0"⟩, .received⟩] } := by
  obtain ⟨log, hrun⟩ := run_runAll hsilent hcommit scannedUpload Database.empty []
  have hbatch : ∀ m ∈ [scannedRow], m ∈ scannedDb .outboxMessages ∧ m.publishedAt = none := by
    decide
  have hselect := hrun.step (.select 5 [scannedRow] hbatch) (hsilent _)
  have hpublish := hselect.step (.publish [] [] rfl) (hsilent _)
  have hmark := hpublish.step (.mark [] [] rfl) (hsilent _)
  have hunacked : (0, scannedMessage) ∈ [(0, scannedMessage)] := List.mem_cons_self
  exact ⟨log, hmark.step (.deliver hunacked (by decide) (by decide)) (hsilent _)⟩

/-- A file whose upload has been delivered for the first time. -/
theorem no_stuck_file_delivered : ∃ w, (∃ f ∈ w.db .files, File.status f = .processing)
    ∧ ∀ f ∈ w.db .files, File.deletedAt f = none → f.status = .processing → Owed w f := by
  obtain ⟨log, hrun⟩ := run_delivered NotSwallowed (fun _ => trivial) fun _ _ => trivial
  exact ⟨_, ⟨scannedFile, mem_publishedDb, rfl⟩, no_stuck_file hrun⟩

/-- The run raises, and so does the failure handler: the message is acknowledged, and nothing
is left to process the file. -/
theorem stuck_file : ¬∀ w, Run (fun _ _ => True) World.init w →
    ∀ f ∈ w.db .files, File.deletedAt f = none → f.status = .processing → Owed w f := by
  intro h
  obtain ⟨log, hrun⟩ := run_delivered (fun _ _ => True) (fun _ => trivial) fun _ _ => trivial
  have hraise := hrun.step (.raise [] [] "connection refused" rfl (.inl rfl))
    trivial
  have hswallow := hraise.step (.swallow [] [] rfl ⟨_, .inl rfl⟩) trivial
  have hack := hswallow.step (.ack [] [] rfl) trivial
  have hpublished : ∀ row ∈ publishedDb .outboxMessages, OutboxMessage.publishedAt row = none →
      row.message.announces scannedFile "file.uploaded" = false := by
    decide
  rcases h _ hack scannedFile mem_publishedDb rfl rfl with ⟨row, hrow, hnone, hm⟩ | ⟨x, hx, -⟩
  · rw [hpublished row hrow hnone] at hm
    cases hm
  · cases hx

end Processing

end FileNest
