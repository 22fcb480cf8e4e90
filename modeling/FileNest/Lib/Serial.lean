import FileNest.Lib.Ledger

/-!
# Serial orders

What a run under READ COMMITTED has committed may or may not come from running the same
calls one after the other.  It does if every commit is timely: the call does to the
present store what it would do if it read it just now, or it changed nothing of the store
it read and changes nothing now.  A timely call of the first kind takes its place in the
order when it commits, one of the second kind when it reads.

## Main definitions

* `Serial` — calls that run one after the other and all commit.
* `Indistinguishable` — stores the calls cannot tell apart.
* `Timely` — the condition on a commit.

## Main results

* `Serial.congr` — the same calls on a store that is the same to them.
* `Logged.serializable` — **timely commits are those of some serial order.**
-/

namespace RowStore.ReadCommitted

variable {T I O : Type} {Row : T → Type} {C : Type} [Keyed Row I O]
  [DecidableEq T] [DecidableEq I]

/-- The calls run one after the other, and all of them commit. -/
inductive Serial (run : Program Row C) : List C → Store Row → Store Row → Prop
  | nil {s : Store Row} : Serial run [] s s
  | cons {c : C} {cs : List C} {ws : List (Write Row)} {s s' : Store Row}
      (hrun : run c s = some ws) (hadm : Admissible ws s) (h : Serial run cs (applyAll ws s) s') :
      Serial run (c :: cs) s s'

/-- Stores that are the same to all calls, among those that satisfy `Inv`. -/
structure Indistinguishable (run : Program Row C) (Inv : Store Row → Prop)
    (Same : Store Row → Store Row → Prop) : Prop where
  refl : ∀ s, Same s s
  symm : ∀ {s s'}, Same s s' → Same s' s
  trans : ∀ {s s' s''}, Same s s' → Same s' s'' → Same s s''
  run : ∀ {c s s' ws}, Inv s → Inv s' → Same s s' → run c s = some ws → Admissible ws s →
    ∃ ws', run c s' = some ws' ∧ Admissible ws' s' ∧ Same (applyAll ws s) (applyAll ws' s')

/-- A commit that is not late. -/
inductive Timely (run : Program Row C) (Same : Store Row → Store Row → Prop) (c : C)
    (snapshot s : Store Row) (ws : List (Write Row)) : Prop
  /-- It is as if the call had read the present store. -/
  | present {ws' : List (Write Row)} (hrun : run c s = some ws') (hadm : Admissible ws' s)
      (h : Same (applyAll ws' s) (applyAll ws s))
  /-- It changed nothing then and changes nothing now. -/
  | idle (hadm : Admissible ws snapshot) (hsnap : Same (applyAll ws snapshot) snapshot)
      (h : Same (applyAll ws s) s)

variable {run : Program Row C} {Inv : Store Row → Prop} {Same : Store Row → Store Row → Prop}
  {cs ds : List C} {c : C} {s s' t u : Store Row}

namespace Serial

theorem append (h : Serial run cs s t) (h' : Serial run ds t u) : Serial run (cs ++ ds) s u := by
  induction h with
  | nil => exact h'
  | cons hrun hadm _ ih => exact .cons hrun hadm (ih h')

theorem split (h : Serial run (cs ++ ds) s u) : ∃ t, Serial run cs s t ∧ Serial run ds t u := by
  induction cs generalizing s with
  | nil => exact ⟨s, .nil, h⟩
  | cons c cs ih =>
    cases h with
    | cons hrun hadm h =>
      obtain ⟨t, hcs, hds⟩ := ih h
      exact ⟨t, .cons hrun hadm hcs, hds⟩

theorem unique (h : Serial run cs s t) (h' : Serial run cs s u) : t = u := by
  induction h with
  | nil =>
    cases h'
    rfl
  | cons hrun hadm _ ih =>
    cases h' with
    | cons hrun' hadm' h' =>
      rw [hrun] at hrun'
      cases hrun'
      exact ih h'

/-- What every commit keeps. -/
theorem inv (hinv : ∀ c s ws, Inv s → run c s = some ws → Admissible ws s → Inv (applyAll ws s))
    (h : Serial run cs s t) (hs : Inv s) : Inv t := by
  induction h with
  | nil => exact hs
  | cons hrun hadm _ ih => exact ih (hinv _ _ _ hs hrun hadm)

/-- **The same calls on a store that is the same to them.** -/
theorem congr (hsame : Indistinguishable run Inv Same)
    (hinv : ∀ c s ws, Inv s → run c s = some ws → Admissible ws s → Inv (applyAll ws s))
    (h : Serial run cs s t) (hs : Inv s) (hs' : Inv s') (hss' : Same s s') :
    ∃ t', Serial run cs s' t' ∧ Same t t' := by
  induction h generalizing s' with
  | nil => exact ⟨s', .nil, hss'⟩
  | cons hrun hadm _ ih =>
    obtain ⟨ws', hrun', hadm', hnext⟩ := hsame.run hs hs' hss' hrun hadm
    obtain ⟨t', ht', htt'⟩ := ih (hinv _ _ _ hs hrun hadm) (hinv _ _ _ hs' hrun' hadm') hnext
    exact ⟨t', .cons hrun' hadm' ht', htt'⟩

end Serial

/-- An order of calls leads to the store, and has a place where each transaction in flight
read. -/
structure Ordered (run : Program Row C) (Inv : Store Row → Prop)
    (Same : Store Row → Store Row → Prop) (start : Store Row) (order : List C)
    (w : World Row C) : Prop where
  inv : Inv w.store
  reads : ∀ x ∈ w.inflight, Inv x.2
  store : ∃ s, Serial run order start s ∧ Same s w.store
  places : ∀ x ∈ w.inflight, ∃ before after s, order = before ++ after
    ∧ Serial run before start s ∧ Same s x.2

section Commit

variable {start snapshot : Store Row} {order : List C} {pre post : List (C × Store Row)}
  {ws : List (Write Row)}

/-- A call that does what it would do now comes last. -/
theorem Ordered.present (h : Ordered run Inv Same start order ⟨s, pre ++ (c, snapshot) :: post⟩)
    (hsame : Indistinguishable run Inv Same) (hstart : Inv start)
    (hinv : ∀ c snapshot s ws, Inv snapshot → Inv s → run c snapshot = some ws → Admissible ws s →
      Inv (applyAll ws s))
    (hws : run c snapshot = some ws) (hadm : Admissible ws s) {ws' : List (Write Row)}
    (hrun : run c s = some ws') (hadm' : Admissible ws' s)
    (heq : Same (applyAll ws' s) (applyAll ws s)) :
    Ordered run Inv Same start (order ++ [c]) ⟨applyAll ws s, pre ++ post⟩ := by
  have hself : ∀ c s ws, Inv s → run c s = some ws → Admissible ws s → Inv (applyAll ws s) :=
    fun c s ws hs => hinv c s s ws hs hs
  obtain ⟨t, ht, hts⟩ := h.store
  obtain ⟨vs, hvs, hvs_adm, hnext⟩ :=
    hsame.run h.inv (ht.inv hself hstart) (hsame.symm hts) hrun hadm'
  refine ⟨?_, fun x hx => h.reads x (mem_of_mem_erase hx), ⟨_, ht.append (.cons hvs hvs_adm .nil),
    hsame.trans (hsame.symm hnext) heq⟩, fun x hx => ?_⟩
  · exact hinv _ _ _ _ (h.reads _ (List.mem_append_right _ List.mem_cons_self)) h.inv hws hadm
  · obtain ⟨before, after, u, rfl, hu, hux⟩ := h.places x (mem_of_mem_erase hx)
    exact ⟨before, after ++ [c], u, List.append_assoc _ _ _, hu, hux⟩

/-- A call that changes nothing has its place where it read. -/
theorem Ordered.idle (h : Ordered run Inv Same start order ⟨s, pre ++ (c, snapshot) :: post⟩)
    (hsame : Indistinguishable run Inv Same) (hstart : Inv start)
    (hinv : ∀ c snapshot s ws, Inv snapshot → Inv s → run c snapshot = some ws → Admissible ws s →
      Inv (applyAll ws s))
    (hws : run c snapshot = some ws) (hadm : Admissible ws s) (hadm' : Admissible ws snapshot)
    (hsnap : Same (applyAll ws snapshot) snapshot) (heq : Same (applyAll ws s) s) :
    ∃ order', order'.Perm (c :: order)
      ∧ Ordered run Inv Same start order' ⟨applyAll ws s, pre ++ post⟩ := by
  have hself : ∀ c s ws, Inv s → run c s = some ws → Admissible ws s → Inv (applyAll ws s) :=
    fun c s ws hs => hinv c s s ws hs hs
  have hmem : (c, snapshot) ∈ pre ++ (c, snapshot) :: post :=
    List.mem_append_right _ List.mem_cons_self
  obtain ⟨before, after, u, rfl, hu, hus⟩ := h.places _ hmem
  have hu_inv := hu.inv hself hstart
  -- at its place the call changes nothing either
  obtain ⟨vs, hvs, hvs_adm, hnext⟩ := hsame.run (h.reads _ hmem) hu_inv (hsame.symm hus) hws hadm'
  have hu_next : Same u (applyAll vs u) :=
    hsame.trans hus (hsame.trans (hsame.symm hsnap) hnext)
  have hu_next_inv := hself _ _ _ hu_inv hvs hvs_adm
  refine ⟨before ++ c :: after, List.perm_middle, ?_, fun x hx => h.reads x (mem_of_mem_erase hx),
    ?_, fun x hx => ?_⟩
  · exact hinv _ _ _ _ (h.reads _ hmem) h.inv hws hadm
  · obtain ⟨t, ht, hts⟩ := h.store
    obtain ⟨u', hu', hafter⟩ := ht.split
    obtain rfl := hu.unique hu'
    obtain ⟨t', ht', htt'⟩ := hafter.congr hsame hself hu_inv hu_next_inv hu_next
    exact ⟨t', hu.append (.cons hvs hvs_adm ht'),
      hsame.trans (hsame.symm htt') (hsame.trans hts (hsame.symm heq))⟩
  · obtain ⟨before', after', v, heq', hv, hvx⟩ := h.places x (mem_of_mem_erase hx)
    rcases List.append_eq_append_iff.mp heq' with ⟨mid, rfl, rfl⟩ | ⟨mid, rfl, rfl⟩
    · -- the other transaction read later
      obtain ⟨u', hu', hmid⟩ := hv.split
      obtain rfl := hu.unique hu'
      obtain ⟨v', hv', hvv'⟩ := hmid.congr hsame hself hu_inv hu_next_inv hu_next
      exact ⟨before ++ c :: mid, after', v', by simp, hu.append (.cons hvs hvs_adm hv'),
        hsame.trans (hsame.symm hvv') hvx⟩
    · exact ⟨before', mid ++ c :: after, v, by simp, hv, hvx⟩

end Commit

/-- **Timely commits are those of some serial order.** -/
theorem Logged.serializable {commits : Guard Row C} {start : Store Row} {log : Ledger Row C}
    {w : World Row C} (hsame : Indistinguishable run Inv Same) (hstart : Inv start)
    (hinv : ∀ c snapshot s ws, Inv snapshot → Inv s → run c snapshot = some ws → Admissible ws s →
      Inv (applyAll ws s))
    (htimely : ∀ c snapshot s ws, Inv snapshot → Inv s → run c snapshot = some ws →
      Admissible ws s → commits s c snapshot → Timely run Same c snapshot s ws)
    (hw : Logged run commits (· = start) log w) :
    ∃ order s, order.Perm (log.map Prod.fst) ∧ Serial run order start s ∧ Same s w.store := by
  suffices h : ∃ order, order.Perm (log.map Prod.fst) ∧ Ordered run Inv Same start order w by
    obtain ⟨order, hperm, hordered⟩ := h
    obtain ⟨s, hs, hsame⟩ := hordered.store
    exact ⟨order, s, hperm, hs, hsame⟩
  induction hw with
  | init h =>
    rw [h]
    exact ⟨[], .nil, hstart, List.forall_mem_nil _, ⟨start, .nil, hsame.refl _⟩,
      List.forall_mem_nil _⟩
  | step _ hs ih =>
    obtain ⟨order, hperm, h⟩ := ih
    cases hs with
    | read c =>
      refine ⟨order, hperm, h.inv, List.forall_mem_cons.mpr ⟨h.inv, h.reads⟩, h.store,
        List.forall_mem_cons.mpr ⟨?_, h.places⟩⟩
      obtain ⟨s, hs, hsw⟩ := h.store
      exact ⟨order, [], s, (List.append_nil _).symm, hs, hsw⟩
    | commit pre post hws hadm hc =>
      have hmem := h.reads _ (List.mem_append_right _ List.mem_cons_self)
      rw [List.map_append, List.map_singleton]
      cases htimely _ _ _ _ hmem h.inv hws hadm hc with
      | present hrun hadm' heq =>
        exact ⟨_, hperm.append_right _, h.present hsame hstart hinv hws hadm hrun hadm' heq⟩
      | idle hadm' hsnap heq =>
        obtain ⟨order', hperm', h'⟩ := h.idle hsame hstart hinv hws hadm hadm' hsnap heq
        refine ⟨order', hperm'.trans ?_, h'⟩
        exact (hperm.cons _).trans (List.perm_append_singleton _ _).symm
    | rollback pre post =>
      exact ⟨order, hperm, h.inv, fun x hx => h.reads x (mem_of_mem_erase hx), h.store,
        fun x hx => h.places x (mem_of_mem_erase hx)⟩

end RowStore.ReadCommitted
