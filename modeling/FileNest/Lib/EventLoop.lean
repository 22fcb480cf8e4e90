import FileNest.Lib.Exchange
import Mathlib.Data.List.Nodup

/-!
# Jobs on an event loop

Every job has a record on a board.  A job runs until it has to wait for an answer, and on its
way emits changes of its record; while it waits it may note others.  Records come and go while
jobs are at work.

## Main definitions

* `Follows`, `Asks` — the part of a program that has been run; what holds whenever it asks.
* `Act`, `Job`, `settle` — a job, and a turn of it; `perform` — a program, as a part of one.
* `Board` — records with keys, and their changes.
* `Task`, `Loop`, `Loop.Step`, `Loop.Reached` — jobs at work, and what may happen.
* `Loop.Sound` — every record is as its own job has made it.

## Main results

* `Asks.bind`, `Asks.rescue` — the rules for what holds whenever a program asks.
* `Loop.Reached.sound` — **jobs do not disturb each other's records.**
* `Loop.Reached.finish` — a job that gets its answers comes to its end.
-/

namespace Exchange

variable {R : Type} {Ans : R → Type} {E α β : Type}

/-- A program that was asked and answered this has the rest left. -/
inductive Follows : Prog Ans E α → Transcript Ans → Prog Ans E α → Prop
  | refl (p : Prog Ans E α) : Follows p [] p
  | ask (r : R) (next : Ans r → Prog Ans E α) (x : Ans r) {t : Transcript Ans}
      {q : Prog Ans E α} (h : Follows (next x) t q) : Follows (.ask r next) (⟨r, x⟩ :: t) q

namespace Follows

variable {p q q' : Prog Ans E α} {t t' : Transcript Ans} {out : Except E α}

theorem trans (h : Follows p t q) (h' : Follows q t' q') : Follows p (t ++ t') q' := by
  induction h with
  | refl p => exact h'
  | ask r next x h ih => exact .ask r next x (ih h')

/-- What is left is run to the end. -/
theorem runs (h : Follows p t q) (hrun : Runs q t' out) : Runs p (t ++ t') out := by
  induction h with
  | refl p => exact hrun
  | ask r next x h ih => exact .ask r next x (ih hrun)

/-- Nothing is left. -/
theorem runs_done {a : α} (h : Follows p t (.done a)) : Runs p t (.ok a) := by
  simpa using h.runs (.done a)

theorem runs_fail {e : E} (h : Follows p t (.fail e)) : Runs p t (.error e) := by
  simpa using h.runs (.fail e)

end Follows

/-- Whenever the program asks, this holds of the transcript and of what it asks. -/
def Asks (p : Prog Ans E α) (Q : Transcript Ans → R → Prop) : Prop :=
  ∀ t r next, Follows p t (.ask r next) → Q t r

/-- Whatever is asked and answered, this holds of it. -/
def Every (P : (Σ r, Ans r) → Prop) : Prog Ans E α → Prop
  | .done _ | .fail _ => True
  | .ask r next => ∀ x, P ⟨r, x⟩ ∧ Every P (next x)

attribute [local simp] Every

namespace Every

variable {P : (Σ r, Ans r) → Prop}

theorem bind {p : Prog Ans E β} {f : β → Prog Ans E α} (hp : Every P p)
    (hf : ∀ b, Every P (f b)) : Every P (p >>= f) := by
  induction p with
  | done a => exact hf a
  | fail e => exact trivial
  | ask r next ih => exact fun x => ⟨(hp x).1, ih x (hp x).2⟩

theorem rescue {p : Prog Ans E α} {handle : E → Prog Ans E α} (hp : Every P p)
    (hhandle : ∀ e, Every P (handle e)) : Every P (p.rescue handle) := by
  induction p with
  | done a => exact trivial
  | fail e => exact hhandle e
  | ask r next ih => exact fun x => ⟨(hp x).1, ih x (hp x).2⟩

theorem each {f : ℕ → β → Prog Ans E α} (hf : ∀ i x, Every P (f i x)) (i : ℕ) (xs : List β) :
    Every P (Prog.each f i xs) := by
  induction xs generalizing i with
  | nil => exact trivial
  | cons x xs ih => exact bind (hf i x) fun y => bind (ih (i + 1)) fun ys => trivial

theorem follows {p q : Prog Ans E α} {t : Transcript Ans} (hp : Every P p)
    (h : Follows p t q) : ∀ e ∈ t, P e := by
  induction h with
  | refl p => exact fun e he => absurd he List.not_mem_nil
  | ask r next x h ih => exact List.forall_mem_cons.mpr ⟨(hp x).1, ih (hp x).2⟩

theorem runs {p : Prog Ans E α} {t : Transcript Ans} {out : Except E α} (hp : Every P p)
    (h : Runs p t out) : ∀ e ∈ t, P e := by
  induction h with
  | done a => exact fun e he => absurd he List.not_mem_nil
  | fail e => exact fun e he => absurd he List.not_mem_nil
  | ask r next x h ih => exact List.forall_mem_cons.mpr ⟨(hp x).1, ih (hp x).2⟩

/-- It holds of what led to a request. -/
theorem asks {p : Prog Ans E α} (hp : Every P p) : Asks p fun t _ => ∀ e ∈ t, P e :=
  fun _ _ _ h => hp.follows h

end Every

namespace Asks

variable {Q : Transcript Ans → R → Prop}

theorem done {a : α} : Asks (.done a : Prog Ans E α) Q := by
  intro t r next h
  cases h

theorem fail {e : E} : Asks (.fail e : Prog Ans E α) Q := by
  intro t r next h
  cases h

theorem ask {r : R} {next : Ans r → Prog Ans E α} (hr : Q [] r)
    (h : ∀ x, Asks (next x) fun t => Q (⟨r, x⟩ :: t)) : Asks (.ask r next) Q := by
  intro t r' next' hfollows
  cases hfollows with
  | refl => exact hr
  | ask r next x hnext => exact h x _ r' next' hnext

/-- A sequence asks what its first part asks, and then what the second does. -/
theorem bind {p : Prog Ans E β} {f : β → Prog Ans E α} (hp : Asks p Q)
    (hf : ∀ t b, Runs p t (.ok b) → Asks (f b) fun t' => Q (t ++ t')) : Asks (p >>= f) Q := by
  induction p generalizing Q with
  | done a => exact hf [] a (.done a)
  | fail e => exact .fail
  | ask r next ih =>
    refine .ask (hp [] r next (.refl _)) fun x => ih x ?_ fun t b hrun => ?_
    · exact fun t r' next' h => hp _ r' next' (.ask r next x h)
    · exact hf _ b (.ask r next x hrun)

/-- An error is handled after what led to it. -/
theorem rescue {p : Prog Ans E α} {handle : E → Prog Ans E α} (hp : Asks p Q)
    (hhandle : ∀ t e, Runs p t (.error e) → Asks (handle e) fun t' => Q (t ++ t')) :
    Asks (p.rescue handle) Q := by
  induction p generalizing Q with
  | done a => exact .done
  | fail e => exact hhandle [] e (.fail e)
  | ask r next ih =>
    refine .ask (hp [] r next (.refl _)) fun x => ih x ?_ fun t e hrun => ?_
    · exact fun t r' next' h => hp _ r' next' (.ask r next x h)
    · exact hhandle _ e (.ask r next x hrun)

end Asks

end Exchange

namespace EventLoop

open Exchange

/-! ### Jobs -/

/-- What a job does: it asks for something, or changes its record. -/
inductive Act (R P : Type) where
  | request (r : R)
  | emit (p : P)

section Jobs

variable {R : Type} {Ans : R → Type} {P E α : Type}

/-- What it gets. -/
def Act.Answer (Ans : R → Type) : Act R P → Type
  | .request r => Ans r
  | .emit _ => Unit

/-- A job. -/
abbrev Job (Ans : R → Type) (P E α : Type) := Prog (@Act.Answer R P Ans) E α

/-- Asks for something. -/
def request (r : R) : Job Ans P E (Ans r) := .ask (.request r) .done

/-- Changes the record. -/
def emit (p : P) : Job Ans P E Unit := .ask (.emit p) .done

/-- A turn: what a job emits until it has to wait, and what is left of it. -/
def settle : Job Ans P E α → List P × Job Ans P E α
  | .done a => ([], .done a)
  | .fail e => ([], .fail e)
  | .ask (.request r) next => ([], .ask (.request r) next)
  | .ask (.emit p) next => (p :: (settle (next ())).1, (settle (next ())).2)

attribute [local simp] settle

/-- The job does not change its record before it waits. -/
def Waits : Job Ans P E α → Prop
  | .ask (.emit _) _ => False
  | _ => True

/-- What is emitted, in a transcript. -/
def emits (ps : List P) : Transcript (@Act.Answer R P Ans) := ps.map fun p => ⟨Act.emit p, ()⟩

/-- What a transcript emits. -/
def emitted (t : Transcript (@Act.Answer R P Ans)) : List P := t.filterMap fun
  | ⟨.emit p, _⟩ => some p
  | ⟨.request _, _⟩ => none

theorem emitted_append (t t' : Transcript (@Act.Answer R P Ans)) :
    emitted (t ++ t') = emitted t ++ emitted t' := List.filterMap_append

theorem follows_settle (job : Job Ans P E α) :
    Follows job (emits (settle job).1) (settle job).2 := by
  induction job with
  | done a => exact .refl _
  | fail e => exact .refl _
  | ask a next ih =>
    cases a with
    | request r => exact .refl _
    | emit p => exact .ask (Act.emit p) next () (ih ())

theorem waits_settle (job : Job Ans P E α) : Waits (settle job).2 := by
  induction job with
  | done a => exact trivial
  | fail e => exact trivial
  | ask a next ih =>
    cases a with
    | request r => exact trivial
    | emit p => exact ih ()

/-- A program of requests, as a part of a job. -/
def perform : Prog Ans E α → Job Ans P E α
  | .done a => .done a
  | .fail e => .fail e
  | .ask r next => .ask (.request r) fun x => perform (next x)

attribute [local simp] perform

/-- What such a part does. -/
def performed (t : Transcript Ans) : Transcript (@Act.Answer R P Ans) :=
  t.map fun e => ⟨.request e.1, e.2⟩

theorem emitted_performed (t : Transcript Ans) :
    emitted (performed t : Transcript (@Act.Answer R P Ans)) = [] := by
  induction t with
  | nil => rfl
  | cons e t ih => exact ih

theorem emits_append (ps qs : List P) :
    (emits (ps ++ qs) : Transcript (@Act.Answer R P Ans)) = emits ps ++ emits qs := List.map_append

theorem emitted_emits (ps : List P) :
    emitted (emits ps : Transcript (@Act.Answer R P Ans)) = ps := by
  induction ps with
  | nil => rfl
  | cons p ps ih => exact congrArg (List.cons p) ih

/-- It asks what the program asks. -/
theorem asks_perform (p : Prog Ans E α) : Asks (perform p : Job Ans P E α) fun t a =>
    ∃ s r next, t = performed s ∧ a = .request r ∧ Follows p s (.ask r next) := by
  induction p with
  | done a => exact .done
  | fail e => exact .fail
  | ask r next ih =>
    refine .ask ⟨[], r, next, rfl, rfl, .refl _⟩ fun x t a rest h => ?_
    obtain ⟨s, r', next', rfl, ha, hs⟩ := ih x t a rest h
    exact ⟨⟨r, x⟩ :: s, r', next', rfl, ha, .ask r next x hs⟩

/-- It ends as the program ends. -/
theorem ensures_perform (p : Prog Ans E α) : Ensures (perform p : Job Ans P E α)
    (fun t a => ∃ s, t = performed s ∧ Runs p s (.ok a))
    (fun t e => ∃ s, t = performed s ∧ Runs p s (.error e)) := by
  induction p with
  | done a => exact .done ⟨[], rfl, .done a⟩
  | fail e => exact .fail ⟨[], rfl, .fail e⟩
  | ask r next ih =>
    refine .ask fun x => (ih x).mono (fun t a h => ?_) fun t e h => ?_
    · obtain ⟨s, rfl, hs⟩ := h
      exact ⟨⟨r, x⟩ :: s, rfl, .ask r next x hs⟩
    · obtain ⟨s, rfl, hs⟩ := h
      exact ⟨⟨r, x⟩ :: s, rfl, .ask r next x hs⟩

/-- The answers of the requests, for a job. -/
def Act.answer (answer : (r : R) → Ans r) : (a : Act R P) → a.Answer Ans
  | .request r => answer r
  | .emit _ => ()

end Jobs

/-! ### Records and tasks -/

/-- Records with keys that no change touches. -/
structure Board (K P Rec : Type) where
  key : Rec → K
  apply : Rec → P → Rec
  key_apply : ∀ r p, key (apply r p) = key r

/-- What happens to a task. -/
inductive Entry {R : Type} (Ans : R → Type) (P : Type) where
  | answered (r : R) (x : Ans r)
  | emitted (p : P)
  | noted (p : P)

namespace Entry

variable {R : Type} {Ans : R → Type} {P : Type}

/-- The change of the record. -/
def patch : Entry Ans P → Option P
  | .answered _ _ => none
  | .emitted p | .noted p => some p

/-- What the job did. -/
def event : Entry Ans P → Option (Σ a, @Act.Answer R P Ans a)
  | .answered r x => some ⟨.request r, x⟩
  | .emitted p => some ⟨.emit p, ()⟩
  | .noted _ => none

end Entry

/-- A job at work: the record it began with, what has happened, and what is left. -/
structure Task {R : Type} (Ans : R → Type) (P E α Rec : Type) where
  origin : Rec
  job : Job Ans P E α
  log : List (Entry Ans P)
  rest : Job Ans P E α

/-- The board, and the tasks. -/
structure Loop {R : Type} (Ans : R → Type) (P E α Rec : Type) where
  records : List Rec
  tasks : List (Task Ans P E α Rec)

section Loops

variable {R : Type} {Ans : R → Type} {P E α K Rec : Type}

namespace Task

/-- What the job has done. -/
def transcript (τ : Task Ans P E α Rec) : Transcript (@Act.Answer R P Ans) :=
  τ.log.filterMap Entry.event

/-- The changes of the record, in order. -/
def patches (τ : Task Ans P E α Rec) : List P := τ.log.filterMap Entry.patch

/-- A job's first turn. -/
def start (origin : Rec) (job : Job Ans P E α) : Task Ans P E α Rec where
  origin := origin
  job := job
  log := (settle job).1.map .emitted
  rest := (settle job).2

/-- A turn, after an answer. -/
def answer (τ : Task Ans P E α Rec) (r : R) (x : Ans r) (next : Job Ans P E α) :
    Task Ans P E α Rec :=
  { τ with
    log := τ.log ++ .answered r x :: (settle next).1.map .emitted
    rest := (settle next).2 }

/-- A change from elsewhere. -/
def note (τ : Task Ans P E α Rec) (p : P) : Task Ans P E α Rec :=
  { τ with log := τ.log ++ [.noted p] }

theorem filterMap_event_emitted (ps : List P) :
    (ps.map Entry.emitted : List (Entry Ans P)).filterMap Entry.event = emits ps := by
  induction ps with
  | nil => rfl
  | cons p ps ih => exact congrArg (List.cons _) ih

theorem filterMap_patch_emitted (ps : List P) :
    (ps.map Entry.emitted : List (Entry Ans P)).filterMap Entry.patch = ps := by
  rw [List.filterMap_map]
  exact List.filterMap_some

theorem transcript_start (origin : Rec) (job : Job Ans P E α) :
    (start origin job).transcript = emits (settle job).1 := filterMap_event_emitted _

theorem patches_start (origin : Rec) (job : Job Ans P E α) :
    (start origin job).patches = (settle job).1 := filterMap_patch_emitted _

theorem transcript_answer (τ : Task Ans P E α Rec) (r : R) (x : Ans r) (next : Job Ans P E α) :
    (τ.answer r x next).transcript = τ.transcript ++ ⟨.request r, x⟩ :: emits (settle next).1 := by
  simp only [transcript, answer, List.filterMap_append, ← filterMap_event_emitted]
  rfl

theorem patches_answer (τ : Task Ans P E α Rec) (r : R) (x : Ans r) (next : Job Ans P E α) :
    (τ.answer r x next).patches = τ.patches ++ (settle next).1 := by
  simp only [patches, answer, List.filterMap_append]
  exact congrArg _ (filterMap_patch_emitted _)

theorem transcript_note (τ : Task Ans P E α Rec) (p : P) :
    (τ.note p).transcript = τ.transcript := by
  simp only [transcript, note, List.filterMap_append]
  exact List.append_nil _

theorem patches_note (τ : Task Ans P E α Rec) (p : P) : (τ.note p).patches = τ.patches ++ [p] := by
  simp only [patches, note, List.filterMap_append]
  rfl

/-- The record as the job and the notes have made it. -/
def view (B : Board K P Rec) (τ : Task Ans P E α Rec) : Rec := τ.patches.foldl B.apply τ.origin

end Task

variable (B : Board K P Rec)

/-- Changes of a record leave its key. -/
theorem key_foldl (ps : List P) (r : Rec) : B.key (ps.foldl B.apply r) = B.key r := by
  induction ps generalizing r with
  | nil => rfl
  | cons p ps ih => rw [List.foldl_cons, ih, B.key_apply]

variable [DecidableEq K]

/-- The records after changes of one of them. -/
def change (k : K) (ps : List P) (rs : List Rec) : List Rec :=
  rs.map fun r => if B.key r = k then ps.foldl B.apply r else r

theorem map_key_change (k : K) (ps : List P) (rs : List Rec) :
    (change B k ps rs).map B.key = rs.map B.key := by
  rw [change, List.map_map]
  refine List.map_congr_left fun r _ => ?_
  show B.key (if _ then _ else _) = _
  split
  · exact key_foldl B ps r
  · rfl

/-- What a program lets happen: the records that are added, those it takes for idle, the jobs
these begin with, and the notes made while a job waits. -/
structure Rules {R : Type} (Ans : R → Type) (P E α Rec : Type) where
  fresh : Rec → Prop
  idle : Loop Ans P E α Rec → Rec → Prop
  starts : Rec → Job Ans P E α → Prop
  notes : Job Ans P E α → P → Prop

variable (rules : Rules Ans P E α Rec)

namespace Loop

/-- What may happen on the loop. -/
inductive Step : Loop Ans P E α Rec → Loop Ans P E α Rec → Prop
  /-- New records come, with keys that were never there. -/
  | add {rs : List Rec} {ts : List (Task Ans P E α Rec)} (new : List Rec)
      (hfresh : ∀ r ∈ new, rules.fresh r) (hnodup : (new.map B.key).Nodup)
      (hrecords : ∀ r ∈ new, B.key r ∉ rs.map B.key)
      (htasks : ∀ r ∈ new, ∀ τ ∈ ts, B.key τ.origin ≠ B.key r) : Step ⟨rs, ts⟩ ⟨rs ++ new, ts⟩
  /-- Records go. -/
  | remove {rs : List Rec} {ts : List (Task Ans P E α Rec)} (kept : Rec → Bool) :
      Step ⟨rs, ts⟩ ⟨rs.filter kept, ts⟩
  /-- A job begins with a record that seems to be idle. -/
  | start {rs : List Rec} {ts : List (Task Ans P E α Rec)} (origin : Rec) (job : Job Ans P E α)
      (hmem : origin ∈ rs) (hidle : rules.idle ⟨rs, ts⟩ origin) (hjob : rules.starts origin job) :
      Step ⟨rs, ts⟩ ⟨change B (B.key origin) (settle job).1 rs, ts ++ [.start origin job]⟩
  /-- A job gets its answer. -/
  | answer {rs : List Rec} (pre post : List (Task Ans P E α Rec)) {τ : Task Ans P E α Rec} {r : R}
      {next : Ans r → Job Ans P E α} (x : Ans r) (hrest : τ.rest = .ask (.request r) next) :
      Step ⟨rs, pre ++ τ :: post⟩
        ⟨change B (B.key τ.origin) (settle (next x)).1 rs, pre ++ τ.answer r x (next x) :: post⟩
  /-- A record changes while its job waits. -/
  | note {rs : List Rec} (pre post : List (Task Ans P E α Rec)) {τ : Task Ans P E α Rec} {p : P}
      (hp : rules.notes τ.rest p) :
      Step ⟨rs, pre ++ τ :: post⟩ ⟨change B (B.key τ.origin) [p] rs, pre ++ τ.note p :: post⟩

/-- The states of a loop whose board was empty. -/
inductive Reached : Loop Ans P E α Rec → Prop
  | init : Reached ⟨[], []⟩
  | step {l l' : Loop Ans P E α Rec} (h : Reached l) (hs : Step B rules l l') : Reached l'

end Loop

/-! ### Every job has its record to itself -/

/-- The task is a run of its job so far. -/
structure Task.Sound (τ : Task Ans P E α Rec) : Prop where
  fresh : rules.fresh τ.origin
  starts : rules.starts τ.origin τ.job
  follows : Follows τ.job τ.transcript τ.rest
  waits : Waits τ.rest
  noted : ∀ p, .noted p ∈ τ.log → ∃ rest, rules.notes rest p

namespace Task.Sound

variable {B rules} {τ : Task Ans P E α Rec}

theorem start {origin : Rec} {job : Job Ans P E α} (horigin : rules.fresh origin)
    (hjob : rules.starts origin job) : (Task.start origin job).Sound rules where
  fresh := horigin
  starts := hjob
  follows := by
    rw [Task.transcript_start]
    exact follows_settle job
  waits := waits_settle job
  noted p hp := by simp [Task.start] at hp

theorem answer (h : τ.Sound rules) {r : R} {next : Ans r → Job Ans P E α} (x : Ans r)
    (hrest : τ.rest = .ask (.request r) next) : (τ.answer r x (next x)).Sound rules where
  fresh := h.fresh
  starts := h.starts
  follows := by
    rw [Task.transcript_answer]
    refine h.follows.trans ?_
    rw [hrest]
    exact @Follows.ask _ (@Act.Answer R P Ans) _ _ (.request r) next x _ _ (follows_settle (next x))
  waits := waits_settle (next x)
  noted p hp := by
    refine h.noted p ?_
    simpa [Task.answer] using hp

theorem note (h : τ.Sound rules) {p : P} (hp : rules.notes τ.rest p) :
    (τ.note p).Sound rules where
  fresh := h.fresh
  starts := h.starts
  follows := by
    rw [Task.transcript_note]
    exact h.follows
  waits := h.waits
  noted q hq := by
    rcases List.mem_append.mp hq with hq | hq
    · exact h.noted q hq
    · obtain rfl : q = p := by simpa using hq
      exact ⟨_, hp⟩

/-- A fold that no note touches is one over what the job emits. -/
theorem foldl_patches (h : τ.Sound rules) {S : Type} {f : S → P → S}
    (hf : ∀ rest p, rules.notes rest p → ∀ s, f s p = s) (s : S) :
    τ.patches.foldl f s = (emitted τ.transcript).foldl f s := by
  have hall : ∀ (log : List (Entry Ans P)) (s : S),
      (∀ p, .noted p ∈ log → ∃ rest, rules.notes rest p) →
      (log.filterMap Entry.patch).foldl f s
        = (emitted (log.filterMap Entry.event)).foldl f s := by
    intro log
    induction log with
    | nil => exact fun _ _ => rfl
    | cons e log ih =>
      intro s hlog
      have hrest := fun s => ih s fun p hp => hlog p (List.mem_cons_of_mem _ hp)
      cases e with
      | answered r x => exact hrest s
      | emitted p => exact hrest (f s p)
      | noted p =>
        obtain ⟨rest, hp⟩ := hlog p List.mem_cons_self
        show (log.filterMap Entry.patch).foldl f (f s p) = _
        rw [hf rest p hp]
        exact hrest s
  exact hall τ.log s h.noted

end Task.Sound

/-- Every record is fresh, or as its own job and the notes have made it. -/
structure Loop.Sound (l : Loop Ans P E α Rec) : Prop where
  records_nodup : (l.records.map B.key).Nodup
  tasks_nodup : (l.tasks.map fun τ => B.key τ.origin).Nodup
  tasks : ∀ τ ∈ l.tasks, τ.Sound rules
  shown : ∀ r ∈ l.records, ∀ τ ∈ l.tasks, B.key τ.origin = B.key r → r = τ.view B
  idle : ∀ r ∈ l.records, (∀ τ ∈ l.tasks, B.key τ.origin ≠ B.key r) → rules.fresh r

/-- What seems to be idle has no job. -/
def Rules.TellsIdle : Prop :=
  ∀ l, Loop.Sound B rules l → ∀ origin ∈ l.records, rules.idle l origin →
    ∀ τ ∈ l.tasks, B.key τ.origin ≠ B.key origin

namespace Loop.Sound

variable {B rules} {rs : List Rec} {ts pre post : List (Task Ans P E α Rec)}
  {τ τ' : Task Ans P E α Rec}

omit [DecidableEq K] in
theorem add (h : Loop.Sound B rules ⟨rs, ts⟩) {new : List Rec}
    (hfresh : ∀ r ∈ new, rules.fresh r) (hnodup : (new.map B.key).Nodup)
    (hrecords : ∀ r ∈ new, B.key r ∉ rs.map B.key)
    (htasks : ∀ r ∈ new, ∀ τ ∈ ts, B.key τ.origin ≠ B.key r) :
    Loop.Sound B rules ⟨rs ++ new, ts⟩ where
  records_nodup := by
    rw [List.map_append]
    refine h.records_nodup.append hnodup fun k hk hk' => ?_
    obtain ⟨r, hr, rfl⟩ := List.mem_map.mp hk'
    exact hrecords r hr hk
  tasks_nodup := h.tasks_nodup
  tasks := h.tasks
  shown r hr τ hτ hkey := by
    rcases List.mem_append.mp hr with hr | hr
    · exact h.shown r hr τ hτ hkey
    · exact absurd hkey (htasks r hr τ hτ)
  idle r hr hnone := by
    rcases List.mem_append.mp hr with hr | hr
    · exact h.idle r hr hnone
    · exact hfresh r hr

omit [DecidableEq K] in
theorem remove (h : Loop.Sound B rules ⟨rs, ts⟩) (kept : Rec → Bool) :
    Loop.Sound B rules ⟨rs.filter kept, ts⟩ where
  records_nodup := (List.filter_sublist.map B.key).nodup h.records_nodup
  tasks_nodup := h.tasks_nodup
  tasks := h.tasks
  shown r hr := h.shown r (List.mem_of_mem_filter hr)
  idle r hr := h.idle r (List.mem_of_mem_filter hr)

/-- A record is changed as the log of its task says. -/
theorem shown_change {ts' : List (Task Ans P E α Rec)} (h : Loop.Sound B rules ⟨rs, ts⟩) {k : K}
    {ps : List P} (hother : ∀ τ ∈ ts', B.key τ.origin ≠ k → τ ∈ ts)
    (hself : ∀ τ ∈ ts', B.key τ.origin = k → ∀ r ∈ rs, B.key r = k →
      ps.foldl B.apply r = τ.view B) :
    ∀ r ∈ change B k ps rs, ∀ τ ∈ ts', B.key τ.origin = B.key r → r = τ.view B := by
  intro r hr τ hτ hkey
  obtain ⟨r₀, hr₀, rfl⟩ := List.mem_map.mp hr
  by_cases hk : B.key r₀ = k
  · rw [if_pos hk, key_foldl] at hkey
    rw [if_pos hk]
    exact hself τ hτ (hkey.trans hk) r₀ hr₀ hk
  · rw [if_neg hk] at hkey ⊢
    exact h.shown r₀ hr₀ τ (hother τ hτ fun heq => hk (hkey.symm.trans heq)) hkey

/-- A record without a task is not the one that is changed. -/
theorem idle_change {ts' : List (Task Ans P E α Rec)} (h : Loop.Sound B rules ⟨rs, ts⟩) {k : K}
    {ps : List P} (hkept : ∀ τ ∈ ts, ∃ τ' ∈ ts', B.key τ'.origin = B.key τ.origin)
    (hk : ∃ τ' ∈ ts', B.key τ'.origin = k) :
    ∀ r ∈ change B k ps rs, (∀ τ ∈ ts', B.key τ.origin ≠ B.key r) → rules.fresh r := by
  intro r hr hnone
  obtain ⟨r₀, hr₀, rfl⟩ := List.mem_map.mp hr
  obtain ⟨σ, hσ, hσk⟩ := hk
  have hne : B.key r₀ ≠ k := by
    intro heq
    refine hnone σ hσ ?_
    rw [if_pos heq, key_foldl, hσk, heq]
  rw [if_neg hne] at hnone ⊢
  refine h.idle r₀ hr₀ fun τ hτ heq => ?_
  obtain ⟨τ', hτ', hkey⟩ := hkept τ hτ
  exact hnone τ' hτ' (hkey.trans heq)

theorem start (h : Loop.Sound B rules ⟨rs, ts⟩) {origin : Rec} {job : Job Ans P E α}
    (hmem : origin ∈ rs) (hidle : ∀ τ ∈ ts, B.key τ.origin ≠ B.key origin)
    (hjob : rules.starts origin job) : Loop.Sound B rules
      ⟨change B (B.key origin) (settle job).1 rs, ts ++ [.start origin job]⟩ where
  records_nodup := by
    rw [map_key_change]
    exact h.records_nodup
  tasks_nodup := by
    rw [List.map_append]
    refine h.tasks_nodup.append (List.nodup_singleton _) fun k hk hk' => ?_
    obtain ⟨τ, hτ, rfl⟩ := List.mem_map.mp hk
    exact hidle τ hτ (by simpa [Task.start] using hk')
  tasks τ hτ := by
    rcases List.mem_append.mp hτ with hτ | hτ
    · exact h.tasks τ hτ
    · obtain rfl : τ = .start origin job := by simpa using hτ
      exact .start (h.idle origin hmem hidle) hjob
  shown := by
    refine h.shown_change (fun τ hτ hne => ?_) fun τ hτ heq r hr hkey => ?_
    · rcases List.mem_append.mp hτ with hτ | hτ
      · exact hτ
      · obtain rfl : τ = .start origin job := by simpa using hτ
        exact absurd rfl hne
    · rcases List.mem_append.mp hτ with hτ | hτ
      · exact absurd heq (hidle τ hτ)
      · obtain rfl : τ = .start origin job := by simpa using hτ
        obtain rfl : r = origin := List.inj_on_of_nodup_map h.records_nodup hr hmem hkey
        rw [Task.view, Task.patches_start]
        rfl
  idle := by
    refine h.idle_change (fun τ hτ => ⟨τ, List.mem_append_left _ hτ, rfl⟩) ?_
    exact ⟨.start origin job, List.mem_append_right _ (List.mem_singleton_self _), rfl⟩

/-- A task goes on, and its record with it. -/
theorem replace (h : Loop.Sound B rules ⟨rs, pre ++ τ :: post⟩) {ps : List P}
    (hτ' : τ'.Sound rules) (horigin : τ'.origin = τ.origin)
    (hpatches : τ'.patches = τ.patches ++ ps) : Loop.Sound B rules
      ⟨change B (B.key τ.origin) ps rs, pre ++ τ' :: post⟩ where
  records_nodup := by
    rw [map_key_change]
    exact h.records_nodup
  tasks_nodup := by
    have hnodup := h.tasks_nodup
    simp only [List.map_append, List.map_cons] at hnodup ⊢
    rwa [horigin]
  tasks σ hσ := by
    rcases List.mem_append.mp hσ with hσ | hσ
    · exact h.tasks σ (List.mem_append_left _ hσ)
    · rcases List.mem_cons.mp hσ with rfl | hσ
      · exact hτ'
      · exact h.tasks σ (List.mem_append_right _ (List.mem_cons_of_mem _ hσ))
  shown := by
    refine h.shown_change (fun σ hσ hne => ?_) fun σ hσ heq r hr hkey => ?_
    · rcases List.mem_append.mp hσ with hσ | hσ
      · exact List.mem_append_left _ hσ
      · rcases List.mem_cons.mp hσ with rfl | hσ
        · exact absurd (congrArg B.key horigin) hne
        · exact List.mem_append_right _ (List.mem_cons_of_mem _ hσ)
    · -- no other task has the key
      have hself : σ = τ' := by
        have hnodup := h.tasks_nodup
        rw [List.map_append, List.map_cons, List.nodup_middle, List.nodup_cons,
          ← List.map_append] at hnodup
        have hnot : ∀ σ ∈ pre ++ post, B.key σ.origin ≠ B.key τ.origin := fun σ hσ heq =>
          hnodup.1 (List.mem_map.mpr ⟨σ, hσ, heq⟩)
        rcases List.mem_append.mp hσ with hσ | hσ
        · exact absurd heq (hnot σ (List.mem_append_left _ hσ))
        · rcases List.mem_cons.mp hσ with rfl | hσ
          · rfl
          · exact absurd heq (hnot σ (List.mem_append_right _ hσ))
      subst hself
      rw [Task.view, hpatches, horigin, List.foldl_append]
      exact congrArg (fun r => ps.foldl B.apply r)
        (h.shown r hr τ (List.mem_append_right _ List.mem_cons_self) hkey.symm)
  idle := by
    refine h.idle_change (fun σ hσ => ?_) ?_
    · rcases List.mem_append.mp hσ with hσ | hσ
      · exact ⟨σ, List.mem_append_left _ hσ, rfl⟩
      · rcases List.mem_cons.mp hσ with rfl | hσ
        · exact ⟨τ', List.mem_append_right _ List.mem_cons_self, congrArg B.key horigin⟩
        · exact ⟨σ, List.mem_append_right _ (List.mem_cons_of_mem _ hσ), rfl⟩
    · exact ⟨τ', List.mem_append_right _ List.mem_cons_self, congrArg B.key horigin⟩

/-- **A step leaves every record to its own job.** -/
theorem step {l l' : Loop Ans P E α Rec} (hidle : rules.TellsIdle B)
    (h : Loop.Sound B rules l) (hs : Step B rules l l') : Loop.Sound B rules l' := by
  cases hs with
  | add new hfresh hnodup hrecords htasks => exact h.add hfresh hnodup hrecords htasks
  | remove kept => exact h.remove kept
  | start origin job hmem hready hjob => exact h.start hmem (hidle _ h origin hmem hready) hjob
  | answer pre post x hrest =>
    refine h.replace ?_ rfl (Task.patches_answer _ _ x _)
    exact (h.tasks _ (List.mem_append_right _ List.mem_cons_self)).answer x hrest
  | note pre post hp =>
    refine h.replace ?_ rfl (Task.patches_note _ _)
    exact (h.tasks _ (List.mem_append_right _ List.mem_cons_self)).note hp

end Loop.Sound

/-- **Jobs do not disturb each other's records**, in whatever order they take their turns. -/
theorem Loop.Reached.sound {l : Loop Ans P E α Rec} (hidle : rules.TellsIdle B)
    (h : Loop.Reached B rules l) : l.Sound B rules := by
  induction h with
  | init =>
    refine ⟨List.nodup_nil, List.nodup_nil, ?_, ?_, ?_⟩
    all_goals exact fun _ h => absurd h List.not_mem_nil
  | step _ hs ih => exact ih.step hidle hs

/-! ### Jobs come to their end -/

namespace Loop.Reached

variable {B rules} {rs : List Rec} {pre post ts : List (Task Ans P E α Rec)}

/-- **A job that gets its answers comes to its end**, with the records that there are. -/
theorem finish (answer : (r : R) → Ans r) (job : Job Ans P E α) {τ : Task Ans P E α Rec}
    (h : Reached B rules ⟨rs, pre ++ τ :: post⟩) (hrest : τ.rest = (settle job).2)
    (ht : ∀ e ∈ τ.transcript, e.2 = Act.answer answer e.1) :
    ∃ rs' τ', Reached B rules ⟨rs', pre ++ τ' :: post⟩ ∧ rs'.map B.key = rs.map B.key ∧
      τ'.origin = τ.origin ∧ τ'.job = τ.job ∧ (∀ e ∈ τ'.transcript, e.2 = Act.answer answer e.1) ∧
      τ'.rest = Prog.lift (job.outcome (Act.answer answer)) := by
  induction job generalizing rs τ with
  | done a => exact ⟨rs, τ, h, rfl, rfl, rfl, ht, hrest⟩
  | fail e => exact ⟨rs, τ, h, rfl, rfl, rfl, ht, hrest⟩
  | ask a next ih =>
    cases a with
    | emit p => exact ih () h hrest ht
    | request r =>
      have hnext := h.step (.answer pre post (answer r) hrest)
      obtain ⟨rs', τ', hreached, hkeys, horigin, hjob, hanswers, hended⟩ :=
        ih (answer r) hnext rfl (by
          rw [Task.transcript_answer]
          refine List.forall_mem_append.mpr ⟨ht, List.forall_mem_cons.mpr ⟨rfl, ?_⟩⟩
          exact List.forall_mem_map.mpr fun p _ => rfl)
      exact ⟨rs', τ', hreached, hkeys.trans (map_key_change B _ _ rs), horigin, hjob, hanswers,
        hended⟩

/-- A job that begins now, say. -/
theorem start_finish (answer : (r : R) → Ans r) (h : Reached B rules ⟨rs, ts⟩) {origin : Rec}
    {job : Job Ans P E α} (hmem : origin ∈ rs) (hidle : rules.idle ⟨rs, ts⟩ origin)
    (hjob : rules.starts origin job) :
    ∃ rs' τ', Reached B rules ⟨rs', ts ++ [τ']⟩ ∧ rs'.map B.key = rs.map B.key ∧
      τ'.origin = origin ∧ τ'.job = job ∧ (∀ e ∈ τ'.transcript, e.2 = Act.answer answer e.1) ∧
      τ'.rest = Prog.lift (job.outcome (Act.answer answer)) := by
  have hstart := h.step (.start origin job hmem hidle hjob)
  obtain ⟨rs', τ', hreached, hkeys, hend⟩ := hstart.finish answer job rfl (by
    rw [Task.transcript_start]
    exact List.forall_mem_map.mpr fun p _ => rfl)
  exact ⟨rs', τ', hreached, hkeys.trans (map_key_change B _ _ rs), hend⟩

end Loop.Reached

end Loops

end EventLoop
