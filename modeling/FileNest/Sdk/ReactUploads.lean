import FileNest.Lib.EventLoop
import FileNest.Sdk.Uploads

/-!
# Uploads of the React SDK

`useUpload` keeps a list of uploads.  What it is handed is uploaded at once, and every upload
changes its entry on the way.  `cancel` and `retry` change an entry at any time, and nothing but
the entry; `clear` empties the list.  `FileUpload` hands over the files that are dropped on it,
with callbacks of the render that shows the list as it is then.

The callbacks of the host are known by what they are called with and what they throw; what is
thrown is an `Error`.

## Main definitions

* `UploadState`, `HookAct` — an entry, and what an upload does besides its requests.
* `upload` — an upload, up to its callbacks.
* `Hook`, `Hook.Step`, `Hook.Reached` — the hook, and what may happen.
* `FileUploadProps`, `fileUpload` — the component.

## Main results

* `Hook.Step.loop`, `Hook.Reached.loop` — the hook is an event loop.
* `reactUploads_shown` — **every entry has one upload, and what it shows of it.**
* `fileUpload_completes` — **when the component says that everything is uploaded.**
-/

namespace FileNest
namespace ReactUploads

open Exchange EventLoop

/-! ### Entries -/

/-- `UploadStatus` of the hook. -/
inductive HookStatus where
  | pending
  | uploading
  | success
  | failed
  deriving DecidableEq

/-- `UploadState`. -/
structure UploadState where
  id : String
  filename : String
  status : HookStatus
  progress : ℤ
  file : Option Json
  error : Option SdkFailure

/-- The entry of a file that is handed over. -/
def newUpload (id filename : String) : UploadState where
  id := id
  filename := filename
  status := .pending
  progress := 0
  file := none
  error := none

/-- A `Partial<UploadState>`; an error may be set to `null`. -/
structure UploadPatch where
  status : Option HookStatus := none
  progress : Option ℤ := none
  file : Option Json := none
  error : Option (Option SdkFailure) := none

/-- `{ ...u, ...patch }`. -/
def UploadState.update (u : UploadState) (patch : UploadPatch) : UploadState :=
  { u with
    status := patch.status.getD u.status
    progress := patch.progress.getD u.progress
    file := patch.file.orElse fun _ => u.file
    error := patch.error.getD u.error }

/-- What an upload does besides its requests: it changes its entry, or calls the host. -/
inductive HookAct (C : Type) where
  | set (patch : UploadPatch)
  | call (c : C)

variable {C : Type}

namespace HookAct

/-- The status it sets. -/
def status : HookAct C → Option HookStatus
  | set patch => patch.status
  | call _ => none

/-- The file it sets. -/
def file : HookAct C → Option Json
  | set patch => patch.file
  | call _ => none

/-- Only a `set` changes an entry. -/
def apply (u : UploadState) : HookAct C → UploadState
  | set patch => u.update patch
  | call _ => u

end HookAct

/-- The list of entries. -/
def uploadsBoard : Board String (HookAct C) UploadState where
  key := UploadState.id
  apply := HookAct.apply
  key_apply u a := by cases a <;> rfl

/-! ### Uploads -/

/-- What a callback does: the call of the host, if it makes one, and what is thrown. -/
structure CallbackEffect (C : Type) where
  call : Option C := none
  thrown : Option SdkFailure := none

/-- `UseUploadOptions`. -/
structure UseUploadOptions (C : Type) where
  folderId : Option String
  metadata : Option Fields
  tags : Option (List String)
  onComplete : Json → CallbackEffect C
  onError : SdkFailure → String → CallbackEffect C

/-- The options of the upload; the context takes the name and the type of the file. -/
def UseUploadOptions.upload (options : UseUploadOptions C) (file : BrowserFile) :
    ClientUpload Json :=
  ReactContext.upload file
    { filename := file.name, mimeType := none, folderId := options.folderId,
      metadata := options.metadata, tags := options.tags }

/-- An upload of the hook. -/
abbrev HookJob (C : Type) := Job UploadStep.Answer (HookAct C) SdkFailure

/-- What it did. -/
abbrev HookJob.Transcript (C : Type) :=
  Exchange.Transcript (@Act.Answer UploadStep (HookAct C) UploadStep.Answer)

/-- Calls a callback. -/
def CallbackEffect.run (x : CallbackEffect C) : HookJob C Unit := do
  x.call.elim (pure ()) fun c => emit (.call c)
  x.thrown.elim (pure ()) .fail

/-- `{ status: "uploading" }`. -/
def uploading : HookAct C := .set { status := some .uploading }

/-- `{ status: "success", progress: 100, file }`. -/
def succeeded (record : Json) : HookAct C :=
  .set { status := some .success, progress := some 100, file := some record }

/-- `{ status: "failed", error }`. -/
def failedWith (error : SdkFailure) : HookAct C :=
  .set { status := some .failed, error := some (some error) }

/-- What `upload` does with a file; a callback that throws is caught with the upload. -/
def upload (options : UseUploadOptions C) (file : BrowserFile) : HookJob C Unit :=
  Prog.rescue (do
    emit uploading
    let record ← perform (options.upload file)
    emit (succeeded record)
    (options.onComplete record).run) fun error => do
      emit (failedWith error)
      (options.onError error file.name).run

/-- What a callback does. -/
def CallbackEffect.acts (x : CallbackEffect C) : List (HookAct C) := x.call.toList.map .call

/-- What is done about an error. -/
def errorActs (options : UseUploadOptions C) (file : BrowserFile) (error : SdkFailure) :
    List (HookAct C) :=
  failedWith error :: (options.onError error file.name).acts

/-- What an upload does at its end. -/
def finalActs (options : UseUploadOptions C) (file : BrowserFile) :
    Except SdkFailure Json → List (HookAct C)
  | .ok record => succeeded record :: (options.onComplete record).acts ++
      (options.onComplete record).thrown.elim [] (errorActs options file)
  | .error error => errorActs options file error

/-- The status it leaves. -/
def finalStatus (options : UseUploadOptions C) : Except SdkFailure Json → HookStatus
  | .ok record => if (options.onComplete record).thrown = none then .success else .failed
  | .error _ => .failed

/-- The upload has come to its end. -/
def Ended (options : UseUploadOptions C) (file : BrowserFile) (t : HookJob.Transcript C) : Prop :=
  ∃ sent out, Runs (options.upload file) sent out ∧
    t = emits [uploading] ++ performed sent ++ emits (finalActs options file out)

section Upload

variable {options : UseUploadOptions C} {file : BrowserFile}

theorem CallbackEffect.ensures_run (x : CallbackEffect C) : Ensures x.run
    (fun t _ => t = emits x.acts ∧ x.thrown = none)
    (fun t e => t = emits x.acts ∧ x.thrown = some e) := by
  obtain ⟨call, thrown⟩ := x
  refine .bind (fun t _ => t = emits (CallbackEffect.acts ⟨call, thrown⟩)) ?_ fun t u ht => ?_
  · cases call with
    | none => exact .done rfl
    | some c => exact .ask fun _ => .done rfl
  · cases thrown with
    | none => exact .done ⟨by rw [ht, List.append_nil], rfl⟩
    | some e => exact .fail ⟨by rw [ht, List.append_nil], rfl⟩

/-- **An upload asks what the client asks**, once its entry is `uploading`. -/
theorem upload_asks : Asks (upload options file) fun t a => ∀ r, a = .request r →
    ∃ sent next, t = emits [uploading] ++ performed sent ∧
      Follows (options.upload file) sent (.ask r next) := by
  have hrun : ∀ x : CallbackEffect C, Asks x.run fun _ a => ∀ r, a ≠ .request r := by
    rintro ⟨call, thrown⟩
    refine .bind ?_ fun t u _ => ?_
    · cases call with
      | none => exact .done
      | some c => exact .ask (fun r h => by cases h) fun _ => .done
    · cases thrown with
      | none => exact .done
      | some e => exact .fail
  refine .rescue ?_ fun t error _ => .ask (fun r h => by cases h) fun _ t' a next h r ha =>
    absurd ha (hrun _ t' a next h r)
  refine .ask (fun r h => by cases h) fun _ => .bind (p := perform (options.upload file)) ?_ ?_
  · intro t a next h r hr
    obtain ⟨sent, r', next', rfl, ha, hfollows⟩ := asks_perform _ t a next h
    cases ha.symm.trans hr
    exact ⟨sent, next', rfl, hfollows⟩
  · exact fun t record _ => .ask (fun r h => by cases h) fun _ t' a next h r ha =>
      absurd ha (hrun _ t' a next h r)

theorem ensures_handler (error : SdkFailure) :
    Ensures (emit (failedWith error) >>= fun _ => (options.onError error file.name).run)
      (fun t _ => t = emits (errorActs options file error))
      (fun t _ => t = emits (errorActs options file error)) := by
  refine .ask fun _ => (CallbackEffect.ensures_run _).mono ?_ ?_
  · rintro t u ⟨rfl, -⟩
    rfl
  · rintro t e ⟨rfl, -⟩
    rfl

/-- **An upload ends as the client's**, and its callbacks follow. -/
theorem upload_ends : Ensures (upload options file)
    (fun t _ => Ended options file t) (fun t _ => Ended options file t) := by
  refine .rescue (fun t error => ∃ sent,
    (Runs (options.upload file) sent (.error error) ∧ t = emits [uploading] ++ performed sent) ∨
    ∃ record, Runs (options.upload file) sent (.ok record) ∧
      (options.onComplete record).thrown = some error ∧ t = emits [uploading] ++ performed sent ++
        emits (succeeded record :: (options.onComplete record).acts)) ?_ ?_
  · refine .ask fun _ => .bind (p := perform (options.upload file)) (fun t record => ∃ sent,
      t = performed sent ∧ Runs (options.upload file) sent (.ok record)) ?_ ?_
    · refine (ensures_perform _).mono (fun t record h => h) ?_
      rintro t error ⟨sent, rfl, hrun⟩
      exact ⟨sent, .inl ⟨hrun, rfl⟩⟩
    · rintro t record ⟨sent, rfl, hrun⟩
      refine .ask fun _ => (CallbackEffect.ensures_run _).mono ?_ ?_
      · rintro t u ⟨rfl, hthrown⟩
        refine ⟨sent, .ok record, hrun, ?_⟩
        rw [finalActs, hthrown, Option.elim_none, List.append_nil]
        rfl
      · rintro t error ⟨rfl, hthrown⟩
        exact ⟨sent, .inr ⟨record, hrun, hthrown, rfl⟩⟩
  · rintro t error ⟨sent, ⟨hrun, rfl⟩ | ⟨record, hrun, hthrown, rfl⟩⟩
    · have hended : ∀ t, t = emits (errorActs options file error) →
          Ended options file (emits [uploading] ++ performed sent ++ t) := by
        rintro t rfl
        exact ⟨sent, .error error, hrun, rfl⟩
      exact (ensures_handler error).mono (fun t _ => hended t) fun t _ => hended t
    · have hended : ∀ t, t = emits (errorActs options file error) →
          Ended options file (emits [uploading] ++ performed sent ++
            emits (succeeded record :: (options.onComplete record).acts) ++ t) := by
        rintro t rfl
        refine ⟨sent, .ok record, hrun, ?_⟩
        rw [finalActs, hthrown, Option.elim_some, emits_append, List.append_assoc]
      exact (ensures_handler error).mono (fun t _ => hended t) fun t _ => hended t

end Upload

/-! ### The hook -/

/-- A percentage of a PUT is reported. -/
def ReportsProgress (percent : (loaded total : ℕ) → ℤ) (rest : HookJob C Unit) (a : HookAct C) :
    Prop :=
  ∃ url data contentType next loaded total,
    rest = .ask (.request (.put url data (some contentType))) next ∧
      a = .set { progress := some (percent loaded total) }

/-- `cancel`. -/
def cancelled : HookAct C :=
  .set { status := some .failed, error := some (some (.error (.str "Cancelled") 0)) }

/-- `retry`. -/
def retried : HookAct C :=
  .set { status := some .pending, progress := some 0, error := some none }

/-- What may change an entry while its upload is at work, or after it. -/
def Notes (percent : (loaded total : ℕ) → ℤ) (rest : HookJob C Unit) (a : HookAct C) : Prop :=
  ReportsProgress percent rest a ∨ a = cancelled ∨ a = retried

/-- The entries, and the uploads. -/
abbrev Hook (C : Type) := Loop UploadStep.Answer (HookAct C) SdkFailure Unit UploadState

/-- An upload at work. -/
abbrev HookTask (C : Type) := Task UploadStep.Answer (HookAct C) SdkFailure Unit UploadState

/-- An upload begins, with the entry of its file. -/
def Hook.start (options : UseUploadOptions C) (l : Hook C) (x : String × BrowserFile) : Hook C where
  records := change uploadsBoard x.1 (settle (upload options x.2)).1 l.records
  tasks := l.tasks ++ [.start (newUpload x.1 x.2.name) (upload options x.2)]

/-- `upload`, of files with the ids drawn for them: their entries come, and all of them begin. -/
def Hook.upload (options : UseUploadOptions C) (files : List (String × BrowserFile)) (l : Hook C) :
    Hook C :=
  files.foldl (Hook.start options)
    { l with records := l.records ++ files.map fun x => newUpload x.1 x.2.name }

/-- Who renders the hook: the options it may be given, and the files handed over with them. -/
abbrev Host (C : Type) := UseUploadOptions C → List BrowserFile → Prop

section Steps

variable (host : Host C) (percent : (loaded total : ℕ) → ℤ)

/-- What may happen. -/
inductive Hook.Step : Hook C → Hook C → Prop
  | upload {l : Hook C} (options : UseUploadOptions C) (files : List (String × BrowserFile))
      (hhost : host options (files.map Prod.snd)) (hnodup : (files.map Prod.fst).Nodup)
      (hfresh : ∀ x ∈ files, x.1 ∉ l.records.map UploadState.id ∧
        ∀ τ ∈ l.tasks, τ.origin.id ≠ x.1) : Step l (l.upload options files)
  | clear {l : Hook C} : Step l { l with records := [] }
  | answer {rs : List UploadState} (pre post : List (HookTask C)) {τ : HookTask C} {r : UploadStep}
      {next : UploadStep.Answer r → HookJob C Unit} (x : UploadStep.Answer r)
      (hrest : τ.rest = .ask (.request r) next) : Step ⟨rs, pre ++ τ :: post⟩
        ⟨change uploadsBoard τ.origin.id (settle (next x)).1 rs,
          pre ++ τ.answer r x (next x) :: post⟩
  | note {rs : List UploadState} (pre post : List (HookTask C)) {τ : HookTask C} {a : HookAct C}
      (ha : Notes percent τ.rest a) : Step ⟨rs, pre ++ τ :: post⟩
        ⟨change uploadsBoard τ.origin.id [a] rs, pre ++ τ.note a :: post⟩

/-- The states of the hook. -/
inductive Hook.Reached : Hook C → Prop
  | init : Reached ⟨[], []⟩
  | step {l l' : Hook C} (h : Reached l) (hs : Hook.Step host percent l l') : Reached l'

end Steps

/-- An upload begins with an entry that none has begun with. -/
def hookRules (percent : (loaded total : ℕ) → ℤ) :
    Rules UploadStep.Answer (HookAct C) SdkFailure Unit UploadState where
  fresh u := u = newUpload u.id u.filename
  idle l u := ∀ τ ∈ l.tasks, τ.origin.id ≠ u.id
  starts u job := ∃ options file, file.name = u.filename ∧ job = upload options file
  notes := Notes percent

section Hook

variable {host : Host C} {percent : (loaded total : ℕ) → ℤ} {l l' : Hook C} {τ : HookTask C}
  {options : UseUploadOptions C} {files : List (String × BrowserFile)} {file : BrowserFile}

theorem hookRules_tellsIdle : (hookRules (C := C) percent).TellsIdle uploadsBoard :=
  fun _ _ _ _ hidle => hidle

theorem tasks_foldl_start (options : UseUploadOptions C) (files : List (String × BrowserFile))
    (l : Hook C) : (files.foldl (Hook.start options) l).tasks = l.tasks ++
      files.map fun x => .start (newUpload x.1 x.2.name) (upload options x.2) := by
  induction files generalizing l with
  | nil => exact (List.append_nil _).symm
  | cons x files ih =>
    rw [List.foldl_cons, ih, List.map_cons]
    exact List.append_assoc _ _ _

theorem ids_change (i : String) (acts : List (HookAct C)) (us : List UploadState) :
    (change uploadsBoard i acts us).map UploadState.id = us.map UploadState.id :=
  map_key_change uploadsBoard i acts us

theorem ids_foldl_start (options : UseUploadOptions C) (files : List (String × BrowserFile))
    (l : Hook C) : (files.foldl (Hook.start options) l).records.map UploadState.id
      = l.records.map UploadState.id := by
  induction files generalizing l with
  | nil => rfl
  | cons x files ih =>
    rw [List.foldl_cons, ih, Hook.start, ids_change]

/-- Entries that are there begin one by one. -/
theorem reached_foldl_start (h : Loop.Reached uploadsBoard (hookRules percent) l)
    (hnodup : (files.map Prod.fst).Nodup)
    (hmem : ∀ x ∈ files, newUpload x.1 x.2.name ∈ l.records)
    (hidle : ∀ x ∈ files, ∀ τ ∈ l.tasks, τ.origin.id ≠ x.1) :
    Loop.Reached uploadsBoard (hookRules percent) (files.foldl (Hook.start options) l) := by
  induction files generalizing l with
  | nil => exact h
  | cons x files ih =>
    rw [List.map_cons, List.nodup_cons] at hnodup
    have hne : ∀ y ∈ files, y.1 ≠ x.1 := fun y hy heq =>
      hnodup.1 (heq ▸ List.mem_map_of_mem hy)
    refine ih (h.step (.start (newUpload x.1 x.2.name) (upload options x.2)
      (hmem x List.mem_cons_self) (hidle x List.mem_cons_self) ⟨options, x.2, rfl, rfl⟩))
      hnodup.2 (fun y hy => ?_) fun y hy τ hτ => ?_
    · refine List.mem_map.mpr ⟨_, hmem y (List.mem_cons_of_mem _ hy), ?_⟩
      exact if_neg (hne y hy)
    · rcases List.mem_append.mp hτ with hτ | hτ
      · exact hidle y (List.mem_cons_of_mem _ hy) τ hτ
      · obtain rfl := List.mem_singleton.mp hτ
        exact (hne y hy).symm

/-- **The hook is an event loop.** -/
theorem Hook.Step.loop (hs : Hook.Step host percent l l')
    (h : Loop.Reached uploadsBoard (hookRules percent) l) :
    Loop.Reached uploadsBoard (hookRules percent) l' := by
  cases hs with
  | upload options files hhost hnodup hfresh =>
    have hkeys : (files.map fun x => newUpload x.1 x.2.name).map UploadState.id
        = files.map Prod.fst := List.map_map
    refine reached_foldl_start (h.step (.add (files.map fun x => newUpload x.1 x.2.name)
      ?_ ?_ ?_ ?_)) hnodup (fun x hx => ?_) fun x hx => (hfresh x hx).2
    · exact List.forall_mem_map.mpr fun x _ => rfl
    · exact hkeys ▸ hnodup
    · exact List.forall_mem_map.mpr fun x hx => (hfresh x hx).1
    · exact List.forall_mem_map.mpr fun x hx => (hfresh x hx).2
    · exact List.mem_append_right _ (List.mem_map_of_mem hx)
  | clear =>
    have hgone := h.step (.remove fun _ => false)
    rwa [List.filter_false] at hgone
  | answer pre post x hrest => exact h.step (.answer pre post x hrest)
  | note pre post ha => exact h.step (.note pre post ha)

theorem Hook.Reached.loop (h : Hook.Reached host percent l) :
    Loop.Reached uploadsBoard (hookRules percent) l := by
  induction h with
  | init => exact .init
  | step _ hs ih => exact hs.loop ih

theorem Hook.Reached.sound (h : Hook.Reached host percent l) :
    l.Sound uploadsBoard (hookRules percent) := Loop.Reached.sound _ _ hookRules_tellsIdle h.loop

/-- An upload that has begun keeps its entry and what it is to do. -/
theorem Hook.Step.keeps (hs : Hook.Step host percent l l') (hτ : τ ∈ l.tasks) :
    ∃ τ' ∈ l'.tasks, τ'.origin = τ.origin ∧ τ'.job = τ.job := by
  cases hs with
  | upload options files hhost hnodup hfresh =>
    refine ⟨τ, ?_, rfl, rfl⟩
    rw [Hook.upload, tasks_foldl_start]
    exact List.mem_append_left _ hτ
  | clear => exact ⟨τ, hτ, rfl, rfl⟩
  | answer pre post x hrest =>
    rcases List.mem_append.mp hτ with hτ | hτ
    · exact ⟨τ, List.mem_append_left _ hτ, rfl, rfl⟩
    · rcases List.mem_cons.mp hτ with rfl | hτ
      · exact ⟨_, List.mem_append_right _ List.mem_cons_self, rfl, rfl⟩
      · exact ⟨τ, List.mem_append_right _ (List.mem_cons_of_mem _ hτ), rfl, rfl⟩
  | note pre post ha =>
    rcases List.mem_append.mp hτ with hτ | hτ
    · exact ⟨τ, List.mem_append_left _ hτ, rfl, rfl⟩
    · rcases List.mem_cons.mp hτ with rfl | hτ
      · exact ⟨_, List.mem_append_right _ List.mem_cons_self, rfl, rfl⟩
      · exact ⟨τ, List.mem_append_right _ (List.mem_cons_of_mem _ hτ), rfl, rfl⟩

/-- Every entry has an upload. -/
theorem Hook.Reached.begun (h : Hook.Reached host percent l) :
    ∀ i ∈ l.records.map UploadState.id, ∃ τ ∈ l.tasks, τ.origin.id = i := by
  induction h with
  | init => exact fun i hi => absurd hi List.not_mem_nil
  | @step l l' h hs ih =>
    have hkept : ∀ i ∈ l.records.map UploadState.id, ∃ τ ∈ l'.tasks, τ.origin.id = i := by
      intro i hi
      obtain ⟨τ, hτ, rfl⟩ := ih i hi
      obtain ⟨τ', hτ', horigin, -⟩ := hs.keeps hτ
      exact ⟨τ', hτ', congrArg UploadState.id horigin⟩
    cases hs with
    | upload options files hhost hnodup hfresh =>
      intro i hi
      rw [Hook.upload, ids_foldl_start, List.map_append] at hi
      rcases List.mem_append.mp hi with hi | hi
      · exact hkept i hi
      · rw [List.map_map] at hi
        obtain ⟨x, hx, rfl⟩ := List.mem_map.mp hi
        refine ⟨.start (newUpload x.1 x.2.name) (ReactUploads.upload options x.2), ?_, rfl⟩
        rw [Hook.upload, tasks_foldl_start]
        exact List.mem_append_right _ (List.mem_map.mpr ⟨x, hx, rfl⟩)
    | clear => exact fun i hi => absurd hi List.not_mem_nil
    | answer pre post x hrest =>
      rw [ids_change]
      exact hkept
    | note pre post ha =>
      rw [ids_change]
      exact hkept

end Hook

/-! ### What is shown -/

/-- The status a click has set since the upload last set one. -/
def clickStatus (o : Option HookStatus) : Entry UploadStep.Answer (HookAct C) → Option HookStatus
  | .answered _ _ => o
  | .emitted a => if a.status.isSome then none else o
  | .noted a => a.status.orElse fun _ => o

/-- The status set by the clicks after what the upload has set. -/
def clicked (log : List (Entry UploadStep.Answer (HookAct C))) : Option HookStatus :=
  log.foldl clickStatus none

/-- The status after a change. -/
def HookStatus.after (status : HookStatus) (a : HookAct C) : HookStatus := a.status.getD status

/-- The file after a change. -/
def fileAfter (file : Option Json) (a : HookAct C) : Option Json := a.file.orElse fun _ => file

/-- What an entry shows of its upload: while it runs there is no file, and afterwards there is the
file it ended with; the status is that of the upload, unless there was a click after it. -/
def HookTask.Shows (τ : HookTask C) (u : UploadState) : Prop :=
  ∃ options file sent, τ.job = upload options file ∧ u.filename = file.name ∧
    ((τ.transcript = emits [uploading] ++ performed sent ∧
        (∃ r next, Follows (options.upload file) sent (.ask r next)) ∧
        u.file = none ∧ u.status = (clicked τ.log).getD .uploading) ∨
      ∃ out, Runs (options.upload file) sent out ∧
        τ.transcript = emits [uploading] ++ performed sent ++ emits (finalActs options file out) ∧
        u.file = out.toOption ∧ u.status = (clicked τ.log).getD (finalStatus options out))

section Shown

variable {host : Host C} {percent : (loaded total : ℕ) → ℤ} {l : Hook C} {τ : HookTask C}
  {u : UploadState} {options : UseUploadOptions C} {file : BrowserFile}

theorem status_foldl (acts : List (HookAct C)) (u : UploadState) :
    (acts.foldl HookAct.apply u).status = acts.foldl HookStatus.after u.status := by
  induction acts generalizing u with
  | nil => rfl
  | cons a acts ih => cases a <;> exact ih _

theorem file_foldl (acts : List (HookAct C)) (u : UploadState) :
    (acts.foldl HookAct.apply u).file = acts.foldl fileAfter u.file := by
  induction acts generalizing u with
  | nil => rfl
  | cons a acts ih => cases a <;> exact ih _

theorem filename_foldl (acts : List (HookAct C)) (u : UploadState) :
    (acts.foldl HookAct.apply u).filename = u.filename := by
  induction acts generalizing u with
  | nil => rfl
  | cons a acts ih => cases a <;> exact ih _

theorem clicked_concat (log : List (Entry UploadStep.Answer (HookAct C)))
    (e : Entry UploadStep.Answer (HookAct C)) :
    clicked (log ++ [e]) = clickStatus (clicked log) e := List.foldl_append

/-- A click counts until the upload sets a status again. -/
theorem foldl_after_log (log : List (Entry UploadStep.Answer (HookAct C))) (status : HookStatus) :
    (log.filterMap Entry.patch).foldl HookStatus.after status = (clicked log).getD
      ((emitted (log.filterMap Entry.event)).foldl HookStatus.after status) := by
  induction log using List.reverseRecOn with
  | nil => rfl
  | append_singleton log e ih =>
    rw [List.filterMap_append, List.filterMap_append, List.foldl_append, ih, emitted_append,
      List.foldl_append, clicked_concat]
    cases e with
    | answered r x => rfl
    | emitted a =>
      show HookStatus.after _ a = ((if a.status.isSome then none else clicked log) : Option _).getD
        (HookStatus.after _ a)
      cases h : a.status with
      | none => simp [HookStatus.after, h]
      | some status' => simp [HookStatus.after, h]
    | noted a =>
      show HookStatus.after _ a = (a.status.orElse fun _ => clicked log).getD _
      cases h : a.status with
      | none => simp [HookStatus.after, h]; rfl
      | some status' => simp [HookStatus.after, h]

theorem status_view (h : τ.Sound (hookRules percent)) : (τ.view uploadsBoard).status
    = (clicked τ.log).getD ((emitted τ.transcript).foldl HookStatus.after .pending) := by
  have horigin : τ.origin.status = .pending := by rw [show τ.origin = _ from h.fresh]; rfl
  calc (τ.view uploadsBoard).status
      = τ.patches.foldl HookStatus.after τ.origin.status := status_foldl _ _
    _ = τ.patches.foldl HookStatus.after .pending := by rw [horigin]
    _ = _ := foldl_after_log _ _

theorem file_view (h : τ.Sound (hookRules percent)) :
    (τ.view uploadsBoard).file = (emitted τ.transcript).foldl fileAfter none := by
  have horigin : τ.origin.file = none := by rw [show τ.origin = _ from h.fresh]; rfl
  calc (τ.view uploadsBoard).file
      = τ.patches.foldl fileAfter τ.origin.file := file_foldl _ _
    _ = τ.patches.foldl fileAfter none := by rw [horigin]
    _ = _ := by
        refine h.foldl_patches ?_ none
        rintro rest a (⟨_, _, _, _, _, _, -, rfl⟩ | rfl | rfl) file <;> rfl

theorem foldl_acts {S : Type} {f : S → HookAct C → S} (hf : ∀ s c, f s (.call c) = s)
    (x : CallbackEffect C) (s : S) : x.acts.foldl f s = s := by
  obtain ⟨call, thrown⟩ := x
  cases call with
  | none => rfl
  | some c => exact hf s c

theorem status_finalActs (out : Except SdkFailure Json) (status : HookStatus) :
    (finalActs options file out).foldl HookStatus.after status = finalStatus options out := by
  have herror : ∀ error status,
      (errorActs options file error).foldl HookStatus.after status = .failed :=
    fun error status => foldl_acts (fun _ _ => rfl) _ _
  cases out with
  | error error => exact herror error status
  | ok record =>
    rw [finalActs, List.foldl_append, List.foldl_cons, foldl_acts fun _ _ => rfl, finalStatus]
    cases (options.onComplete record).thrown with
    | none => rfl
    | some error => exact herror error _

theorem file_finalActs (out : Except SdkFailure Json) :
    (finalActs options file out).foldl fileAfter none = out.toOption := by
  have herror : ∀ error start, (errorActs options file error).foldl fileAfter start = start :=
    fun error start => foldl_acts (fun _ _ => rfl) _ _
  cases out with
  | error error => exact herror error none
  | ok record =>
    rw [finalActs, List.foldl_append, List.foldl_cons, foldl_acts fun _ _ => rfl]
    cases (options.onComplete record).thrown with
    | none => rfl
    | some error => exact herror error _

/-- An upload asks, or has ended. -/
theorem asks_or_ended (h : τ.Sound (hookRules percent)) (hjob : τ.job = upload options file) :
    (∃ sent r next, τ.transcript = emits [uploading] ++ performed sent ∧
      Follows (options.upload file) sent (.ask r next)) ∨ Ended options file τ.transcript := by
  have hfollows := h.follows
  have hwaits := h.waits
  rw [hjob] at hfollows
  cases hrest : τ.rest with
  | done a =>
    rw [hrest] at hfollows
    exact .inr (upload_ends _ _ hfollows.runs_done)
  | fail e =>
    rw [hrest] at hfollows
    exact .inr (upload_ends _ _ hfollows.runs_fail)
  | ask a next =>
    rw [hrest] at hfollows hwaits
    cases a with
    | emit a => exact hwaits.elim
    | request r =>
      obtain ⟨sent, next', htranscript, hsent⟩ := upload_asks _ _ _ hfollows r rfl
      exact .inl ⟨sent, r, next', htranscript, hsent⟩

theorem shows_view (h : τ.Sound (hookRules percent)) : τ.Shows (τ.view uploadsBoard) := by
  obtain ⟨options, file, hname, hjob⟩ := h.starts
  have hfilename : (τ.view uploadsBoard).filename = file.name :=
    (filename_foldl _ _).trans hname.symm
  rcases asks_or_ended h hjob with ⟨sent, r, next, htranscript, hsent⟩ | ⟨sent, out, hrun, hended⟩
  · refine ⟨options, file, sent, hjob, hfilename, .inl ⟨htranscript, ⟨r, next, hsent⟩, ?_, ?_⟩⟩
    · rw [file_view h, htranscript, emitted_append, emitted_performed, emitted_emits]
      rfl
    · rw [status_view h, htranscript, emitted_append, emitted_performed, emitted_emits]
      rfl
  · have hemitted : emitted τ.transcript = uploading :: finalActs options file out := by
      rw [hended, emitted_append, emitted_append, emitted_performed, emitted_emits, emitted_emits]
      rfl
    refine ⟨options, file, sent, hjob, hfilename, .inr ⟨out, hrun, hended, ?_, ?_⟩⟩
    · rw [file_view h, hemitted, List.foldl_cons]
      exact file_finalActs out
    · rw [status_view h, hemitted, List.foldl_cons, status_finalActs]

/-- **Every entry has one upload, and shows what it has come to**, whatever was clicked. -/
theorem reactUploads_shown (h : Hook.Reached host percent l) (hu : u ∈ l.records) :
    (∃! τ, τ ∈ l.tasks ∧ τ.origin.id = u.id) ∧
      ∀ τ ∈ l.tasks, τ.origin.id = u.id → HookTask.Shows τ u := by
  obtain ⟨τ, hτ, hid⟩ := h.begun u.id (List.mem_map_of_mem hu)
  refine ⟨⟨τ, ⟨hτ, hid⟩, ?_⟩, ?_⟩
  · rintro σ ⟨hσ, hσid⟩
    exact List.inj_on_of_nodup_map h.sound.tasks_nodup hσ hτ (hσid.trans hid.symm)
  · intro σ hσ hσid
    rw [h.sound.shown u hu σ hσ hσid]
    exact shows_view (h.sound.tasks σ hσ)

end Shown

/-! #### A file of one byte -/

/-- A file. -/
def devUpload : BrowserFile := ⟨"a.bin", "", [7]⟩

/-- Options without callbacks. -/
def devOptions : UseUploadOptions Unit where
  folderId := none
  metadata := none
  tags := none
  onComplete _ := {}
  onError _ _ := {}

/-- It was cancelled, and then retried after it had succeeded: it waits forever, with its file. -/
theorem reactUploads_shown_retried :
    ∃ l : Hook Unit, Hook.Reached (fun _ _ => True) (fun _ _ => 0) l ∧
      ∃ u ∈ l.records, u.status = .pending ∧ u.file = some (.str "f1") ∧
        ∃! τ, τ ∈ l.tasks ∧ τ.origin.id = u.id := by
  have hbegun : Hook.Reached (C := Unit) (fun _ _ => True) (fun _ _ => 0)
      ⟨[(newUpload "u1" "a.bin").update { status := some .uploading }],
        [.start (newUpload "u1" "a.bin") (upload devOptions devUpload)]⟩ :=
    .step .init (.upload devOptions [("u1", devUpload)] trivial (by simp) (by simp))
  have hput := hbegun.step
    (.answer [] [] (r := .init _) (.ok ("f1", "https://store/f1")) rfl)
  have hcancelled := hput.step (.note [] [] (.inr (.inl rfl)))
  have hconfirm := hcancelled.step (.answer [] [] (r := .put _ _ _) (.answered 200 none) rfl)
  have hget := hconfirm.step (.answer [] [] (r := .confirm "f1") (.ok ()) rfl)
  have hended := hget.step (.answer [] [] (r := .getFile "f1") (.ok (.str "f1")) rfl)
  have hretried := hended.step (.note [] [] (.inr (.inr rfl)))
  exact ⟨_, hretried, _, List.mem_cons_self, rfl, rfl,
    (reactUploads_shown hretried List.mem_cons_self).1⟩

/-! ### The component -/

/-- The props of `FileUpload` that decide what it does; a callback is what it throws. -/
structure FileUploadProps where
  accept : Option (List String) := none
  maxSize : Option ℕ := none
  maxFiles : ℕ := 10
  folderId : Option String := none
  metadata : Option Fields := none
  tags : Option (List String) := none
  onComplete : Option (List Json → Option SdkFailure) := none
  onError : Option (SdkFailure → String → Option SdkFailure) := none

/-- How the component calls its host. -/
inductive FileUploadCall where
  | onComplete (files : List Json)
  | onError (error : SdkFailure) (filename : String)

/-- `a.replace("/*", "/")`, on characters. -/
def replaceStar : List Char → List Char
  | '/' :: '*' :: cs => '/' :: cs
  | c :: cs => c :: replaceStar cs
  | [] => []

attribute [local simp] replaceStar

/-- `a.endsWith("/*") ? f.type.startsWith(a.replace("/*", "/")) : f.type === a`. -/
def accepts (type a : String) : Bool :=
  if ['/', '*'].isSuffixOf a.toList then (replaceStar a.toList).isPrefixOf type.toList
  else type = a

namespace FileUploadProps

variable (props : FileUploadProps)

/-- The error of `validate` for a file; the size is shown in MB, rounded. -/
def refusal (f : BrowserFile) : Option String :=
  if (props.maxSize.filter fun size => size ≠ 0 ∧ size < f.data.length).isSome then
    some (f.name ++ " exceeds maximum size of " ++
      toString ((props.maxSize.getD 0 + 524288) / 1048576) ++ " MB")
  else if (props.accept.getD []).isEmpty || (props.accept.getD []).any (accepts f.type) then none
  else some (f.name ++ " has unsupported file type")

/-- The files that `validate` lets through, of the first `maxFiles`. -/
def handed (files : List BrowserFile) : List BrowserFile :=
  (files.take props.maxFiles).filter fun f => (props.refusal f).isNone

/-- The errors `onValidationError` is called with. -/
def refusals (files : List BrowserFile) : List String :=
  (files.take props.maxFiles).filterMap props.refusal

/-- `uploads.filter((u) => u.status === "success")`. -/
def successes (uploads : List UploadState) : List UploadState :=
  uploads.filter fun u => u.status = .success

/-- `.filter((u) => u.status === "success" && u.file).map((u) => u.file)`; a record is an
object. -/
def completed (uploads : List UploadState) : List Json := (successes uploads).filterMap (·.file)

/-- The options `FileUpload` gives to `useUpload`, in a render that shows these uploads. -/
def useUpload (uploads : List UploadState) : UseUploadOptions FileUploadCall where
  folderId := props.folderId
  metadata := props.metadata
  tags := props.tags
  onComplete record :=
    if (successes uploads).length + 1 = uploads.length then
      let files := completed uploads ++ [record]
      ⟨props.onComplete.map fun _ => .onComplete files, props.onComplete.bind fun f => f files⟩
    else {}
  onError error filename :=
    ⟨props.onError.map fun _ => .onError error filename,
      props.onError.bind fun f => f error filename⟩

/-- Of the first `maxFiles` each is handed over, or refused with a message. -/
theorem length_handed_add_refusals (files : List BrowserFile) :
    (props.handed files).length + (props.refusals files).length
      = min props.maxFiles files.length := by
  rw [← List.length_take, handed, refusals]
  induction files.take props.maxFiles with
  | nil => rfl
  | cons f fs ih =>
    rw [List.filter_cons, List.filterMap_cons]
    cases props.refusal f with
    | none =>
      show (f :: _).length + (fs.filterMap props.refusal).length = (f :: fs).length
      rw [List.length_cons, List.length_cons, ← ih]
      exact Nat.add_right_comm _ _ _
    | some message =>
      show _ + (message :: _).length = (f :: fs).length
      rw [List.length_cons, List.length_cons, ← ih]
      exact (Nat.add_assoc _ _ _).symm

end FileUploadProps

/-- `handleFiles`, with callbacks of a render that shows some uploads. -/
def fileUpload : Host FileUploadCall := fun options files =>
  ∃ (props : FileUploadProps) (shown : List UploadState) (dropped : List BrowserFile),
    options = props.useUpload shown ∧ files = props.handed dropped ∧ files ≠ []

section Component

variable {C : Type} {host : Host C} {percent : (loaded total : ℕ) → ℤ}

/-- Uploads that have begun keep what they are to do, whatever happens. -/
theorem keeps_run {l l' : Hook C} {τ : HookTask C}
    (hrun : Relation.ReflTransGen (Hook.Step host percent) l l') (hτ : τ ∈ l.tasks) :
    ∃ τ' ∈ l'.tasks, τ'.origin = τ.origin ∧ τ'.job = τ.job := by
  induction hrun with
  | refl => exact ⟨τ, hτ, rfl, rfl⟩
  | tail _ hs ih =>
    obtain ⟨σ, hσ, horigin, hjob⟩ := ih
    obtain ⟨τ', hτ', horigin', hjob'⟩ := hs.keeps hσ
    exact ⟨τ', hτ', horigin'.trans horigin, hjob'.trans hjob⟩

theorem reached_run {l l' : Hook C} (h : Hook.Reached host percent l)
    (hrun : Relation.ReflTransGen (Hook.Step host percent) l l') :
    Hook.Reached host percent l' := by
  induction hrun with
  | refl => exact h
  | tail _ hs ih => exact .step ih hs

/-- What the component calls its host with at the end of an upload. -/
theorem onComplete_mem_iff {props : FileUploadProps} {shown : List UploadState}
    {file : BrowserFile} {out : Except SdkFailure Json} {files : List Json} :
    .call (.onComplete files) ∈ finalActs (props.useUpload shown) file out ↔
      ∃ record, out = .ok record ∧ props.onComplete.isSome = true ∧
        (FileUploadProps.successes shown).length + 1 = shown.length ∧
        files = FileUploadProps.completed shown ++ [record] := by
  have herror : ∀ error,
      .call (.onComplete files) ∉ errorActs (props.useUpload shown) file error := by
    intro error h
    rcases List.mem_cons.mp h with h | h
    · cases h
    · cases honError : props.onError <;>
        simp [FileUploadProps.useUpload, CallbackEffect.acts, honError] at h
  cases out with
  | error error => exact iff_of_false (herror error) (by simp)
  | ok record =>
    have hthrown : .call (.onComplete files) ∉
        ((props.useUpload shown).onComplete record).thrown.elim []
          (errorActs (props.useUpload shown) file) := by
      cases ((props.useUpload shown).onComplete record).thrown with
      | none => exact List.not_mem_nil
      | some error => exact herror error
    rw [finalActs, List.mem_append, or_iff_left hthrown]
    simp only [FileUploadProps.useUpload, succeeded]
    split
    · rename_i hcount
      cases honComplete : props.onComplete <;>
        simp [CallbackEffect.acts, hcount]
    · rename_i hcount
      simp [CallbackEffect.acts, hcount]

/-- **The component says that everything is uploaded** when an upload succeeds, and of the uploads
that were shown when its file was handed over all but one had. -/
theorem fileUpload_completes {props : FileUploadProps} {shown : List UploadState}
    {files : List (String × BrowserFile)} {l l' : Hook FileUploadCall}
    (h : Hook.Reached fileUpload percent l)
    (hs : Hook.Step fileUpload percent l (l.upload (props.useUpload shown) files))
    (hrun : Relation.ReflTransGen (Hook.Step fileUpload percent)
      (l.upload (props.useUpload shown) files) l')
    {x : String × BrowserFile} (hx : x ∈ files) :
    ∃ τ ∈ l'.tasks, τ.origin.id = x.1 ∧ ∀ completed,
      .call (.onComplete completed) ∈ emitted τ.transcript ↔
        ∃ sent record, Runs ((props.useUpload shown).upload x.2) sent (.ok record) ∧
          τ.transcript = emits [uploading] ++ performed sent ++
            emits (finalActs (props.useUpload shown) x.2 (.ok record)) ∧
          props.onComplete.isSome = true ∧
          (FileUploadProps.successes shown).length + 1 = shown.length ∧
          completed = FileUploadProps.completed shown ++ [record] := by
  have hbegun : Task.start (newUpload x.1 x.2.name) (upload (props.useUpload shown) x.2)
      ∈ (l.upload (props.useUpload shown) files).tasks := by
    rw [Hook.upload, tasks_foldl_start]
    exact List.mem_append_right _ (List.mem_map.mpr ⟨x, hx, rfl⟩)
  obtain ⟨τ, hτ, horigin, hjob⟩ := keeps_run hrun hbegun
  refine ⟨τ, hτ, by rw [horigin]; rfl, fun completed => ⟨fun hcall => ?_, ?_⟩⟩
  · have hsound := (reached_run (h.step hs) hrun).sound.tasks τ hτ
    rcases asks_or_ended hsound hjob with ⟨sent, r, next, hsent, -⟩ | ⟨sent, out, hout, hended⟩
    · rw [hsent, emitted_append, emitted_performed, emitted_emits] at hcall
      rcases List.mem_singleton.mp hcall
    · rw [hended, emitted_append, emitted_append, emitted_performed, emitted_emits, emitted_emits]
        at hcall
      rcases List.mem_cons.mp hcall with hcall | hcall
      · cases hcall
      · obtain ⟨record, rfl, hhost, hcount, hcompleted⟩ := onComplete_mem_iff.mp hcall
        exact ⟨sent, record, hout, hended, hhost, hcount, hcompleted⟩
  · rintro ⟨sent, record, -, hended, hhost, hcount, hcompleted⟩
    rw [hended, emitted_append, emitted_emits]
    exact List.mem_append_right _ (onComplete_mem_iff.mpr ⟨record, rfl, hhost, hcount, hcompleted⟩)

/-- Props with a callback. -/
def devProps : FileUploadProps where
  onComplete := some fun _ => none

/-- A file is on its way. -/
def firstUpload : Hook FileUploadCall :=
  Hook.upload (devProps.useUpload []) [("u0", devUpload)] ⟨[], []⟩

/-- A second file is handed over meanwhile: only of that one the component tells. -/
theorem fileUpload_completes_second :
    ∃ l : Hook FileUploadCall, Hook.Reached fileUpload (fun _ _ => 0) l ∧
      ∃ τ ∈ l.tasks, τ.origin.id = "u1" ∧
        .call (.onComplete [.str "f1"]) ∈ emitted τ.transcript := by
  have hfirst : Hook.Reached fileUpload (fun _ _ => 0) firstUpload :=
    .step .init (.upload _ _ ⟨devProps, [], [devUpload], rfl, rfl, List.cons_ne_nil _ _⟩
      (by simp) (by simp))
  have hs : Hook.Step fileUpload (fun _ _ => 0) firstUpload
      (firstUpload.upload (devProps.useUpload firstUpload.records) [("u1", devUpload)]) := by
    refine .upload _ _ ⟨devProps, _, [devUpload], rfl, rfl, List.cons_ne_nil _ _⟩ (by simp) ?_
    refine List.forall_mem_singleton.mpr ⟨by decide, List.forall_mem_singleton.mpr ?_⟩
    exact show "u0" ≠ "u1" by decide
  have hrun : Relation.ReflTransGen (Hook.Step fileUpload fun _ _ => 0)
      (firstUpload.upload (devProps.useUpload firstUpload.records) [("u1", devUpload)]) _ := .refl
  have hput := hrun.tail
    (.answer [_] [] (r := .init _) (.ok ("f1", "https://store/f1")) rfl)
  have hconfirm := hput.tail (.answer [_] [] (r := .put _ _ _) (.answered 200 none) rfl)
  have hget := hconfirm.tail (.answer [_] [] (r := .confirm "f1") (.ok ()) rfl)
  have hended := hget.tail (.answer [_] [] (r := .getFile "f1") (.ok (.str "f1")) rfl)
  obtain ⟨τ, hτ, hid, hiff⟩ := fileUpload_completes hfirst hs hended List.mem_cons_self
  refine ⟨_, reached_run (hfirst.step hs) hended, τ, hτ, hid, (hiff _).mpr ?_⟩
  rcases List.mem_cons.mp hτ with rfl | hτ
  · exact absurd hid (show "u0" ≠ "u1" by decide)
  · obtain rfl := List.mem_singleton.mp hτ
    refine ⟨[⟨.init _, .ok ("f1", "https://store/f1")⟩, ⟨.put _ _ _, .answered 200 none⟩,
      ⟨.confirm "f1", .ok ()⟩, ⟨.getFile "f1", .ok (.str "f1")⟩], _, ?_, rfl, rfl, rfl, rfl⟩
    exact .ask _ _ _ (.ask _ _ _ (.ask _ _ _ (.ask _ _ _ (.done _))))

end Component

end ReactUploads
end FileNest
