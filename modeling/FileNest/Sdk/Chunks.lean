import FileNest.Sdk.ConfirmAfterPut

/-!
# The parts of a multipart upload

Four loops cut a file into parts of five mebibytes: two of the Node SDK, one of the Python SDK
and one of the web console.  Where every request is granted they send the parts they cut,
numbered from 1, and complete with the ETags they got.  They cut alike, but for the empty file:
there only the Python loop sends a part.

## Main definitions

* `Granted` — every call of the backend succeeds, and every PUT is answered 2xx with an ETag.
* `Sent` — the parts a transcript sends.
* `UploadsInParts` — an upload of the data in numbered parts that is completed with their ETags.
* `ChunkingClient` — the four loops.

## Main results

* `ChunkingClient.delivers` — what each loop sends.
* `chunks_agree_iff` — **the four upload in parts, and the same parts, exactly if there is a byte.**
-/

namespace FileNest

open Exchange Pieces

/-! ### Transcripts of parts -/

/-- The ETag of the answer. -/
def PutAnswer.etag : PutAnswer → Option String
  | unreachable => none
  | answered _ etag => etag

namespace UploadEvent

/-- The number a URL is asked for. -/
def partNumber? : UploadEvent → Option ℕ
  | ⟨.partUrl _ part, _⟩ => some part
  | _ => none

/-- The URL that is answered. -/
def partUrl? : UploadEvent → Option String
  | ⟨.partUrl _ _, .ok url⟩ => some url
  | _ => none

/-- What is put, and the ETag of the answer. -/
def put? : UploadEvent → Option (String × List UInt8 × Option String)
  | ⟨.put url data _, answer⟩ => some (url, data, PutAnswer.etag answer)
  | _ => none

/-- What the upload is completed with. -/
def complete? : UploadEvent → Option (List UploadedPart)
  | ⟨.complete _ parts, _⟩ => some parts
  | _ => none

/-- A call that succeeds, or a PUT that is answered 2xx with an ETag. -/
def granted : UploadEvent → Bool
  | ⟨.init _, .error _⟩ | ⟨.start _, .error _⟩ | ⟨.partUrl _ _, .error _⟩ => false
  | ⟨.confirm _, .error _⟩ | ⟨.complete _ _, .error _⟩ | ⟨.getFile _, .error _⟩ => false
  | ⟨.put _ _ _, .answered status (some etag)⟩ =>
    decide (200 ≤ status ∧ status ≤ 299) && unquote etag != ""
  | ⟨.put _ _ _, _⟩ => false
  | _ => true

end UploadEvent

/-- Everything that was asked was granted. -/
def Granted (t : UploadTranscript) : Prop := ∀ e ∈ t, UploadEvent.granted e = true

theorem granted_append {t t' : UploadTranscript} : Granted (t ++ t') ↔ Granted t ∧ Granted t' := by
  simp only [Granted, List.mem_append, or_imp, forall_and]

/-- The bytes that are put, in order. -/
def bodies (t : UploadTranscript) : List (List UInt8) :=
  (t.filterMap UploadEvent.put?).map fun p => p.2.1

/-- A client sends the ETag of an answer, with its quotes or without. -/
def SendsTag (tag : String) (etag : Option String) : Prop :=
  etag = some tag ∨ ∃ raw, etag = some raw ∧ tag = unquote raw

/-- The transcript puts the chunks, each to the URL for its number, and these are the parts to
complete the upload with. -/
structure Sent (t : UploadTranscript) (chunks : List (List UInt8)) (parts : List UploadedPart) :
    Prop where
  bodies_eq : bodies t = chunks
  asked : t.filterMap UploadEvent.partNumber? = List.range' 1 chunks.length
  urls : (t.filterMap UploadEvent.put?).map Prod.fst = t.filterMap UploadEvent.partUrl?
  numbers : parts.map UploadedPart.partNumber = List.range' 1 chunks.length
  etags : List.Forall₂ (fun part put => SendsTag part.etag put.2.2) parts
    (t.filterMap UploadEvent.put?)

/-- The transcript sends the chunks, and completes the upload once, with their parts. -/
def Delivers (t : UploadTranscript) (chunks : List (List UInt8)) : Prop :=
  ∃ parts, Sent t chunks parts ∧ t.filterMap UploadEvent.complete? = [parts]

/-- The upload sends the data in at least one part, numbered from 1, each but the last of
`chunkSize` bytes, and is completed with these numbers and the ETags of the answers. -/
def UploadsInParts (data : List UInt8) (t : UploadTranscript) : Prop :=
  IsCut chunkSize data (bodies t) ∧ Delivers t (bodies t)

theorem Delivers.bodies_eq {t : UploadTranscript} {chunks : List (List UInt8)}
    (h : Delivers t chunks) : bodies t = chunks := by
  obtain ⟨parts, hsent, -⟩ := h
  exact hsent.bodies_eq

theorem Delivers.uploadsInParts_iff {data : List UInt8} {t : UploadTranscript}
    {chunks : List (List UInt8)} (h : Delivers t chunks) :
    UploadsInParts data t ↔ IsCut chunkSize data chunks := by
  obtain rfl := h.bodies_eq
  exact and_iff_left h

/-! ### The loop -/

section Loop

variable {t t' : UploadTranscript} {chunks : List (List UInt8)} {parts : List UploadedPart}
  {put : String → List UInt8 → Option String → ClientUpload String}

theorem Sent.nil : Sent [] [] [] := ⟨rfl, rfl, rfl, rfl, .nil⟩

/-- One more part. -/
theorem Sent.snoc (h : Sent t chunks parts) (uploadId url : String) (chunk : List UInt8)
    (contentType : Option String) (status : ℕ) {etag tag : String}
    (htag : SendsTag tag (some etag)) :
    Sent (t ++ [⟨.partUrl uploadId (chunks.length + 1), .ok url⟩,
        ⟨.put url chunk contentType, .answered status (some etag)⟩])
      (chunks ++ [chunk]) (parts ++ [⟨chunks.length + 1, tag⟩]) where
  bodies_eq := by
    rw [bodies, List.filterMap_append, List.map_append, ← bodies, h.bodies_eq]
    rfl
  asked := by
    rw [List.filterMap_append, h.asked, List.length_append, List.length_singleton,
      ← List.range'_append_1, Nat.add_comm chunks.length 1]
    rfl
  urls := by
    rw [List.filterMap_append, List.filterMap_append, List.map_append, h.urls]
    rfl
  numbers := by
    rw [List.map_append, h.numbers, List.length_append, List.length_singleton,
      ← List.range'_append_1, Nat.add_comm chunks.length 1]
    rfl
  etags := by
    rw [List.filterMap_append]
    exact List.rel_append h.etags (.cons htag .nil)

/-- A PUT that is granted leaves the tag to send for the part. -/
def PutsPart (put : String → List UInt8 → Option String → ClientUpload String) : Prop :=
  ∀ url data contentType, Ensures (put url data contentType)
    (fun t tag => Granted t → ∃ status etag, SendsTag tag (some etag) ∧
      t = [⟨.put url data contentType, .answered status (some etag)⟩])
    (fun t _ => ¬Granted t)

theorem not_granted {e : UploadEvent} (h : UploadEvent.granted e = false) : ¬Granted [e] := by
  intro hgranted
  rw [hgranted e (List.mem_singleton_self e)] at h
  cases h

theorem nodePut_putsPart : PutsPart nodePut := by
  intro url data contentType
  refine .ask fun x => ?_
  cases x with
  | unreachable => exact .fail (not_granted rfl)
  | answered status etag =>
    cases etag with
    | none => exact .done fun h => absurd h (not_granted rfl)
    | some etag => exact .done fun _ => ⟨status, etag, .inl rfl, rfl⟩

theorem pythonPut_putsPart : PutsPart pythonPut := by
  intro url data contentType
  refine .ask fun x => ?_
  cases x with
  | unreachable => exact .fail (not_granted rfl)
  | answered status etag =>
    by_cases hok : 200 ≤ status ∧ status ≤ 299
    · simp only [if_pos hok]
      cases etag with
      | none => exact .done fun h => absurd h (not_granted rfl)
      | some etag => exact .done fun _ => ⟨status, etag, .inl rfl, rfl⟩
    · simp only [if_neg hok]
      refine .fail (not_granted ?_)
      cases etag with
      | none => rfl
      | some etag => simp [UploadEvent.granted, hok]

theorem webPut_putsPart : PutsPart webPut := by
  intro url data contentType
  refine .ask fun x => ?_
  cases x with
  | unreachable => exact .fail (not_granted rfl)
  | answered status etag =>
    by_cases hok : 200 ≤ status ∧ status < 300
    · simp only [if_pos hok]
      by_cases htag : unquote (etag.getD "") = ""
      · simp only [if_pos htag]
        refine .fail (not_granted ?_)
        cases etag with
        | none => rfl
        | some etag => simpa [UploadEvent.granted] using fun _ _ => htag
      · simp only [if_neg htag]
        cases etag with
        | none => exact .done fun h => absurd h (not_granted rfl)
        | some etag => exact .done fun _ => ⟨status, etag, .inr ⟨etag, rfl, rfl⟩, rfl⟩
    · simp only [if_neg hok]
      refine .fail (not_granted ?_)
      have hok' : ¬(200 ≤ status ∧ status ≤ 299) := fun h => hok ⟨h.1, Nat.lt_succ_of_le h.2⟩
      cases etag with
      | none => rfl
      | some etag => simp [UploadEvent.granted, hok']

theorem Granted.of_cons {e : UploadEvent} (h : Granted (e :: t)) : Granted t :=
  fun e' he' => h e' (List.mem_cons_of_mem e he')

theorem getPartUrl_sends (uploadId : String) (part : ℕ) : Ensures (getPartUrl uploadId part)
    (fun t url => t = [⟨.partUrl uploadId part, .ok url⟩]) (fun t _ => ¬Granted t) := by
  refine .ask fun x => ?_
  cases x with
  | error e => exact .fail (not_granted rfl)
  | ok url => exact .done rfl

/-- A round of the loop adds its part. -/
theorem uploadPart_sends (hput : PutsPart put) (uploadId : String) (contentType : Option String)
    (i : ℕ) (chunk : List UInt8) : Ensures (uploadPart put uploadId contentType i chunk)
      (fun t part => Granted t → ∃ url status etag tag, SendsTag tag (some etag) ∧
        part = ⟨i + 1, tag⟩ ∧ t = [⟨.partUrl uploadId (i + 1), .ok url⟩,
          ⟨.put url chunk contentType, .answered status (some etag)⟩])
      (fun t _ => ¬Granted t) := by
  refine .bind _ (getPartUrl_sends uploadId (i + 1)) ?_
  rintro _ url rfl
  refine .bind (fun t tag => Granted t → ∃ status etag, SendsTag tag (some etag) ∧
    t = [⟨.put url chunk contentType, .answered status (some etag)⟩]) ?_ ?_
  · refine (hput url chunk contentType).mono (fun _ _ h => h) fun t e h hgranted => ?_
    exact h (granted_append.mp hgranted).2
  · intro t tag ht
    refine .done fun hgranted => ?_
    rw [List.append_nil] at hgranted ⊢
    obtain ⟨status, etag, htag, rfl⟩ := ht (granted_append.mp hgranted).2
    exact ⟨url, status, etag, tag, htag, rfl, rfl⟩

/-- **The loop sends the chunks.** -/
theorem uploadParts_sends (hput : PutsPart put) (uploadId : String) (contentType : Option String)
    (chunks : List (List UInt8)) : Ensures (uploadParts put uploadId contentType chunks)
      (fun t parts => Granted t →
        Sent t chunks parts ∧ t.filterMap UploadEvent.complete? = [])
      (fun t _ => ¬Granted t) := by
  have hloop : Ensures (uploadParts put uploadId contentType chunks)
      (fun t parts => Granted t → Sent t (chunks.take chunks.length) parts ∧
        t.filterMap UploadEvent.complete? = [])
      (fun t _ => ¬Granted t) := by
    refine Ensures.each (fun j t parts => Granted t → Sent t (chunks.take j) parts ∧
      t.filterMap UploadEvent.complete? = []) (fun _ => ⟨.nil, rfl⟩) ?_
    intro j chunk t parts hchunk hinv
    rw [Nat.zero_add]
    refine (uploadPart_sends hput uploadId contentType j chunk).mono ?_ ?_
    · intro t' part hround hgranted
      have hsplit := granted_append.mp hgranted
      obtain ⟨url, status, etag, tag, htag, rfl, rfl⟩ := hround hsplit.2
      obtain ⟨hsent, hcomplete⟩ := hinv hsplit.1
      have hj : j < chunks.length := (List.getElem?_eq_some_iff.mp hchunk).1
      have hlength : (chunks.take j).length = j := List.length_take_of_le hj.le
      have htake : chunks.take (j + 1) = chunks.take j ++ [chunk] := by
        rw [List.take_add_one, hchunk]
        rfl
      constructor
      · rw [htake]
        have hsnoc := hsent.snoc uploadId url chunk contentType status htag
        rwa [hlength] at hsnoc
      · rw [List.filterMap_append, hcomplete]
        rfl
    · intro t' e herr hgranted
      exact herr (granted_append.mp hgranted).2
  rwa [List.take_length] at hloop

/-- Nothing is put after the parts. -/
theorem Sent.append (h : Sent t chunks parts) (hasked : t'.filterMap UploadEvent.partNumber? = [])
    (hurls : t'.filterMap UploadEvent.partUrl? = []) (hputs : t'.filterMap UploadEvent.put? = []) :
    Sent (t ++ t') chunks parts where
  bodies_eq := by
    rw [bodies, List.filterMap_append, hputs, List.append_nil]
    exact h.bodies_eq
  asked := by rw [List.filterMap_append, hasked, List.append_nil, h.asked]
  urls := by
    rw [List.filterMap_append, List.filterMap_append, hputs, hurls, List.append_nil,
      List.append_nil, h.urls]
  numbers := h.numbers
  etags := by
    rw [List.filterMap_append, hputs, List.append_nil]
    exact h.etags

/-- The completion, with the parts that were sent. -/
theorem completeUpload_delivers (uploadId : String) (hsent : Sent t chunks parts)
    (hcomplete : t.filterMap UploadEvent.complete? = []) :
    Ensures (completeUpload uploadId parts) (fun t' _ => Delivers (t ++ t') chunks)
      (fun t' _ => ¬Granted t') := by
  refine .ask fun x => ?_
  cases x with
  | error e => exact .fail (not_granted rfl)
  | ok fileId =>
    refine .done ⟨parts, hsent.append rfl rfl rfl, ?_⟩
    rw [List.filterMap_append, hcomplete]
    rfl

/-- The loop and the completion send the chunks, and what is asked afterwards sends nothing. -/
theorem delivers_of_complete {α : Type} (hput : PutsPart put) (uploadId : String)
    (contentType : Option String) (chunks : List (List UInt8)) {rest : String → ClientUpload α}
    (hrest : ∀ fileId, Ensures (rest fileId)
      (fun t _ => ∀ u, Delivers u chunks → Delivers (u ++ t) chunks) (fun t _ => ¬Granted t)) :
    Ensures (uploadParts put uploadId contentType chunks >>= fun parts =>
        completeUpload uploadId parts >>= rest)
      (fun t _ => Granted t → Delivers t chunks) (fun t _ => ¬Granted t) := by
  refine .bind _ (uploadParts_sends hput uploadId contentType chunks) fun t parts hloop => ?_
  by_cases hgranted : Granted t
  · obtain ⟨hsent, hcomplete⟩ := hloop hgranted
    refine .bind _ ((completeUpload_delivers uploadId hsent hcomplete).mono (fun _ _ h => h) ?_) ?_
    · intro t' e herr hall
      exact herr (granted_append.mp hall).2
    · intro t' fileId hdelivers
      refine (hrest fileId).mono (fun t'' _ hkeeps _ => ?_) fun t'' e herr hall => ?_
      · rw [← List.append_assoc]
        exact hkeeps _ hdelivers
      · exact herr (granted_append.mp (granted_append.mp hall).2).2
  · intro t' out _
    cases out with
    | ok a => exact fun hall => absurd (granted_append.mp hall).1 hgranted
    | error e => exact fun hall => hgranted (granted_append.mp hall).1

theorem delivers_nil (u : UploadTranscript) (h : Delivers u chunks) :
    Delivers (u ++ []) chunks := by
  rwa [List.append_nil]

theorem fetchFile_delivers (fileId : String) : Ensures (fetchFile fileId)
    (fun t _ => ∀ u, Delivers u chunks → Delivers (u ++ t) chunks) (fun t _ => ¬Granted t) := by
  refine .ask fun x => ?_
  cases x with
  | error e => exact .fail (not_granted rfl)
  | ok file =>
    refine .done ?_
    rintro u ⟨parts, hsent, hcomplete⟩
    refine ⟨parts, hsent.append rfl rfl rfl, ?_⟩
    rw [List.filterMap_append, hcomplete]
    rfl

theorem uploadAndComplete_delivers (hput : PutsPart put) (uploadId : String)
    (contentType : Option String) (chunks : List (List UInt8)) :
    Ensures (uploadAndComplete put uploadId contentType chunks)
      (fun t _ => Granted t → Delivers t chunks) (fun t _ => ¬Granted t) :=
  delivers_of_complete hput uploadId contentType chunks fetchFile_delivers

/-- The registration of the upload sends nothing. -/
theorem startUpload_delivers {α : Type} (body : UploadBody) {p : String → ClientUpload α}
    (hp : ∀ uploadId, Ensures (p uploadId) (fun t _ => Granted t → Delivers t chunks)
      (fun t _ => ¬Granted t)) :
    Ensures (startUpload body >>= p) (fun t _ => Granted t → Delivers t chunks)
      (fun t _ => ¬Granted t) := by
  refine .ask fun x => ?_
  cases x with
  | error e => exact .fail (not_granted rfl)
  | ok uploadId =>
    refine (hp uploadId).mono (fun t _ h hgranted => ?_) fun t e herr hgranted => ?_
    · obtain ⟨parts, hsent, hcomplete⟩ := h hgranted.of_cons
      have hsent' : Sent (⟨.start body, .ok uploadId⟩ :: t) chunks parts :=
        ⟨hsent.bodies_eq, hsent.asked, hsent.urls, hsent.numbers, hsent.etags⟩
      exact ⟨parts, hsent', hcomplete⟩
    · exact herr hgranted.of_cons

end Loop

/-! ### The clients -/

/-- The loops that cut a file. -/
inductive ChunkingClient where
  | nodeResume
  | nodeMultipart
  | pythonResume
  | webConsole

namespace ChunkingClient

/-- The chunks of a loop. -/
def chunks (data : List UInt8) : ChunkingClient → List (List UInt8)
  | nodeResume | nodeMultipart => pieces chunkSize (NodeUploads.totalChunks data) data
  | pythonResume => pieces chunkSize (PythonUploads.totalChunks data) data
  | webConsole => WebConsole.chunks data

/-- The transcript is that of an upload of the data. -/
def Uploads (data : List UInt8) (t : UploadTranscript) : ChunkingClient → Prop
  | nodeResume => ∃ uploadId out, Runs (NodeUploads.resume uploadId data) t out
  | nodeMultipart => ∃ options out, Runs (NodeFiles.multipartUpload options data) t out
  | pythonResume => ∃ uploadId out, Runs (PythonUploads.resume uploadId data) t out
  | webConsole => ∃ name type options out,
      Runs (WebConsole.uploadMultipart ⟨name, type, data⟩ options) t out

end ChunkingClient

section Clients

variable {data : List UInt8}

theorem NodeUploads.totalChunks_eq : NodeUploads.totalChunks data = data.length ⌈/⌉ chunkSize := rfl

theorem PythonUploads.totalChunks_eq :
    PythonUploads.totalChunks data = max 1 (data.length ⌈/⌉ chunkSize) := by
  unfold PythonUploads.totalChunks
  rw [Nat.ceilDiv_eq_add_pred_div]
  unfold chunkSize
  omega

theorem WebConsole.chunks_eq :
    WebConsole.chunks data = pieces chunkSize (data.length ⌈/⌉ chunkSize) data := by
  unfold WebConsole.chunks
  simp only [slice_min_length]
  rfl

namespace ChunkingClient

/-- **The Python loop cuts every file; the others every file but the empty one.** -/
theorem isCut_chunks_iff (c : ChunkingClient) :
    IsCut chunkSize data (c.chunks data) ↔ c = pythonResume ∨ data ≠ [] := by
  have hsize : 0 < chunkSize := by decide
  have hceil : IsCut chunkSize data (pieces chunkSize (data.length ⌈/⌉ chunkSize) data)
      ↔ data ≠ [] := isCut_ceilDiv_iff hsize
  cases c with
  | nodeResume | nodeMultipart => simpa [chunks, NodeUploads.totalChunks_eq] using hceil
  | webConsole => simpa [chunks, WebConsole.chunks_eq] using hceil
  | pythonResume =>
    have hmax := isCut_max_ceilDiv hsize data
    rw [← PythonUploads.totalChunks_eq] at hmax
    exact iff_of_true hmax (.inl rfl)

/-- The loops cut a file that is not empty alike. -/
theorem chunks_eq_pieces (c : ChunkingClient) (hdata : data ≠ []) :
    c.chunks data = pieces chunkSize (data.length ⌈/⌉ chunkSize) data := by
  cases c with
  | nodeResume | nodeMultipart => rfl
  | webConsole => exact WebConsole.chunks_eq
  | pythonResume =>
    have hpos : 0 < data.length ⌈/⌉ chunkSize := ceilDiv_pos (by decide) hdata
    show pieces chunkSize (PythonUploads.totalChunks data) data = _
    rw [PythonUploads.totalChunks_eq, max_eq_right hpos]

/-- **What each loop sends when everything is granted.** -/
theorem delivers (c : ChunkingClient) {t : UploadTranscript} (h : c.Uploads data t)
    (hgranted : Granted t) : Delivers t (c.chunks data) := by
  have hdelivers {α : Type} {p : ClientUpload α} {out : Except SdkFailure α}
      (hp : Ensures p (fun t _ => Granted t → Delivers t (c.chunks data)) (fun t _ => ¬Granted t))
      (hrun : Runs p t out) : Delivers t (c.chunks data) := by
    have hpost := hp t out hrun
    cases out with
    | ok a => exact hpost hgranted
    | error e => exact absurd hgranted hpost
  cases c with
  | nodeResume =>
    obtain ⟨uploadId, out, hrun⟩ := h
    exact hdelivers (uploadAndComplete_delivers nodePut_putsPart uploadId none _) hrun
  | nodeMultipart =>
    obtain ⟨options, out, hrun⟩ := h
    refine hdelivers (startUpload_delivers _ fun uploadId => ?_) hrun
    exact uploadAndComplete_delivers nodePut_putsPart uploadId none _
  | pythonResume =>
    obtain ⟨uploadId, out, hrun⟩ := h
    exact hdelivers (uploadAndComplete_delivers pythonPut_putsPart uploadId none _) hrun
  | webConsole =>
    obtain ⟨name, type, options, out, hrun⟩ := h
    refine hdelivers (startUpload_delivers _ fun uploadId => ?_) hrun
    refine .rescue (fun t _ => ¬Granted t) ?_ ?_
    · exact delivers_of_complete webPut_putsPart uploadId _ _ fun _ => .done delivers_nil
    · intro t e ht
      refine .ask fun x => .fail fun hall => ?_
      exact ht (granted_append.mp hall).1

end ChunkingClient

/-- **The four loops upload the file in parts, and in the same parts, exactly if it is not
empty.** -/
theorem chunks_agree_iff {t : ChunkingClient → UploadTranscript}
    (hruns : ∀ c : ChunkingClient, c.Uploads data (t c)) (hgranted : ∀ c, Granted (t c)) :
    ((∀ c, UploadsInParts data (t c)) ∧ ∀ c c', bodies (t c) = bodies (t c')) ↔ data ≠ [] := by
  have hdelivers (c : ChunkingClient) : Delivers (t c) (c.chunks data) :=
    c.delivers (hruns c) (hgranted c)
  constructor
  · rintro ⟨hparts, -⟩
    have hcut := (hdelivers .nodeResume).uploadsInParts_iff.mp (hparts .nodeResume)
    exact ((ChunkingClient.isCut_chunks_iff .nodeResume).mp hcut).resolve_left fun h => by cases h
  · intro hdata
    constructor
    · intro c
      rw [(hdelivers c).uploadsInParts_iff, c.isCut_chunks_iff]
      exact .inr hdata
    · intro c c'
      rw [(hdelivers c).bodies_eq, (hdelivers c').bodies_eq, c.chunks_eq_pieces hdata,
        c'.chunks_eq_pieces hdata]

/-- A backend and a store that grant everything. -/
def grant : (r : UploadStep) → UploadStep.Answer r
  | .init _ => .ok ("f1", "https://store/f1")
  | .start _ => .ok "u1"
  | .partUrl _ part => .ok ("https://store/f1?part=" ++ toString part)
  | .put _ _ _ => .answered 200 (some "\"1\"")
  | .confirm _ => .ok ()
  | .complete _ _ => .ok "f1"
  | .getFile _ => .ok .null
  | .abort _ => .ok ()

theorem granted_grant (r : UploadStep) : UploadEvent.granted ⟨r, grant r⟩ = true := by
  cases r <;> rfl

/-- Every loop has an upload of the data in which everything is granted. -/
theorem ChunkingClient.exists_granted (c : ChunkingClient) (data : List UInt8) :
    ∃ t, c.Uploads data t ∧ Granted t := by
  have hgrant {α : Type} (p : ClientUpload α) : ∃ t out, Runs p t out ∧ Granted t :=
    exists_runs grant granted_grant p
  cases c with
  | nodeResume =>
    obtain ⟨t, out, hrun, hgranted⟩ := hgrant (NodeUploads.resume "u1" data)
    exact ⟨t, ⟨"u1", out, hrun⟩, hgranted⟩
  | nodeMultipart =>
    obtain ⟨t, out, hrun, hgranted⟩ := hgrant (NodeFiles.multipartUpload devUpload data)
    exact ⟨t, ⟨devUpload, out, hrun⟩, hgranted⟩
  | pythonResume =>
    obtain ⟨t, out, hrun, hgranted⟩ := hgrant (PythonUploads.resume "u1" data)
    exact ⟨t, ⟨"u1", out, hrun⟩, hgranted⟩
  | webConsole =>
    obtain ⟨t, out, hrun, hgranted⟩ :=
      hgrant (WebConsole.uploadMultipart ⟨"a.bin", "", data⟩ devUpload)
    exact ⟨t, ⟨"a.bin", "", devUpload, out, hrun⟩, hgranted⟩

/-- A file of two chunks. -/
def twoChunks : List UInt8 := List.replicate (2 * chunkSize) 0

theorem length_twoChunks : twoChunks.length = 2 * chunkSize := List.length_replicate

/-- The four upload it in two parts. -/
theorem chunks_agree_two : ∃ t : ChunkingClient → UploadTranscript,
    (∀ c : ChunkingClient, c.Uploads twoChunks (t c)) ∧ (∀ c, (bodies (t c)).length = 2) ∧
      (∀ c, UploadsInParts twoChunks (t c)) ∧ ∀ c c', bodies (t c) = bodies (t c') := by
  choose t hruns hgranted using fun c : ChunkingClient => c.exists_granted twoChunks
  have hdata : twoChunks ≠ [] := by
    rw [← List.length_pos_iff, length_twoChunks]
    decide
  have hcount : twoChunks.length ⌈/⌉ chunkSize = 2 := by
    rw [length_twoChunks, Nat.ceilDiv_eq_add_pred_div]
    decide
  refine ⟨t, hruns, fun c => ?_, (chunks_agree_iff hruns hgranted).mpr hdata⟩
  rw [(c.delivers (hruns c) (hgranted c)).bodies_eq, c.chunks_eq_pieces hdata, length_pieces,
    hcount]

/-- The empty file: the Node SDK completes the upload without a part, the Python SDK sends one. -/
theorem chunks_disagree_empty : ∃ t t', ChunkingClient.nodeResume.Uploads [] t ∧ Granted t ∧
    ChunkingClient.pythonResume.Uploads [] t' ∧ Granted t' ∧ ¬UploadsInParts [] t ∧
      bodies t ≠ bodies t' := by
  refine ⟨[⟨.complete "u1" [], .ok "f1"⟩, ⟨.getFile "f1", .ok .null⟩],
    [⟨.partUrl "u1" 1, .ok "https://store/f1?part=1"⟩,
      ⟨.put "https://store/f1?part=1" [] none, .answered 200 (some "\"1\"")⟩,
      ⟨.complete "u1" [⟨1, "\"1\""⟩], .ok "f1"⟩, ⟨.getFile "f1", .ok .null⟩],
    ⟨"u1", .ok .null, .ask _ _ _ (.ask _ _ _ (.done _))⟩, ?_,
    ⟨"u1", .ok .null, .ask _ _ _ (.ask _ _ _ (.ask _ _ _ (.ask _ _ _ (.done _))))⟩, ?_, ?_, ?_⟩
  · unfold Granted
    decide
  · unfold Granted
    decide
  · intro h
    exact h.1.ne_nil rfl
  · exact List.cons_ne_nil _ _ |>.symm

end Clients

end FileNest
