import FileNest.Lib.Clock
import FileNest.Lib.Lease
import FileNest.Tokens.Advertised

/-!
# The lifetime of upload tokens

A token is valid from its creation until it expires.  Lookups do not find it any more from
that very instant on, and from then on it may be pruned, which every later creation on its
project does.  So over any run, by a clock that never goes back, a bearer token
authenticates exactly if it was issued and has not expired; and it stands for what it was
issued for.

## Main definitions

* `IssuedToken`, `issuedTokens` — the tokens issued in a run, as they were answered.
* `IssuedToken.CarriedBy` — a context carries what a token was issued for.
* `TokenRun` — the runs of the services, by a clock.
* `Leases` — the tokens on record are those issued, as far as they are valid.

## Main results

* `UploadTokenService.leased_create` — what a creation commits, as a lease.
* `TokenRun.leases` — **the tokens on record are the valid ones of those issued.**
* `token_lifetime` — a bearer token authenticates exactly while it is valid.
-/

namespace FileNest

open RowStore ReadCommitted Lease

/-- A token, as it was answered to the call that created it, with the database that call read. -/
structure IssuedToken where
  call : ServiceCall
  snapshot : Database
  req : CreateUploadTokenRequest
  token : String
  expiresAt : ℕ
  constraints : UploadTokenConstraints

/-- What a committed call issued. -/
def issued (c : ServiceCall × Database) : Option IssuedToken :=
  match c.1.op, c.1.result c.2 with
  | .createUploadToken req, .ok (.uploadToken token expiresAt constraints, _) =>
      some ⟨c.1, c.2, req, token, expiresAt, constraints⟩
  | _, _ => none

/-- The tokens issued in a run. -/
def issuedTokens (log : List (ServiceCall × Database)) : List IssuedToken := log.filterMap issued

/-- The context carries what the token was issued for. -/
structure IssuedToken.CarriedBy (t : IssuedToken) (ctx : TenantContext) : Prop where
  organizationId : ctx.organizationId = t.call.ctx.organizationId
  projectId : ctx.projectId = some t.call.projectId
  folder : ∃ ws, resolveTokenFolder t.call.ctx t.call.env t.snapshot t.call.projectId t.req
    = .ok (ctx.uploadTokenFolderId, ws)
  metadata : ctx.uploadTokenDefaultMetadata = t.req.metadata
  tags : ctx.uploadTokenDefaultTags = t.req.tags
  mimeTypes : ctx.uploadTokenAllowedMimeTypes = some t.constraints.allowedMimeTypes
  maxSize : ctx.uploadTokenMaxSize = some t.constraints.maxSize

/-- A creation has pruned before it commits. -/
def PrunedBefore (now : ℕ) (c : ServiceCall) : Prop :=
  ∀ req, c.op = .createUploadToken req → c.env.pruneNow ≤ now

/-- The runs of the services, of any callers, upload tokens among them. -/
abbrev TokenRun :=
  Timed ServiceCall.writes PrunedBefore (fun db : Database => db = Database.empty)

/-! ### One creation -/

/-- The row of an issued token. -/
structure IssuedToken.Recorded (t : IssuedToken) (record : UploadToken) : Prop where
  token_eq : record.token = t.token
  expiresAt_eq : record.expiresAt = t.expiresAt
  carried : t.CarriedBy (uploadTokenContext record)

section Create

variable {c : ServiceCall} {db snapshot : Database} {req : CreateUploadTokenRequest}
  {r : Response} {ws : List DbWrite}

/-- **What a creation commits**: the row of the token it issues, and the removal of rows that
have expired. -/
theorem UploadTokenService.leased_create (hop : c.op = .createUploadToken req)
    (h : c.result snapshot = .ok (r, ws)) {now : ℕ} (hpruned : PrunedBefore now c) :
    ∃ t record, issued (c, snapshot) = some t ∧ t.Recorded record
      ∧ ∀ {db : Database} {rows : List UploadToken},
        Leased UploadToken.expiresAt now rows (db .uploadTokens) →
          Leased UploadToken.expiresAt now (rows ++ [record]) (applyAll ws db .uploadTokens) := by
  have hcreate : create c.ctx c.env snapshot c.projectId req = .ok (r, ws) := by
    rwa [ServiceCall.result, hop] at h
  obtain ⟨config, folderId, folderWrites, -, -, hfolder, rfl, rfl⟩ := create_eq_ok hcreate
  refine ⟨⟨c, snapshot, req, "fn_upload_token_" ++ c.env.tokenHex,
      c.env.now + req.expiresIn * second, tokenConstraints req⟩,
    tokenRecord c.ctx c.env c.projectId req folderId, ?_,
    ⟨rfl, rfl, rfl, rfl, ⟨folderWrites, hfolder⟩, rfl, rfl, rfl, rfl⟩, ?_⟩
  · simp only [issued, hop, h]
  · intro db rows hleased
    have htables : ∀ w ∈ folderWrites, w.table ≠ .uploadTokens := fun w hw => by
      rw [resolveTokenFolder_table hfolder w hw]
      decide
    rw [applyAll_append, applyAll_cons, applyAll_cons, applyAll_nil]
    have hinsert : ((Write.insert .uploadTokens (tokenRecord c.ctx c.env c.projectId req folderId)
        : DbWrite).apply (applyAll folderWrites db)) .uploadTokens
        = db .uploadTokens ++ [tokenRecord c.ctx c.env c.projectId req folderId] := by
      rw [apply_insert_self, applyAll_of_table_ne htables]
    rw [UploadTokenRepository.deleteExpired, apply_delete_self, hinsert]
    refine (hleased.issue _).prune fun record _ hexpired => ?_
    simp only [Bool.and_eq_true, decide_eq_true_eq] at hexpired
    exact hexpired.2.trans (hpruned req hop)

/-- No other operation issues a token, or writes where they are. -/
theorem issued_eq_none (hop : ∀ req, c.op ≠ .createUploadToken req) :
    issued (c, snapshot) = none := by
  rw [issued]
  split
  · rename_i req _ _ _ _ heq _
    exact absurd heq (hop req)
  · rfl

theorem uploadTokens_notMem_tables (hop : ∀ req, c.op ≠ .createUploadToken req) :
    Table.uploadTokens ∉ c.op.tables := by
  cases h : c.op with
  | createUploadToken req => exact absurd h (hop req)
  | _ => simp [Operation.tables]

end Create

/-! ### Runs -/

section Run

variable {log : List (ServiceCall × Database)} {now : ℕ} {w : World Table.Row ServiceCall}

/-- The tokens on record are those issued, as far as they are valid. -/
def Leases (log : List (ServiceCall × Database)) (now : ℕ) (db : Database) : Prop :=
  ∃ rows : List (IssuedToken × UploadToken), rows.map Prod.fst = issuedTokens log
    ∧ (∀ x ∈ rows, x.1.Recorded x.2)
    ∧ Leased UploadToken.expiresAt now (rows.map Prod.snd) (db .uploadTokens)

/-- A commit keeps the leases: a creation adds one, and nothing else reaches them. -/
theorem Leases.commit {c : ServiceCall} {snapshot db : Database} {ws : List DbWrite}
    (h : Leases log now db) (hsnapshot : snapshot.Good) (hws : c.writes snapshot = some ws)
    (hpruned : PrunedBefore now c) : Leases (log ++ [(c, snapshot)]) now (applyAll ws db) := by
  obtain ⟨rows, hrows, hrecorded, hleased⟩ := h
  obtain ⟨r, hr⟩ := ServiceResult.writes_eq_some.mp hws
  by_cases hop : ∃ req, c.op = .createUploadToken req
  · obtain ⟨req, hop⟩ := hop
    obtain ⟨t, record, hissued, hrecord, hlease⟩ := UploadTokenService.leased_create hop hr hpruned
    refine ⟨rows ++ [(t, record)], ?_, ?_, ?_⟩
    · rw [List.map_append, hrows, issuedTokens, issuedTokens, List.filterMap_append,
        List.filterMap_cons_some hissued]
      rfl
    · intro x hx
      rcases List.mem_append.mp hx with hx | hx
      · exact hrecorded x hx
      · rw [List.mem_singleton.mp hx]
        exact hrecord
    · rw [List.map_append]
      exact hlease hleased
  · rw [not_exists] at hop
    have hsound := Operation.sound hsnapshot hr
    have htable : ∀ w ∈ ws, w.table ≠ .uploadTokens := fun w hw heq =>
      uploadTokens_notMem_tables hop (heq ▸ hsound.tables w hw)
    refine ⟨rows, ?_, hrecorded, ?_⟩
    · rw [hrows, issuedTokens, issuedTokens, List.filterMap_append,
        List.filterMap_cons_none (issued_eq_none hop), List.filterMap_nil, List.append_nil]
    · rwa [applyAll_of_table_ne htable]

/-- **The tokens on record are the valid ones of those issued**, in every run. -/
theorem TokenRun.leases (h : TokenRun log now w) : Leases log now w.store := by
  refine h.invariant ?_ ?_ ?_
  · rintro _ now rfl
    exact ⟨[], rfl, (fun x hx => by cases hx), .refl []⟩
  · rintro log now now' db hle ⟨rows, hrows, hrecorded, hleased⟩
    exact ⟨rows, hrows, hrecorded, hleased.advance hle⟩
  · intro log now w c snapshot ws hw hmem hleases hws hpruned
    have hgood := hw.good (fun s hs => hs ▸ Database.good_empty) fun c s ws hs => c.resolved hs
    exact hleases.commit (hgood.2 _ hmem).1 hws hpruned

/-- What a lookup finds was issued, and is valid. -/
theorem Leases.of_getByToken {db : Database} (h : Leases log now db) {bearer : String}
    {record : UploadToken}
    (hfound : UploadTokenRepository.getByToken db now bearer = .ok (some record)) :
    ∃ t ∈ issuedTokens log, t.Recorded record ∧ t.token = bearer ∧ now < t.expiresAt := by
  obtain ⟨rows, hrows, hrecorded, hleased⟩ := h
  have hmem := mem_of_scalarOneOrNone hfound
  rw [hleased.filter_eq, List.mem_filter] at hmem
  obtain ⟨hmem, hvalid⟩ := hmem
  simp only [Bool.and_eq_true, beq_iff_eq, decide_eq_true_eq] at hvalid
  obtain ⟨⟨t, _⟩, hx, rfl⟩ := List.mem_map.mp hmem
  have ht := hrecorded _ hx
  refine ⟨t, hrows ▸ List.mem_map_of_mem hx, ht, ?_, ?_⟩
  · rw [← ht.token_eq, hvalid.1]
  · rw [← ht.expiresAt_eq]
    exact hvalid.2

/-- What was issued and is valid is on record. -/
theorem Leases.on_record {db : Database} (h : Leases log now db) {t : IssuedToken}
    (ht : t ∈ issuedTokens log) (hvalid : now < t.expiresAt) :
    ∃ record ∈ db .uploadTokens, t.Recorded record := by
  obtain ⟨rows, hrows, hrecorded, hleased⟩ := h
  rw [← hrows] at ht
  obtain ⟨⟨_, record⟩, hx, rfl⟩ := List.mem_map.mp ht
  have hrecord := hrecorded _ hx
  exact ⟨record, hleased.mem (List.mem_map_of_mem hx) (hrecord.expiresAt_eq ▸ hvalid), hrecord⟩

/-- What was issued and is valid is found, where tokens differ. -/
theorem Leases.getByToken {db : Database} (h : Leases log now db)
    (hdistinct : ((issuedTokens log).map IssuedToken.token).Nodup) {t : IssuedToken}
    (ht : t ∈ issuedTokens log) (hvalid : now < t.expiresAt) :
    ∃ record, t.Recorded record
      ∧ UploadTokenRepository.getByToken db now t.token = .ok (some record) := by
  obtain ⟨rows, hrows, hrecorded, hleased⟩ := h
  rw [← hrows] at ht
  obtain ⟨⟨_, record⟩, hx, rfl⟩ := List.mem_map.mp ht
  have hrecord := hrecorded _ hx
  refine ⟨record, hrecord, scalarOneOrNone_eq_some.mpr ?_⟩
  rw [hleased.filter_eq]
  have hkeys : ((rows.map Prod.snd).map UploadToken.token).Nodup := by
    have htokens : rows.map (UploadToken.token ∘ Prod.snd)
        = rows.map (IssuedToken.token ∘ Prod.fst) :=
      List.map_congr_left fun x hx => (hrecorded x hx).token_eq
    rwa [List.map_map, htokens, ← List.map_map, hrows]
  refine filter_eq_singleton hkeys (List.mem_map_of_mem hx) ?_ fun r hr => ?_
  · simp only [Bool.and_eq_true, beq_iff_eq, decide_eq_true_eq]
    exact ⟨hrecord.token_eq, hrecord.expiresAt_eq ▸ hvalid⟩
  · simp only [Bool.and_eq_true, beq_iff_eq] at hr
    exact hr.1.trans hrecord.token_eq.symm

/-- **The lifetime of upload tokens.**  In every state of every run a bearer token authenticates
exactly if it was issued and has not expired; the context carries what it was issued for; and
whatever has been pruned, no token is gone that is still valid. -/
theorem token_lifetime (h : TokenRun log now w)
    (hdistinct : ((issuedTokens log).map IssuedToken.token).Nodup) :
    (∀ bearer, (∃ ctx, verifyUploadToken w.store now bearer = .ok ctx) ↔
        ∃ t ∈ issuedTokens log, t.token = bearer ∧ now < t.expiresAt)
      ∧ (∀ bearer ctx, verifyUploadToken w.store now bearer = .ok ctx →
        ∀ t ∈ issuedTokens log, t.token = bearer → t.CarriedBy ctx)
      ∧ ∀ t ∈ issuedTokens log, now < t.expiresAt →
        ∃ record ∈ w.store .uploadTokens, t.Recorded record := by
  have hleases := h.leases
  refine ⟨fun bearer => ⟨?_, ?_⟩, ?_, ?_⟩
  · rintro ⟨ctx, hctx⟩
    obtain ⟨record, hrecord, -⟩ := verifyUploadToken_eq_ok.mp hctx
    obtain ⟨t, ht, -, htoken, hvalid⟩ := hleases.of_getByToken hrecord
    exact ⟨t, ht, htoken, hvalid⟩
  · rintro ⟨t, ht, rfl, hvalid⟩
    obtain ⟨record, -, hrecord⟩ := hleases.getByToken hdistinct ht hvalid
    exact ⟨_, verifyUploadToken_eq_ok.mpr ⟨record, hrecord, rfl⟩⟩
  · intro bearer ctx hctx t ht htoken
    obtain ⟨record, hrecord, rfl⟩ := verifyUploadToken_eq_ok.mp hctx
    obtain ⟨t', ht', hrecorded, htoken', -⟩ := hleases.of_getByToken hrecord
    obtain rfl := List.inj_on_of_nodup_map hdistinct ht ht' (htoken.trans htoken'.symm)
    exact hrecorded.carried
  · exact fun t ht hvalid => hleases.on_record ht hvalid

end Run

/-- A token, a second after its creation. -/
theorem token_lifetime_tokenProject : ∃ log w, TokenRun log 3 w
    ∧ ∃ ctx, verifyUploadToken w.store 3 "fn_upload_token_tsecret" = .ok ctx := by
  have hstart : TokenRun [] 3 ⟨Database.empty, []⟩ := .init (by rfl) 3
  have hproject := (hstart.read
    ⟨orgContext "acme", devEnv "p" 1, "", .createProject devProject⟩).commit [] [] rfl
    (by decide) (fun _ h => by cases h)
  have htoken := (hproject.read
    ⟨orgContext "acme", devEnv "t" 2, "p0", .createUploadToken devTokenRequest⟩).commit [] [] rfl
    (by decide) (fun _ _ => by decide)
  exact ⟨_, _, htoken, ((token_lifetime htoken (by decide)).1 _).mpr ⟨_, .head _, rfl, by decide⟩⟩

end FileNest
