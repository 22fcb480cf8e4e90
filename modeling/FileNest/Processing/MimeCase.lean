import FileNest.Processing.Pipeline
import FileNest.Uploads.Sizes

/-!
# MIME types and letter case

The gates of an upload compare MIME types in lower case; the stage of the pipeline that
sniffs the bytes compares them as they are spelled.  A type that is declared with a capital
passes the gates, and is then taken for another one.

## Main definitions

* `mimeEquivalents` — what a declared type may be detected as.
* `AgreesInCase` — the stage judges a declared type as its lower-case form, and passes what is
  of that type up to letter case.
* `CaseSafe` — the condition.

## Main results

* `gatesAdmit_lowered` — the gates do not look at letter case.
* `agreesInCase_iff` — when the stage does not either.
* `mime_agrees_iff` — **the stage agrees exactly if neither type has a capital, or the detected
  one is another than the declared one and none it may be detected as.**
* `capital_fails` — a picture that is what it is declared to be, and fails.
-/

namespace FileNest

/-- What a declared type may be detected as, besides itself. -/
def mimeEquivalents (declared : String) : List String :=
  ((mimeAliases.filter fun a => a.1 == declared).flatMap Prod.snd)
    ++ ((compatiblePrefixes.filter fun p => p.1 == declared).map Prod.snd)

theorem mem_mimeEquivalents {declared detected : String} : detected ∈ mimeEquivalents declared ↔
    (∃ a ∈ mimeAliases, a.1 = declared ∧ detected ∈ a.2)
      ∨ (declared, detected) ∈ compatiblePrefixes := by
  simp only [mimeEquivalents, List.mem_append, List.mem_flatMap, List.mem_filter, List.mem_map,
    beq_iff_eq, and_assoc, Prod.exists, exists_eq_right, exists_eq_right_right]

theorem typesCompatible_iff {declared detected : String} :
    typesCompatible declared detected = true ↔
      declared = detected ∨ detected ∈ mimeEquivalents declared := by
  simp only [typesCompatible, mem_mimeEquivalents, Bool.or_eq_true, beq_iff_eq, List.any_eq_true,
    Bool.and_eq_true, List.contains_iff_mem, or_assoc]

/-- The tables are in lower case. -/
theorem lower_of_mem_mimeEquivalents {declared detected : String}
    (h : detected ∈ mimeEquivalents declared) :
    Text.lower declared = declared ∧ Text.lower detected = detected := by
  rw [mem_mimeEquivalents] at h
  rcases h with ⟨a, ha, rfl, hdetected⟩ | hpair
  · have hall : ∀ a ∈ mimeAliases, Text.lower a.1 = a.1 ∧ ∀ t ∈ a.2, Text.lower t = t := by decide
    exact ⟨(hall a ha).1, (hall a ha).2 _ hdetected⟩
  · have hall : ∀ p ∈ compatiblePrefixes, Text.lower p.1 = p.1 ∧ Text.lower p.2 = p.2 := by decide
    exact hall (declared, detected) hpair

/-! ### The gates -/

/-- The request, its type in lower case. -/
def UploadRequest.lowered : UploadRequest → UploadRequest
  | init req => .init { req with contentType := Text.lower req.contentType }
  | start req => .start { req with contentType := Text.lower req.contentType }

theorem mimeAllowed_lower (contentType : String) (allowed : List String) :
    mimeAllowed (Text.lower contentType) allowed = mimeAllowed contentType allowed := by
  simp only [mimeAllowed, Text.lower_lower]

theorem checkContentType_lower {config : ProjectConfig} {contentType : String} :
    checkContentType config (Text.lower contentType) = .ok ()
      ↔ checkContentType config contentType = .ok () := by
  simp only [checkContentType, Text.lower_lower]
  split
  · split
    · exact Iff.rfl
    · exact throw_ne_ok.trans throw_ne_ok.symm
  · exact Iff.rfl

/-- **The gates do not look at letter case.** -/
theorem gatesAdmit_lowered {ctx : TenantContext} {config : ProjectConfig}
    {request : UploadRequest} :
    GatesAdmit ctx config request.lowered ↔ GatesAdmit ctx config request := by
  have hproject : ∀ (filename contentType : String) (sizeBytes : ℤ),
      validateUploadRequest config filename (Text.lower contentType) sizeBytes = .ok ()
        ↔ validateUploadRequest config filename contentType sizeBytes = .ok () := by
    intro filename contentType sizeBytes
    rw [validateUploadRequest_eq_ok, validateUploadRequest_eq_ok, checkContentType_lower]
  have htoken : ∀ (contentType : String) (sizeBytes : ℤ),
      TokenAllows ctx sizeBytes (Text.lower contentType)
        ↔ TokenAllows ctx sizeBytes contentType := by
    intro contentType sizeBytes
    rw [tokenAllows_iff, tokenAllows_iff]
    simp only [mimeAllowed_lower]
  cases request with
  | init req =>
    constructor
    · intro h
      refine ⟨(hproject _ _ _).mp h.project, fun req' heq hctx => ?_⟩
      cases heq
      exact (htoken _ _).mp (h.token _ rfl hctx)
    · intro h
      refine ⟨(hproject _ _ _).mpr h.project, fun req' heq hctx => ?_⟩
      cases heq
      exact (htoken _ _).mpr (h.token _ rfl hctx)
  | start req =>
    constructor
    · exact fun h => ⟨(hproject _ _ _).mp h.project, fun req' heq => by cases heq⟩
    · exact fun h => ⟨(hproject _ _ _).mpr h.project, fun req' heq => by cases heq⟩

/-! ### The stage -/

/-- A declared type with a capital is taken for itself alone. -/
theorem typesCompatible_of_capital {declared : String} (h : Text.lower declared ≠ declared)
    (detected : String) : typesCompatible declared detected = true ↔ declared = detected := by
  rw [typesCompatible_iff]
  exact or_iff_left fun hmem => h (lower_of_mem_mimeEquivalents hmem).1

/-- The stage judges the declared type as its lower-case form, and passes what is of that type
up to letter case. -/
structure AgreesInCase (declared detected : String) : Prop where
  same : typesCompatible declared detected = typesCompatible (Text.lower declared) detected
  passes : Text.lower detected = Text.lower declared → typesCompatible declared detected = true

/-- **The condition**: the bytes are of the declared type and neither spelling has a capital, or
they are of another type, and the declared one has no capital or may not be detected so. -/
def CaseSafe (declared detected : String) : Prop :=
  if Text.lower detected = Text.lower declared then
    Text.lower declared = declared ∧ Text.lower detected = detected
  else Text.lower declared = declared ∨ detected ∉ mimeEquivalents (Text.lower declared)

instance (declared detected : String) : Decidable (CaseSafe declared detected) := by
  unfold CaseSafe
  infer_instance

/-- A declared type without a capital is judged as its lower-case form, which it is. -/
theorem agreesInCase_iff_of_lower {declared detected : String}
    (hlower : Text.lower declared = declared) :
    AgreesInCase declared detected ↔
      (Text.lower detected = declared → Text.lower detected = detected) := by
  constructor
  · intro h hsame
    have hpasses := h.passes (hsame.trans hlower.symm)
    rcases typesCompatible_iff.mp hpasses with rfl | hmem
    · exact hlower
    · exact (lower_of_mem_mimeEquivalents hmem).2
  · intro h
    refine ⟨by rw [hlower], fun hsame => typesCompatible_iff.mpr (.inl ?_)⟩
    rw [hlower] at hsame
    exact hsame.symm.trans (h hsame)

/-- One with a capital is not, where its lower-case form is compatible. -/
theorem agreesInCase_iff_of_capital {declared detected : String}
    (hcapital : Text.lower declared ≠ declared) : AgreesInCase declared detected ↔
      Text.lower detected ≠ Text.lower declared ∧
        detected ∉ mimeEquivalents (Text.lower declared) := by
  have hdeclared := typesCompatible_of_capital hcapital detected
  have hlower : typesCompatible (Text.lower declared) detected = true ↔
      Text.lower declared = detected ∨ detected ∈ mimeEquivalents (Text.lower declared) :=
    typesCompatible_iff
  constructor
  · intro h
    have hsame := h.same
    rw [Bool.eq_iff_iff, hdeclared, hlower] at hsame
    refine ⟨fun heq => ?_, fun hmem => ?_⟩
    · -- what passes is spelled as it was declared, and its lower-case form is not
      obtain rfl := hdeclared.mp (h.passes heq)
      rcases hsame.mp rfl with heq' | hmem
      · exact hcapital heq'
      · exact hcapital (lower_of_mem_mimeEquivalents hmem).2
    · obtain rfl := hsame.mpr (.inr hmem)
      exact hcapital (lower_of_mem_mimeEquivalents hmem).2
  · rintro ⟨hne, hmem⟩
    refine ⟨?_, fun heq => absurd heq hne⟩
    rw [Bool.eq_iff_iff, hdeclared, hlower]
    refine iff_of_false ?_ (not_or.mpr ⟨?_, hmem⟩)
    · rintro rfl
      exact hne rfl
    · rintro rfl
      exact hne (Text.lower_lower declared)

theorem agreesInCase_iff (declared detected : String) :
    AgreesInCase declared detected ↔ CaseSafe declared detected := by
  rw [CaseSafe]
  by_cases hlower : Text.lower declared = declared
  · rw [agreesInCase_iff_of_lower hlower, hlower]
    split
    · rename_i hsame
      exact ⟨fun h => ⟨rfl, h hsame⟩, fun h _ => h.2⟩
    · rename_i hother
      exact iff_of_true (fun h => absurd h hother) (.inl rfl)
  · rw [agreesInCase_iff_of_capital hlower]
    split
    · rename_i hsame
      exact iff_of_false (fun h => h.1 hsame) fun h => hlower h.1
    · rename_i hother
      exact ⟨fun h => .inr h.2, fun h => ⟨hother, h.resolve_left hlower⟩⟩

/-- The stage passes bytes of a compatible type. -/
theorem MimeValidationStage.passed_iff {env : PipelineEnv} {declared detected : String}
    {content : List UInt8} (h : env.fromBuffer (content.take 4096) = .ok (some detected)) :
    (∃ result, MimeValidationStage.run env declared content = .ok result ∧ result.passed = true)
      ↔ typesCompatible declared detected = true := by
  have hrun : MimeValidationStage.run env declared content
      = if typesCompatible declared detected then .ok { passed := true }
        else .ok { passed := false, reason := some ("MIME mismatch: declared=" ++ declared ++
          ", detected=" ++ detected) } := by
    rw [MimeValidationStage.run, h]
    rfl
  rw [hrun]
  cases typesCompatible declared detected with
  | true => exact iff_of_true ⟨_, rfl, rfl⟩ rfl
  | false =>
    refine iff_of_false ?_ Bool.false_ne_true
    rintro ⟨result, hresult, hpassed⟩
    obtain rfl := Except.ok.inj hresult
    cases hpassed

/-- An upload that the gates accept is judged by the stage as if its type were declared in lower
case, and passes if its bytes are of that type up to letter case. -/
def MimeAgrees (ctx : TenantContext) (config : ProjectConfig) (request : UploadRequest)
    (env : PipelineEnv) (content : List UInt8) : Prop :=
  GatesAdmit ctx config request → ∀ detected,
    env.fromBuffer (content.take 4096) = .ok (some detected) →
    typesCompatible request.contentType detected
        = typesCompatible (Text.lower request.contentType) detected
      ∧ (Text.lower detected = Text.lower request.contentType →
        ∃ result, MimeValidationStage.run env request.contentType content = .ok result
          ∧ result.passed = true)

/-- **The stage agrees with the gates exactly if letter case makes no difference.** -/
theorem mime_agrees_iff (ctx : TenantContext) (config : ProjectConfig) (request : UploadRequest)
    (env : PipelineEnv) (content : List UInt8) :
    MimeAgrees ctx config request env content ↔
      (GatesAdmit ctx config request → ∀ detected,
        env.fromBuffer (content.take 4096) = .ok (some detected) →
          CaseSafe request.contentType detected) := by
  refine imp_congr Iff.rfl (forall_congr' fun detected => forall_congr' fun hdetected => ?_)
  rw [MimeValidationStage.passed_iff hdetected, ← agreesInCase_iff]
  exact ⟨fun h => ⟨h.1, h.2⟩, fun h => ⟨h.same, h.passes⟩⟩

/-- A project that takes PNG pictures. -/
def pngConfig : ProjectConfig where
  id := "c0"
  organizationId := "acme"
  projectId := "p0"
  allowedMimeTypes := some "image/png"
  createdAt := 1
  updatedAt := 1

/-- A picture is declared with capitals, and detected as a PNG. -/
theorem capital_fails :
    ¬∀ (ctx : TenantContext) (config : ProjectConfig) (request : UploadRequest)
      (env : PipelineEnv) (content : List UInt8), MimeAgrees ctx config request env content := by
  intro h
  let env : PipelineEnv :=
    { devPipeline "e0" 5 with fromBuffer := fun _ => .ok (some "image/png") }
  have hagrees := h (orgContext "acme") pngConfig
    (.init ⟨"a.png", "image/PNG", 1, none, [], []⟩) env []
  have hgates : GatesAdmit (orgContext "acme") pngConfig
      (.init ⟨"a.png", "image/PNG", 1, none, [], []⟩) := by
    refine ⟨rfl, ?_⟩
    rintro req - htoken
    cases htoken
  have hsame : typesCompatible "image/PNG" "image/png"
      = typesCompatible (Text.lower "image/PNG") "image/png" := (hagrees hgates "image/png" rfl).1
  have hcapital : typesCompatible "image/PNG" "image/png" = false := by decide
  have hlower : typesCompatible (Text.lower "image/PNG") "image/png" = true := by decide
  rw [hcapital, hlower] at hsame
  cases hsame

end FileNest
