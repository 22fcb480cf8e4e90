import FileNest.Schemas
import FileNest.Sdk.Http

/-!
# Typed records of the TypeScript SDKs

The core client and the React context declare the same types for their results, `FileRecord`
and `ListResponse`, with camelCase fields.  The core client renames the keys of a body before
it is handed out, the React context hands out the body as it is.

## Main definitions

* `FileResponse.render`, `FileListResponse.render` — the bodies of the two routes.
* `ReactContext.callApi` — the requests of the React context.
* `RecordsAgree`, `ListsAgree` — both clients have the backend's value at every field.

## Main results

* `agreesAt_record_iff`, `agreesAt_list_iff` — **the clients agree exactly at the fields whose
  name is one word.**
* `not_agree` — so they agree on no record and on no list.
-/

namespace FileNest

/-! ### What the backend renders -/

/-- The body of a file; `iso` writes a time. -/
def FileResponse.render (iso : ℕ → String) (r : FileResponse) : Json :=
  .obj [("id", .str r.id), ("organization_id", .str r.organizationId),
    ("project_id", .str r.projectId), ("filename", .str r.filename),
    ("content_type", .str r.contentType), ("size_bytes", .int r.sizeBytes),
    ("status", .str r.status.value), ("storage_key", .str r.storageKey),
    ("folder_id", .optStr r.folderId), ("category", .optStr r.category),
    ("version_count", .int r.versionCount), ("tags", .strs r.tags), ("metadata", .obj r.metadata),
    ("created_at", .str (iso r.createdAt)), ("updated_at", .str (iso r.updatedAt))]

/-- The body of a page of files. -/
def FileListResponse.render (iso : ℕ → String) (r : FileListResponse) : Json :=
  .obj [("items", .arr (r.items.map (FileResponse.render iso))), ("total", .int r.total),
    ("limit", .int r.limit), ("offset", .int r.offset), ("has_more", .bool r.hasMore),
    ("next_cursor", .optStr r.nextCursor)]

/-! ### The React context -/

namespace ReactContext

/-- A value that counts as true in JavaScript. -/
def isTruthy : Json → Bool
  | .null => false
  | .bool b => b
  | .num n => n.value != 0
  | .str s => s != ""
  | .arr _ | .obj _ => true

/-- `doRequest`. -/
def doRequest (fetch : String → Attempt) (authToken : String) : Except SdkFailure HttpResponse :=
  match fetch authToken with
  | .response r => .ok r
  | .timeout _ | .failure _ => .error (.untyped "TypeError")

/-- What `callApi` does with the response. -/
def decode (method path : String) (res : HttpResponse) : Except SdkFailure (Option Json) :=
  if res.status = 204 then pure none else
  if !res.ok then
    let fallback := method ++ " " ++ path ++ " failed: " ++ res.statusText
    let message := match res.body with
      | .json body => ((CoreHttp.property body "message").filter isTruthy).getD (.str fallback)
      | .empty | .other => .str fallback
    throw (.error message res.status)
  else match res.body with
    | .json value => pure (some value)
    | .empty | .other => throw (.untyped "SyntaxError")

variable (getToken fetchToken : Except SdkFailure String) (fetch : String → Attempt)

/-- The response `callApi` goes by: on a 401 it fetches a token and asks once more. -/
def lastResponse : Except SdkFailure HttpResponse := do
  let tok ← getToken
  let res ← doRequest fetch tok
  if res.status = 401 then do
    let freshToken ← fetchToken
    doRequest fetch freshToken
  else pure res

/-- `callApi`, given what the two ways to a token give and what `fetch` gives with a token. -/
def callApi (method path : String) : Except SdkFailure (Option Json) := do
  let res ← lastResponse getToken fetchToken fetch
  decode method path res

end ReactContext

/-! ### The declared types -/

/-- The fields of `FileRecord` other than `metadata`, each with the backend's field. -/
def fileRecordFields : List (String × String) :=
  [("id", "id"), ("projectId", "project_id"), ("organizationId", "organization_id"),
    ("filename", "filename"), ("contentType", "content_type"), ("sizeBytes", "size_bytes"),
    ("status", "status"), ("storageKey", "storage_key"), ("folderId", "folder_id"),
    ("category", "category"), ("versionCount", "version_count"), ("tags", "tags"),
    ("createdAt", "created_at"), ("updatedAt", "updated_at")]

/-- The fields of `ListResponse` other than `items`. -/
def listResponseFields : List (String × String) :=
  [("total", "total"), ("limit", "limit"), ("offset", "offset"), ("hasMore", "has_more"),
    ("nextCursor", "next_cursor")]

open CoreHttp (property)

/-- Two results have the backend's value at a field. -/
def AgreesAt (v w body : Json) (field : String × String) : Prop :=
  property v field.1 = property body field.2 ∧ property w field.1 = property body field.2

/-- Two results for a record agree at every field. -/
def RecordsAgree (v w body : Json) : Prop :=
  ∀ field ∈ fileRecordFields, AgreesAt v w body field

/-- Two results for a page agree at every field, and item by item. -/
def ListsAgree (v w body : Json) : Prop :=
  (∀ field ∈ listResponseFields, AgreesAt v w body field) ∧
    ∃ vs ws bs, property v "items" = some (.arr vs) ∧ property w "items" = some (.arr ws) ∧
      property body "items" = some (.arr bs) ∧ vs.length = bs.length ∧ ws.length = bs.length ∧
      ∀ (i : ℕ) (v w b : Json), vs[i]? = some v → ws[i]? = some w → bs[i]? = some b →
        RecordsAgree v w b

/-- What a route with typed results renders. -/
inductive Rendered where
  | file (r : FileResponse)
  | list (r : FileListResponse)

/-- The body. -/
def Rendered.body (iso : ℕ → String) : Rendered → Json
  | file r => r.render iso
  | list r => r.render iso

/-- The response. -/
def Rendered.response (iso : ℕ → String) (x : Rendered) (contentLength : Option String) :
    HttpResponse :=
  { status := 200, statusText := "OK", contentLength, body := .json (x.body iso) }

/-- Two calls give results that agree. -/
def ClientsAgree (iso : ℕ → String) (x : Rendered) (react core : Except SdkFailure (Option Json)) :
    Prop :=
  ∃ v w, react = .ok (some v) ∧ core = .ok (some w) ∧
    match x with
    | .file r => RecordsAgree v w (r.render iso)
    | .list r => ListsAgree v w (r.render iso)

/-! ### What each client finds -/

section Clients

variable {iso : ℕ → String} {fields : Fields} {field : String × String}

theorem isSome_property_iff {key : String} :
    (property (.obj fields) key).isSome = true ↔ key ∈ fields.map Prod.fst := by
  simp [property, Fields.get?]

/-- The React context has the backend's value at a field exactly if the two share a name. -/
theorem react_eq_iff (hsnake : field.2 ∈ fields.map Prod.fst)
    (hcamel : field.1 ∈ fields.map Prod.fst → field.1 = field.2) :
    property (.obj fields) field.1 = property (.obj fields) field.2 ↔ field.1 = field.2 := by
  constructor
  · intro h
    have hsome := isSome_property_iff.mpr hsnake
    rw [← h] at hsome
    exact hcamel (isSome_property_iff.mp hsome)
  · intro h
    rw [h]

/-- The core client renames the keys of an object and what is under them. -/
theorem property_camelizeKeys (hnodup : ((fields.map Prod.fst).map snakeToCamel).Nodup)
    {key : String}
    (hkey : key ∈ fields.map Prod.fst) :
    property (camelizeKeys (.obj fields)) (snakeToCamel key)
      = (property (.obj fields) key).map camelizeKeys := by
  unfold camelizeKeys
  rw [Json.mapKeys]
  exact Json.get?_mapKeysFields hnodup hkey

/-- It has the backend's value if the name is the renamed one and the value has no keys. -/
theorem core_eq (hnodup : ((fields.map Prod.fst).map snakeToCamel).Nodup)
    (hsnake : field.2 ∈ fields.map Prod.fst) (hname : field.1 = snakeToCamel field.2)
    (hvalue : ∀ g ∈ fields, g.1 = field.2 → camelizeKeys g.2 = g.2) :
    property (camelizeKeys (.obj fields)) field.1 = property (.obj fields) field.2 := by
  rw [hname, property_camelizeKeys hnodup hsnake]
  cases hv : property (.obj fields) field.2 with
  | none => rfl
  | some v =>
    obtain ⟨g, hg, rfl⟩ := Option.map_eq_some_iff.mp hv
    rw [Option.map_some, hvalue g (List.mem_of_find?_eq_some hg)
      (by simpa using List.find?_some hg)]

theorem camelizeKeys_optStr (o : Option String) : camelizeKeys (.optStr o) = .optStr o := by
  cases o <;> rfl

theorem camelizeKeys_strs (ss : List String) : camelizeKeys (.strs ss) = .strs ss := by
  unfold camelizeKeys Json.strs
  rw [Json.mapKeys]
  congr 1
  induction ss with
  | nil => rfl
  | cons s ss ih => rw [List.map_cons, Json.mapKeysElems, ih, Json.mapKeys]

/-- The keys of the body of a record. -/
def fileBodyKeys : List String :=
  ["id", "organization_id", "project_id", "filename", "content_type", "size_bytes", "status",
    "storage_key", "folder_id", "category", "version_count", "tags", "metadata", "created_at",
    "updated_at"]

/-- The keys of the body of a page. -/
def listBodyKeys : List String := ["items", "total", "limit", "offset", "has_more", "next_cursor"]

theorem fileRecordFields_keys : (fileBodyKeys.map snakeToCamel).Nodup ∧
    ∀ field ∈ fileRecordFields, field.2 ∈ fileBodyKeys ∧ field.2 ≠ "metadata" ∧
      field.1 = snakeToCamel field.2 ∧ (field.1 ∈ fileBodyKeys → field.1 = field.2) := by
  decide +kernel

theorem listResponseFields_keys : (listBodyKeys.map snakeToCamel).Nodup ∧
    ∀ field ∈ listResponseFields, field.2 ∈ listBodyKeys ∧ field.2 ≠ "items" ∧
      field.1 = snakeToCamel field.2 ∧ (field.1 ∈ listBodyKeys → field.1 = field.2) := by
  decide +kernel

/-- **The clients agree on a record at the fields whose name is one word.** -/
theorem agreesAt_record_iff (r : FileResponse) (h : field ∈ fileRecordFields) :
    AgreesAt (r.render iso) (camelizeKeys (r.render iso)) (r.render iso) field
      ↔ field.1 = field.2 := by
  obtain ⟨hnodup, hkeys⟩ := fileRecordFields_keys
  obtain ⟨hsnake, hmetadata, hname, hcamel⟩ := hkeys field h
  suffices hcore : property (camelizeKeys (r.render iso)) field.1
      = property (r.render iso) field.2 from
    (and_iff_left hcore).trans (react_eq_iff hsnake hcamel)
  refine core_eq hnodup hsnake hname ?_
  simp only [List.forall_mem_cons, List.not_mem_nil, false_imp_iff, implies_true, and_true]
  refine ⟨?_, ?_, ?_, ?_, ?_, ?_, ?_, ?_, ?_, ?_, ?_, ?_, ?_, ?_, ?_⟩
  case refine_9 => exact fun _ => camelizeKeys_optStr _
  case refine_10 => exact fun _ => camelizeKeys_optStr _
  case refine_12 => exact fun _ => camelizeKeys_strs _
  case refine_13 => exact fun h => absurd h.symm hmetadata
  all_goals exact fun _ => rfl

/-- **The clients agree on a page at the fields whose name is one word.** -/
theorem agreesAt_list_iff (r : FileListResponse) (h : field ∈ listResponseFields) :
    AgreesAt (r.render iso) (camelizeKeys (r.render iso)) (r.render iso) field
      ↔ field.1 = field.2 := by
  obtain ⟨hnodup, hkeys⟩ := listResponseFields_keys
  obtain ⟨hsnake, hitems, hname, hcamel⟩ := hkeys field h
  suffices hcore : property (camelizeKeys (r.render iso)) field.1
      = property (r.render iso) field.2 from
    (and_iff_left hcore).trans (react_eq_iff hsnake hcamel)
  refine core_eq hnodup hsnake hname ?_
  simp only [List.forall_mem_cons, List.not_mem_nil, false_imp_iff, implies_true, and_true]
  refine ⟨fun h => absurd h.symm hitems, ?_, ?_, ?_, ?_, fun _ => camelizeKeys_optStr _⟩
  all_goals exact fun _ => rfl

end Clients

/-! ### The calls -/

section Calls

variable {iso : ℕ → String} {x : Rendered} {contentLength : Option String}

/-- The React context hands out the body. -/
theorem ReactContext.callApi_response {getToken fetchToken : Except SdkFailure String}
    {fetch : String → Attempt}
    (h : lastResponse getToken fetchToken fetch = .ok (x.response iso contentLength))
    (method path : String) :
    callApi getToken fetchToken fetch method path = .ok (some (x.body iso)) := by
  unfold callApi
  rw [h]
  rfl

/-- The core client hands out the body with its keys renamed. -/
theorem CoreHttp.request_response {config : Config} {attempts : ℕ → Attempt}
    (h : lastAnswer again config.maxRetries attempts = .response (x.response iso contentLength)) :
    request config attempts .get = .ok (some (camelizeKeys (x.body iso))) := by
  simp only [request, fetchJson, rawFetch, fetchWithRetry, h]
  rfl

/-- **The two clients agree on no record and on no page.** -/
theorem not_agree {getToken fetchToken : Except SdkFailure String} {fetch : String → Attempt}
    {config : CoreHttp.Config} {attempts : ℕ → Attempt} (path : String)
    (hreact : ReactContext.lastResponse getToken fetchToken fetch
      = .ok (x.response iso contentLength))
    (hcore : lastAnswer CoreHttp.again config.maxRetries attempts
      = .response (x.response iso contentLength)) :
    ¬ClientsAgree iso x (ReactContext.callApi getToken fetchToken fetch "GET" path)
      (CoreHttp.request config attempts .get) := by
  rintro ⟨v, w, hv, hw, h⟩
  rw [ReactContext.callApi_response hreact] at hv
  rw [CoreHttp.request_response hcore] at hw
  obtain rfl : x.body iso = v := by simpa using hv
  obtain rfl : camelizeKeys (x.body iso) = w := by simpa using hw
  cases x with
  | file r =>
    have hproject : ("projectId", "project_id") ∈ fileRecordFields := by decide
    have hsame := (agreesAt_record_iff r hproject).mp (h _ hproject)
    exact absurd hsame (by decide)
  | list r =>
    have hmore : ("hasMore", "has_more") ∈ listResponseFields := by decide
    have hsame := (agreesAt_list_iff r hmore).mp (h.1 _ hmore)
    exact absurd hsame (by decide)

/-- An empty page. -/
theorem not_agree_empty_page :
    let x : Rendered := .list ⟨[], 0, 50, 0, false, none⟩
    ¬ClientsAgree toString x
      (ReactContext.callApi (.ok "fn_1") (.ok "fn_2")
        (fun _ => .response (x.response toString none))
        "GET" "/files")
      (CoreHttp.request ⟨30000, 3⟩ (fun _ => .response (x.response toString none)) .get) :=
  not_agree "/files" rfl (lastAnswer_const _ _ _)

/-- A file on record. -/
def renderedFile : FileResponse where
  id := "f1"
  organizationId := "o1"
  projectId := "p1"
  filename := "a.txt"
  contentType := "text/plain"
  sizeBytes := 1
  status := .ready
  storageKey := "o1/p1/f1"
  folderId := none
  category := none
  versionCount := 1
  tags := []
  metadata := []
  createdAt := 0
  updatedAt := 0

/-- The React context has no `projectId` for a file of `p1`. -/
theorem react_project_undefined :
    let x : Rendered := .file renderedFile
    let react := ReactContext.callApi (.ok "fn_1") (.ok "fn_2")
      (fun _ => .response (x.response toString none)) "GET" "/files/f1"
    let core := CoreHttp.request ⟨30000, 3⟩ (fun _ => .response (x.response toString none)) .get
    (∃ v, react = .ok (some v) ∧ property v "projectId" = none) ∧
    (∃ w, core = .ok (some w) ∧ property w "projectId" = some (.str "p1")) ∧
    ¬ClientsAgree toString x react core := by
  have hcore : ∃ w, CoreHttp.request ⟨30000, 3⟩
      (fun _ => .response (Rendered.response toString (.file renderedFile) none)) .get
      = .ok (some w) ∧ property w "projectId" = some (.str "p1") := ⟨_, rfl, by decide +kernel⟩
  refine ⟨⟨_, rfl, by decide +kernel⟩, hcore, ?_⟩
  rintro ⟨v, w, hv, -, h⟩
  obtain rfl : renderedFile.render toString = v := Option.some.inj (Except.ok.inj hv)
  have hproject := (h ("projectId", "project_id") (by decide)).1
  exact absurd hproject (by decide +kernel)

end Calls

end FileNest
