import FileNest.Lib.UrlEncoded
import FileNest.Schemas
import FileNest.Sdk.Naming

/-!
# Filters of a file list

Each client writes the caller's filters into a query, and the list route reads them back.  The
route takes a parameter `tags` for each tag; the clients send one, with the tags joined by
commas.  The Node client sends the folder under a name the route does not know, and the Python
client sends no filter that is blank.

## Main definitions

* `FileListFilters` — what a caller may filter by.
* `ListClient.query` — the query of a client.
* `FilesRouter.listFilesParams` — what the route reads.
* `Conveys` — the route reads what the caller asked for.

## Main results

* `FilesRouter.listFilesParams_eq` — what the route makes of a query without other parameters.
* `list_filters_carried_iff` — **the filters that each client gets across.**
-/

namespace FileNest

open UrlEncoded

/-! ### The route -/

/-- What the framework and `json.loads` make of a text. -/
structure TextReaders where
  int : String → Option ℤ
  datetime : String → Option ℕ
  loads : String → Option Json
  /-- A number in decimal digits is read as the number. -/
  int_toString : ∀ n : ℕ, int (toString n) = some (n : ℤ)

namespace FilesRouter

variable (r : TextReaders) (query : List (String × String))

/-- All values of a parameter. -/
def values (key : String) : List String := (query.filter (·.1 = key)).map Prod.snd

/-- The value of a parameter: the last one, if it is repeated. -/
def value (key : String) : Option String := (values query key).getLast?

/-- `int | None = Query(None, ge=0)`. -/
def naturalParam (key : String) : Option (Option ℤ) :=
  (value query key).mapM fun text => (r.int text).filter (0 ≤ ·)

/-- `metadata`: blank is no filter, and a text that is not a JSON object is an error. -/
def metadataParam : Option Fields :=
  match orNone (value query "metadata") with
  | none => some []
  | some text =>
    match r.loads text with
    | some (.obj fields) => some fields
    | _ => none

/-- What `list_files` reads of the query; `none` if the framework rejects it. -/
def listFilesParams : Option FileListParams := do
  let dateFrom ← (value query "date_from").mapM r.datetime
  let dateTo ← (value query "date_to").mapM r.datetime
  let sizeMin ← naturalParam r query "size_min"
  let sizeMax ← naturalParam r query "size_max"
  let limit ← ((value query "limit").map r.int).getD (some 50)
  let offset ← ((value query "offset").map r.int).getD (some 0)
  if h : (1 ≤ limit ∧ limit ≤ 200) ∧ 0 ≤ offset then
    some
      { filters :=
          { folderId := value query "folder_id", q := value query "q",
            tags := values query "tags", category := value query "category",
            status := value query "status", dateFrom, dateTo, sizeMin, sizeMax,
            metadataFilter := (metadataParam r query).getD [] }
        metadataInvalid := (metadataParam r query).isNone
        limit := limit.toNat
        offset := offset.toNat
        cursor := value query "cursor"
        limit_mem := by omega }
  else none

/-- The route, from the query string. -/
def readQuery (query : List UInt8) : Option FileListParams := (parse query).bind (listFilesParams r)

end FilesRouter

/-! ### The clients -/

/-- The filters of `files.list`.  The route has no parameter for the type and the sorting. -/
structure FileListFilters where
  folderId : Option String := none
  mimeType : Option String := none
  status : Option String := none
  tags : Option (List String) := none
  limit : Option ℕ := none
  offset : Option ℕ := none
  sortBy : Option String := none
  sortOrder : Option String := none
  metadata : Option (List (String × String)) := none
  /-- The route takes no other limits. -/
  limit_mem : ∀ n, limit = some n → 1 ≤ n ∧ n ≤ 200 := by simp

/-- `if (v !== undefined) params.set(k, String(v))`, for each entry. -/
def definedEntries (params : List (String × Option String)) : List (String × String) :=
  params.filterMap fun p => p.2.map fun v => (p.1, v)

section Clients

variable (stringify : List (String × String) → String) (f : FileListFilters)

/-- The parameters of `list`: the filters but for metadata and tags are spread as they are. -/
def NodeFiles.listParams : List (String × Option String) :=
  [("folderId", f.folderId), ("mimeType", f.mimeType), ("status", f.status),
    ("limit", f.limit.map toString), ("offset", f.offset.map toString), ("sortBy", f.sortBy),
    ("sortOrder", f.sortOrder), ("metadata", f.metadata.map stringify),
    ("tags", f.tags.map (Text.joinWith ","))]

/-- The parameters of `list`, of `FilesNamespace`; it does not take metadata. -/
def PythonFiles.listParams : List (String × Option String) :=
  [("limit", some (toString (f.limit.getD 20))), ("offset", some (toString (f.offset.getD 0))),
    ("folder_id", orNone f.folderId), ("mime_type", orNone f.mimeType), ("status", orNone f.status),
    ("tags", (f.tags.filter (· ≠ [])).map (Text.joinWith ",")), ("sort_by", orNone f.sortBy),
    ("sort_order", orNone f.sortOrder)]

/-- The parameters of `listFiles`; a folder that is `null` is sent as `root`. -/
def ReactContext.listParams (folderId : Option (Option String)) : List (String × Option String) :=
  [("folder_id", folderId.map fun id => id.getD "root"), ("mime_type", f.mimeType),
    ("status", f.status), ("sort_by", f.sortBy), ("sort_order", f.sortOrder),
    ("limit", f.limit.map toString), ("offset", f.offset.map toString),
    ("tags", f.tags.map (Text.joinWith ",")), ("metadata", f.metadata.map stringify)]

/-- A letter or a digit. -/
def isAlphanumeric (b : UInt8) : Bool :=
  (0x30 ≤ b && b ≤ 0x39) || (0x41 ≤ b && b ≤ 0x5A) || (0x61 ≤ b && b ≤ 0x7A)

/-- `URLSearchParams`. -/
def urlSearchParams : Writer where
  keeps b := isAlphanumeric b || [0x2A, 0x2D, 0x2E, 0x5F].contains b
  plusForSpace := true
  keeps_plain := by decide +kernel

/-- `urlencode`, under `httpx`. -/
def urlencode : Writer where
  keeps b := isAlphanumeric b || [0x2D, 0x2E, 0x5F, 0x7E].contains b
  plusForSpace := true
  keeps_plain := by decide +kernel

/-- The clients that list files. -/
inductive ListClient where
  | node
  | python
  | react

namespace ListClient

/-- The query of a client, as pairs. -/
def entries : ListClient → List (String × String)
  | node => definedEntries (NodeFiles.listParams stringify f)
  | python => definedEntries (PythonFiles.listParams f)
  | react => definedEntries (ReactContext.listParams stringify f (f.folderId.map some))

/-- The query string of a client. -/
def query (c : ListClient) : List UInt8 :=
  match c with
  | node | react => urlSearchParams.serialize (c.entries stringify f)
  | python => urlencode.serialize (c.entries stringify f)

end ListClient

end Clients

/-! ### What the route reads -/

namespace FilesRouter

/-- The route sees the entries that are defined. -/
theorem values_definedEntries (params : List (String × Option String)) (key : String) :
    values (definedEntries params) key = (params.filter (·.1 = key)).filterMap Prod.snd := by
  unfold values
  induction params with
  | nil => rfl
  | cons p params ih =>
    obtain ⟨k, _ | v⟩ := p
    · by_cases hk : k = key <;> simpa [definedEntries, hk] using ih
    · by_cases hk : k = key <;> simpa [definedEntries, hk] using ih

section Entry

variable {params : List (String × Option String)} {key : String} {v : Option String}

theorem values_of_entry (h : params.filter (·.1 = key) = [(key, v)]) :
    values (definedEntries params) key = v.toList := by
  rw [values_definedEntries, h]
  cases v <;> rfl

theorem value_of_entry (h : params.filter (·.1 = key) = [(key, v)]) :
    value (definedEntries params) key = v := by
  unfold value
  rw [values_of_entry h]
  cases v <;> rfl

theorem value_of_notMem (h : key ∉ params.map Prod.fst) :
    value (definedEntries params) key = none := by
  have hnone : params.filter (·.1 = key) = [] := by
    rw [List.filter_eq_nil_iff]
    intro p hp hkey
    exact h (List.mem_map.mpr ⟨p, hp, by simpa using hkey⟩)
  unfold value
  rw [values_definedEntries, hnone]
  rfl

end Entry

/-- The parameters of the route that no client sends. -/
def unusedParams : List String :=
  ["q", "category", "date_from", "date_to", "size_min", "size_max", "cursor"]

/-- **A query without the parameters that no client sends.** -/
theorem listFilesParams_eq (r : TextReaders) {query : List (String × String)}
    {limit offset : Option ℕ} {fields : Fields} (hlimit : value query "limit" = limit.map toString)
    (hoffset : value query "offset" = offset.map toString)
    (hrange : ∀ n, limit = some n → 1 ≤ n ∧ n ≤ 200)
    (hmetadata : metadataParam r query = some fields)
    (hunused : ∀ key ∈ unusedParams, value query key = none) :
    ∃ params, listFilesParams r query = some params ∧
      params.filters =
        { folderId := value query "folder_id", tags := values query "tags",
          status := value query "status", metadataFilter := fields } ∧
      params.metadataInvalid = false ∧ params.limit = limit.getD 50 ∧
      params.offset = offset.getD 0 ∧ params.cursor = none := by
  simp only [unusedParams, List.forall_mem_cons, List.not_mem_nil, false_implies, implies_true,
    and_true] at hunused
  obtain ⟨hq, hcategory, hfrom, hto, hmin, hmax, hcursor⟩ := hunused
  have hlimit' : ((value query "limit").map r.int).getD (some 50)
      = some ((limit.getD 50 : ℕ) : ℤ) := by
    rw [hlimit]
    cases limit with
    | none => rfl
    | some n => exact r.int_toString n
  have hoffset' : ((value query "offset").map r.int).getD (some 0)
      = some ((offset.getD 0 : ℕ) : ℤ) := by
    rw [hoffset]
    cases offset with
    | none => rfl
    | some n => exact r.int_toString n
  have hbounds : (1 ≤ ((limit.getD 50 : ℕ) : ℤ) ∧ ((limit.getD 50 : ℕ) : ℤ) ≤ 200)
      ∧ 0 ≤ ((offset.getD 0 : ℕ) : ℤ) := by
    cases limit with
    | none => simp
    | some n =>
      have hn := hrange n rfl
      simp only [Option.getD_some]
      omega
  unfold listFilesParams naturalParam
  rw [hlimit', hoffset', hmetadata, hq, hcategory, hfrom, hto, hmin, hmax, hcursor]
  exact ⟨_, dif_pos hbounds, rfl, rfl, rfl, rfl, rfl⟩

end FilesRouter

/-! ### Filters that get across -/

open FilesRouter

/-- The metadata filter, as JSON. -/
def FileListFilters.metadataFilter (f : FileListFilters) : Fields :=
  (f.metadata.getD []).map fun p => (p.1, .str p.2)

/-- The route has read what the caller asked for: these filters and no others, with the limit and
the offset where the caller gave one. -/
structure Conveys (f : FileListFilters) (params : FileListParams) : Prop where
  filters : params.filters =
    { folderId := f.folderId, tags := f.tags.getD [], status := f.status,
      metadataFilter := f.metadataFilter }
  valid : params.metadataInvalid = false
  limit : ∀ n, f.limit = some n → params.limit = n
  offset : ∀ n, f.offset = some n → params.offset = n
  cursor : params.cursor = none

/-- `json.loads` reads the caller's metadata back from what `JSON.stringify` makes of it. -/
def ReadsBack (r : TextReaders) (stringify : List (String × String) → String)
    (f : FileListFilters) : Prop :=
  ∀ m, f.metadata = some m → stringify m ≠ "" ∧ r.loads (stringify m) = some (.obj f.metadataFilter)

namespace ListClient

/-- What a caller can pass: `list` of the Python SDK has no parameter for metadata. -/
def CanPass (f : FileListFilters) : ListClient → Prop
  | node | react => True
  | python => f.metadata = none

/-- The filters a client gets across. -/
def GetsAcross (f : FileListFilters) : ListClient → Prop
  | node => f.folderId = none ∧ (f.tags = none ∨ ∃ tag, f.tags = some [tag])
  | python => f.folderId ≠ some "" ∧ f.status ≠ some "" ∧
      (f.tags = none ∨ f.tags = some [] ∨ ∃ tag, f.tags = some [tag])
  | react => f.tags = none ∨ ∃ tag, f.tags = some [tag]

end ListClient

section Tags

variable (tags : Option (List String))

/-- One parameter for all tags is one tag. -/
theorem joined_tags_iff :
    (tags.map (Text.joinWith ",")).toList = tags.getD []
      ↔ tags = none ∨ ∃ tag, tags = some [tag] := by
  match tags with
  | none => simp
  | some [] => simp [Text.joinWith]
  | some [tag] => simp [Text.joinWith]
  | some (tag :: tag' :: rest) => simp

/-- No parameter is no tag. -/
theorem joined_tags_filter_iff :
    ((tags.filter (· ≠ [])).map (Text.joinWith ",")).toList = tags.getD []
      ↔ tags = none ∨ tags = some [] ∨ ∃ tag, tags = some [tag] := by
  match tags with
  | none => simp
  | some [] => simp
  | some [tag] => simp [Text.joinWith]
  | some (tag :: tag' :: rest) => simp [Option.filter]

theorem orNone_eq_self_iff (s : Option String) : orNone s = s ↔ s ≠ some "" := by
  unfold orNone
  split
  · simp
  · rename_i hne
    exact iff_of_true rfl hne

end Tags

section Carried

variable {r : TextReaders} {stringify : List (String × String) → String} {f : FileListFilters}

/-- What is left to compare once the query is read. -/
theorem carried_iff {query : List (String × String)} (limit offset : Option ℕ)
    (hlimit : value query "limit" = limit.map toString)
    (hoffset : value query "offset" = offset.map toString)
    (hrange : ∀ n, limit = some n → 1 ≤ n ∧ n ≤ 200)
    (hlimit' : ∀ n, f.limit = some n → limit = some n)
    (hoffset' : ∀ n, f.offset = some n → offset = some n)
    (hmetadata : metadataParam r query = some f.metadataFilter)
    (hunused : ∀ key ∈ unusedParams, value query key = none) :
    (∃ params, listFilesParams r query = some params ∧ Conveys f params) ↔
      value query "folder_id" = f.folderId ∧ values query "tags" = f.tags.getD [] ∧
        value query "status" = f.status := by
  obtain ⟨params, hparams, hfilters, hvalid, hparamsLimit, hparamsOffset, hcursor⟩ :=
    listFilesParams_eq r hlimit hoffset hrange hmetadata hunused
  constructor
  · rintro ⟨params', hparams', hcarries⟩
    obtain rfl : params = params' := Option.some.inj (hparams.symm.trans hparams')
    have heq := hfilters.symm.trans hcarries.filters
    simp only [FileRepository.Filters.mk.injEq] at heq
    exact ⟨heq.1, heq.2.2.1, heq.2.2.2.2.1⟩
  · rintro ⟨hfolder, htags, hstatus⟩
    refine ⟨params, hparams, ?_, hvalid, ?_, ?_, hcursor⟩
    · rw [hfilters, hfolder, htags, hstatus]
    · intro n hn
      rw [hparamsLimit, hlimit' n hn]
      rfl
    · intro n hn
      rw [hparamsOffset, hoffset' n hn]
      rfl

/-- None of them is a key of a client. -/
theorem node_unused : ∀ key ∈ unusedParams,
    key ∉ (NodeFiles.listParams stringify f).map Prod.fst := by
  simp [unusedParams, NodeFiles.listParams]

theorem python_unused : ∀ key ∈ unusedParams, key ∉ (PythonFiles.listParams f).map Prod.fst := by
  simp [unusedParams, PythonFiles.listParams]

theorem react_unused : ∀ key ∈ unusedParams,
    key ∉ (ReactContext.listParams stringify f (f.folderId.map some)).map Prod.fst := by
  simp [unusedParams, ReactContext.listParams]

/-- The metadata reads back. -/
theorem metadataParam_eq {query : List (String × String)} (hjson : ReadsBack r stringify f)
    (hvalue : value query "metadata" = f.metadata.map stringify) :
    metadataParam r query = some f.metadataFilter := by
  unfold metadataParam
  rw [hvalue]
  cases hm : f.metadata with
  | none => simp [orNone, FileListFilters.metadataFilter, hm]
  | some m =>
    obtain ⟨hne, hloads⟩ := hjson m hm
    have hself : orNone (some (stringify m)) = some (stringify m) :=
      (orNone_eq_self_iff _).mpr fun h => hne (Option.some.inj h)
    simp only [Option.map_some, hself, hloads]

/-- The Node client sends no folder that the route knows. -/
theorem node_carried_iff (hjson : ReadsBack r stringify f) :
    (∃ params, listFilesParams r (ListClient.node.entries stringify f) = some params ∧
      Conveys f params) ↔ ListClient.node.GetsAcross f := by
  unfold ListClient.entries ListClient.GetsAcross
  have hunused : ∀ key ∈ unusedParams,
      value (definedEntries (NodeFiles.listParams stringify f)) key = none :=
    fun key hkey => value_of_notMem (node_unused key hkey)
  have hfolder : value (definedEntries (NodeFiles.listParams stringify f)) "folder_id" = none :=
    value_of_notMem (by simp [NodeFiles.listParams])
  rw [carried_iff f.limit f.offset (value_of_entry rfl) (value_of_entry rfl) f.limit_mem
    (fun _ h => h) (fun _ h => h) (metadataParam_eq hjson (value_of_entry rfl)) hunused]
  rw [hfolder, values_of_entry rfl, value_of_entry rfl, joined_tags_iff, eq_comm (a := none)]
  simp

/-- The React client sends every filter, the tags as one. -/
theorem react_carried_iff (hjson : ReadsBack r stringify f) :
    (∃ params, listFilesParams r (ListClient.react.entries stringify f) = some params ∧
      Conveys f params) ↔ ListClient.react.GetsAcross f := by
  unfold ListClient.entries ListClient.GetsAcross
  have hunused : ∀ key ∈ unusedParams,
      value (definedEntries (ReactContext.listParams stringify f (f.folderId.map some))) key
        = none :=
    fun key hkey => value_of_notMem (react_unused key hkey)
  rw [carried_iff f.limit f.offset (value_of_entry rfl) (value_of_entry rfl) f.limit_mem
    (fun _ h => h) (fun _ h => h) (metadataParam_eq hjson (value_of_entry rfl)) hunused]
  rw [value_of_entry rfl, values_of_entry rfl, value_of_entry rfl, joined_tags_iff]
  simp

/-- The Python client sends a limit and an offset always, and no filter that is blank. -/
theorem python_carried_iff (hpass : f.metadata = none) :
    (∃ params, listFilesParams r (ListClient.python.entries stringify f) = some params ∧
      Conveys f params) ↔ ListClient.python.GetsAcross f := by
  unfold ListClient.entries ListClient.GetsAcross
  have hunused : ∀ key ∈ unusedParams,
      value (definedEntries (PythonFiles.listParams f)) key = none :=
    fun key hkey => value_of_notMem (python_unused key hkey)
  have hrange : ∀ n, some (f.limit.getD 20) = some n → 1 ≤ n ∧ n ≤ 200 := by
    intro n hn
    obtain rfl : f.limit.getD 20 = n := Option.some.inj hn
    cases hlimit : f.limit with
    | none => decide
    | some n => exact f.limit_mem n hlimit
  have hlimit : ∀ n, f.limit = some n → some (f.limit.getD 20) = some n := by
    intro n hn
    rw [hn]
    rfl
  have hoffset : ∀ n, f.offset = some n → some (f.offset.getD 0) = some n := by
    intro n hn
    rw [hn]
    rfl
  have hmetadata : metadataParam r (definedEntries (PythonFiles.listParams f))
      = some f.metadataFilter := by
    have hnone : value (definedEntries (PythonFiles.listParams f)) "metadata" = none :=
      value_of_notMem (by simp [PythonFiles.listParams])
    unfold metadataParam FileListFilters.metadataFilter
    rw [hnone, hpass]
    rfl
  rw [carried_iff (some (f.limit.getD 20)) (some (f.offset.getD 0)) (value_of_entry rfl)
    (value_of_entry rfl) hrange hlimit hoffset hmetadata hunused]
  rw [value_of_entry rfl, values_of_entry rfl, value_of_entry rfl, joined_tags_filter_iff,
    orNone_eq_self_iff, orNone_eq_self_iff]
  exact and_congr_right' and_comm

/-- Writing and reading the query string changes nothing. -/
theorem readQuery_query (r : TextReaders) (c : ListClient) :
    readQuery r (c.query stringify f) = listFilesParams r (c.entries stringify f) := by
  unfold readQuery ListClient.query
  cases c <;> simp only [parse_serialize, Option.bind_some]

/-- **What each client gets across**: the Node client no folder, the Python client nothing blank,
and none of them two tags. -/
theorem list_filters_carried_iff (c : ListClient) (hjson : ReadsBack r stringify f)
    (hpass : c.CanPass f) :
    (∃ params, readQuery r (c.query stringify f) = some params ∧ Conveys f params)
      ↔ c.GetsAcross f := by
  rw [readQuery_query]
  cases c with
  | node => exact node_carried_iff hjson
  | python => exact python_carried_iff hpass
  | react => exact react_carried_iff hjson

end Carried

/-! ### Examples of filters -/

/-- The text of an object whose names and values need no escapes. -/
def plainObject (m : List (String × String)) : String :=
  "\x7b" ++ Text.joinWith "," (m.map fun p => "\"" ++ p.1 ++ "\":\"" ++ p.2 ++ "\"") ++ "\x7d"

/-- Readers of decimal digits, and of one object. -/
def devReaders : TextReaders where
  int s := if s.toList.all Char.isDigit then some (Nat.ofDigitChars 10 s.toList 0 : ℕ) else none
  datetime _ := none
  loads s := if s = plainObject [("k", "v")] then some (.obj [("k", .str "v")]) else none
  int_toString := by
    intro n
    have hdigits : (toString n).toList.all Char.isDigit = true := by
      rw [Nat.toString_eq_repr, Nat.toList_repr, List.all_eq_true]
      exact fun c hc => Nat.isDigit_of_mem_toDigits (by decide) (by decide) hc
    rw [if_pos hdigits, Nat.toString_eq_repr, Nat.toList_repr, Nat.ofDigitChars_ten_toDigits]

/-- A filter of every kind, with one tag. -/
def devFilters : FileListFilters where
  folderId := some "d1"
  status := some "ready"
  tags := some ["lab"]
  limit := some 10
  offset := some 20
  metadata := some [("k", "v")]
  limit_mem := by
    rintro n hn
    obtain rfl := Option.some.inj hn
    decide

/-- The React client gets them across. -/
theorem list_filters_carried_react : ∃ params,
    readQuery devReaders (ListClient.react.query plainObject devFilters) = some params ∧
      Conveys devFilters params := by
  refine (list_filters_carried_iff .react ?_ trivial).mpr (.inr ⟨"lab", rfl⟩)
  intro m hm
  obtain rfl := Option.some.inj hm
  have hloads : devReaders.loads (plainObject [("k", "v")]) = some (.obj [("k", .str "v")]) := by
    simp [devReaders]
  exact ⟨by decide, hloads⟩

/-- The route reads the tags `clinical` and `lab` of a client as one tag. -/
def MergesTags (c : ListClient) : Prop :=
  ∃ params, readQuery devReaders (c.query plainObject { tags := some ["clinical", "lab"] })
      = some params ∧
    params.filters.tags = ["clinical,lab"] ∧ ¬Conveys { tags := some ["clinical", "lab"] } params

theorem mergesTags_of_entries {c : ListClient} {params : FileListParams}
    (hparams : listFilesParams devReaders
      (c.entries plainObject { tags := some ["clinical", "lab"] }) = some params)
    (htags : params.filters.tags = ["clinical,lab"]) : MergesTags c := by
  refine ⟨params, ?_, htags, fun h => ?_⟩
  · rw [readQuery_query]
    exact hparams
  · rw [h.filters] at htags
    simp at htags

/-- So it does, whichever the client. -/
theorem list_filters_two_tags : MergesTags .node ∧ MergesTags .python ∧ MergesTags .react :=
  ⟨mergesTags_of_entries rfl rfl, mergesTags_of_entries rfl rfl, mergesTags_of_entries rfl rfl⟩

end FileNest
