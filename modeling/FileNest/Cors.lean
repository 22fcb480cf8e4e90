import FileNest.Isolation
import FileNest.Lib.Cache
import Mathlib.Algebra.Order.Ring.Rat
import Mathlib.Tactic.NormNum

/-!
# Origins per project

The middleware asks for the allowed origins of the project in the path, and keeps what it has read
for 60 seconds, counted from before it read them.

## Main definitions

* `parseOrigins`, `fetchOrigins` — the allowed origins of a project.
* `PerProjectCORSMiddleware.dispatch` — what becomes of a request.
* `OriginsStep`, `OriginsRun` — lookups, reads, fills and updates, in any order.

## Main results

* `mem_parseOrigins`, `fetchOrigins_eq_some` — the elements of the column, of the only row.
* `origins_bounded_staleness` — **what the cache serves was stored within the last 60 seconds.**
-/

namespace FileNest

open RowStore

/-- What `_get_allowed_origins` makes of the column: `None` if there is no restriction. -/
def parseOrigins (row : Option String) : Option (List String) :=
  match row with
  | none => none
  | some csv =>
      if csv = "" then none
      else
        let origins := ((Text.split ',' csv).filter fun o => Text.strip o != "").map Text.strip
        if origins = [] then none else some origins

section Column

variable {row : Option String} {origins : List String} {origin : String}

/-- There is no restriction if nothing in the column is more than blanks. -/
theorem parseOrigins_eq_none : parseOrigins row = none ↔
    ∀ csv, row = some csv → ∀ o ∈ Text.split ',' csv, Text.strip o = "" := by
  cases row with
  | none => exact iff_of_true rfl fun csv h => by cases h
  | some csv =>
    by_cases hcsv : csv = ""
    · subst hcsv
      refine iff_of_true rfl fun csv h o ho => ?_
      obtain rfl : "" = csv := Option.some.inj h
      obtain rfl : o = "" := List.mem_singleton.mp ho
      rfl
    · simp only [parseOrigins, if_neg hcsv, ite_eq_left_iff, reduceCtorEq, imp_false, not_not,
        List.map_eq_nil_iff, List.filter_eq_nil_iff, bne_iff_ne, ne_eq, Option.some.injEq,
        forall_eq']

/-- The origins are the elements of the column, without the blanks around them. -/
theorem mem_parseOrigins (h : parseOrigins row = some origins) : origin ∈ origins ↔
    origin ≠ "" ∧ ∃ csv, row = some csv ∧ ∃ o ∈ Text.split ',' csv, Text.strip o = origin := by
  cases row with
  | none => cases h
  | some csv =>
    simp only [parseOrigins] at h
    split at h
    · cases h
    split at h
    · cases h
    obtain rfl := Option.some.inj h
    simp only [List.mem_map, List.mem_filter, bne_iff_ne, Option.some.injEq, exists_eq_left']
    constructor
    · rintro ⟨o, ⟨ho, hne⟩, rfl⟩
      exact ⟨hne, o, ho, rfl⟩
    · rintro ⟨hne, o, ho, rfl⟩
      exact ⟨o, ⟨ho, hne⟩, rfl⟩

end Column

/-- The read of `_get_allowed_origins`: nothing, if it raises. -/
def fetchOrigins (db : Database) (projectId : String) : Option (Option (List String)) :=
  match scalarOneOrNone ((db .projectConfigs).filter fun (r : ProjectConfig) =>
      r.projectId == projectId) with
  | .ok row => some (parseOrigins (row.bind ProjectConfig.allowedOrigins))
  | .error _ => none

/-- The row that is read is the only one of the project; where there is none, there is no
restriction. -/
theorem fetchOrigins_eq_some {db : Database} {projectId : String} {origins : Option (List String)} :
    fetchOrigins db projectId = some origins ↔
      ((∀ c ∈ db .projectConfigs, ProjectConfig.projectId c ≠ projectId) ∧ origins = none) ∨
      ∃ config, (db .projectConfigs).filter (fun (c : ProjectConfig) => c.projectId == projectId)
        = [config] ∧ origins = parseOrigins config.allowedOrigins := by
  have hnone : (∀ c ∈ db .projectConfigs, ProjectConfig.projectId c ≠ projectId) ↔
      (db .projectConfigs).filter (fun (c : ProjectConfig) => c.projectId == projectId) = [] := by
    simp only [List.filter_eq_nil_iff, beq_iff_eq, ne_eq]
  rw [hnone, fetchOrigins]
  generalize (db .projectConfigs).filter _ = rows
  rcases rows with _ | ⟨config, _ | ⟨config', rows⟩⟩
  · exact ⟨fun h => .inl ⟨rfl, (Option.some.inj h).symm⟩, by
      rintro (⟨-, rfl⟩ | ⟨config, h, -⟩)
      · rfl
      · cases h⟩
  · constructor
    · exact fun h => .inr ⟨config, rfl, (Option.some.inj h).symm⟩
    · rintro (⟨h, -⟩ | ⟨config', h, rfl⟩)
      · cases h
      · obtain rfl : config = config' := List.head_eq_of_cons_eq h
        rfl
  · refine iff_of_false (fun h => by cases h) ?_
    rintro (⟨h, -⟩ | ⟨config', h, -⟩)
    · cases h
    · cases h

/-- `_CACHE_TTL`, in seconds. -/
def cacheTtl : ℚ := 60

/-- One process: the clock `time.monotonic()`, the database, `_origins_cache` and the calls of
`_get_allowed_origins` that have missed. -/
abbrev OriginsState := Cache.State Database String (Option (List String)) ℚ

/-- A call looks into the cache, has read, or puts what it has read there; a transaction commits;
time goes by. -/
abbrev OriginsStep : OriginsState → Cache.Event String (Option (List String)) ℚ → OriginsState →
    Prop := Cache.Step fetchOrigins cacheTtl

/-- The states of a process since it has started. -/
abbrev OriginsRun : List OriginsState → OriginsState → Prop := Cache.Run fetchOrigins cacheTtl

namespace PerProjectCORSMiddleware

/-- The response of the middleware. -/
inductive Verdict where
  /-- The rest of the application answers, and no header is added. -/
  | passed
  /-- … and these headers are. -/
  | passedWith (headers : List (String × String))
  | answered (status : ℕ) (headers : List (String × String)) (content : String)
  deriving DecidableEq

/-- `dispatch`, from the allowed origins on. -/
def dispatch (method origin : String) : Option (List String) → Verdict
  | none => .passed
  | some allowedOrigins =>
      if origin ∉ allowedOrigins then
        if method = "OPTIONS" then
          .answered 403 [] "Origin not allowed by project CORS policy"
        else .passed
      else if method = "OPTIONS" then
        .answered 200 [("Access-Control-Allow-Origin", origin),
          ("Access-Control-Allow-Methods", "GET, POST, PUT, PATCH, DELETE, OPTIONS"),
          ("Access-Control-Allow-Headers", "Authorization, Content-Type"),
          ("Access-Control-Max-Age", "86400"), ("Vary", "Origin")] ""
      else .passedWith [("Access-Control-Allow-Origin", origin), ("Vary", "Origin")]

end PerProjectCORSMiddleware

/-- What becomes of a request the cache answers for is what a configuration of the last minute
says. -/
theorem verdict_bounded_staleness {past : List OriginsState} {s s' : OriginsState}
    {projectId : String} {origins : Option (List String)} (hrun : OriginsRun past s)
    (hstep : OriginsStep s (.hit projectId origins) s') (method origin : String) :
    ∃ p ∈ past, s.now - 60 ≤ p.now ∧ p.now ≤ s.now ∧
      (fetchOrigins p.store projectId).map (PerProjectCORSMiddleware.dispatch method origin)
        = some (PerProjectCORSMiddleware.dispatch method origin origins) := by
  obtain ⟨p, hp, hafter, hbefore, hfetch⟩ := hrun.hit_held hstep
  exact ⟨p, hp, hafter, hbefore, congrArg _ hfetch⟩

/-- **What the cache serves was stored within the last 60 seconds**, and what a lookup serves after
a miss was stored while it was under way. -/
theorem origins_bounded_staleness {past : List OriginsState} {s s' : OriginsState}
    {e : Cache.Event String (Option (List String)) ℚ} (hrun : OriginsRun past s)
    (hstep : OriginsStep s e s') :
    (∀ projectId origins, e = .hit projectId origins →
      ∃ p ∈ past, s.now - 60 ≤ p.now ∧ p.now ≤ s.now
        ∧ fetchOrigins p.store projectId = some origins) ∧
      ∀ projectId start origins, e = .fill projectId start origins →
        ∃ p ∈ past, start ≤ p.now ∧ p.now ≤ s.now
          ∧ fetchOrigins p.store projectId = some origins := by
  constructor
  · rintro projectId origins rfl
    exact hrun.hit_held hstep
  · rintro projectId start origins rfl
    exact hrun.fill_held hstep

/-! ### An entry that is nearly a minute old -/

/-- A project, and its origins restricted. -/
def restrictedDb : Database :=
  runAll [⟨orgContext "acme", devEnv "p" 1, "", .createProject devProject⟩,
    ⟨orgContext "acme", devEnv "c" 2, "p0",
      .updateSecurityConfig
        { devSecurityConfig with allowedOrigins := some ["https://a.example"] }⟩] Database.empty

/-- What a lookup in `restrictedDb` puts into the cache. -/
def restrictedOrigins : Option (List String) := some ["https://a.example"]

/-- The state of the process, before the lookup that misses and after it. -/
def originsMissed (lookups : List (Cache.Lookup String (Option (List String)) ℚ)) : OriginsState :=
  ⟨0, restrictedDb, fun _ => none, lookups⟩

/-- The state of the process when the lookup has filled the cache. -/
def originsFilled (now : ℚ) (db : Database) : OriginsState :=
  ⟨now, db, Function.update (fun _ => none) "p0" (some (restrictedOrigins, 0 + cacheTtl)), []⟩

/-- A lookup finds an entry 59 seconds old; the restriction has been lifted in the meantime. -/
theorem origins_bounded_staleness_minute : ∃ past,
    OriginsRun past (originsFilled 59 Database.empty) ∧
      OriginsStep (originsFilled 59 Database.empty) (.hit "p0" restrictedOrigins)
        (originsFilled 59 Database.empty) ∧
      fetchOrigins Database.empty "p0" = some none ∧
      ∃ p ∈ past, (59 : ℚ) - 60 ≤ p.now ∧ p.now ≤ 59
        ∧ fetchOrigins p.store "p0" = some restrictedOrigins := by
  have hfetch : fetchOrigins restrictedDb "p0" = some restrictedOrigins := rfl
  have hmiss : OriginsStep (originsMissed []) .silent (originsMissed [⟨"p0", 0, none⟩]) :=
    .miss rfl
  have hread : OriginsStep (originsMissed [⟨"p0", 0, none⟩]) .silent
      (originsMissed [⟨"p0", 0, some restrictedOrigins⟩]) :=
    @Cache.Step.read _ _ _ _ _ _ _ fetchOrigins cacheTtl (originsMissed [⟨"p0", 0, none⟩]) [] []
      "p0" 0 restrictedOrigins rfl hfetch
  have hfill : OriginsStep (originsMissed [⟨"p0", 0, some restrictedOrigins⟩])
      (.fill "p0" 0 restrictedOrigins) (originsFilled 0 restrictedDb) :=
    @Cache.Step.fill _ _ _ _ _ _ _ fetchOrigins cacheTtl
      (originsMissed [⟨"p0", 0, some restrictedOrigins⟩]) [] [] "p0" 0 restrictedOrigins rfl
  have hcommit : OriginsStep (originsFilled 0 restrictedDb) .silent
      (originsFilled 0 Database.empty) := .commit _
  have htick : OriginsStep (originsFilled 0 Database.empty) .silent
      (originsFilled 59 Database.empty) := .tick (by simp [originsFilled])
  have hhit : OriginsStep (originsFilled 59 Database.empty) (.hit "p0" restrictedOrigins)
      (originsFilled 59 Database.empty) := by
    have hentry : (originsFilled 59 Database.empty).entries "p0"
        = some (restrictedOrigins, 0 + cacheTtl) := rfl
    have hlt : (59 : ℚ) < 0 + 60 := by norm_num
    exact .hit (Cache.get_eq_some.mpr ⟨_, hentry, hlt⟩)
  have hrun : OriginsRun _ (originsFilled 59 Database.empty) :=
    (((((Cache.Run.start 0 restrictedDb).step hmiss).step hread).step hfill).step hcommit).step
      htick
  exact ⟨_, hrun, hhit, rfl, (origins_bounded_staleness hrun hhit).1 _ _ rfl⟩

end FileNest
