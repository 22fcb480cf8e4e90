import FileNest.Lib.Trace
import Mathlib.Data.Int.Notation
import Mathlib.Data.List.Basic
import Mathlib.Order.Nat

/-!
# The origins of the OAuth clients

The IAM trusts the origins that the redirect URIs of its OAuth clients have.  It keeps them in a
cache, and in the list of valid audiences, and reads them from the database when the cache has
expired.  An administrator who changes a client has them read again.  A fetch waits for the
database; meanwhile others begin and end.

## Main definitions

* `State`, `Event`, `step` — the module, its fetches, and what happens.
* `Acts` — what an event does, case by case.
* `Since` — what is stored was read since some instant.
* `NotUndone` — what is stored was read since every refresh that has returned.
* `StoresInOrder` — what an event must meet.
* `RefreshesApart` — a refresh begins while no fetch is between reading and storing.

## Main results

* `refresh_not_undone_iff` — **refreshes are not undone throughout a run exactly if no fetch stores
  what it read before a refresh that has returned, and a refresh returns on what was read since.**
* `refresh_not_undone_of_apart` — they are not while none begins between what a fetch reads and
  what it stores.
-/

namespace FileNest

namespace ClientOrigins

open Trace

/-! ### The module -/

/-- A row of `OAuthClient`, as far as it is selected. -/
structure OAuthClient where
  redirectUris : List String

/-- `OriginsCache` -/
structure OriginsCache where
  origins : List String
  timestamp : ℤ

/-- `TTL_MS` -/
def ttlMs : ℤ := 60000

/-- Where a call of `fetchAndApply` is. -/
inductive Phase where
  /-- At `await prisma.oauthClient.findMany(…)`. -/
  | querying
  /-- The database has answered, at an instant. -/
  | read (clients : List OAuthClient) (readAt : ℕ)
  /-- Cache and audiences are set; those who wait for it are not told yet. -/
  | applied (origins : List String)
  /-- The function that was called has returned. -/
  | returned (origins : List String)
  | failed

/-- A call of `fetchAndApply`, from `refreshOAuthClientOrigins` if it is `explicit`, else from
`getOAuthClientOrigins`. -/
structure Fetch where
  explicit : Bool
  startedAt : ℕ
  phase : Phase

/-- The variables of the module, the table of clients and the fetches, which are named by their
place. -/
structure State where
  /-- `Date.now()` -/
  now : ℤ
  clients : List OAuthClient
  cache : Option OriginsCache
  validAudiencesRef : List String
  fetches : List Fetch
  /-- How many events there were.  The program has no such count, nor the next two. -/
  instant : ℕ
  /-- When the cache was read from the database. -/
  cacheReadAt : Option ℕ
  /-- When the audiences were. -/
  audiencesReadAt : Option ℕ

/-- What happens. -/
inductive Event where
  | tick (ms : ℕ)
  | changeClients (clients : List OAuthClient)
  | getOAuthClientOrigins
  | refreshOAuthClientOrigins
  /-- The database answers a fetch. -/
  | read (f : ℕ)
  /-- A fetch goes on behind its `await`. -/
  | apply (f : ℕ)
  /-- What waits for a fetch goes on, and returns. -/
  | finish (f : ℕ)
  /-- The query of a fetch fails. -/
  | fail (f : ℕ)

namespace State

variable (betterAuthUrl : Option String) (extractOrigin : String → Option String) (s : State)

/-- `fetchAndApply()`, up to its `await`. -/
def fetchAndApply (explicit : Bool) : State :=
  { s with fetches := s.fetches ++ [⟨explicit, s.instant, .querying⟩] }

/-- What becomes of the state at an event of a fetch, if there is one. -/
def onFetch (f : ℕ) (next : Fetch → State) : State := (s.fetches[f]?).elim s next

/-- Sets where a fetch is. -/
def setPhase (f : ℕ) (x : Fetch) (phase : Phase) : State :=
  { s with fetches := s.fetches.set f { x with phase } }

/-- What `fetchAndApply` makes of the rows: the distinct origins, in the order they come up. -/
def originsOf (clients : List OAuthClient) : List String :=
  (clients.flatMap fun c => c.redirectUris.filterMap extractOrigin).eraseDups

/-- `fetchAndApply()`, behind its `await`. -/
def applyRows (f : ℕ) (x : Fetch) (clients : List OAuthClient) (readAt : ℕ) : State :=
  let origins := originsOf extractOrigin clients
  { s.setPhase f x (.applied origins) with
    cache := some ⟨origins, s.now⟩
    validAudiencesRef := (betterAuthUrl.toList ++ origins).filter (· ≠ "")
    cacheReadAt := some readAt
    audiencesReadAt := some readAt }

/-- What an event does; one that cannot happen does nothing. -/
def act : Event → State
  | .tick ms => { s with now := s.now + ms }
  | .changeClients clients => { s with clients }
  | .getOAuthClientOrigins =>
    if s.cache.any fun cache => s.now - cache.timestamp < ttlMs then s
    else s.fetchAndApply false
  | .refreshOAuthClientOrigins =>
    { s with cache := none, cacheReadAt := none }.fetchAndApply true
  | .read f => s.onFetch f fun x =>
    match x.phase with
    | .querying => s.setPhase f x (.read s.clients s.instant)
    | _ => s
  | .apply f => s.onFetch f fun x =>
    match x.phase with
    | .read clients readAt => s.applyRows betterAuthUrl extractOrigin f x clients readAt
    | _ => s
  | .finish f => s.onFetch f fun x =>
    match x.phase with
    | .applied origins => s.setPhase f x (.returned origins)
    | _ => s
  | .fail f => s.onFetch f fun x =>
    match x.phase with
    | .querying => s.setPhase f x .failed
    | .read _ _ => s.setPhase f x .failed
    | _ => s

/-- One event. -/
def step (e : Event) : State :=
  { s.act betterAuthUrl extractOrigin e with instant := s.instant + 1 }

/-- The module is loaded. -/
def initial (betterAuthUrl : Option String) (now : ℤ) (clients : List OAuthClient) : State where
  now
  clients
  cache := none
  validAudiencesRef := betterAuthUrl.toList.filter (· ≠ "")
  fetches := []
  instant := 0
  cacheReadAt := none
  audiencesReadAt := none

/-- What is stored was read since an instant. -/
def Since (t : ℕ) : Prop := (∀ r ∈ s.cacheReadAt, t ≤ r) ∧ ∀ r ∈ s.audiencesReadAt, t ≤ r

end State

/-- A call of `refreshOAuthClientOrigins` that has returned. -/
def Fetch.Returned (x : Fetch) : Prop := x.explicit = true ∧ ∃ origins, x.phase = .returned origins

/-- What is stored was read since every refresh that has returned. -/
def NotUndone (s : State) : Prop := ∀ x ∈ s.fetches, x.Returned → s.Since x.startedAt

/-- What an event must meet. -/
def StoresInOrder (s : State) : Event → Prop
  -- what a fetch stores was read since every refresh that has returned
  | .apply f => ∀ x, s.fetches[f]? = some x → ∀ clients readAt, x.phase = .read clients readAt →
      ∀ y ∈ s.fetches, y.Returned → y.startedAt ≤ readAt
  -- what is stored when a refresh returns was read since it began
  | .finish f => ∀ x, s.fetches[f]? = some x → x.explicit = true →
      ∀ origins, x.phase = .applied origins → s.Since x.startedAt
  | _ => True

/-- When a refresh begins, no fetch has read what it has not stored yet. -/
def RefreshesApart (s : State) : Event → Prop
  | .refreshOAuthClientOrigins =>
      ∀ x ∈ s.fetches, ∀ clients readAt, x.phase ≠ .read clients readAt
  | _ => True

section Steps

variable {betterAuthUrl : Option String} {extractOrigin : String → Option String}
variable {s : State} {f : ℕ} {x : Fetch}

/-! ### One event -/

/-- What an event does, case by case.  An event of a fetch that is not where the event asks for
leaves all as it is. -/
inductive Acts (betterAuthUrl : Option String) (extractOrigin : String → Option String)
    (s : State) : Event → State → Prop
  | tick (ms : ℕ) : Acts betterAuthUrl extractOrigin s (.tick ms) { s with now := s.now + ms }
  | changeClients (clients : List OAuthClient) :
      Acts betterAuthUrl extractOrigin s (.changeClients clients) { s with clients }
  | cached : Acts betterAuthUrl extractOrigin s .getOAuthClientOrigins s
  | expired : Acts betterAuthUrl extractOrigin s .getOAuthClientOrigins (s.fetchAndApply false)
  | refresh : Acts betterAuthUrl extractOrigin s .refreshOAuthClientOrigins
      ({ s with cache := none, cacheReadAt := none }.fetchAndApply true)
  | read {f : ℕ} {x : Fetch} (hx : s.fetches[f]? = some x) (hphase : x.phase = .querying) :
      Acts betterAuthUrl extractOrigin s (.read f) (s.setPhase f x (.read s.clients s.instant))
  | apply {f : ℕ} {x : Fetch} {clients : List OAuthClient} {readAt : ℕ}
      (hx : s.fetches[f]? = some x) (hphase : x.phase = .read clients readAt) :
      Acts betterAuthUrl extractOrigin s (.apply f)
        (s.applyRows betterAuthUrl extractOrigin f x clients readAt)
  | finish {f : ℕ} {x : Fetch} {origins : List String} (hx : s.fetches[f]? = some x)
      (hphase : x.phase = .applied origins) :
      Acts betterAuthUrl extractOrigin s (.finish f) (s.setPhase f x (.returned origins))
  | fail {f : ℕ} {x : Fetch} (hx : s.fetches[f]? = some x)
      (hphase : x.phase = .querying ∨ ∃ clients readAt, x.phase = .read clients readAt) :
      Acts betterAuthUrl extractOrigin s (.fail f) (s.setPhase f x .failed)
  | skipRead (f : ℕ) : Acts betterAuthUrl extractOrigin s (.read f) s
  | skipApply {f : ℕ} (h : ∀ x, s.fetches[f]? = some x →
      ∀ clients readAt, x.phase ≠ .read clients readAt) :
      Acts betterAuthUrl extractOrigin s (.apply f) s
  | skipFinish {f : ℕ} (h : ∀ x, s.fetches[f]? = some x →
      ∀ origins, x.phase ≠ .applied origins) :
      Acts betterAuthUrl extractOrigin s (.finish f) s
  | skipFail (f : ℕ) : Acts betterAuthUrl extractOrigin s (.fail f) s

theorem not_returned {phase : Phase} (hphase : ∀ origins, phase ≠ .returned origins)
    (hx : x.phase = phase) : ¬x.Returned := by
  rintro ⟨-, origins, hreturned⟩
  exact hphase origins (hx.symm.trans hreturned)

theorem acts (betterAuthUrl : Option String) (extractOrigin : String → Option String) (s : State)
    (e : Event) : Acts betterAuthUrl extractOrigin s e (s.act betterAuthUrl extractOrigin e) := by
  cases e with
  | tick ms => exact .tick ms
  | changeClients clients => exact .changeClients clients
  | getOAuthClientOrigins =>
    simp only [State.act]
    split
    · exact .cached
    · exact .expired
  | refreshOAuthClientOrigins => exact .refresh
  | read f =>
    simp only [State.act, State.onFetch]
    cases hx : s.fetches[f]? with
    | none => exact .skipRead f
    | some x =>
      simp only [Option.elim_some]
      cases hphase : x.phase with
      | querying => exact .read hx hphase
      | read | applied | returned | failed => exact .skipRead f
  | apply f =>
    simp only [State.act, State.onFetch]
    cases hx : s.fetches[f]? with
    | none => exact .skipApply (by simp [hx])
    | some x =>
      simp only [Option.elim_some]
      cases hphase : x.phase with
      | read clients readAt => exact .apply hx hphase
      | querying | applied | returned | failed => exact .skipApply (by simp [hx, hphase])
  | finish f =>
    simp only [State.act, State.onFetch]
    cases hx : s.fetches[f]? with
    | none => exact .skipFinish (by simp [hx])
    | some x =>
      simp only [Option.elim_some]
      cases hphase : x.phase with
      | applied origins => exact .finish hx hphase
      | querying | read | returned | failed => exact .skipFinish (by simp [hx, hphase])
  | fail f =>
    simp only [State.act, State.onFetch]
    cases hx : s.fetches[f]? with
    | none => exact .skipFail f
    | some x =>
      simp only [Option.elim_some]
      cases hphase : x.phase with
      | querying => exact .fail hx (.inl hphase)
      | read clients readAt => exact .fail hx (.inr ⟨clients, readAt, hphase⟩)
      | applied | returned | failed => exact .skipFail f

/-- What holds of the refreshes that have returned when one fetch goes on. -/
theorem forall_returned_set (hx : s.fetches[f]? = some x) (hnot : ¬x.Returned) (y : Fetch)
    (Q : ℕ → Prop) :
    (∀ z ∈ s.fetches.set f y, z.Returned → Q z.startedAt) ↔
      (∀ z ∈ s.fetches, z.Returned → Q z.startedAt) ∧ (y.Returned → Q y.startedAt) := by
  obtain ⟨hf, hget⟩ := List.getElem?_eq_some_iff.mp hx
  constructor
  · intro h
    refine ⟨fun z hz hreturned => ?_, h y (List.mem_set hf y)⟩
    obtain ⟨i, hi, rfl⟩ := List.mem_iff_getElem.mp hz
    have hne : f ≠ i := by
      rintro rfl
      exact hnot (hget ▸ hreturned)
    refine h _ (List.mem_iff_getElem.mpr ⟨i, by rwa [List.length_set], ?_⟩) hreturned
    exact List.getElem_set_ne hne _
  · rintro ⟨hall, hnew⟩ z hz hreturned
    obtain hz | rfl := List.mem_or_eq_of_mem_set hz
    · exact hall z hz hreturned
    · exact hnew hreturned

/-- A fetch goes on, and nothing is stored. -/
theorem notUndone_setPhase_iff (h : NotUndone s) (hx : s.fetches[f]? = some x)
    (hnot : ¬x.Returned) (phase : Phase) :
    NotUndone (s.setPhase f x phase) ↔
      (({ x with phase } : Fetch).Returned → s.Since x.startedAt) :=
  (forall_returned_set hx hnot { x with phase } s.Since).trans (and_iff_right h)

/-- A fetch begins. -/
theorem NotUndone.fetchAndApply (h : NotUndone s) (explicit : Bool) :
    NotUndone (s.fetchAndApply explicit) := by
  intro y hy hreturned
  obtain hy | hy := List.mem_append.mp hy
  · exact h y hy hreturned
  · obtain ⟨-, origins, hphase⟩ := List.mem_singleton.mp hy ▸ hreturned
    cases hphase

/-- What is stored now was read at one instant. -/
theorem since_applyRows {clients : List OAuthClient} {readAt t : ℕ} :
    (s.applyRows betterAuthUrl extractOrigin f x clients readAt).Since t ↔ t ≤ readAt := by
  simp [State.Since, State.applyRows]

/-- A fetch stores what it has read. -/
theorem notUndone_applyRows_iff (hx : s.fetches[f]? = some x) {clients : List OAuthClient}
    {readAt : ℕ} (hphase : x.phase = .read clients readAt) :
    NotUndone (s.applyRows betterAuthUrl extractOrigin f x clients readAt) ↔
      ∀ y ∈ s.fetches, y.Returned → y.startedAt ≤ readAt := by
  refine (forall_returned_set hx (not_returned (by simp) hphase) _ _).trans ?_
  simp only [since_applyRows]
  refine and_iff_left ?_
  rintro ⟨-, origins, hreturned⟩
  cases hreturned

/-- **An event keeps refreshes from being undone exactly if it meets its condition.** -/
theorem notUndone_step_iff (h : NotUndone s) (e : Event) :
    NotUndone (s.step betterAuthUrl extractOrigin e) ↔ StoresInOrder s e := by
  change NotUndone (s.act betterAuthUrl extractOrigin e) ↔ _
  have hacts := acts betterAuthUrl extractOrigin s e
  generalize s.act betterAuthUrl extractOrigin e = s' at hacts
  cases hacts with
  | tick | changeClients | cached | skipRead | skipFail => exact iff_of_true h trivial
  | expired => exact iff_of_true (h.fetchAndApply false) trivial
  | refresh =>
    have hcleared : NotUndone { s with cache := none, cacheReadAt := none } :=
      fun y hy hreturned => ⟨fun r hr => (by cases hr), (h y hy hreturned).2⟩
    exact iff_of_true (hcleared.fetchAndApply true) trivial
  | read hx hphase =>
    refine iff_of_true ((notUndone_setPhase_iff h hx (not_returned (by simp) hphase) _).mpr ?_)
      trivial
    rintro ⟨-, origins, hreturned⟩
    cases hreturned
  | apply hx hphase =>
    rw [notUndone_applyRows_iff hx hphase]
    constructor
    · rintro hall _ hx' _ _ hread
      cases hx.symm.trans hx'
      cases hphase.symm.trans hread
      exact hall
    · exact fun hall => hall _ hx _ _ hphase
  | finish hx hphase =>
    refine (notUndone_setPhase_iff h hx (not_returned (by simp) hphase) _).trans ?_
    constructor
    · rintro hsince _ hx' hexplicit _ happlied
      cases hx.symm.trans hx'
      exact hsince ⟨hexplicit, _, rfl⟩
    · exact fun hsince hreturned => hsince _ hx hreturned.1 _ hphase
  | @fail f x hx hphase =>
    have hnot : ¬x.Returned := by
      obtain hphase | ⟨clients, readAt, hphase⟩ := hphase <;>
        exact not_returned (by simp) hphase
    refine iff_of_true ((notUndone_setPhase_iff h hx hnot _).mpr ?_) trivial
    rintro ⟨-, origins, hreturned⟩
    cases hreturned
  | skipApply hnot =>
    exact iff_of_true h fun x hx clients readAt hread => absurd hread (hnot x hx clients readAt)
  | skipFinish hnot =>
    exact iff_of_true h fun x hx _ origins happlied => absurd happlied (hnot x hx origins)

end Steps

theorem notUndone_initial (betterAuthUrl : Option String) (now : ℤ) (clients : List OAuthClient) :
    NotUndone (.initial betterAuthUrl now clients) := by
  intro x hx
  cases hx

/-- **Refreshes are not undone throughout a run exactly if no fetch stores what it read before a
refresh that has returned, and a refresh returns on what was read since it began.** -/
theorem refresh_not_undone_iff (betterAuthUrl : Option String)
    (extractOrigin : String → Option String) (now : ℤ) (clients : List OAuthClient)
    (es : List Event) :
    Throughout (State.step betterAuthUrl extractOrigin) NotUndone
        (.initial betterAuthUrl now clients) es
      ↔ EachStep (State.step betterAuthUrl extractOrigin) StoresInOrder
        (.initial betterAuthUrl now clients) es :=
  throughout_iff_eachStep (I := fun _ => True) (fun _ _ _ => trivial)
    (fun _ e _ h => notUndone_step_iff h e) trivial (notUndone_initial betterAuthUrl now clients)

/-- A fetch has read when a client is changed; the refresh that follows overtakes it. -/
def overtakenRun : List Event :=
  [.getOAuthClientOrigins, .read 0, .changeClients [⟨["https://new.example"]⟩],
    .refreshOAuthClientOrigins, .read 1, .apply 1, .finish 1, .apply 0]

/-- What was read first is stored last. -/
theorem refresh_overtaken :
    (overtakenRun.foldl (State.step none some) (.initial none 0 [⟨["https://old.example"]⟩])).cache
        = some ⟨["https://old.example"], 0⟩ ∧
      ¬∀ (betterAuthUrl : Option String) (extractOrigin : String → Option String) (now : ℤ)
        (clients : List OAuthClient) (es : List Event),
          Throughout (State.step betterAuthUrl extractOrigin) NotUndone
            (.initial betterAuthUrl now clients) es := by
  refine ⟨rfl, fun h => ?_⟩
  have hlast := (h none some 0 [⟨["https://old.example"]⟩] overtakenRun).last
  have hrefresh : (⟨true, 3, .returned ["https://new.example"]⟩ : Fetch)
      ∈ (overtakenRun.foldl (State.step none some)
          (.initial none 0 [⟨["https://old.example"]⟩])).fetches :=
    .tail _ (.head _)
  exact absurd ((hlast _ hrefresh ⟨rfl, _, rfl⟩).1 1 rfl) (by decide)

/-! ### Refreshes that begin apart -/

/-- What is stored, or may be, was read since every refresh that has stored. -/
structure InOrder (s : State) : Prop where
  started : ∀ x ∈ s.fetches, x.startedAt ≤ s.instant
  read : ∀ x ∈ s.fetches, ∀ clients readAt, x.phase = .read clients readAt →
    ∀ y ∈ s.fetches, y.explicit = true → y.startedAt ≤ readAt
  stored : ∀ x ∈ s.fetches, x.explicit = true →
    (∃ origins, x.phase = .applied origins ∨ x.phase = .returned origins) → s.Since x.startedAt

section Apart

variable {betterAuthUrl : Option String} {extractOrigin : String → Option String}
variable {s : State} {f : ℕ} {x : Fetch}

theorem exists_of_mem_setPhase (hx : s.fetches[f]? = some x) {phase : Phase} {y : Fetch}
    (hy : y ∈ (s.setPhase f x phase).fetches) :
    ∃ z ∈ s.fetches, z.explicit = y.explicit ∧ z.startedAt = y.startedAt ∧
      (z = y ∨ y.phase = phase) := by
  obtain hy | rfl := List.mem_or_eq_of_mem_set hy
  · exact ⟨y, hy, rfl, rfl, .inl rfl⟩
  · exact ⟨x, List.mem_of_getElem? hx, rfl, rfl, .inr rfl⟩

/-- A fetch begins, and if it is a refresh, no other has read. -/
theorem InOrder.fetchAndApply (h : InOrder s) {explicit : Bool}
    (hapart : explicit = true → ∀ x ∈ s.fetches, ∀ clients readAt, x.phase ≠ .read clients readAt) :
    InOrder (s.fetchAndApply explicit) := by
  refine ⟨fun y hy => ?_, fun y hy clients readAt hread z hz hexplicit => ?_,
    fun y hy hexplicit hphase => ?_⟩
  · obtain hy | hy := List.mem_append.mp hy
    · exact h.started y hy
    · rw [List.mem_singleton.mp hy]
      exact le_rfl
  · obtain hy | hy := List.mem_append.mp hy
    · obtain hz | hz := List.mem_append.mp hz
      · exact h.read y hy clients readAt hread z hz hexplicit
      · rw [List.mem_singleton.mp hz] at hexplicit
        exact absurd hread (hapart hexplicit y hy clients readAt)
    · rw [List.mem_singleton.mp hy] at hread
      cases hread
  · obtain hy | hy := List.mem_append.mp hy
    · exact h.stored y hy hexplicit hphase
    · obtain ⟨origins, hphase⟩ := hphase
      rw [List.mem_singleton.mp hy] at hphase
      cases hphase <;> contradiction

/-- A fetch goes on, and nothing is stored. -/
theorem InOrder.setPhase (h : InOrder s) (hx : s.fetches[f]? = some x) {phase : Phase}
    (hread : ∀ clients readAt, phase = .read clients readAt →
      ∀ y ∈ s.fetches, y.explicit = true → y.startedAt ≤ readAt)
    (hstored : x.explicit = true →
      (∃ origins, phase = .applied origins ∨ phase = .returned origins) → s.Since x.startedAt) :
    InOrder (s.setPhase f x phase) := by
  refine ⟨fun y hy => ?_, fun y hy clients readAt hphase z hz hexplicit => ?_,
    fun y hy hexplicit hphase => ?_⟩
  · obtain ⟨z, hz, -, hstarted, -⟩ := exists_of_mem_setPhase hx hy
    exact hstarted ▸ h.started z hz
  · obtain ⟨z', hz', hexplicit', hstarted, -⟩ := exists_of_mem_setPhase hx hz
    rw [← hstarted]
    rw [← hexplicit'] at hexplicit
    obtain ⟨y', hy', -, -, rfl | hset⟩ := exists_of_mem_setPhase hx hy
    · exact h.read y' hy' clients readAt hphase z' hz' hexplicit
    · exact hread clients readAt (hset.symm.trans hphase) z' hz' hexplicit
  · obtain hy | rfl := List.mem_or_eq_of_mem_set hy
    · exact h.stored y hy hexplicit hphase
    · exact hstored hexplicit hphase

/-- A fetch stores what it has read. -/
theorem InOrder.applyRows (h : InOrder s) (hx : s.fetches[f]? = some x)
    {clients : List OAuthClient} {readAt : ℕ} (hphase : x.phase = .read clients readAt) :
    InOrder (s.applyRows betterAuthUrl extractOrigin f x clients readAt) := by
  have hmem := List.mem_of_getElem? hx
  refine ⟨fun y hy => ?_, fun y hy clients' readAt' hread z hz hexplicit => ?_,
    fun y hy hexplicit _ => ?_⟩
  · obtain ⟨z, hz, -, hstarted, -⟩ := exists_of_mem_setPhase hx hy
    exact hstarted ▸ h.started z hz
  · obtain ⟨z', hz', hexplicit', hstarted, -⟩ := exists_of_mem_setPhase hx hz
    obtain ⟨y', hy', -, -, rfl | hset⟩ := exists_of_mem_setPhase hx hy
    · exact hstarted ▸ h.read y' hy' clients' readAt' hread z' hz' (hexplicit'.trans hexplicit)
    · rw [hread] at hset
      cases hset
  · obtain ⟨z, hz, hexplicit', hstarted, -⟩ := exists_of_mem_setPhase hx hy
    rw [since_applyRows, ← hstarted]
    exact h.read x hmem clients readAt hphase z hz (hexplicit'.trans hexplicit)

theorem act_instant (e : Event) : (s.act betterAuthUrl extractOrigin e).instant = s.instant := by
  have hacts := acts betterAuthUrl extractOrigin s e
  generalize s.act betterAuthUrl extractOrigin e = s' at hacts
  cases hacts <;> rfl

theorem InOrder.act (h : InOrder s) {e : Event} (hapart : RefreshesApart s e) :
    InOrder (s.act betterAuthUrl extractOrigin e) := by
  have hacts := acts betterAuthUrl extractOrigin s e
  generalize s.act betterAuthUrl extractOrigin e = s' at hacts
  cases hacts with
  | tick | changeClients => exact ⟨h.started, h.read, h.stored⟩
  | cached | skipRead | skipApply | skipFinish | skipFail => exact h
  | expired => exact h.fetchAndApply fun hexplicit => by cases hexplicit
  | refresh =>
    have hcleared : InOrder { s with cache := none, cacheReadAt := none } :=
      ⟨h.started, h.read, fun y hy hexplicit hphase =>
        ⟨fun r hr => (by cases hr), (h.stored y hy hexplicit hphase).2⟩⟩
    exact hcleared.fetchAndApply fun _ => hapart
  | read hx =>
    refine h.setPhase hx (fun _ _ hread y hy _ => ?_) ?_
    · cases hread
      exact h.started y hy
    · rintro - ⟨origins, hstored | hstored⟩ <;> cases hstored
  | apply hx hphase => exact h.applyRows hx hphase
  | finish hx hphase =>
    refine h.setPhase hx (fun _ _ hread => by cases hread) fun hexplicit _ => ?_
    exact h.stored _ (List.mem_of_getElem? hx) hexplicit ⟨_, .inl hphase⟩
  | fail hx =>
    refine h.setPhase hx (fun _ _ hread => by cases hread) ?_
    rintro - ⟨origins, hstored | hstored⟩ <;> cases hstored

/-- An event; a refresh while no fetch is between reading and storing. -/
theorem InOrder.step (h : InOrder s) {e : Event} (hapart : RefreshesApart s e) :
    InOrder (s.step betterAuthUrl extractOrigin e) := by
  have hact : InOrder (s.act betterAuthUrl extractOrigin e) := h.act hapart
  refine ⟨fun y hy => Nat.le_succ_of_le ?_, hact.read, hact.stored⟩
  exact le_of_le_of_eq (hact.started y hy) (act_instant e)

/-- While no refresh begins between what a fetch reads and what it stores, none is undone. -/
theorem refresh_not_undone_of_apart {now : ℤ} {clients : List OAuthClient} {es : List Event}
    (h : EachStep (State.step betterAuthUrl extractOrigin) RefreshesApart
      (.initial betterAuthUrl now clients) es) :
    Throughout (State.step betterAuthUrl extractOrigin) NotUndone
      (.initial betterAuthUrl now clients) es := by
  have hinitial : InOrder (.initial betterAuthUrl now clients) := by
    constructor <;> intro x hx <;> cases hx
  refine (h.throughout (fun _ _ hs happly => hs.step happly) hinitial).imp fun s hs x hx => ?_
  rintro ⟨hexplicit, origins, hreturned⟩
  exact hs.stored x hx hexplicit ⟨origins, .inr hreturned⟩

end Apart

end ClientOrigins

end FileNest
