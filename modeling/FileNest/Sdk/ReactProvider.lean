import Mathlib.Data.Int.Notation
import Mathlib.Data.List.Basic

/-!
# The provider of the React SDK

The provider keeps a token, the promise of the fetch that is to bring the next one, and a
timer that refreshes it.  `getToken` answers from the token kept, or joins the promise kept,
or else starts a fetch and keeps its promise.  A request that is answered with 401 and the
timer start a fetch of their own.

Time passes, answers arrive, and callers come in any order: each is an event, and a run is a
list of them.  A fetch is a call of `fetchToken`, with all its attempts and the pauses between
them.

## Main definitions

* `State`, `Event`, `step` — the provider.
* `Answered` — each caller waits for a fetch that is not over, or has what it brought.
* `Wired` — the promise kept is that of the fetch of `getToken` that is not over.
* `Resumes` — what an event does at which nobody asks for a token.

## Main results

* `step_resumes` — the events at which nobody asks for a token.
* `Wired.step` — **callers are answered by the fetch they wait for**, after every event.
* `waited_step` — they wait for no other.
-/

namespace FileNest
namespace ReactProvider

/-- The props the tokens depend on. -/
structure Props where
  fetchInitialToken : Bool := true
  /-- In seconds. -/
  tokenRefreshBuffer : ℤ := 60
  tokenRetry : ℤ := 3

/-- What `doFetch` answers.  The date is read as milliseconds, a text that is none as `NaN`. -/
structure TokenData where
  token : String
  expiresAt : Option ℤ

/-- What a promise of a token settles as. -/
abbrev Outcome := Except String String

/-- Where a call of `fetchToken` is. -/
inductive FetchState where
  /-- At `await doFetch()`. -/
  | fetching
  /-- At `await sleep(…)`, up to a time. -/
  | sleeping (wakesAt : ℤ)
  /-- It is over, and the `finally` attached to it has not run. -/
  | settled (r : Outcome)
  /-- Those that wait for it have its outcome. -/
  | finished (r : Outcome)

/-- A call of `fetchToken` with its variables. -/
structure Fetch where
  /-- `getToken` started it, attached `finally` and keeps its promise. -/
  shared : Bool
  attempt : ℕ := 0
  lastErr : String := "Unknown error"
  state : FetchState := .fetching

/-- It has neither returned nor thrown. -/
def Fetch.inFlight (x : Fetch) : Bool :=
  match x.state with
  | .fetching => true
  | .sleeping _ => true
  | .settled _ => false
  | .finished _ => false

/-- Its promise, with the `finally` where there is one, has not settled. -/
def Fetch.pending (x : Fetch) : Bool :=
  match x.state with
  | .finished _ => false
  | _ => true

/-- Who called for a token. -/
inductive Call where
  /-- Waits for a fetch; the second time, after a 401. -/
  | waiting (f : ℕ) (retried : Bool)
  /-- Has an outcome, from the token kept or from a fetch. -/
  | received (f : Option ℕ) (r : Outcome) (retried : Bool)

/-- A promise settles. -/
def Call.receive (f : ℕ) (r : Outcome) : Call → Call
  | .waiting g retried => if g = f then .received (some f) r retried else .waiting g retried
  | call => call

/-- The refs and the state of the provider, with the clock, the fetches and the callers.
Fetches and callers are named by their place. -/
structure State where
  now : ℤ
  tokenRef : Option TokenData := none
  inflightRef : Option ℕ := none
  /-- When the timer in `refreshTimerRef` goes off, if it is running. -/
  refreshTimer : Option ℤ := none
  token : Option String := none
  isTokenLoading : Bool := false
  tokenError : Option String := none
  fetches : List Fetch := []
  calls : List Call := []

/-- `setTimeout`'s delay is a 32-bit integer, and not negative. -/
def setTimeoutDelay (ms : ℤ) : ℤ :=
  let delay := ms.bmod 4294967296
  if delay < 0 then 0 else delay

namespace State

variable (props : Props)

/-- The promise of a fetch settles, and with it all that wait for it. -/
def finish (f : ℕ) (x : Fetch) (r : Outcome) (s : State) : State :=
  { s with
    fetches := s.fetches.set f { x with state := .finished r }
    calls := s.calls.map (Call.receive f r) }

/-- `fetchToken` returns or throws. -/
def settle (f : ℕ) (x : Fetch) (r : Outcome) (s : State) : State :=
  if x.shared then { s with fetches := s.fetches.set f { x with state := .settled r } }
  else s.finish f x r

/-- `while (attempt < tokenRetry)`, and what follows the loop. -/
def loop (f : ℕ) (x : Fetch) (s : State) : State :=
  if x.attempt < props.tokenRetry then
    { s with fetches := s.fetches.set f { x with state := .fetching } }
  else { s with tokenError := some x.lastErr }.settle f x (.error x.lastErr)

/-- `fetchToken()`, up to its first `await`. -/
def fetchToken (shared : Bool) (s : State) : State :=
  let x : Fetch := { shared }
  { s with fetches := s.fetches ++ [x] }.loop props s.fetches.length x

/-- `doFetch` has answered. -/
def answered (f : ℕ) (x : Fetch) (data : TokenData) (s : State) : State :=
  let ttl := data.expiresAt.map fun expiresAt => expiresAt - s.now - props.tokenRefreshBuffer * 1000
  { s with
    tokenRef := some data
    token := some data.token
    tokenError := none
    -- the timer before it is cleared in any case
    refreshTimer := (ttl.filter fun ttl => 0 < ttl).map fun ttl => s.now + setTimeoutDelay ttl
  }.settle f x (.ok data.token)

/-- `doFetch` has thrown. -/
def failed (f : ℕ) (x : Fetch) (err : String) (s : State) : State :=
  let x := { x with lastErr := err, attempt := x.attempt + 1 }
  if x.attempt < props.tokenRetry then
    { s with fetches := s.fetches.set f { x with state := .sleeping (s.now + x.attempt * 500) } }
  else s.loop props f x

/-- What `getToken` attaches to the fetch it starts. -/
def onFinally (f : ℕ) (x : Fetch) (r : Outcome) (s : State) : State :=
  { s with inflightRef := none, isTokenLoading := false }.finish f x r

/-- The token kept, if it is not about to expire. -/
def cached (s : State) : Option String :=
  match s.tokenRef with
  | some ⟨token, some expiresAt⟩ =>
      if expiresAt - s.now > props.tokenRefreshBuffer * 1000 then some token else none
  | _ => none

/-- `getToken()`: the token kept, the promise kept, or a fetch. -/
def getToken (s : State) : State :=
  match s.cached props, s.inflightRef with
  | some token, _ => { s with calls := s.calls ++ [.received none (.ok token) false] }
  | none, some f => { s with calls := s.calls ++ [.waiting f false] }
  | none, none =>
      -- the promise is kept once `fetchToken` has run up to its first `await`
      let p := s.fetches.length
      let s := { s with isTokenLoading := true }.fetchToken props true
      { s with inflightRef := some p, calls := s.calls ++ [.waiting p false] }

/-- A caller has a token to send, and has not sent a second one. -/
def sends (c : ℕ) (s : State) : Bool :=
  match s.calls[c]? with
  | some (.received _ (.ok _) retried) => !retried
  | _ => false

/-- A request of `callApi` is answered with 401. -/
def unauthorized (c : ℕ) (s : State) : State :=
  if s.sends c then
    { s with tokenRef := none, calls := s.calls.set c (.waiting s.fetches.length true)
    }.fetchToken props false
  else s

/-- The timer has gone off. -/
def due (s : State) : Bool := s.refreshTimer.any fun t => t ≤ s.now

/-- The timer's callback. -/
def timerFires (s : State) : State :=
  if s.due then { s with refreshTimer := none }.fetchToken props false else s

end State

/-- What happens next. -/
inductive Event where
  | tick (ms : ℕ)
  | mount
  | unmount
  | getToken
  /-- The request of a caller is answered with 401. -/
  | unauthorized (c : ℕ)
  | timerFires
  | answered (f : ℕ) (data : TokenData)
  | failed (f : ℕ) (err : String)
  | wakes (f : ℕ)
  | onFinally (f : ℕ)

variable (props : Props)

/-- An event; one that cannot happen changes nothing. -/
def step (s : State) : Event → State
  | .tick ms => { s with now := s.now + ms }
  | .mount => if props.fetchInitialToken then s.getToken props else s
  | .unmount => if props.fetchInitialToken then { s with refreshTimer := none } else s
  | .getToken => s.getToken props
  | .unauthorized c => s.unauthorized props c
  | .timerFires => s.timerFires props
  | .answered f data =>
      match s.fetches[f]? with
      | some x => match x.state with
        | .fetching => s.answered props f x data
        | _ => s
      | none => s
  | .failed f err =>
      match s.fetches[f]? with
      | some x => match x.state with
        | .fetching => s.failed props f x err
        | _ => s
      | none => s
  | .wakes f =>
      match s.fetches[f]? with
      | some x => match x.state with
        | .sleeping wakesAt => if wakesAt ≤ s.now then s.loop props f x else s
        | _ => s
      | none => s
  | .onFinally f =>
      match s.fetches[f]? with
      | some x => match x.state with
        | .settled r => if x.shared then s.onFinally f x r else s
        | _ => s
      | none => s

/-! ### Fetches and callers -/

/-- Each caller waits for a fetch that is still to bring an outcome, or has the one it
brought. -/
structure Answered (s : State) : Prop where
  waiting : ∀ f retried, .waiting f retried ∈ s.calls →
    ∃ x, s.fetches[f]? = some x ∧ x.pending = true
  received : ∀ f r retried, .received (some f) r retried ∈ s.calls →
    ∃ x, s.fetches[f]? = some x ∧ x.state = .finished r

/-- The promise kept is that of the fetch of `getToken` that is not over. -/
structure Wired (s : State) : Prop extends Answered s where
  owned : ∀ f x, s.fetches[f]? = some x → x.shared = true → x.pending = true →
    s.inflightRef = some f
  kept : ∀ f, s.inflightRef = some f →
    ∃ x, s.fetches[f]? = some x ∧ x.shared = true ∧ x.pending = true

/-- Before the provider is mounted. -/
def State.initial (now : ℤ) : State := { now }

theorem wired_initial (now : ℤ) : Wired (State.initial now) where
  waiting f retried h := absurd h List.not_mem_nil
  received f r retried h := absurd h List.not_mem_nil
  owned f x h := by simp [State.initial] at h
  kept f h := by simp [State.initial] at h

theorem Fetch.not_pending {x : Fetch} {r : Outcome} (h : x.state = .finished r) :
    ¬ x.pending = true := by
  simp [Fetch.pending, h]

theorem Fetch.pending_of_inFlight {x : Fetch} (h : x.inFlight = true) : x.pending = true := by
  cases hx : x.state <;> simp_all [Fetch.pending, Fetch.inFlight]

variable {props} {s t : State} {f : ℕ} {x y : Fetch} {r : Outcome}

/-- Nothing else is looked at. -/
theorem Wired.congr (h : Wired s) (hfetches : t.fetches = s.fetches) (hcalls : t.calls = s.calls)
    (href : t.inflightRef = s.inflightRef) : Wired t where
  waiting := by rw [hfetches, hcalls]; exact h.waiting
  received := by rw [hfetches, hcalls]; exact h.received
  owned := by rw [hfetches, href]; exact h.owned
  kept := by rw [hfetches, href]; exact h.kept

/-- A fetch after another step of its own. -/
theorem getElem?_set_at (hx : s.fetches[f]? = some x) : (s.fetches.set f y)[f]? = some y :=
  List.getElem?_set_self (List.getElem?_eq_some_iff.mp hx).1

/-- Where one fetch goes on, each of them is still there. -/
theorem exists_set {g : ℕ} {z : Fetch} (hx : s.fetches[f]? = some x) (hpending : x.pending = true)
    (hshared : y.shared = x.shared) (hy : y.pending = true) (hz : s.fetches[g]? = some z) :
    ∃ w, (s.fetches.set f y)[g]? = some w ∧ w.shared = z.shared
      ∧ (z.pending = true → w.pending = true)
      ∧ ∀ r, z.state = .finished r → w.state = .finished r := by
  by_cases hg : f = g
  · subst hg
    cases hx.symm.trans hz
    exact ⟨y, getElem?_set_at hx, hshared, fun _ => hy,
      fun r hr => absurd hpending (Fetch.not_pending hr)⟩
  · exact ⟨z, by rw [List.getElem?_set_ne hg]; exact hz, rfl, id, fun _ => id⟩

/-- A fetch that goes on. -/
theorem Wired.set (h : Wired s) (hx : s.fetches[f]? = some x) (hpending : x.pending = true)
    (hshared : y.shared = x.shared) (hy : y.pending = true) :
    Wired { s with fetches := s.fetches.set f y } := by
  refine ⟨⟨fun g retried hcall => ?_, fun g r retried hcall => ?_⟩, fun g z hz hsh hp => ?_,
    fun g hg => ?_⟩
  · obtain ⟨z, hz, hp⟩ := h.waiting g retried hcall
    obtain ⟨w, hw, -, hwp, -⟩ := exists_set hx hpending hshared hy hz
    exact ⟨w, hw, hwp hp⟩
  · obtain ⟨z, hz, hr⟩ := h.received g r retried hcall
    obtain ⟨w, hw, -, -, hwr⟩ := exists_set hx hpending hshared hy hz
    exact ⟨w, hw, hwr r hr⟩
  · by_cases hg : f = g
    · subst hg
      cases (getElem?_set_at hx).symm.trans hz
      exact h.owned f x hx (hshared.symm.trans hsh) hpending
    · rw [List.getElem?_set_ne hg] at hz
      exact h.owned g z hz hsh hp
  · obtain ⟨z, hz, hsh, hp⟩ := h.kept g hg
    obtain ⟨w, hw, hws, hwp, -⟩ := exists_set hx hpending hshared hy hz
    exact ⟨w, hw, hws.trans hsh, hwp hp⟩

/-- Callers that wait for a fetch have its outcome when it is over. -/
theorem Answered.finish (h : Answered s) (hx : s.fetches[f]? = some x)
    (hpending : x.pending = true) : Answered (s.finish f y r) := by
  have hother : ∀ g z, f ≠ g → s.fetches[g]? = some z →
      (s.finish f y r).fetches[g]? = some z := by
    intro g z hg hz
    rw [State.finish, List.getElem?_set_ne hg]
    exact hz
  constructor
  · intro g retried hcall
    obtain ⟨call, hmem, heq⟩ := List.mem_map.mp hcall
    cases call with
    | waiting k retried' =>
      rw [Call.receive] at heq
      split at heq
      · cases heq
      · -- who still waits does so for another fetch
        next hk =>
        cases heq
        obtain ⟨z, hz, hp⟩ := h.waiting g retried hmem
        exact ⟨z, hother g z (fun hg => hk hg.symm) hz, hp⟩
    | received k r' retried' => cases heq
  · intro g r' retried hcall
    obtain ⟨call, hmem, heq⟩ := List.mem_map.mp hcall
    cases call with
    | waiting k retried' =>
      rw [Call.receive] at heq
      split at heq
      · cases heq
        exact ⟨_, getElem?_set_at hx, rfl⟩
      · cases heq
    | received k r'' retried' =>
      -- an earlier outcome is that of a fetch that was over
      cases heq
      obtain ⟨z, hz, hr⟩ := h.received g r' retried hmem
      refine ⟨z, hother g z (fun hg => ?_) hz, hr⟩
      subst hg
      cases hx.symm.trans hz
      exact Fetch.not_pending hr hpending

/-- A fetch of its own is over, … -/
theorem Wired.finish (h : Wired s) (hx : s.fetches[f]? = some x) (hpending : x.pending = true)
    (hshared : x.shared = false) : Wired (s.finish f y r) where
  toAnswered := h.toAnswered.finish hx hpending
  owned g z hz hsh hp := by
    by_cases hg : f = g
    · subst hg
      cases (getElem?_set_at hx).symm.trans hz
      exact absurd hp (Fetch.not_pending rfl)
    · rw [State.finish, List.getElem?_set_ne hg] at hz
      exact h.owned g z hz hsh hp
  kept g hg := by
    obtain ⟨z, hz, hsh, hp⟩ := h.kept g hg
    -- the promise kept is a shared one's
    have hne : f ≠ g := by
      rintro rfl
      cases hx.symm.trans hz
      rw [hshared] at hsh
      cases hsh
    exact ⟨z, by rw [State.finish, List.getElem?_set_ne hne]; exact hz, hsh, hp⟩

/-- … and so is one of `getToken`. -/
theorem Wired.onFinally (h : Wired s) (hx : s.fetches[f]? = some x) (hpending : x.pending = true)
    (hshared : x.shared = true) : Wired (s.onFinally f y r) where
  toAnswered := Answered.finish ⟨h.waiting, h.received⟩ hx hpending
  owned g z hz hsh hp := by
    by_cases hg : f = g
    · subst hg
      cases (getElem?_set_at hx).symm.trans hz
      exact absurd hp (Fetch.not_pending rfl)
    · -- there is but one promise kept
      rw [State.onFinally, State.finish, List.getElem?_set_ne hg] at hz
      have hkept := h.owned f x hx hshared hpending
      exact absurd (Option.some.inj (hkept.symm.trans (h.owned g z hz hsh hp))) hg
  kept g hg := by cases hg

theorem Wired.settle (h : Wired s) (hx : s.fetches[f]? = some x) (hpending : x.pending = true)
    (hshared : y.shared = x.shared) : Wired (s.settle f y r) := by
  rw [State.settle]
  split
  · exact h.set hx hpending hshared rfl
  · next hdirect =>
    exact h.finish hx hpending (by rw [← hshared]; exact Bool.eq_false_iff.mpr hdirect)

theorem Wired.loop (h : Wired s) (hx : s.fetches[f]? = some x) (hpending : x.pending = true)
    (hshared : y.shared = x.shared) : Wired (s.loop props f y) := by
  rw [State.loop]
  split
  · exact h.set hx hpending hshared rfl
  · exact Wired.settle (h.congr rfl rfl rfl) hx hpending hshared

theorem Wired.answered {data : TokenData} (h : Wired s) (hx : s.fetches[f]? = some x)
    (hpending : x.pending = true) : Wired (s.answered props f x data) :=
  Wired.settle (h.congr rfl rfl rfl) hx hpending rfl

theorem Wired.failed {err : String} (h : Wired s) (hx : s.fetches[f]? = some x)
    (hpending : x.pending = true) : Wired (s.failed props f x err) := by
  rw [State.failed]
  split
  · exact h.set hx hpending rfl rfl
  · exact h.loop hx hpending rfl

/-- A fetch that is added is the last one, … -/
theorem getElem?_push {g : ℕ} {z : Fetch} (hz : (s.fetches ++ [x])[g]? = some z) :
    s.fetches[g]? = some z ∨ g = s.fetches.length ∧ z = x := by
  rcases Nat.lt_or_ge g s.fetches.length with hg | hg
  · rw [List.getElem?_append_left hg] at hz
    exact .inl hz
  · have hlt := (List.getElem?_eq_some_iff.mp hz).1
    rw [List.length_append, List.length_singleton] at hlt
    have hlast : g = s.fetches.length := by omega
    subst hlast
    rw [List.getElem?_concat_length] at hz
    exact .inr ⟨rfl, (Option.some.inj hz).symm⟩

/-- … and the others are where they were. -/
theorem getElem?_push_of_some {g : ℕ} {z : Fetch} (hz : s.fetches[g]? = some z) :
    (s.fetches ++ [x])[g]? = some z := by
  rw [List.getElem?_append_left (List.getElem?_eq_some_iff.mp hz).1]
  exact hz

/-- The callers are those there were, and some that wait for a fetch that is added. -/
theorem Answered.push (h : Answered s) (hx : x.pending = true)
    (hfetches : t.fetches = s.fetches ++ [x])
    (hcalls : ∀ call ∈ t.calls,
      call ∈ s.calls ∨ ∃ retried, call = .waiting s.fetches.length retried) : Answered t := by
  constructor
  · intro g retried hcall
    rw [hfetches]
    rcases hcalls _ hcall with hmem | ⟨_, heq⟩
    · obtain ⟨z, hz, hp⟩ := h.waiting g retried hmem
      exact ⟨z, getElem?_push_of_some hz, hp⟩
    · cases heq
      exact ⟨x, List.getElem?_concat_length, hx⟩
  · intro g r retried hcall
    rw [hfetches]
    rcases hcalls _ hcall with hmem | ⟨_, heq⟩
    · obtain ⟨z, hz, hr⟩ := h.received g r retried hmem
      exact ⟨z, getElem?_push_of_some hz, hr⟩
    · cases heq

/-- A fetch of its own is added, … -/
theorem Wired.push_direct (h : Wired s) (hpending : x.pending = true) (hshared : x.shared = false)
    (hfetches : t.fetches = s.fetches ++ [x])
    (hcalls : ∀ call ∈ t.calls,
      call ∈ s.calls ∨ ∃ retried, call = .waiting s.fetches.length retried)
    (href : t.inflightRef = s.inflightRef) : Wired t where
  toAnswered := h.toAnswered.push hpending hfetches hcalls
  owned g z hz hsh hp := by
    rw [hfetches] at hz
    rw [href]
    rcases getElem?_push hz with hz | ⟨-, rfl⟩
    · exact h.owned g z hz hsh hp
    · rw [hshared] at hsh
      cases hsh
  kept g hg := by
    rw [href] at hg
    obtain ⟨z, hz, hsh, hp⟩ := h.kept g hg
    exact ⟨z, by rw [hfetches]; exact getElem?_push_of_some hz, hsh, hp⟩

/-- … and one of `getToken` where no promise is kept. -/
theorem Wired.push_shared (h : Wired s) (hnone : s.inflightRef = none) (hpending : x.pending = true)
    (hshared : x.shared = true) (hfetches : t.fetches = s.fetches ++ [x])
    (hcalls : ∀ call ∈ t.calls,
      call ∈ s.calls ∨ ∃ retried, call = .waiting s.fetches.length retried)
    (href : t.inflightRef = some s.fetches.length) : Wired t where
  toAnswered := h.toAnswered.push hpending hfetches hcalls
  owned g z hz hsh hp := by
    rw [hfetches] at hz
    rw [href]
    rcases getElem?_push hz with hz | ⟨rfl, -⟩
    · have hkept := h.owned g z hz hsh hp
      rw [hnone] at hkept
      cases hkept
    · rfl
  kept g hg := by
    rw [href] at hg
    cases hg
    exact ⟨x, by rw [hfetches]; exact List.getElem?_concat_length, hshared, hpending⟩

/-- A caller is added. -/
theorem Wired.call {call : Call} (h : Wired s)
    (hcall : ∀ f retried, call = .waiting f retried →
      ∃ x, s.fetches[f]? = some x ∧ x.pending = true)
    (hreceived : ∀ f r retried, call ≠ .received (some f) r retried) :
    Wired { s with calls := s.calls ++ [call] } where
  waiting f retried hmem := by
    rcases List.mem_append.mp hmem with hmem | hmem
    · exact h.waiting f retried hmem
    · exact hcall f retried (List.mem_singleton.mp hmem).symm
  received f r retried hmem := by
    rcases List.mem_append.mp hmem with hmem | hmem
    · exact h.received f r retried hmem
    · exact absurd (List.mem_singleton.mp hmem).symm (hreceived f r retried)
  owned := h.owned
  kept := h.kept

/-! ### Fetches that start -/

/-- The first step of a fetch that has just been added. -/
theorem set_push : (s.fetches ++ [x]).set s.fetches.length y = s.fetches ++ [y] := by
  rw [List.set_append_right _ _ (Nat.le_refl _), Nat.sub_self]
  rfl

variable (props) in
/-- It is in flight if there is to be an attempt. -/
theorem State.fetchToken_fetches (shared : Bool) (s : State) :
    ∃ x : Fetch, (s.fetchToken props shared).fetches = s.fetches ++ [x]
      ∧ x.inFlight = decide (0 < props.tokenRetry) := by
  rw [State.fetchToken, State.loop]
  split
  · next hlt => exact ⟨_, set_push, (decide_eq_true hlt).symm⟩
  · next hlt =>
    rw [State.settle]
    split
    · exact ⟨_, set_push, (decide_eq_false hlt).symm⟩
    · exact ⟨_, set_push, (decide_eq_false hlt).symm⟩

variable (props) in
/-- The fetch of `getToken` is there until `finally` has run, whatever its outcome. -/
theorem State.fetchToken_shared (s : State) :
    (∃ x : Fetch, (s.fetchToken props true).fetches = s.fetches ++ [x]
      ∧ x.shared = true ∧ x.pending = true)
      ∧ (s.fetchToken props true).calls = s.calls := by
  rw [State.fetchToken, State.loop]
  split
  · exact ⟨⟨_, set_push, rfl, rfl⟩, rfl⟩
  · rw [State.settle, if_pos rfl]
    exact ⟨⟨_, set_push, rfl, rfl⟩, rfl⟩

theorem Wired.fetchToken_direct (h : Wired s) (hfetches : t.fetches = s.fetches)
    (hcalls : ∀ call ∈ t.calls,
      call ∈ s.calls ∨ ∃ retried, call = .waiting s.fetches.length retried)
    (href : t.inflightRef = s.inflightRef) : Wired (t.fetchToken props false) := by
  have hpush : Wired { t with fetches := t.fetches ++ [{ shared := false }] } :=
    h.push_direct rfl rfl (by rw [hfetches]) hcalls href
  exact hpush.loop List.getElem?_concat_length rfl rfl

theorem Wired.getToken (h : Wired s) : Wired (s.getToken props) := by
  rw [State.getToken]
  split
  · exact h.call (fun _ _ heq => by cases heq) fun _ _ _ heq => by cases heq
  · next f _ href =>
    refine h.call (fun g retried heq => ?_) fun _ _ _ heq => by cases heq
    cases heq
    obtain ⟨x, hx, -, hp⟩ := h.kept f href
    exact ⟨x, hx, hp⟩
  · next hnone =>
    obtain ⟨⟨x, hx, hsh, hp⟩, hcalls⟩ :=
      State.fetchToken_shared props { s with isTokenLoading := true }
    refine h.push_shared hnone hp hsh hx (fun call hmem => ?_) rfl
    rcases List.mem_append.mp hmem with hmem | hmem
    · exact .inl (hcalls ▸ hmem)
    · exact .inr ⟨false, List.mem_singleton.mp hmem⟩

theorem Wired.unauthorized {c : ℕ} (h : Wired s) : Wired (s.unauthorized props c) := by
  rw [State.unauthorized]
  split
  · refine h.fetchToken_direct rfl (fun call hmem => ?_) rfl
    rcases List.mem_or_eq_of_mem_set hmem with hmem | rfl
    · exact .inl hmem
    · exact .inr ⟨true, rfl⟩
  · exact h

theorem Wired.timerFires (h : Wired s) : Wired (s.timerFires props) := by
  rw [State.timerFires]
  split
  · exact h.fetchToken_direct rfl (fun call hmem => .inl hmem) rfl
  · exact h

/-! ### What an event does -/

variable (props s) in
/-- Where nobody asks for a token: a fetch goes on, or none does. -/
inductive Resumes : State → Prop where
  | idle {t : State} : t.fetches = s.fetches → t.calls = s.calls → t.inflightRef = s.inflightRef →
      Resumes t
  | answered {f : ℕ} {x : Fetch} (data : TokenData) : s.fetches[f]? = some x → x.inFlight = true →
      Resumes (s.answered props f x data)
  | failed {f : ℕ} {x : Fetch} (err : String) : s.fetches[f]? = some x → x.inFlight = true →
      Resumes (s.failed props f x err)
  | wakes {f : ℕ} {x : Fetch} : s.fetches[f]? = some x → x.inFlight = true →
      Resumes (s.loop props f x)
  | onFinally {f : ℕ} {x : Fetch} {r : Outcome} : s.fetches[f]? = some x →
      x.state = .settled r → x.shared = true → Resumes (s.onFinally f x r)

/-- The events at which a fetch can start. -/
def Event.asks : Event → Bool
  | .mount => true
  | .getToken => true
  | .unauthorized _ => true
  | .timerFires => true
  | _ => false

theorem Resumes.refl : Resumes props s s := .idle rfl rfl rfl

/-- What the other events do. -/
theorem step_resumes {e : Event} (h : e.asks = false) : Resumes props s (step props s e) := by
  cases e with
  | mount => cases h
  | getToken => cases h
  | unauthorized c => cases h
  | timerFires => cases h
  | tick ms => exact .idle rfl rfl rfl
  | unmount =>
    rw [step]
    split
    · exact .idle rfl rfl rfl
    · exact .refl
  | answered f data =>
    rw [step]
    split
    · next x hx =>
      split
      · next hst => exact .answered data hx (by rw [Fetch.inFlight, hst])
      · exact .refl
    · exact .refl
  | failed f err =>
    rw [step]
    split
    · next x hx =>
      split
      · next hst => exact .failed err hx (by rw [Fetch.inFlight, hst])
      · exact .refl
    · exact .refl
  | wakes f =>
    rw [step]
    split
    · next x hx =>
      split
      · next hst =>
        split
        · exact .wakes hx (by rw [Fetch.inFlight, hst])
        · exact .refl
      · exact .refl
    · exact .refl
  | onFinally f =>
    rw [step]
    split
    · next x hx =>
      split
      · next hst =>
        split
        · next hshared => exact .onFinally hx hst hshared
        · exact .refl
      · exact .refl
    · exact .refl

theorem Wired.resumes (h : Wired s) (ht : Resumes props s t) : Wired t := by
  cases ht with
  | idle hfetches hcalls href => exact h.congr hfetches hcalls href
  | answered data hx hfly => exact h.answered hx (Fetch.pending_of_inFlight hfly)
  | failed err hx hfly => exact h.failed hx (Fetch.pending_of_inFlight hfly)
  | wakes hx hfly => exact h.loop hx (Fetch.pending_of_inFlight hfly) rfl
  | onFinally hx hst hshared => exact h.onFinally hx (by rw [Fetch.pending, hst]) hshared

/-- **The promise kept is that of the fetch that is not over**, and each caller has what it
waited for, after every event. -/
theorem Wired.step (h : Wired s) (e : Event) : Wired (step props s e) := by
  by_cases hasks : e.asks = true
  · cases e with
    | mount =>
      rw [ReactProvider.step]
      split
      · exact h.getToken
      · exact h
    | getToken => exact h.getToken
    | unauthorized c => exact h.unauthorized
    | timerFires => exact h.timerFires
    | _ => cases hasks
  · exact h.resumes (step_resumes (Bool.eq_false_iff.mpr hasks))

/-! ### A caller that waits -/

/-- It still waits for the fetch, or has an outcome of it. -/
def Waited (f : ℕ) (retried : Bool) (call : Option Call) : Prop :=
  call = some (.waiting f retried) ∨ ∃ r, call = some (.received (some f) r retried)

section waiting

variable {c g : ℕ} {retried : Bool}

theorem waited_finish (hc : s.calls[c]? = some (.waiting f retried)) :
    Waited f retried (s.finish g y r).calls[c]? := by
  rw [State.finish, List.getElem?_map, hc, Option.map_some, Call.receive]
  split
  · next hg =>
    subst hg
    exact .inr ⟨r, rfl⟩
  · exact .inl rfl

theorem waited_settle (hc : s.calls[c]? = some (.waiting f retried)) :
    Waited f retried (s.settle g y r).calls[c]? := by
  rw [State.settle]
  split
  · exact .inl hc
  · exact waited_finish hc

theorem waited_loop (hc : s.calls[c]? = some (.waiting f retried)) :
    Waited f retried (s.loop props g y).calls[c]? := by
  rw [State.loop]
  split
  · exact .inl hc
  · exact waited_settle (s := { s with tokenError := some y.lastErr }) hc

theorem waited_resumes (hc : s.calls[c]? = some (.waiting f retried)) (ht : Resumes props s t) :
    Waited f retried t.calls[c]? := by
  cases ht with
  | idle hfetches hcalls href => exact .inl (by rw [hcalls]; exact hc)
  | answered data hx hfly => exact waited_settle hc
  | failed err hx hfly =>
    rw [State.failed]
    split
    · exact .inl hc
    · exact waited_loop hc
  | wakes hx hfly => exact waited_loop hc
  | onFinally hx hst hshared => exact waited_finish hc

theorem waited_getToken (hc : s.calls[c]? = some (.waiting f retried)) :
    Waited f retried (s.getToken props).calls[c]? := by
  have happend : ∀ calls, (s.calls ++ calls)[c]? = some (.waiting f retried) := by
    intro calls
    rw [List.getElem?_append_left (List.getElem?_eq_some_iff.mp hc).1]
    exact hc
  rw [State.getToken]
  split
  · exact .inl (happend _)
  · exact .inl (happend _)
  · have hcalls := (State.fetchToken_shared props { s with isTokenLoading := true }).2
    refine .inl ?_
    change ((State.fetchToken props true { s with isTokenLoading := true }).calls ++ _)[c]? = _
    rw [hcalls]
    exact happend _

/-- The caller whose request is answered with 401 is another one. -/
theorem waited_unauthorized {d : ℕ} (hc : s.calls[c]? = some (.waiting f retried)) :
    Waited f retried (s.unauthorized props d).calls[c]? := by
  rw [State.unauthorized]
  split
  · next hsends =>
    have hne : d ≠ c := by
      rintro rfl
      rw [State.sends, hc] at hsends
      cases hsends
    exact waited_loop (by rw [List.getElem?_set_ne hne]; exact hc)
  · exact .inl hc

/-- **A caller waits for one fetch**, until it has an outcome of it. -/
theorem waited_step (hc : s.calls[c]? = some (.waiting f retried)) (e : Event) :
    Waited f retried (step props s e).calls[c]? := by
  cases e with
  | mount =>
    rw [step]
    split
    · exact waited_getToken hc
    · exact .inl hc
  | getToken => exact waited_getToken hc
  | unauthorized d => exact waited_unauthorized hc
  | timerFires =>
    rw [step, State.timerFires]
    split
    · exact waited_loop hc
    · exact .inl hc
  | _ => exact waited_resumes hc (step_resumes rfl)

end waiting

end ReactProvider
end FileNest
