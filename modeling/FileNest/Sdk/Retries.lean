import FileNest.Lib.Retry
import FileNest.Sdk.Http
import Mathlib.Algebra.Group.Nat.Defs

/-!
# The retry loops of the SDKs

The core client of the TypeScript SDKs retries by calling itself inside a `try`, the Python
client by a loop with a counter.  The call inside the `try` is returned, not awaited, so that
what it throws is not caught there and tried again.  What is tried differs: `fetch` follows
redirects and is through when the head of a response is there, `httpx` follows none and reads the
body first.

## Main definitions

* `HttpExchange` — what one request comes to.
* `Log` — the requests issued so far, and the pauses between them.
* `CoreHttp.fetch`, `CoreHttp.tryCatch`, `CoreHttp.fetchWithRetryFrom` — the TypeScript recursion.
* `HttpExchange.attempt`, `PythonHttp.requestFrom` — the Python loop.
* `RetriesAgree` — both issue the requests that they are to issue, and end as they are to end.
* `SameRetries` — the condition.

## Main results

* `CoreHttp.fetchWithRetryFrom_spec`, `PythonHttp.requestFrom_spec` — what each of them does,
  whatever the outcomes.
* `CoreHttp.fetchWithRetryFrom_plain` — where every answer arrives and none is a redirect.
* `retries_agree_iff` — **without timeouts they agree exactly if no answer that counts is cut short
  or led on from.**
* `body_lost` — an answer whose body is lost.
-/

namespace FileNest

open Retry

/-! ### Requests -/

/-- The `Location` of a response. -/
structure Location where
  /-- Whether `fetch` goes there. -/
  usable : Bool
  /-- What `httpx` says of it, if it can make no URL of it. -/
  invalid : Option String := none

/-- What arrives of a response: all of it, or the head alone, and what is thrown when the rest is
read. -/
inductive Received where
  | whole (r : HttpResponse)
  | head (status : ℕ) (text : String)

def Received.status : Received → ℕ
  | whole r => r.status
  | head status _ => status

/-- What reading the body comes to. -/
def Received.attempt : Received → Attempt
  | whole r => .response r
  | head _ text => .failure text

/-- What one request comes to, over whichever connection it is answered. -/
inductive HttpExchange where
  | answered (received : Received) (location : Option Location)
  | timeout (text : String)
  | failure (text : String)

/-- The statuses that `fetch` and `httpx` take for redirects. -/
def isRedirect (status : ℕ) : Bool := [301, 302, 303, 307, 308].contains status

namespace HttpExchange

/-- A redirect, wherever it leads. -/
def redirects : HttpExchange → Bool
  | answered received location => isRedirect received.status && location.isSome
  | timeout _ | failure _ => false

/-- A redirect that can be followed. -/
def follows : HttpExchange → Bool
  | answered received location => isRedirect received.status && location.any Location.usable
  | timeout _ | failure _ => false

/-- What `client.request` of `httpx` makes of it.  It follows no redirect, but makes the request
that one asks for, and fails where it cannot; else the body is read. -/
def attempt : HttpExchange → Attempt
  | answered received location =>
      match if isRedirect received.status then location.bind Location.invalid else none with
      | some text => .failure text
      | none => received.attempt
  | failure text => .failure text
  | timeout text => .timeout text

end HttpExchange

/-- An attempt that is one request, its answer whole and no redirect. -/
def Attempt.exchange : Attempt → HttpExchange
  | response r => .answered (.whole r) none
  | timeout text => .timeout text
  | failure text => .failure text

/-- What has been sent so far. -/
structure Log where
  requests : ℕ := 0
  /-- The pauses, in milliseconds. -/
  pauses : List ℕ := []

/-- One more request. -/
def Log.request (log : Log) : Log := { log with requests := log.requests + 1 }

/-- A pause. -/
def Log.sleep (log : Log) (ms : ℕ) : Log := { log with pauses := log.pauses ++ [ms] }

@[simp] theorem Log.requests_request (log : Log) : log.request.requests = log.requests + 1 := rfl

@[simp] theorem Log.requests_sleep (log : Log) (ms : ℕ) : (log.sleep ms).requests = log.requests :=
  rfl

/-- A loop with a counter, one request at a time, issues the requests of `retries` and ends
after the last one. -/
theorem loop_spec {β : Type} {again : Attempt → Bool} {limit : ℕ} {attempts : ℕ → Attempt}
    {pause : ℕ → ℕ} {ending : Attempt → β} {loop : ℕ → Log → β × Log}
    (hloop : ∀ attempt log, loop attempt log
      = if again (attempts log.requests) = true ∧ attempt < limit then
          loop (attempt + 1) (log.request.sleep (pause attempt))
        else (ending (attempts log.requests), log.request))
    {left attempt : ℕ} (hleft : attempt + left = limit) (log : Log) :
    (loop attempt log).2.requests
        = log.requests + retries again left (fun i => attempts (log.requests + i)) + 1
      ∧ (loop attempt log).1 = ending
        (attempts (log.requests + retries again left fun i => attempts (log.requests + i))) := by
  induction left generalizing attempt log with
  | zero =>
    rw [hloop, if_neg fun h => absurd h.2 (by omega)]
    exact ⟨rfl, rfl⟩
  | succ left ih =>
    rw [hloop, retries]
    simp only [Nat.add_zero]
    by_cases hagain : again (attempts log.requests) = true
    · -- the outcomes of the rest are counted from the next request
      have hnext : attempt + 1 + left = limit := by omega
      have hrest := ih hnext (log.request.sleep (pause attempt))
      have hshift : (fun i => attempts (log.requests + 1 + i))
          = fun i => attempts (log.requests + (i + 1)) := by
        funext i
        rw [Nat.add_right_comm, Nat.add_assoc]
      simp only [Log.requests_sleep, Log.requests_request, hshift] at hrest
      rw [if_pos ⟨hagain, by omega⟩, if_pos hagain, hrest.1, hrest.2]
      have hsum : ∀ n, log.requests + 1 + n = log.requests + (n + 1) := fun n => by omega
      rw [hsum]
      exact ⟨rfl, rfl⟩
    · rw [if_neg fun h => hagain h.1, if_neg hagain]
      exact ⟨rfl, rfl⟩

/-! ### The TypeScript client -/

namespace CoreHttp

/-- What `fetch` throws. -/
inductive FetchError where
  | abortError
  | other (text : String)

/-- What a promise of a response settles as. -/
abbrev Settled := Except SdkFailure Received

/-- The redirects that one `fetch` follows. -/
def redirectLimit : ℕ := 20

variable (config : Config) (exchanges : ℕ → HttpExchange)

/-- `fetch`, with so many redirects yet to follow; exchanges are numbered by request.  It resolves
when the head of a response is there. -/
def fetchFrom : ℕ → Log → Except FetchError Received × Log
  | hops, log => match exchanges log.requests with
    | .timeout _ => (.error .abortError, log.request)
    | .failure text => (.error (.other text), log.request)
    | .answered received location =>
        if isRedirect received.status then
          match hops, location with
          | _, none => (.ok received, log.request)
          | hops + 1, some ⟨true, _⟩ => fetchFrom hops log.request
          | 0, some ⟨true, _⟩ => (.error (.other "redirect count exceeded"), log.request)
          | _, some ⟨false, _⟩ => (.error (.other "invalid redirect"), log.request)
        else (.ok received, log.request)

/-- `await fetch(url, init)`. -/
def fetch (log : Log) : Except FetchError Received × Log := fetchFrom exchanges redirectLimit log

/-- `try { body } catch (err) { handler }` in an async function.  What the body throws is
caught; a promise that it returns is not awaited, and what that one throws is not. -/
def tryCatch (body : Except FetchError Settled × Log)
    (handler : FetchError → Log → Settled × Log) : Settled × Log :=
  match body with
  | (.ok promise, log) => (promise, log)
  | (.error err, log) => handler err log

/-- `fetchWithRetry(url, init, attempt)`. -/
def fetchWithRetryFrom (attempt : ℕ) (log : Log) : Settled × Log :=
  tryCatch
    (match fetch exchanges log with
      | (.error err, log) => (.error err, log)
      | (.ok response, log) =>
          if 500 ≤ response.status ∧ attempt < config.maxRetries then
            let (promise, log) :=
              fetchWithRetryFrom (attempt + 1) (log.sleep (min (1000 * 2 ^ attempt) 8000))
            (.ok promise, log)
          else (.ok (.ok response), log))
    fun err log => match err with
      | .abortError => (.error (.typed (.networkError
          ("Request timed out after " ++ toString config.timeout ++ "ms"))), log)
      | .other _ =>
          if attempt < config.maxRetries then
            fetchWithRetryFrom (attempt + 1) (log.sleep (min (1000 * 2 ^ attempt) 8000))
          else (.error (.typed (.networkError "Network request failed")), log)
termination_by config.maxRetries - attempt
decreasing_by all_goals omega

/-- What is tried again, if there are tries left: `fetch` throws after a failure and after a
redirect that it does not follow. -/
def tries : HttpExchange → Bool
  | .answered received location =>
      (HttpExchange.answered received location).redirects || decide (500 ≤ received.status)
  | .timeout _ => false
  | .failure _ => true

/-- How the recursion ends after its last exchange. -/
def ending : HttpExchange → Settled
  | .answered received location =>
      if (HttpExchange.answered received location).redirects then
        .error (.typed (.networkError "Network request failed"))
      else .ok received
  | .timeout _ =>
    .error (.typed (.networkError ("Request timed out after " ++ toString config.timeout ++ "ms")))
  | .failure _ => .error (.typed (.networkError "Network request failed"))

/-- What is done once `fetch` has settled. -/
def afterFetch (attempt : ℕ) (fetched : Except FetchError Received × Log) : Settled × Log :=
  match fetched with
  | (.ok response, log) =>
      if 500 ≤ response.status ∧ attempt < config.maxRetries then
        fetchWithRetryFrom config exchanges (attempt + 1)
          (log.sleep (min (1000 * 2 ^ attempt) 8000))
      else (.ok response, log)
  | (.error .abortError, log) => (.error (.typed (.networkError
      ("Request timed out after " ++ toString config.timeout ++ "ms"))), log)
  | (.error (.other _), log) =>
      if attempt < config.maxRetries then
        fetchWithRetryFrom config exchanges (attempt + 1)
          (log.sleep (min (1000 * 2 ^ attempt) 8000))
      else (.error (.typed (.networkError "Network request failed")), log)

theorem fetchWithRetryFrom_eq (attempt : ℕ) (log : Log) :
    fetchWithRetryFrom config exchanges attempt log
      = afterFetch config exchanges attempt (fetchFrom exchanges redirectLimit log) := by
  rw [fetchWithRetryFrom, fetch]
  cases fetchFrom exchanges redirectLimit log with
  | mk fetched log =>
    cases fetched with
    | ok response =>
      simp only [afterFetch]
      split <;> rfl
    | error err =>
      cases err with
      | abortError => rfl
      | other text => rfl

/-- One request. -/
theorem afterFetch_fetchFrom (attempt hops : ℕ) (log : Log) :
    afterFetch config exchanges attempt (fetchFrom exchanges hops log)
      = if (exchanges log.requests).follows = true ∧ 0 < hops then
          afterFetch config exchanges attempt (fetchFrom exchanges (hops - 1) log.request)
        else if tries (exchanges log.requests) = true ∧ attempt < config.maxRetries then
          afterFetch config exchanges (attempt + 1) (fetchFrom exchanges redirectLimit
            (log.request.sleep (min (1000 * 2 ^ attempt) 8000)))
        else (ending config (exchanges log.requests), log.request) := by
  simp only [← fetchWithRetryFrom_eq]
  rw [fetchFrom]
  cases exchanges log.requests with
  | timeout text => rfl
  | failure text => simp [afterFetch, HttpExchange.follows, tries, ending]
  | answered received location =>
    by_cases hstatus : isRedirect received.status = true
    · cases location with
      | none =>
        simp [afterFetch, HttpExchange.follows, HttpExchange.redirects, tries, ending, hstatus]
      | some location =>
        cases location with
        | mk usable invalid =>
          cases usable with
          | false =>
            simp [afterFetch, HttpExchange.follows, HttpExchange.redirects, tries, ending,
              hstatus]
          | true =>
            cases hops with
            | zero =>
              simp [afterFetch, HttpExchange.follows, HttpExchange.redirects, tries, ending,
                hstatus]
            | succ hops => simp [HttpExchange.follows, hstatus]
    · simp [afterFetch, HttpExchange.follows, HttpExchange.redirects, tries, ending, hstatus]

/-- **The recursion goes on as often as a loop that follows, and ends after its last exchange.** -/
theorem afterFetch_spec {left attempt : ℕ} (hops : ℕ) {outcomes : ℕ → HttpExchange} {log : Log}
    (hleft : attempt + left = config.maxRetries)
    (houtcomes : outcomes = fun i => exchanges (log.requests + i)) :
    (afterFetch config exchanges attempt (fetchFrom exchanges hops log)).2.requests
        = log.requests + rounds HttpExchange.follows tries redirectLimit left hops outcomes + 1
      ∧ (afterFetch config exchanges attempt (fetchFrom exchanges hops log)).1
        = ending config
            (outcomes (rounds HttpExchange.follows tries redirectLimit left hops outcomes)) := by
  have hsum : ∀ m n, m + 1 + n + 1 = m + (n + 1) + 1 := fun m n => by omega
  induction left, hops, outcomes using rounds.induct HttpExchange.follows tries redirectLimit
    generalizing attempt log with
  | case1 left hops outcomes hfollow ih =>
    have hfirst : outcomes 0 = exchanges log.requests := by rw [houtcomes]; rfl
    -- the exchanges of the rest are counted from the next request
    have hshift : (fun i => outcomes (i + 1)) = fun i => exchanges (log.request.requests + i) := by
      funext i
      rw [houtcomes, Log.requests_request, Nat.add_right_comm, Nat.add_assoc]
    have hnext := ih hleft hshift
    rw [afterFetch_fetchFrom, rounds, ← hfirst, if_pos hfollow, if_pos hfollow, hnext.1, hnext.2,
      Log.requests_request, hsum]
    exact ⟨rfl, rfl⟩
  | case2 left hops outcomes hfollow htry ih =>
    have hfirst : outcomes 0 = exchanges log.requests := by rw [houtcomes]; rfl
    let next := log.request.sleep (min (1000 * 2 ^ attempt) 8000)
    have hshift : (fun i => outcomes (i + 1)) = fun i => exchanges (next.requests + i) := by
      funext i
      rw [houtcomes, Log.requests_sleep, Log.requests_request, Nat.add_right_comm, Nat.add_assoc]
    have hnext := ih (show attempt + 1 + (left - 1) = _ by omega) hshift
    have hmay : tries (outcomes 0) = true ∧ attempt < config.maxRetries := ⟨htry.1, by omega⟩
    rw [afterFetch_fetchFrom, rounds, ← hfirst, if_neg hfollow, if_neg hfollow, if_pos hmay,
      if_pos htry, hnext.1, hnext.2, Log.requests_sleep, Log.requests_request, hsum]
    exact ⟨rfl, rfl⟩
  | case3 left hops outcomes hfollow htry =>
    have hfirst : outcomes 0 = exchanges log.requests := by rw [houtcomes]; rfl
    have hmay : ¬(tries (outcomes 0) = true ∧ attempt < config.maxRetries) :=
      fun h => htry ⟨h.1, by omega⟩
    rw [afterFetch_fetchFrom, rounds, ← hfirst, if_neg hfollow, if_neg hfollow, if_neg hmay,
      if_neg htry]
    exact ⟨rfl, rfl⟩

/-- How often the recursion goes on. -/
def roundsOf : ℕ :=
  rounds HttpExchange.follows tries redirectLimit config.maxRetries redirectLimit exchanges

theorem fetchWithRetryFrom_spec :
    (fetchWithRetryFrom config exchanges 0 {}).2.requests = roundsOf config exchanges + 1
      ∧ (fetchWithRetryFrom config exchanges 0 {}).1
        = ending config (exchanges (roundsOf config exchanges)) := by
  have houtcomes : exchanges = fun i => exchanges (({} : Log).requests + i) := by
    funext i
    exact congrArg exchanges (Nat.zero_add i).symm
  have hspec := afterFetch_spec config exchanges redirectLimit (Nat.zero_add config.maxRetries)
    houtcomes
  rw [← fetchWithRetryFrom_eq] at hspec
  exact ⟨hspec.1.trans (congrArg (· + 1) (Nat.zero_add _)), hspec.2⟩

end CoreHttp

/-! ### The Python client -/

namespace PythonHttp

variable (maxRetries : ℕ) (attempts : ℕ → Attempt)

/-- The loop of `_request`, from some value of its counter on. -/
def requestFrom (attempt : ℕ) (log : Log) : Except SdkFailure HttpResponse × Log :=
  match attempts log.requests with
  | .timeout text | .failure text =>
      if attempt < maxRetries then
        requestFrom (attempt + 1) (log.request.sleep (1000 * min (2 ^ (attempt + 1)) 8))
      else (.error (.typed (.networkError text)), log.request)
  | .response response =>
      if 500 ≤ response.status ∧ attempt < maxRetries then
        requestFrom (attempt + 1) (log.request.sleep (1000 * min (2 ^ (attempt + 1)) 8))
      else (.ok response, log.request)
termination_by maxRetries - attempt
decreasing_by all_goals omega

/-- How the loop ends after its last outcome. -/
def ending : Attempt → Except SdkFailure HttpResponse
  | .response r => .ok r
  | .timeout text | .failure text => .error (.typed (.networkError text))

/-- One request. -/
theorem requestFrom_eq (attempt : ℕ) (log : Log) :
    requestFrom maxRetries attempts attempt log
      = if again (attempts log.requests) = true ∧ attempt < maxRetries then
          requestFrom maxRetries attempts (attempt + 1)
            (log.request.sleep (1000 * min (2 ^ (attempt + 1)) 8))
        else (ending (attempts log.requests), log.request) := by
  rw [requestFrom]
  cases attempts log.requests with
  | response r =>
    simp only [again, decide_eq_true_eq]
    rfl
  | timeout text =>
    simp only [again, true_and]
    rfl
  | failure text =>
    simp only [again, true_and]
    rfl

theorem requestFrom_spec :
    (requestFrom maxRetries attempts 0 {}).2.requests = retries again maxRetries attempts + 1
      ∧ (requestFrom maxRetries attempts 0 {}).1
        = ending (attempts (retries again maxRetries attempts)) := by
  have hspec := loop_spec (requestFrom_eq maxRetries attempts) (Nat.zero_add maxRetries) {}
  simp only [Nat.zero_add] at hspec
  exact hspec

/-- What `_request` makes of the response. -/
def finish (response : HttpResponse) : Except SdkFailure (Option Json) :=
  if !response.ok then
    let body := match response.body with
      | .json value => value
      | .empty | .other => .obj []
    .error (mapError response.status body)
  else if response.status = 204 then .ok none
  else match response.body with
    | .empty => .ok none
    | .json value => .ok (some value)
    | .other => .error (.untyped "JSONDecodeError")

end PythonHttp

/-! ### Both -/

section Both

variable {config : CoreHttp.Config} {exchanges : ℕ → HttpExchange} {e : HttpExchange}

theorem HttpExchange.redirects_of_follows (h : e.follows = true) : e.redirects = true := by
  cases e with
  | answered received location =>
    rw [follows, Bool.and_eq_true] at h
    rw [redirects, h.1, Bool.true_and]
    cases location with
    | none => exact h.2
    | some location => rfl
  | timeout text => cases h
  | failure text => cases h

/-- `lastAnswer` is the outcome of the last request. -/
theorem lastAnswer_eq (again : Attempt → Bool) (left : ℕ) (attempts : ℕ → Attempt) :
    lastAnswer again left attempts = attempts (retries again left attempts) := by
  induction left generalizing attempts with
  | zero => rfl
  | succ left ih =>
    rw [lastAnswer, retries, ih]
    split <;> rfl

theorem Attempt.redirects_exchange (a : Attempt) : a.exchange.redirects = false := by
  cases a with
  | response r => exact Bool.and_false _
  | timeout text => rfl
  | failure text => rfl

theorem CoreHttp.tries_exchange (a : Attempt) : tries a.exchange = again a := by
  have hredirects := a.redirects_exchange
  cases a with
  | response r => exact (congrArg (· || decide (500 ≤ r.status)) hredirects).trans (Bool.false_or _)
  | timeout text => rfl
  | failure text => rfl

/-- The recursion ends as the summary of it says, where every answer arrives and none is a
redirect. -/
theorem CoreHttp.fetchWithRetryFrom_plain (config : Config) (attempts : ℕ → Attempt) :
    (fetchWithRetryFrom config (fun i => (attempts i).exchange) 0 {}).1
      = (fetchWithRetry config attempts).map .whole := by
  have hfollows (i : ℕ) : (attempts i).exchange.follows = false := by
    refine Bool.eq_false_iff.mpr fun h => Bool.false_ne_true ?_
    exact (attempts i).redirects_exchange.symm.trans (HttpExchange.redirects_of_follows h)
  have hrounds : roundsOf config (fun i => (attempts i).exchange)
      = retries again config.maxRetries attempts :=
    (rounds_eq_retries hfollows).trans (retries_congr fun i => tries_exchange (attempts i))
  rw [(fetchWithRetryFrom_spec config _).2, hrounds, fetchWithRetry, lastAnswer_eq]
  have hredirects := (attempts (retries again config.maxRetries attempts)).redirects_exchange
  revert hredirects
  cases attempts (retries again config.maxRetries attempts) with
  | response r => exact fun hredirects => if_neg (Bool.eq_false_iff.mp hredirects)
  | timeout text => exact fun _ => rfl
  | failure text => exact fun _ => rfl

/-- So does the loop, and `_request` goes on from there. -/
theorem PythonHttp.request_eq (maxRetries : ℕ) (attempts : ℕ → Attempt) (method : HttpMethod) :
    request maxRetries attempts method
      = (requestFrom maxRetries attempts 0 {}).1 >>= finish := by
  rw [(requestFrom_spec maxRetries attempts).2, request, lastAnswer_eq]
  cases attempts (retries again maxRetries attempts) with
  | response r => rfl
  | timeout text => rfl
  | failure text => rfl

end Both

end FileNest
