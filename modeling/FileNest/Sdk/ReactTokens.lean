import FileNest.Lib.Trace
import FileNest.Sdk.ReactProvider

/-!
# At most one fetch of a token

`getToken` joins the fetch that it has started.  It does not know of those that a 401 or the
timer has started, and these know of none.

## Main definitions

* `State.inFlight`, `State.direct` — the fetches in flight, and those `getToken` does not know.
* `starts` — the events at which `fetchToken` is called.
* `Deduplicated` — at most one fetch in flight, each caller answered with what it waits for.
* `Spaced` — no fetch is called for while one is in flight that is not known.

## Main results

* `inFlight_of_starts`, `inFlight_of_not_starts` — what an event adds.
* `tokens_deduplicated_iff` — **a run is deduplicated exactly if its events are spaced.**
* `getToken_deduplicates` — without 401s and timers they always are.
-/

namespace FileNest
namespace ReactProvider

variable {props : Props} {s t : State} {f : ℕ} {x y : Fetch} {r : Outcome}

/-! ### Fetches in flight -/

/-- The fetches in flight. -/
def State.inFlight (s : State) : ℕ := s.fetches.countP Fetch.inFlight

/-- Those that a request or the timer has started. -/
def State.direct (s : State) : ℕ := s.fetches.countP fun x => x.inFlight && !x.shared

/-- A fetch that goes on is no other. -/
theorem inFlight_set (hx : s.fetches[f]? = some x) (h : y.inFlight = true → x.inFlight = true) :
    (s.fetches.set f y).countP Fetch.inFlight ≤ s.inFlight := by
  obtain ⟨hlt, hget⟩ := List.getElem?_eq_some_iff.mp hx
  rw [List.countP_set hlt, hget, State.inFlight]
  cases hy : y.inFlight with
  | false => simp
  | true =>
    -- it was counted before
    have hpos : 0 < s.fetches.countP Fetch.inFlight :=
      List.countP_pos_iff.mpr ⟨x, List.mem_of_getElem? hx, h hy⟩
    rw [h hy, if_pos rfl]
    omega

theorem inFlight_settle (hx : s.fetches[f]? = some x) :
    (s.settle f y r).inFlight ≤ s.inFlight := by
  rw [State.settle]
  split
  · exact inFlight_set hx fun hfly => by cases hfly
  · exact inFlight_set hx fun hfly => by cases hfly

theorem inFlight_loop (hx : s.fetches[f]? = some x) (hfly : x.inFlight = true) :
    (s.loop props f y).inFlight ≤ s.inFlight := by
  rw [State.loop]
  split
  · exact inFlight_set hx fun _ => hfly
  · exact inFlight_settle (s := { s with tokenError := some y.lastErr }) hx

theorem inFlight_resumes (ht : Resumes props s t) : t.inFlight ≤ s.inFlight := by
  cases ht with
  | idle hfetches hcalls href => exact Nat.le_of_eq (congrArg (List.countP Fetch.inFlight) hfetches)
  | answered data hx hfly => exact inFlight_settle hx
  | failed err hx hfly =>
    rw [State.failed]
    split
    · exact inFlight_set hx fun _ => hfly
    · exact inFlight_loop hx hfly
  | wakes hx hfly => exact inFlight_loop hx hfly
  | onFinally hx hst hshared => exact inFlight_set hx fun hfly => by cases hfly

/-- A call of `fetchToken` is one more, if there is to be an attempt. -/
theorem inFlight_fetchToken (shared : Bool) (s : State) :
    (s.fetchToken props shared).inFlight
      = s.inFlight + if 0 < props.tokenRetry then 1 else 0 := by
  obtain ⟨x, hx, hfly⟩ := State.fetchToken_fetches props shared s
  rw [State.inFlight, hx, List.countP_append, List.countP_singleton, hfly, State.inFlight]
  simp only [decide_eq_true_eq]

/-- Where no promise is kept, the fetches in flight are not `getToken`'s. -/
theorem Wired.direct_eq (h : Wired s) (hnone : s.inflightRef = none) : s.direct = s.inFlight := by
  refine List.countP_congr fun x hx => ?_
  obtain ⟨f, hf⟩ := List.mem_iff_getElem?.mp hx
  constructor
  · intro hand
    exact (Bool.and_eq_true_iff.mp hand).1
  · intro hfly
    cases hshared : x.shared with
    | false => rw [hfly]; rfl
    | true =>
      -- its promise would be kept
      have hkept := h.owned f x hf hshared (Fetch.pending_of_inFlight hfly)
      rw [hnone] at hkept
      cases hkept

variable (props) in
/-- There is neither a token nor a promise to answer with. -/
def State.opens (s : State) : Bool := (s.cached props).isNone && s.inflightRef.isNone

variable (props) in
/-- An event at which `fetchToken` is called. -/
def starts (s : State) : Event → Bool
  | .mount => props.fetchInitialToken && s.opens props
  | .getToken => s.opens props
  | .unauthorized c => s.sends c
  | .timerFires => s.due
  | _ => false

theorem inFlight_getToken (h : s.opens props = true) :
    (s.getToken props).inFlight = s.inFlight + if 0 < props.tokenRetry then 1 else 0 := by
  obtain ⟨hcached, href⟩ := Bool.and_eq_true_iff.mp h
  rw [State.getToken, Option.isNone_iff_eq_none.mp hcached, Option.isNone_iff_eq_none.mp href]
  exact inFlight_fetchToken true _

theorem getToken_of_not_opens (h : s.opens props = false) :
    (s.getToken props).fetches = s.fetches := by
  rw [State.getToken]
  split
  · rfl
  · rfl
  · next hcached href => rw [State.opens, hcached, href] at h; cases h

/-- Where `fetchToken` is called there is one fetch more, … -/
theorem inFlight_of_starts {e : Event} (h : starts props s e = true) :
    (step props s e).inFlight = s.inFlight + if 0 < props.tokenRetry then 1 else 0 := by
  cases e with
  | mount =>
    obtain ⟨hmount, hopens⟩ := Bool.and_eq_true_iff.mp h
    rw [step, if_pos hmount]
    exact inFlight_getToken hopens
  | getToken => exact inFlight_getToken h
  | unauthorized c =>
    have hsends : s.sends c = true := h
    rw [step, State.unauthorized, if_pos hsends]
    exact inFlight_fetchToken false _
  | timerFires =>
    have hdue : s.due = true := h
    rw [step, State.timerFires, if_pos hdue]
    exact inFlight_fetchToken false _
  | _ => cases h

/-- … and nowhere else. -/
theorem inFlight_of_not_starts {e : Event} (h : starts props s e = false) :
    (step props s e).inFlight ≤ s.inFlight := by
  cases e with
  | mount =>
    rw [step]
    split
    · next hmount =>
      rw [starts, hmount, Bool.true_and] at h
      exact Nat.le_of_eq (congrArg (List.countP Fetch.inFlight) (getToken_of_not_opens h))
    · exact Nat.le_refl s.inFlight
  | getToken => exact Nat.le_of_eq (congrArg (List.countP Fetch.inFlight) (getToken_of_not_opens h))
  | unauthorized c =>
    have hsends : ¬ s.sends c = true := Bool.eq_false_iff.mp h
    exact Nat.le_of_eq (congrArg State.inFlight (if_neg hsends))
  | timerFires =>
    have hdue : ¬ s.due = true := Bool.eq_false_iff.mp h
    exact Nat.le_of_eq (congrArg State.inFlight (if_neg hdue))
  | _ => exact inFlight_resumes (step_resumes rfl)

/-! ### Runs -/

/-- At most one fetch is in flight, and each caller has what it waited for. -/
structure Deduplicated (s : State) : Prop extends Answered s where
  once : s.inFlight ≤ 1

/-- The fetches that an event does not know of: `getToken` would join its own. -/
def unseen (s : State) : Event → ℕ
  | .mount => s.direct
  | .getToken => s.direct
  | _ => s.inFlight

variable (props s) in
/-- An event at which `fetchToken` is called comes where no fetch is in flight that it does
not know of. -/
def Spaced (e : Event) : Prop :=
  0 < props.tokenRetry → starts props s e = true → unseen s e = 0

theorem Wired.unseen_eq (h : Wired s) {e : Event} (hstarts : starts props s e = true) :
    unseen s e = s.inFlight := by
  cases e with
  | mount =>
    have hopens := (Bool.and_eq_true_iff.mp hstarts).2
    exact h.direct_eq (Option.isNone_iff_eq_none.mp (Bool.and_eq_true_iff.mp hopens).2)
  | getToken =>
    exact h.direct_eq (Option.isNone_iff_eq_none.mp (Bool.and_eq_true_iff.mp hstarts).2)
  | _ => rfl

/-- One event. -/
theorem Wired.once_step_iff (h : Wired s) (hs : s.inFlight ≤ 1) (e : Event) :
    (ReactProvider.step props s e).inFlight ≤ 1 ↔ Spaced props s e := by
  cases hstarts : starts props s e with
  | false =>
    exact ⟨fun _ _ hs => absurd hstarts (by rw [hs]; decide),
      fun _ => Nat.le_trans (inFlight_of_not_starts hstarts) hs⟩
  | true =>
    rw [inFlight_of_starts hstarts, Spaced, h.unseen_eq hstarts]
    by_cases hretry : 0 < props.tokenRetry
    · rw [if_pos hretry]
      constructor
      · intro hle _ _
        omega
      · intro hzero
        have hnone := hzero hretry hstarts
        omega
    · -- `fetchToken` throws before it fetches
      rw [if_neg hretry]
      exact ⟨fun _ hpos => absurd hpos hretry, fun _ => hs⟩

/-- **A run is deduplicated exactly if its events are spaced**: the fetches of `getToken` are
joined by it, those of a 401 and of the timer are not. -/
theorem tokens_deduplicated_iff (props : Props) (now : ℤ) (es : List Event) :
    Trace.Throughout (step props) Deduplicated (State.initial now) es
      ↔ Trace.EachStep (step props) (Spaced props) (State.initial now) es := by
  refine Trace.throughout_iff_eachStep (I := Wired) (fun s e h => Wired.step h e)
    (fun s e h hs => ?_) (wired_initial now) ⟨(wired_initial now).toAnswered, Nat.zero_le 1⟩
  rw [← h.once_step_iff hs.once e]
  exact ⟨fun hded => hded.once, fun honce => ⟨(h.step e).toAnswered, honce⟩⟩

/-- The token lasts for two minutes; a minute before it ends, the timer goes off and a caller
comes. -/
def refreshRun : List Event :=
  [.getToken, .answered 0 ⟨"first", some 120000⟩, .onFinally 0, .tick 60000, .timerFires, .getToken]

theorem tokens_not_deduplicated :
    ¬ ∀ (props : Props) (now : ℤ) (es : List Event),
      Trace.Throughout (step props) Deduplicated (State.initial now) es := by
  intro h
  have hlast := (h {} 0 refreshRun).last.once
  have htwo : (refreshRun.foldl (step {}) (State.initial 0)).inFlight = 2 := by decide
  rw [htwo] at hlast
  exact absurd hlast (by decide)

/-! ### Without 401s and timers -/

/-- The events that start a fetch of their own. -/
def Event.direct : Event → Bool
  | .unauthorized _ => true
  | .timerFires => true
  | _ => false

variable (s) in
/-- All fetches are `getToken`'s. -/
def AllShared : Prop := ∀ x ∈ s.fetches, x.shared = true

theorem AllShared.set (h : AllShared s) (hx : s.fetches[f]? = some x) (hy : y.shared = x.shared) :
    ∀ z ∈ s.fetches.set f y, z.shared = true := by
  intro z hz
  rcases List.mem_or_eq_of_mem_set hz with hz | rfl
  · exact h z hz
  · exact hy.trans (h x (List.mem_of_getElem? hx))

theorem AllShared.settle (h : AllShared s) (hx : s.fetches[f]? = some x)
    (hy : y.shared = x.shared) : AllShared (s.settle f y r) := by
  rw [State.settle]
  split
  · exact h.set hx hy
  · exact h.set hx hy

theorem AllShared.loop (h : AllShared s) (hx : s.fetches[f]? = some x)
    (hy : y.shared = x.shared) : AllShared (s.loop props f y) := by
  rw [State.loop]
  split
  · exact h.set hx hy
  · exact AllShared.settle (s := { s with tokenError := some y.lastErr }) h hx hy

theorem AllShared.resumes (h : AllShared s) (ht : Resumes props s t) : AllShared t := by
  cases ht with
  | idle hfetches hcalls href => rw [AllShared, hfetches]; exact h
  | answered data hx hfly => exact AllShared.settle h hx rfl
  | failed err hx hfly =>
    rw [State.failed]
    split
    · exact h.set hx rfl
    · exact h.loop hx rfl
  | wakes hx hfly => exact h.loop hx rfl
  | onFinally hx hst hshared => exact h.set hx rfl

theorem AllShared.getToken (h : AllShared s) : AllShared (s.getToken props) := by
  rw [State.getToken]
  split
  · exact h
  · exact h
  · obtain ⟨⟨x, hx, hsh, -⟩, -⟩ :=
      State.fetchToken_shared props { s with isTokenLoading := true }
    intro z hz
    rcases List.mem_append.mp (hx ▸ hz) with hz | hz
    · exact h z hz
    · rw [List.mem_singleton.mp hz]
      exact hsh

theorem AllShared.step (h : AllShared s) {e : Event} (he : e.direct = false) :
    AllShared (ReactProvider.step props s e) := by
  cases e with
  | mount =>
    rw [ReactProvider.step]
    split
    · exact h.getToken
    · exact h
  | getToken => exact h.getToken
  | unauthorized c => cases he
  | timerFires => cases he
  | _ => exact h.resumes (step_resumes rfl)

/-- `getToken` knows of all of them. -/
theorem AllShared.spaced (h : AllShared s) {e : Event} (he : e.direct = false) :
    Spaced props s e := by
  have hnone : s.direct = 0 := by
    refine List.countP_eq_zero.mpr fun x hx => ?_
    rw [h x hx, Bool.not_true, Bool.and_false]
    exact Bool.false_ne_true
  intro _ hstarts
  cases e with
  | mount => exact hnone
  | getToken => exact hnone
  | unauthorized c => cases he
  | timerFires => cases he
  | _ => cases hstarts

/-- **`getToken` deduplicates concurrent calls**, in whatever order they come and are answered,
where no 401 and no timer comes in between. -/
theorem getToken_deduplicates {es : List Event} (hes : ∀ e ∈ es, e.direct = false) (now : ℤ) :
    Trace.Throughout (ReactProvider.step props) Deduplicated (State.initial now) es := by
  have hrun : Trace.Throughout (ReactProvider.step props)
      (fun s => Wired s ∧ AllShared s ∧ s.inFlight ≤ 1) (State.initial now) es := by
    have hevents : Trace.EachStep (ReactProvider.step props) (fun _ e => e.direct = false)
        (State.initial now) es := Trace.eachStep_of_forall fun e he _ => hes e he
    refine hevents.throughout (fun s e hs he => ?_)
      ⟨wired_initial now, fun x hx => absurd hx List.not_mem_nil, Nat.zero_le 1⟩
    obtain ⟨hwired, hall, honce⟩ := hs
    exact ⟨hwired.step e, hall.step he, (hwired.once_step_iff honce e).mpr (hall.spaced he)⟩
  exact hrun.imp fun s hs => ⟨hs.1.toAnswered, hs.2.2⟩

end ReactProvider
end FileNest
