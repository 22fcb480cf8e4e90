import Mathlib.Data.List.Basic

/-!
# Programs that ask

A program asks requests one after the other, each chosen by the answers so far, and ends
with a value or an error.  A run of it is the transcript of what was asked and answered.
Nothing is assumed of the answers.

## Main definitions

* `Prog` — programs over requests and their answers, with errors; a monad.
* `Runs` — the runs of a program.
* `Ensures` — what holds of every run that ends with a value, and of every run that ends with
  an error.
* `Prog.each` — a loop over a list.
* `Prog.outcome` — the end of a program whose requests are answered in a given way.

## Main results

* `Ensures.bind`, `Ensures.ask`, `Ensures.each` — **the rules**: for a sequence, a request and a
  loop with an invariant.
* `Ensures.bind_of_append`, `Ensures.each_of_append` — where every part keeps the same.
* `exists_runs` — whatever answers the requests, there is a run.
* `Runs.outcome_eq` — **a run with these answers ends as they make the program end.**
-/

namespace Exchange

variable {R : Type} {Ans : R → Type} {E α β : Type}

/-- A program that asks requests `r : R`, each answered by an `Ans r`. -/
inductive Prog (Ans : R → Type) (E α : Type) where
  | done (a : α)
  | fail (e : E)
  | ask (r : R) (next : Ans r → Prog Ans E α)

/-- What was asked and answered, in order. -/
abbrev Transcript (Ans : R → Type) := List (Σ r, Ans r)

namespace Prog

/-- Goes on with the value of a program. -/
protected def bind : Prog Ans E α → (α → Prog Ans E β) → Prog Ans E β
  | done a, f => f a
  | fail e, _ => fail e
  | ask r next, f => ask r fun x => (next x).bind f

instance : Monad (Prog Ans E) where
  pure := done
  bind := Prog.bind

/-- The answer to a request. -/
def request (r : R) : Prog Ans E (Ans r) := ask r done

/-- The value of an answer that may be an error. -/
def lift : Except E α → Prog Ans E α
  | .ok a => done a
  | .error e => fail e

/-- What to do about an error. -/
def rescue : Prog Ans E α → (E → Prog Ans E α) → Prog Ans E α
  | done a, _ => done a
  | fail e, handle => handle e
  | ask r next, handle => ask r fun x => (next x).rescue handle

/-- `for i, x in enumerate(xs, i)`, with the values of the rounds. -/
def each (f : ℕ → β → Prog Ans E α) : ℕ → List β → Prog Ans E (List α)
  | _, [] => pure []
  | i, x :: xs => do
    let y ← f i x
    let ys ← each f (i + 1) xs
    pure (y :: ys)

/-- The end of a program whose requests are answered so. -/
def outcome (answer : (r : R) → Ans r) : Prog Ans E α → Except E α
  | done a => .ok a
  | fail e => .error e
  | ask r next => (next (answer r)).outcome answer

attribute [local simp] outcome

section Outcome

variable {answer : (r : R) → Ans r} {p : Prog Ans E α} {a : α}

theorem outcome_bind {f : α → Prog Ans E β} (h : p.outcome answer = .ok a) :
    (p >>= f).outcome answer = (f a).outcome answer := by
  induction p with
  | done b =>
    obtain rfl : b = a := Except.ok.inj h
    rfl
  | fail e => cases h
  | ask r next ih => exact ih (answer r) h

theorem outcome_rescue {handle : E → Prog Ans E α} (h : p.outcome answer = .ok a) :
    (p.rescue handle).outcome answer = .ok a := by
  induction p with
  | done b => exact h
  | fail e => cases h
  | ask r next ih => exact ih (answer r) h

/-- A loop whose rounds end with values ends with one. -/
theorem outcome_each {f : ℕ → β → Prog Ans E α}
    (h : ∀ i x, ∃ y, (f i x).outcome answer = .ok y) (i : ℕ) (xs : List β) :
    ∃ ys, (each f i xs).outcome answer = .ok ys := by
  induction xs generalizing i with
  | nil => exact ⟨[], rfl⟩
  | cons x xs ih =>
    obtain ⟨y, hy⟩ := h i x
    obtain ⟨ys, hys⟩ := ih (i + 1)
    refine ⟨y :: ys, ?_⟩
    rw [each, outcome_bind hy, outcome_bind hys]
    rfl

end Outcome

end Prog

open Prog

/-- The runs of a program, with their transcripts. -/
inductive Runs : Prog Ans E α → Transcript Ans → Except E α → Prop
  | done (a : α) : Runs (.done a) [] (.ok a)
  | fail (e : E) : Runs (.fail e) [] (.error e)
  | ask (r : R) (next : Ans r → Prog Ans E α) (x : Ans r) {t : Transcript Ans} {out : Except E α}
      (h : Runs (next x) t out) : Runs (.ask r next) (⟨r, x⟩ :: t) out

/-- Whatever answers the requests, there is a run, and what holds of all its answers holds of the
transcript. -/
theorem exists_runs (answer : (r : R) → Ans r) {P : (Σ r, Ans r) → Prop}
    (hP : ∀ r, P ⟨r, answer r⟩) (p : Prog Ans E α) : ∃ t out, Runs p t out ∧ ∀ e ∈ t, P e := by
  induction p with
  | done a => exact ⟨_, _, .done a, by simp⟩
  | fail e => exact ⟨_, _, .fail e, by simp⟩
  | ask r next ih =>
    obtain ⟨t, out, h, hall⟩ := ih (answer r)
    exact ⟨_, _, .ask r next (answer r) h, List.forall_mem_cons.mpr ⟨hP r, hall⟩⟩

/-- **A run with these answers ends as they make the program end.** -/
theorem Runs.outcome_eq {answer : (r : R) → Ans r} {p : Prog Ans E α} {t : Transcript Ans}
    {out : Except E α} (h : Runs p t out) (ht : ∀ e ∈ t, e.2 = answer e.1) :
    p.outcome answer = out := by
  induction h with
  | done a => rfl
  | fail e => rfl
  | ask r next x h ih =>
    obtain ⟨hx, hrest⟩ := List.forall_mem_cons.mp ht
    obtain rfl : x = answer r := hx
    exact ih hrest

/-- `ok` holds of the runs that end with a value, `err` of those that end with an error. -/
def Ensures (p : Prog Ans E α) (ok : Transcript Ans → α → Prop) (err : Transcript Ans → E → Prop) :
    Prop :=
  ∀ t out, Runs p t out → match out with
    | .ok a => ok t a
    | .error e => err t e

namespace Ensures

variable {ok : Transcript Ans → α → Prop} {err : Transcript Ans → E → Prop}

theorem done {a : α} (h : ok [] a) : Ensures (.done a) ok err := by
  intro t out hrun
  cases hrun with
  | done => exact h

theorem fail {e : E} (h : err [] e) : Ensures (.fail e) ok err := by
  intro t out hrun
  cases hrun with
  | fail => exact h

/-- A request, whatever its answer. -/
theorem ask {r : R} {next : Ans r → Prog Ans E α}
    (h : ∀ x, Ensures (next x) (fun t => ok (⟨r, x⟩ :: t)) (fun t => err (⟨r, x⟩ :: t))) :
    Ensures (.ask r next) ok err := by
  intro t out hrun
  cases hrun with
  | ask r next x hnext => exact h x _ out hnext

theorem mono {ok' : Transcript Ans → α → Prop} {err' : Transcript Ans → E → Prop} {p : Prog Ans E α}
    (h : Ensures p ok err) (hok : ∀ t a, ok t a → ok' t a) (herr : ∀ t e, err t e → err' t e) :
    Ensures p ok' err' := by
  intro t out hrun
  have hpost := h t out hrun
  cases out with
  | ok a => exact hok t a hpost
  | error e => exact herr t e hpost

/-- **A sequence**: what the first part ensures is what the second starts from. -/
theorem bind (mid : Transcript Ans → β → Prop) {p : Prog Ans E β} {f : β → Prog Ans E α}
    (hp : Ensures p mid err)
    (hf : ∀ t b, mid t b → Ensures (f b) (fun t' => ok (t ++ t')) (fun t' => err (t ++ t'))) :
    Ensures (p >>= f) ok err := by
  induction p generalizing mid ok err with
  | done a =>
    have ha : mid [] a := hp [] (.ok a) (.done a)
    exact hf [] a ha
  | fail e => exact .fail (hp [] (.error e) (.fail e))
  | ask r next ih =>
    refine .ask fun x => ih x (fun t => mid (⟨r, x⟩ :: t)) ?_ fun t b hb => hf _ b hb
    exact fun t out hrun => hp _ out (.ask r next x hrun)

/-- An error goes to its handler. -/
theorem rescue (mid : Transcript Ans → E → Prop) {p : Prog Ans E α} {handle : E → Prog Ans E α}
    (hp : Ensures p ok mid)
    (hhandle : ∀ t e, mid t e →
      Ensures (handle e) (fun t' => ok (t ++ t')) (fun t' => err (t ++ t'))) :
    Ensures (p.rescue handle) ok err := by
  induction p generalizing mid ok err with
  | done a => exact .done (hp [] (.ok a) (.done a))
  | fail e =>
    have he : mid [] e := hp [] (.error e) (.fail e)
    exact hhandle [] e he
  | ask r next ih =>
    refine .ask fun x => ih x (fun t => mid (⟨r, x⟩ :: t)) ?_ fun t e he => hhandle _ e he
    exact fun t out hrun => hp _ out (.ask r next x hrun)

/-- **A loop**, with an invariant on the transcript and the values so far. -/
theorem each {f : ℕ → β → Prog Ans E α} {xs : List β} (I : ℕ → Transcript Ans → List α → Prop)
    {i : ℕ} (hinit : I 0 [] [])
    (hstep : ∀ (j : ℕ) (x : β) (t : Transcript Ans) (ys : List α), xs[j]? = some x → I j t ys →
      Ensures (f (i + j) x) (fun t' y => I (j + 1) (t ++ t') (ys ++ [y]))
        (fun t' => err (t ++ t'))) :
    Ensures (Prog.each f i xs) (I xs.length) err := by
  induction xs generalizing i err I with
  | nil => exact .done hinit
  | cons x xs ih =>
    rw [Prog.each]
    refine .bind (fun t y => I 1 t [y]) (hstep 0 x [] [] rfl hinit) fun t y hy => ?_
    refine .bind (fun t' ys => I (xs.length + 1) (t ++ t') (y :: ys)) ?_ ?_
    · refine ih (fun j t' ys => I (j + 1) (t ++ t') (y :: ys)) ?_ ?_
      · rwa [List.append_nil]
      · intro j x' t' ys hx' hI
        have hround := hstep (j + 1) x' (t ++ t') (y :: ys) hx' hI
        rw [show i + (j + 1) = i + 1 + j by omega] at hround
        simpa only [List.append_assoc, List.cons_append] using hround
    · intro t' ys hys
      refine .done ?_
      rwa [List.append_nil]

/-! ### What every part keeps -/

section Parts

variable {U F : Transcript Ans → Prop}

/-- A sequence of parts that each keep `U`, or fail with `F`. -/
theorem bind_of_append (hU : ∀ t t', U t → U t' → U (t ++ t'))
    (hF : ∀ t t', U t → F t' → F (t ++ t')) {p : Prog Ans E β} {f : β → Prog Ans E α}
    (hp : Ensures p (fun t _ => U t) (fun t _ => F t))
    (hf : ∀ b, Ensures (f b) (fun t _ => U t) (fun t _ => F t)) :
    Ensures (p >>= f) (fun t _ => U t) (fun t _ => F t) :=
  .bind (fun t _ => U t) hp fun t b ht =>
    (hf b).mono (fun t' _ ht' => hU t t' ht ht') (fun t' _ ht' => hF t t' ht ht')

/-- A loop whose rounds each keep `U`, or fail with `F`. -/
theorem each_of_append (hnil : U []) (hU : ∀ t t', U t → U t' → U (t ++ t'))
    (hF : ∀ t t', U t → F t' → F (t ++ t')) {f : ℕ → β → Prog Ans E α} {i : ℕ} {xs : List β}
    (hf : ∀ j x, Ensures (f j x) (fun t _ => U t) (fun t _ => F t)) :
    Ensures (Prog.each f i xs) (fun t _ => U t) (fun t _ => F t) :=
  .each (fun _ t _ => U t) hnil fun j x t _ _ ht =>
    (hf (i + j) x).mono (fun t' _ ht' => hU t t' ht ht') (fun t' _ ht' => hF t t' ht ht')

end Parts

end Ensures

end Exchange
