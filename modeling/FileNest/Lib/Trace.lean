/-!
# Properties along a run

A machine takes one event after the other.  A property may hold in every state of a run,
a condition may be met by every step; where a step keeps the property exactly if it meets
the condition, so does a run.

## Main definitions

* `Throughout`, `EachStep` — in every state, at every step.

## Main results

* `EachStep.throughout` — a property a step keeps while it meets a condition.
* `throughout_iff_eachStep` — **a property a step loses exactly by breaking a condition.**
-/

namespace Trace

variable {S E : Type} (step : S → E → S)

/-- The property holds in every state of the run. -/
def Throughout (P : S → Prop) : S → List E → Prop
  | s, [] => P s
  | s, e :: es => P s ∧ Throughout P (step s e) es

/-- The condition is met at every step of the run. -/
def EachStep (Q : S → E → Prop) : S → List E → Prop
  | _, [] => True
  | s, e :: es => Q s e ∧ EachStep Q (step s e) es

variable {step} {I P : S → Prop} {Q : S → E → Prop} {s : S} {es : List E}

/-- It holds where the run begins, … -/
theorem Throughout.head (h : Throughout step P s es) : P s := by
  cases es with
  | nil => exact h
  | cons e es => exact h.1

/-- … and where it ends. -/
theorem Throughout.last (h : Throughout step P s es) : P (es.foldl step s) := by
  induction es generalizing s with
  | nil => exact h
  | cons e es ih => exact ih h.2

theorem Throughout.imp {P' : S → Prop} (h : Throughout step P s es) (himp : ∀ s, P s → P' s) :
    Throughout step P' s es := by
  induction es generalizing s with
  | nil => exact himp s h
  | cons e es ih => exact ⟨himp s h.1, ih h.2⟩

theorem EachStep.append {es' : List E} (h : EachStep step Q s es)
    (h' : EachStep step Q (es.foldl step s) es') : EachStep step Q s (es ++ es') := by
  induction es generalizing s with
  | nil => exact h'
  | cons e es ih => exact ⟨h.1, ih h.2 h'⟩

theorem eachStep_of_forall (h : ∀ e ∈ es, ∀ s, Q s e) : EachStep step Q s es := by
  induction es generalizing s with
  | nil => exact trivial
  | cons e es ih =>
    exact ⟨h e List.mem_cons_self s, ih fun e he => h e (List.mem_cons_of_mem _ he)⟩

theorem eachStep_congr {Q' : S → E → Prop} (h : ∀ s e, Q s e ↔ Q' s e) :
    EachStep step Q s es ↔ EachStep step Q' s es := by
  induction es generalizing s with
  | nil => exact Iff.rfl
  | cons e es ih => exact and_congr (h s e) ih

/-- What a state that has the property lets every step meet. -/
theorem Throughout.eachStep (h : Throughout step P s es) (himp : ∀ s e, P s → Q s e) :
    EachStep step Q s es := by
  induction es generalizing s with
  | nil => exact trivial
  | cons e es ih => exact ⟨himp s e h.1, ih h.2⟩

/-- What a step keeps while it meets a condition. -/
theorem EachStep.throughout (h : EachStep step Q s es)
    (hstep : ∀ s e, P s → Q s e → P (step s e)) (hs : P s) : Throughout step P s es := by
  induction es generalizing s with
  | nil => exact hs
  | cons e es ih => exact ⟨hs, ih h.2 (hstep s e hs h.1)⟩

/-- **A property a step loses exactly by breaking a condition** holds throughout a run exactly
if every step meets the condition.  The steps are compared in states that satisfy `I`. -/
theorem throughout_iff_eachStep (hI : ∀ s e, I s → I (step s e))
    (hstep : ∀ s e, I s → P s → (P (step s e) ↔ Q s e)) (hs : I s) (h : P s) :
    Throughout step P s es ↔ EachStep step Q s es := by
  induction es generalizing s with
  | nil => exact ⟨fun _ => trivial, fun _ => h⟩
  | cons e es ih =>
    constructor
    · rintro ⟨-, hrest⟩
      exact ⟨(hstep s e hs h).mp hrest.head, (ih (hI s e hs) hrest.head).mp hrest⟩
    · rintro ⟨hcond, hrest⟩
      have hnext := (hstep s e hs h).mpr hcond
      exact ⟨h, (ih (hI s e hs) hnext).mpr hrest⟩

end Trace
