import FileNest.Lib.Exchange

/-!
# Programs that do as another

A program that shows its progress, or asks for more than it has to, does as a plain program does
if every run of it that ends with a value is one of the plain program, once what the plain program
does not ask is left out.

## Main definitions

* `Refines` — the runs of a program that end with a value, on the wire of another.

## Main results

* `Refines.bind`, `Refines.each`, `Refines.rescue` — **the rules**: for a sequence, a loop and a
  handler that fails anew.
-/

namespace Exchange

variable {R S : Type} {Ans : R → Type} {Bns : S → Type} {E F α β γ δ : Type}

/-- A run goes on. -/
theorem Runs.bind {p : Prog Ans E β} {f : β → Prog Ans E α} {t t' : Transcript Ans} {b : β}
    {out : Except E α} (hp : Runs p t (.ok b)) (hf : Runs (f b) t' out) :
    Runs (p >>= f) (t ++ t') out := by
  induction p generalizing t with
  | done b =>
    cases hp with
    | done => exact hf
  | fail e => cases hp
  | ask r next ih =>
    cases hp with
    | ask r next x h => exact .ask r _ x (ih x h)

/-- A run that ends with a value has nothing to handle. -/
theorem Runs.rescue {p : Prog Ans E α} {handle : E → Prog Ans E α} {t : Transcript Ans} {a : α}
    (hp : Runs p t (.ok a)) : Runs (p.rescue handle) t (.ok a) := by
  induction p generalizing t with
  | done b =>
    cases hp with
    | done => exact .done _
  | fail e => cases hp
  | ask r next ih =>
    cases hp with
    | ask r next x h => exact .ask r _ x (ih x h)

/-- Every run of the first program that ends with a value is, on the wire, one of the second. -/
def Refines (wire : (Σ r, Ans r) → Option (Σ s, Bns s)) (g : α → β) (p : Prog Ans E α)
    (q : Prog Bns F β) : Prop :=
  ∀ t a, Runs p t (.ok a) → Runs q (t.filterMap wire) (.ok (g a))

namespace Refines

variable {wire : (Σ r, Ans r) → Option (Σ s, Bns s)}

theorem done {g : α → β} {a : α} {b : β} (h : g a = b) :
    Refines wire g (.done a : Prog Ans E α) (.done b : Prog Bns F β) := by
  intro t a' hrun
  cases hrun with
  | done =>
    subst h
    exact .done _

theorem fail {g : α → β} {e : E} {q : Prog Bns F β} : Refines wire g (.fail e) q := by
  intro t a hrun
  cases hrun

/-- A request that the other does not make. -/
theorem silent {g : α → β} {r : R} {next : Ans r → Prog Ans E α} {q : Prog Bns F β}
    (hr : ∀ x, wire ⟨r, x⟩ = none) (h : ∀ x, Refines wire g (next x) q) :
    Refines wire g (.ask r next) q := by
  intro t a hrun
  cases hrun with
  | ask r next x hnext =>
    rw [List.filterMap_cons_none (hr x)]
    exact h x _ a hnext

/-- The same request. -/
theorem ask {g : α → β} {r : R} {s : S} {next : Ans r → Prog Ans E α}
    {next' : Bns s → Prog Bns F β} (answer : Ans r → Bns s)
    (hr : ∀ x, wire ⟨r, x⟩ = some ⟨s, answer x⟩)
    (h : ∀ x, Refines wire g (next x) (next' (answer x))) :
    Refines wire g (.ask r next) (.ask s next') := by
  intro t a hrun
  cases hrun with
  | ask r next x hnext =>
    rw [List.filterMap_cons_some (hr x)]
    exact .ask s next' (answer x) (h x _ a hnext)

theorem bind {g : α → γ} (g' : β → δ) {p : Prog Ans E β} {f : β → Prog Ans E α}
    {q : Prog Bns F δ} {f' : δ → Prog Bns F γ} (hp : Refines wire g' p q)
    (hf : ∀ b, Refines wire g (f b) (f' (g' b))) : Refines wire g (p >>= f) (q >>= f') := by
  have hbind : Ensures (p >>= f) (fun t a => Runs (q >>= f') (t.filterMap wire) (.ok (g a)))
      (fun _ _ => True) := by
    refine .bind (fun t b => Runs q (t.filterMap wire) (.ok (g' b))) ?_ ?_
    · intro t out hrun
      cases out with
      | ok b => exact hp t b hrun
      | error e => exact trivial
    · intro t b hb t' out hrun
      cases out with
      | error e => exact trivial
      | ok a =>
        show Runs (q >>= f') ((t ++ t').filterMap wire) (.ok (g a))
        rw [List.filterMap_append]
        exact hb.bind (hf b t' a hrun)
  exact fun t a hrun => hbind t (.ok a) hrun

/-- A loop. -/
theorem each {g : α → γ} {f : ℕ → β → Prog Ans E α} {f' : ℕ → β → Prog Bns F γ}
    (hf : ∀ i x, Refines wire g (f i x) (f' i x)) (i : ℕ) (xs : List β) :
    Refines wire (List.map g) (Prog.each f i xs) (Prog.each f' i xs) := by
  induction xs generalizing i with
  | nil => exact done rfl
  | cons x xs ih =>
    exact .bind g (hf i x) fun y => .bind (List.map g) (ih (i + 1)) fun ys => done rfl

/-- A handler that fails anew. -/
theorem rescue {g : α → β} {p : Prog Ans E α} {handle : E → Prog Ans E α} {q : Prog Bns F β}
    {handle' : F → Prog Bns F β} (hp : Refines wire g p q)
    (hhandle : ∀ e, Ensures (handle e) (fun _ _ => False) (fun _ _ => True)) :
    Refines wire g (p.rescue handle) (q.rescue handle') := by
  have hrescue : Ensures (p.rescue handle)
      (fun t a => Runs (q.rescue handle') (t.filterMap wire) (.ok (g a))) (fun _ _ => True) := by
    refine .rescue (fun _ _ => True) ?_ fun t e _ => ?_
    · intro t out hrun
      cases out with
      | ok a => exact (hp t a hrun).rescue
      | error e => exact trivial
    · exact (hhandle e).mono (fun _ _ h => h.elim) fun _ _ h => h
  exact fun t a hrun => hrescue t (.ok a) hrun

end Refines

end Exchange
