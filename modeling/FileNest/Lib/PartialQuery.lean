import Mathlib.Data.List.Basic

/-!
# Queries with a condition that may fail

A query keeps the rows that meet all its conditions.  Evaluating one of them may fail on a row, and
then the query fails.  In which order the conditions are evaluated is the planner's choice: the
partial one is evaluated wherever all the others are met, and perhaps elsewhere.

## Main definitions

* `Plan` — the rows on which the partial condition is evaluated.
* `select` — the rows of a query, unless it fails.

## Main results

* `select_eq_some_iff` — **a query answers iff its condition fails nowhere the plan evaluates it,
  and then with the rows that meet all.**
-/

namespace PartialQuery

variable {ρ : Type}

/-- Where the partial condition is evaluated, given the others. -/
structure Plan (others : ρ → Bool) where
  evaluates : ρ → Bool
  covers : ∀ r, others r = true → evaluates r = true

/-- The condition is evaluated last. -/
def Plan.last (others : ρ → Bool) : Plan others := ⟨others, fun _ h => h⟩

/-- The condition is evaluated first. -/
def Plan.first (others : ρ → Bool) : Plan others := ⟨fun _ => true, fun _ _ => rfl⟩

section Select

variable {others : ρ → Bool} (plan : Plan others) (condition : ρ → Option Bool)

/-- The rows that meet all conditions; `none` if the partial one fails. -/
def select : List ρ → Option (List ρ)
  | [] => some []
  | r :: rows =>
      if plan.evaluates r then do
        let met ← condition r
        let selected ← select rows
        return if others r && met then r :: selected else selected
      else select rows

variable {plan condition}

theorem select_eq_some_iff {rows selected : List ρ} :
    select plan condition rows = some selected ↔
      (∀ r ∈ rows, plan.evaluates r = true → (condition r).isSome) ∧
        selected = rows.filter fun r => others r && (condition r).getD false := by
  induction rows generalizing selected with
  | nil =>
    constructor
    · rintro ⟨⟩
      exact ⟨fun r hr => absurd hr List.not_mem_nil, rfl⟩
    · rintro ⟨-, rfl⟩
      rfl
  | cons r rows ih =>
    rw [select, List.forall_mem_cons, List.filter_cons]
    by_cases heval : plan.evaluates r = true
    · rw [if_pos heval]
      cases hmet : condition r with
      | none => simp [heval]
      | some met =>
        simp only [Option.bind_eq_bind, Option.bind_some, Option.bind_eq_some_iff, ih,
          Option.pure_def, Option.some.injEq, Option.isSome_some, Option.getD_some, true_and,
          implies_true]
        constructor
        · rintro ⟨rest, ⟨hall, rfl⟩, rfl⟩
          exact ⟨hall, rfl⟩
        · rintro ⟨hall, rfl⟩
          exact ⟨_, ⟨hall, rfl⟩, rfl⟩
    · -- a row that is not looked at fails another condition
      have hothers : others r = false :=
        Bool.eq_false_iff.mpr fun h => heval (plan.covers r h)
      rw [if_neg heval, ih, hothers]
      simp [heval]

end Select

end PartialQuery
