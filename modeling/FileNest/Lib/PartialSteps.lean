import Mathlib.Data.List.Basic

/-!
# Passes whose steps may fail

A pass goes through a list, and each step may fail; the pass fails with the first step that does.

## Main results

* `foldlM_total` — a pass goes through if every step does that starts from the invariant.
* `foldlM_mono` — it still does if more steps go through.
* `foldlM_keeps`, `foldlM_reaches` — **what holds after a pass: what every step keeps, and what
one step sets and all others keep.**
-/

namespace PartialSteps

variable {α β : Type} {f g : β → α → Option β} {I J : β → Prop} {as : List α} {a : α} {b b' : β}

/-- Each of the values is there. -/
theorem mapM_eq_some {f : α → Option β} {g : α → β} (h : ∀ a ∈ as, f a = some (g a)) :
    as.mapM f = some (as.map g) := by
  induction as with
  | nil => rfl
  | cons a as ih =>
    rw [List.mapM_cons, h a List.mem_cons_self, ih fun b hb => h b (List.mem_cons_of_mem a hb)]
    rfl

/-- A pass goes through if every step does that starts from the invariant. -/
theorem foldlM_total (hstep : ∀ b a, a ∈ as → I b → ∃ b', f b a = some b' ∧ I b') (hb : I b) :
    ∃ b', as.foldlM f b = some b' ∧ I b' := by
  induction as generalizing b with
  | nil => exact ⟨b, rfl, hb⟩
  | cons a as ih =>
    obtain ⟨b', hb', hI⟩ := hstep b a List.mem_cons_self hb
    rw [List.foldlM_cons, hb']
    exact ih (fun b a ha => hstep b a (List.mem_cons_of_mem _ ha)) hI

/-- A pass that goes through still does if more steps do. -/
theorem foldlM_mono (hle : ∀ b a b', f b a = some b' → g b a = some b')
    (h : as.foldlM f b = some b') : as.foldlM g b = some b' := by
  induction as generalizing b with
  | nil => exact h
  | cons a as ih =>
    rw [List.foldlM_cons] at h ⊢
    obtain ⟨c, hc, hrest⟩ := Option.bind_eq_some_iff.mp h
    exact Option.bind_eq_some_iff.mpr ⟨c, hle b a c hc, ih hrest⟩

/-- What every step keeps holds after the pass. -/
theorem foldlM_keeps (hstep : ∀ b a b', I b → f b a = some b' → I b') (hb : I b)
    (h : as.foldlM f b = some b') : I b' := by
  induction as generalizing b with
  | nil =>
    cases h
    exact hb
  | cons a as ih =>
    rw [List.foldlM_cons] at h
    obtain ⟨c, hc, hrest⟩ := Option.bind_eq_some_iff.mp h
    exact ih (hstep b a c hb hc) hrest

/-- What one step sets, and every step keeps, holds after the pass. -/
theorem foldlM_reaches (hI : ∀ b a b', I b → f b a = some b' → I b')
    (hJ : ∀ b a b', J b → f b a = some b' → J b') (ha : a ∈ as)
    (hset : ∀ b b', I b → f b a = some b' → J b') (hb : I b) (h : as.foldlM f b = some b') :
    J b' := by
  induction as generalizing b with
  | nil => cases ha
  | cons a' as ih =>
    rw [List.foldlM_cons] at h
    obtain ⟨c, hc, hrest⟩ := Option.bind_eq_some_iff.mp h
    rcases List.mem_cons.mp ha with rfl | ha
    · exact foldlM_keeps hJ (hset b c hb hc) hrest
    · exact ih ha (hI b a' c hb hc) hrest

end PartialSteps
