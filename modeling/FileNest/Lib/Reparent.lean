import Mathlib.Logic.Function.Basic
import Mathlib.Logic.Relation

/-!
# Links that move

Every key has at most one link up.  Where following the links from a key leads to a root of the
key's own kind, one link may be moved; it is right exactly if it goes to a key of the same kind
which the moved one is not above.

## Main definitions

* `Above` — met on the way up.
* `Rooted` — every key has a root of its own kind.

## Main results

* `rooted_iff` — links stay within a kind.
* `Rooted.update_iff` — **a link that moves.**
-/

namespace Reparent

open Relation

variable {ι κ : Type}

/-- From `i` up, one meets `j`, which may be `i` itself. -/
def Above (up : ι → Option ι) : ι → ι → Prop :=
  ReflTransGen fun i j => up i = some j

/-- Following the links from a key leads to a root of the same kind. -/
def Rooted (up : ι → Option ι) (kind : ι → κ) : Prop :=
  ∀ i, ∃ r, Above up i r ∧ up r = none ∧ kind r = kind i

variable {up up' : ι → Option ι} {kind kind' : ι → κ} {i j r x : ι}

theorem Above.refl (i : ι) : Above up i i := ReflTransGen.refl

theorem Above.head (hlink : up i = some j) (h : Above up j r) : Above up i r :=
  ReflTransGen.head hlink h

/-- Nothing is met above a root. -/
theorem Above.eq_of_root (h : Above up r j) (hroot : up r = none) : j = r := by
  cases h.cases_head with
  | inl heq => exact heq.symm
  | inr hstep =>
    obtain ⟨b, hlink, -⟩ := hstep
    rw [hroot] at hlink
    cases hlink

/-- There is one way up: the root of a key is that of all it meets. -/
theorem Above.root (h : Above up i j) (hr : Above up i r) (hroot : up r = none) :
    Above up j r := by
  induction h using ReflTransGen.head_induction_on with
  | refl => exact hr
  | head hlink _ ih =>
    refine ih ?_
    cases hr.cases_head with
    | inl heq =>
      subst heq
      rw [hroot] at hlink
      cases hlink
    | inr hstep =>
      obtain ⟨b, hlink', hrest⟩ := hstep
      rwa [Option.some.inj (hlink.symm.trans hlink')]

/-- A key has one root. -/
theorem Above.root_unique {r' : ι} (hr : Above up i r) (hroot : up r = none)
    (hr' : Above up i r') (hroot' : up r' = none) : r = r' :=
  (hr'.root hr hroot).eq_of_root hroot'

/-- A way up that does not meet `x` is there whatever the link of `x`. -/
theorem Above.congr (h : Above up i r) (hup : ∀ j, j ≠ x → up' j = up j)
    (hx : ¬Above up i x) : Above up' i r := by
  induction h using ReflTransGen.head_induction_on with
  | refl => exact Above.refl r
  | @head i j hlink _ ih =>
    have hne : i ≠ x := fun heq => hx (heq ▸ Above.refl i)
    exact Above.head ((hup i hne).trans hlink) (ih fun hj => hx (Above.head hlink hj))

/-- Following links stays within a kind exactly if every link does. -/
theorem rooted_iff :
    Rooted up kind ↔
      (∀ i, ∃ r, Above up i r ∧ up r = none) ∧ ∀ i j, up i = some j → kind j = kind i := by
  constructor
  · intro h
    refine ⟨fun i => ?_, fun i j hlink => ?_⟩
    · obtain ⟨r, hr, hroot, -⟩ := h i
      exact ⟨r, hr, hroot⟩
    · obtain ⟨r, hr, hroot, hkind⟩ := h i
      obtain ⟨r', hr', hroot', hkind'⟩ := h j
      have heq : r = r' := Above.root_unique hr hroot (Above.head hlink hr') hroot'
      rw [← hkind, ← hkind', heq]
  · rintro ⟨hroots, hkinds⟩ i
    obtain ⟨r, hr, hroot⟩ := hroots i
    refine ⟨r, hr, hroot, ?_⟩
    -- along the way, from the root down
    clear hroot
    induction hr using ReflTransGen.head_induction_on with
    | refl => rfl
    | head hlink _ ih => exact ih.trans (hkinds _ _ hlink)

section Update

variable [DecidableEq ι]

/-- A link from `x` to a key below `x`, or to `x` itself, closes a cycle: no root is left
above. -/
theorem not_above_of_update {b : ι} (hr : Above (Function.update up x (some b)) x r)
    (hroot : Function.update up x (some b) r = none) : ¬Above up b x := by
  intro habove
  -- what is met stays between `b` and `x`
  have hbetween : Above up b r ∧ Above up r x := by
    clear hroot
    induction hr with
    | refl => exact ⟨habove, Above.refl x⟩
    | @tail j k _ hlink ih =>
      obtain ⟨hbj, hjx⟩ := ih
      by_cases heq : j = x
      · rw [heq, Function.update_self] at hlink
        cases hlink
        exact ⟨Above.refl b, habove⟩
      · rw [Function.update_of_ne heq] at hlink
        refine ⟨ReflTransGen.tail hbj hlink, ?_⟩
        cases hjx.cases_head with
        | inl hsame => exact absurd hsame heq
        | inr hstep =>
          obtain ⟨k', hlink', hrest⟩ := hstep
          rwa [Option.some.inj (hlink.symm.trans hlink')]
  by_cases heq : r = x
  · rw [heq, Function.update_self] at hroot
    cases hroot
  · rw [Function.update_of_ne heq] at hroot
    exact heq (hbetween.2.eq_of_root hroot).symm

/-- **A link that moves.**  Where keys have roots of their kinds, they still have them exactly if
the link now goes to a key of the same kind that the moved one is not above. -/
theorem Rooted.update_iff (h : Rooted up kind) (x : ι) (p : Option ι) :
    Rooted (Function.update up x p) kind ↔
      ∀ b, p = some b → kind b = kind x ∧ ¬Above up b x := by
  constructor
  · rintro h' b rfl
    refine ⟨(rooted_iff.mp h').2 x b (Function.update_self ..), ?_⟩
    obtain ⟨r, hr, hroot, -⟩ := h' x
    exact not_above_of_update hr hroot
  · intro hp
    have hx : ∃ r, Above (Function.update up x p) x r ∧ Function.update up x p r = none ∧
        kind r = kind x := by
      cases p with
      | none => exact ⟨x, Above.refl x, Function.update_self .., rfl⟩
      | some b =>
        obtain ⟨hkind, hnot⟩ := hp b rfl
        obtain ⟨r, hr, hroot, hkindr⟩ := h b
        have hne : r ≠ x := fun heq => hnot (heq ▸ hr)
        refine ⟨r, Above.head (Function.update_self ..) ?_, ?_, hkindr.trans hkind⟩
        · exact hr.congr (fun j hj => Function.update_of_ne hj ..) hnot
        · rwa [Function.update_of_ne hne]
    intro i
    obtain ⟨r, hr, hroot, -⟩ := h i
    -- up the old way until `x` is met
    induction hr using ReflTransGen.head_induction_on with
    | refl =>
      by_cases heq : r = x
      · rwa [heq]
      · exact ⟨r, Above.refl r, (Function.update_of_ne heq ..).trans hroot, rfl⟩
    | @head i j hlink _ ih =>
      by_cases heq : i = x
      · rwa [heq]
      · obtain ⟨r', hr', hroot', hkind'⟩ := ih
        refine ⟨r', Above.head ((Function.update_of_ne heq ..).trans hlink) hr', hroot', ?_⟩
        exact hkind'.trans ((rooted_iff.mp h).2 i j hlink)

/-- A key without links may be of any kind. -/
theorem Rooted.update_kind (h : Rooted up kind) (hx : up x = none) (hnone : ∀ i, up i ≠ some x)
    (k : κ) : Rooted up (Function.update kind x k) := by
  intro i
  by_cases heq : i = x
  · exact ⟨i, Above.refl i, heq ▸ hx, rfl⟩
  · obtain ⟨r, hr, hroot, hkind⟩ := h i
    have hne : r ≠ x := by
      intro hrx
      cases hr.cases_tail with
      | inl hsame => exact heq (hsame.symm.trans hrx)
      | inr hstep =>
        obtain ⟨j, -, hlink⟩ := hstep
        exact hnone j (hrx ▸ hlink)
    refine ⟨r, hr, hroot, ?_⟩
    rwa [Function.update_of_ne hne, Function.update_of_ne heq]

end Update

end Reparent
