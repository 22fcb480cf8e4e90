import Mathlib.Data.List.Nodup

/-!
# Rows that expire

Rows are issued with a time of expiry, looked up while they are valid, and pruned once they
are not.  When pruning happens, and of which of the expired rows, makes no difference to a
lookup: it finds what was issued and has not expired.

## Main definitions

* `valid` — the rows that have not expired.
* `Leased` — the rows on record are those issued, as far as they are valid.

## Main results

* `Leased.issue`, `Leased.prune`, `Leased.advance` — the steps.
* `Leased.filter_eq` — **a lookup among the rows on record is one among those issued.**
-/

namespace Lease

variable {α κ : Type*} {expiresAt : α → ℕ}

/-- The rows that have not expired: a row is not valid any more at the time it expires. -/
def valid (expiresAt : α → ℕ) (now : ℕ) (rows : List α) : List α :=
  rows.filter fun r => decide (now < expiresAt r)

/-- From now on, the rows on record are those issued, as far as they are valid. -/
def Leased (expiresAt : α → ℕ) (now : ℕ) (issued rows : List α) : Prop :=
  ∀ t, now ≤ t → valid expiresAt t rows = valid expiresAt t issued

namespace Leased

variable {now : ℕ} {issued rows : List α}

theorem refl (rows : List α) : Leased expiresAt now rows rows := fun _ _ => rfl

theorem advance {now' : ℕ} (h : Leased expiresAt now issued rows) (hle : now ≤ now') :
    Leased expiresAt now' issued rows := fun t ht => h t (Nat.le_trans hle ht)

theorem issue (h : Leased expiresAt now issued rows) (r : α) :
    Leased expiresAt now (issued ++ [r]) (rows ++ [r]) := by
  intro t ht
  rw [valid, valid, List.filter_append, List.filter_append]
  exact congrArg (· ++ _) (h t ht)

/-- Only what has expired may be pruned. -/
theorem prune (h : Leased expiresAt now issued rows) {p : α → Bool}
    (hp : ∀ r ∈ rows, p r = true → expiresAt r ≤ now) :
    Leased expiresAt now issued (rows.filter fun r => !p r) := by
  intro t ht
  rw [← h t ht, valid, valid, List.filter_filter]
  refine List.filter_congr fun r hr => ?_
  cases hpr : p r with
  | false => rw [Bool.not_false, Bool.and_true]
  | true =>
    have hexpired := hp r hr hpr
    rw [Bool.not_true, Bool.and_false, eq_comm, decide_eq_false_iff_not]
    omega

/-- **A lookup among the rows on record** is one among those issued. -/
theorem filter_eq (h : Leased expiresAt now issued rows) (p : α → Bool) :
    (rows.filter fun r => p r && decide (now < expiresAt r))
      = issued.filter fun r => p r && decide (now < expiresAt r) := by
  have hvalid := h now (Nat.le_refl now)
  rw [valid, valid] at hvalid
  rw [← List.filter_filter, hvalid, List.filter_filter]

/-- What is valid is on record. -/
theorem mem (h : Leased expiresAt now issued rows) {r : α} (hr : r ∈ issued)
    (hvalid : now < expiresAt r) : r ∈ rows := by
  have hmem : r ∈ valid expiresAt now issued :=
    List.mem_filter.mpr ⟨hr, decide_eq_true hvalid⟩
  rw [← h now (Nat.le_refl now)] at hmem
  exact List.mem_of_mem_filter hmem

end Leased

/-- Where keys differ, a lookup by key finds one row. -/
theorem filter_eq_singleton {key : α → κ} {rows : List α} (hnodup : (rows.map key).Nodup)
    {p : α → Bool} {r : α} (hr : r ∈ rows) (hp : p r = true)
    (hkey : ∀ x, p x = true → key x = key r) : rows.filter p = [r] := by
  refine List.Perm.eq_singleton ((List.perm_ext_iff_of_nodup (hnodup.of_map.filter p)
    (List.nodup_singleton r)).mpr fun x => ?_)
  rw [List.mem_filter, List.mem_singleton]
  constructor
  · rintro ⟨hx, hpx⟩
    exact List.inj_on_of_nodup_map hnodup hx hr (hkey x hpx)
  · rintro rfl
    exact ⟨hr, hp⟩

end Lease
