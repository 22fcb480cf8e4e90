import Mathlib.Algebra.Order.Floor.Div
import Mathlib.Data.List.Basic

/-!
# Cutting a list into pieces

Equal pieces of a list, one for each multiple of their size, the last one as long as the list
goes on.

## Main definitions

* `Pieces.slice` — `xs[start:stop]`.
* `Pieces.pieces` — so many pieces of a size.
* `Pieces.IsCut` — at least one piece, together the list, each but the last of the size.

## Main results

* `Pieces.flatten_pieces` — the pieces are what they cover.
* `Pieces.isCut_pieces` — **pieces that cover the list, the last of them begun within it, are a
  cut.**
* `Pieces.isCut_ceilDiv_iff` — rounding up gives a cut of every list but the empty one.
-/

namespace Pieces

variable {α : Type*}

/-- `xs[start:stop]`, clipped to the list. -/
def slice (xs : List α) (start stop : ℕ) : List α := (xs.take stop).drop start

/-- A slice may as well stop where the list does. -/
theorem slice_min_length (xs : List α) (start stop : ℕ) :
    slice xs start (min stop xs.length) = slice xs start stop := by
  rw [slice, ← List.take_eq_take_min, slice]

/-- `count` pieces of a size. -/
def pieces (size count : ℕ) (xs : List α) : List (List α) :=
  (List.range count).map fun i => slice xs (i * size) (i * size + size)

/-- At least one piece, together the list, and each but the last of the size. -/
structure IsCut (size : ℕ) (xs : List α) (ps : List (List α)) : Prop where
  ne_nil : ps ≠ []
  flatten : ps.flatten = xs
  length_eq : ∀ i p, i + 1 < ps.length → ps[i]? = some p → p.length = size

@[simp] theorem length_pieces (size count : ℕ) (xs : List α) :
    (pieces size count xs).length = count := by
  simp [pieces]

theorem flatten_pieces (size count : ℕ) (xs : List α) :
    (pieces size count xs).flatten = xs.take (count * size) := by
  induction count with
  | zero => simp [pieces]
  | succ n ih =>
    have hlast : slice xs (n * size) (n * size + size)
        = (xs.take (n * size + size)).drop (n * size) := rfl
    have hfirst : xs.take (n * size) = (xs.take (n * size + size)).take (n * size) := by
      rw [List.take_take, min_eq_left (Nat.le_add_right _ _)]
    rw [pieces, List.range_succ, List.map_append, List.flatten_append, ← pieces, ih]
    rw [List.map_singleton, List.flatten_singleton, hlast, hfirst, List.take_append_drop,
      Nat.succ_mul]

variable {size count : ℕ} {xs : List α}

/-- **Pieces that cover the list are a cut of it if the last one begins within it.** -/
theorem isCut_pieces (hpos : 0 < count) (hcover : xs.length ≤ count * size)
    (hlast : (count - 1) * size ≤ xs.length) : IsCut size xs (pieces size count xs) where
  ne_nil := by
    rw [← List.length_pos_iff, length_pieces]
    exact hpos
  flatten := by rw [flatten_pieces, List.take_of_length_le hcover]
  length_eq := by
    intro i p hi hp
    rw [length_pieces] at hi
    rw [pieces, List.getElem?_map, List.getElem?_range (by omega)] at hp
    obtain rfl : slice xs (i * size) (i * size + size) = p := Option.some.inj hp
    rw [slice, List.length_drop, List.length_take]
    have hle : i * size + size ≤ (count - 1) * size := by
      rw [← Nat.succ_mul]
      exact Nat.mul_le_mul_right size (by omega)
    omega

theorem ceilDiv_pos (hsize : 0 < size) (hne : xs ≠ []) : 0 < xs.length ⌈/⌉ size := by
  have hlength : 0 < xs.length := List.length_pos_iff.mpr hne
  have hcover : xs.length ≤ size * (xs.length ⌈/⌉ size) := (ceilDiv_le_iff_le_mul hsize).mp le_rfl
  by_contra hzero
  have hceil : xs.length ⌈/⌉ size = 0 := by omega
  rw [hceil, Nat.mul_zero] at hcover
  omega

/-- **Rounding up gives a cut of every list but the empty one.** -/
theorem isCut_ceilDiv_iff (hsize : 0 < size) :
    IsCut size xs (pieces size (xs.length ⌈/⌉ size) xs) ↔ xs ≠ [] := by
  constructor
  · rintro h rfl
    refine h.ne_nil ?_
    rw [List.length_nil, zero_ceilDiv]
    rfl
  · intro hne
    have hcover : xs.length ≤ size * (xs.length ⌈/⌉ size) := (ceilDiv_le_iff_le_mul hsize).mp le_rfl
    have hpos := ceilDiv_pos hsize hne
    refine isCut_pieces hpos (by rwa [Nat.mul_comm] at hcover) ?_
    -- one piece fewer would not cover the list
    by_contra hshort
    have hle : xs.length ⌈/⌉ size ≤ xs.length ⌈/⌉ size - 1 := by
      rw [ceilDiv_le_iff_le_mul hsize, Nat.mul_comm]
      omega
    omega

/-- Rounding up, to one at least, gives a cut of every list. -/
theorem isCut_max_ceilDiv (hsize : 0 < size) (xs : List α) :
    IsCut size xs (pieces size (max 1 (xs.length ⌈/⌉ size)) xs) := by
  by_cases hne : xs = []
  · subst hne
    rw [List.length_nil, zero_ceilDiv]
    exact isCut_pieces Nat.one_pos (Nat.zero_le _) (by simp)
  · rw [max_eq_right (ceilDiv_pos hsize hne)]
    exact (isCut_ceilDiv_iff hsize).mpr hne

end Pieces
