import FileNest.Lib.Case
import Mathlib.Data.List.Sort

/-!
# Query operators of SQL

What a query does with the rows that pass its `WHERE` clause: the pattern match of
`LIKE`, the order of `ORDER BY`, the slice of `OFFSET`/`LIMIT`, the groups of
`GROUP BY`, and the result of a query that expects at most one row.

## Main definitions

* `like`, `ilike` — `LIKE` and `ILIKE` with the default escape character.
* `orderBy`, `orderByDesc`, `page` — sorting (stable) and slicing.
* `groupBy` — groups in order of first appearance.
* `oneOrNone` — at most one row, or a failure.
-/

namespace Sql

/-- `LIKE`: `%` matches any text, `_` any character, and `\` takes the next pattern
character literally. -/
def likeChars : List Char → List Char → Bool
  | [], cs => cs.isEmpty
  | '%' :: ps, cs => cs.tails.any (likeChars ps)
  | '_' :: ps, cs => match cs with
    | [] => false
    | _ :: ds => likeChars ps ds
  | '\\' :: p :: ps, cs => match cs with
    | [] => false
    | d :: ds => d == p && likeChars ps ds
  | p :: ps, cs => match cs with
    | [] => false
    | d :: ds => d == p && likeChars ps ds

attribute [local simp] likeChars

/-- `s LIKE pattern`. -/
def like (s pattern : String) : Bool := likeChars pattern.toList s.toList

/-- `lower(s)`, character by character. -/
def lower (s : String) : String := String.ofList (s.toList.map Unicode.lowerSimple)

/-- `s ILIKE pattern`. -/
def ilike (s pattern : String) : Bool := like (lower s) (lower pattern)

variable {α κ : Type}

/-- `ORDER BY key`, keeping table order among ties. -/
def orderBy [LinearOrder κ] (key : α → κ) (rows : List α) : List α :=
  rows.insertionSort fun a b => key a ≤ key b

/-- `ORDER BY key DESC`, keeping table order among ties. -/
def orderByDesc [LinearOrder κ] (key : α → κ) (rows : List α) : List α :=
  rows.insertionSort fun a b => key b ≤ key a

/-- `OFFSET offset LIMIT limit`. -/
def page (offset limit : ℕ) (rows : List α) : List α := (rows.drop offset).take limit

/-- `GROUP BY key`: the groups, in order of first appearance. -/
def groupBy [DecidableEq κ] (key : α → κ) (rows : List α) : List (κ × List α) :=
  (rows.map key).reverse.dedup.reverse.map fun k => (k, rows.filter fun r => key r == k)

/-- `scalar_one_or_none()`: more than one row is a failure. -/
def oneOrNone : List α → Option (Option α)
  | [] => some none
  | [r] => some (some r)
  | _ :: _ :: _ => none

@[simp] theorem mem_orderBy [LinearOrder κ] {key : α → κ} {rows : List α} {r : α} :
    r ∈ orderBy key rows ↔ r ∈ rows := List.mem_insertionSort _

theorem perm_orderBy [LinearOrder κ] (key : α → κ) (rows : List α) :
    (orderBy key rows).Perm rows := List.perm_insertionSort _ rows

theorem sorted_orderBy [LinearOrder κ] (key : α → κ) (rows : List α) :
    (orderBy key rows).Pairwise fun a b => key a ≤ key b :=
  @List.pairwise_insertionSort _ (fun a b => key a ≤ key b) _ ⟨fun a b => le_total (key a) (key b)⟩
    ⟨fun _ _ _ h h' => le_trans h h'⟩ rows

/-- A row that is left out is not missed by the others. -/
theorem filter_orderedInsert [LinearOrder κ] {key : α → κ} {rows : List α}
    (h : rows.Pairwise fun a b => key a ≤ key b) (p : α → Bool) (r : α) :
    (rows.orderedInsert (fun a b => key a ≤ key b) r).filter p
      = if p r then (rows.filter p).orderedInsert (fun a b => key a ≤ key b) r
        else rows.filter p := by
  induction rows with
  | nil => cases hr : p r <;> simp [hr]
  | cons s rows ih =>
    obtain ⟨hs, hrows⟩ := List.pairwise_cons.mp h
    rw [List.orderedInsert_cons]
    by_cases hle : key r ≤ key s
    · -- `r` comes first, also of those that are kept
      rw [if_pos hle, List.filter_cons]
      refine if_congr Iff.rfl ?_ rfl
      cases hkept : (s :: rows).filter p with
      | nil => rfl
      | cons t kept =>
        have ht : t ∈ s :: rows := List.mem_of_mem_filter (hkept ▸ List.mem_cons_self)
        have hst : key s ≤ key t := by
          rcases List.mem_cons.mp ht with rfl | ht
          · exact le_rfl
          · exact hs t ht
        rw [List.orderedInsert_cons, if_pos (le_trans hle hst)]
    · rw [if_neg hle, List.filter_cons, ih hrows, List.filter_cons]
      cases p r with
      | false => simp
      | true =>
        cases p s with
        | false => simp
        | true => simp [hle]

/-- Rows may be sorted before they are filtered. -/
theorem orderBy_filter [LinearOrder κ] (key : α → κ) (rows : List α) (p : α → Bool) :
    orderBy key (rows.filter p) = (orderBy key rows).filter p := by
  induction rows with
  | nil => rfl
  | cons r rows ih =>
    have hsorted : (orderBy key (r :: rows)).filter p
        = if p r then (orderBy key (rows.filter p)).orderedInsert (fun a b => key a ≤ key b) r
          else orderBy key (rows.filter p) := by
      rw [ih]
      exact filter_orderedInsert (sorted_orderBy key rows) p r
    rw [hsorted, List.filter_cons]
    split <;> rfl

theorem perm_orderByDesc [LinearOrder κ] (key : α → κ) (rows : List α) :
    (orderByDesc key rows).Perm rows := List.perm_insertionSort _ rows

@[simp] theorem length_orderByDesc [LinearOrder κ] (key : α → κ) (rows : List α) :
    (orderByDesc key rows).length = rows.length := (perm_orderByDesc key rows).length_eq

theorem sorted_orderByDesc [LinearOrder κ] (key : α → κ) (rows : List α) :
    (orderByDesc key rows).Pairwise fun a b => key b ≤ key a :=
  @List.pairwise_insertionSort _ (fun a b => key b ≤ key a) _ ⟨fun a b => le_total (key b) (key a)⟩
    ⟨fun _ _ _ h h' => le_trans h' h⟩ rows

/-- Sorting by what a map keeps. -/
theorem map_orderByDesc {β : Type} [LinearOrder κ] (key : β → κ) (f : α → β) (rows : List α) :
    (orderByDesc (fun r => key (f r)) rows).map f = orderByDesc key (rows.map f) :=
  List.map_insertionSort _ _ f rows fun _ _ _ _ => Iff.rfl

/-- Distinct keys come in strictly descending order. -/
theorem pairwise_orderByDesc [LinearOrder κ] {key : α → κ} {rows : List α}
    (h : (rows.map key).Nodup) : (orderByDesc key rows).Pairwise fun a b => key b < key a := by
  have hle := sorted_orderByDesc key rows
  have hne : (orderByDesc key rows).Pairwise fun a b => key a ≠ key b := by
    have hnodup := ((perm_orderByDesc key rows).map key).nodup_iff.mpr h
    rwa [List.Nodup, List.pairwise_map] at hnodup
  exact (hle.and hne).imp fun hab => lt_of_le_of_ne hab.1 (Ne.symm hab.2)

/-- Rows of distinct keys may be sorted before they are filtered. -/
theorem orderByDesc_filter [LinearOrder κ] {key : α → κ} {rows : List α}
    (h : (rows.map key).Nodup) (p : α → Bool) :
    orderByDesc key (rows.filter p) = (orderByDesc key rows).filter p := by
  have hanti : ∀ a b, a ∈ orderByDesc key (rows.filter p) → b ∈ (orderByDesc key rows).filter p →
      key b < key a → key a < key b → a = b :=
    fun a b _ _ hab hba => absurd hab (not_lt.mpr hba.le)
  refine List.Perm.eq_of_pairwise hanti ?_ ?_ ?_
  · exact pairwise_orderByDesc (h.sublist (List.filter_sublist.map key))
  · exact (pairwise_orderByDesc h).sublist List.filter_sublist
  · exact (perm_orderByDesc key _).trans ((perm_orderByDesc key rows).filter p).symm

@[simp] theorem oneOrNone_nil : oneOrNone ([] : List α) = some none := rfl

@[simp] theorem oneOrNone_singleton (r : α) : oneOrNone [r] = some (some r) := rfl

/-- Rows that are all the same, and not there twice. -/
theorem length_le_one {rows : List α} (hnodup : rows.Nodup)
    (hsame : ∀ r ∈ rows, ∀ r' ∈ rows, r = r') :
    rows.length ≤ 1 := by
  match rows, hnodup, hsame with
  | [], _, _ => exact Nat.zero_le _
  | [_], _, _ => exact le_refl _
  | r :: r' :: rs, hnodup, hsame =>
    have heq : r = r' := hsame r List.mem_cons_self r' (List.mem_cons_of_mem _ List.mem_cons_self)
    rw [heq] at hnodup
    exact absurd List.mem_cons_self (List.nodup_cons.mp hnodup).1

example : ilike "Report_2026.PDF" "%\\_20__.pdf%" = true := by decide

end Sql
