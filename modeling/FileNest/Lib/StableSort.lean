import Mathlib.Data.List.Sort
import Mathlib.Logic.Equiv.Basic
import Mathlib.Order.Basic

/-!
# Stable sorting, and ranks that are exchanged

A list is shown by rank; where ranks are tied, in the order of the list.  Two elements exchange
their ranks.  If neither was tied with another element they exchange their places in what is shown,
and nothing else moves.

## Main definitions

* `sorted` — a list, shown by rank.
* `Before` — what comes before what.
* `Untied` — an element that shares its rank with no other.
* `Moved`, `MovesByOne` — an element exchanges its rank with one of the next, and with that its
  place with its neighbour.
* `ApartFromNeighbours` — neither an element nor one beside it is tied.

## Main results

* `eq_sorted` — an arrangement in which everything comes before what follows it is the one shown.
* `filter_sorted` — a part of the list is shown as the whole is.
* `sorted_swap` — untied elements that exchange their ranks exchange their places.
* `movesByOne_iff_apart` — **an element moves by one exactly if neither it nor one beside it is
  tied.**
-/

namespace StableSort

variable {ι β : Type} [LinearOrder β] (rank : ι → β) (pos : ι → ℕ)

/-- A list, shown by rank. -/
def sorted (base : List ι) : List ι := base.insertionSort fun a b => rank a ≤ rank b

/-- By rank, and by position where ranks are tied. -/
def Before (a b : ι) : Prop := rank a < rank b ∨ rank a = rank b ∧ pos a ≤ pos b

/-- The element shares its rank with no other. -/
def Untied (base : List ι) (a : ι) : Prop := ∀ b ∈ base, rank b = rank a → b = a

variable {rank pos} {base shown : List ι} {a b : ι}

theorem perm_sorted : (sorted rank base).Perm base := List.perm_insertionSort _ _

@[simp] theorem mem_sorted : a ∈ sorted rank base ↔ a ∈ base := perm_sorted.mem_iff

theorem Before.rank_le (h : Before rank pos a b) : rank a ≤ rank b := by
  obtain h | ⟨h, -⟩ := h
  · exact le_of_lt h
  · exact le_of_eq h

/-- An element is inserted that comes first among those of its rank. -/
theorem pairwise_orderedInsert (h : shown.Pairwise (Before rank pos))
    (hpos : ∀ b ∈ shown, pos a < pos b) :
    (shown.orderedInsert (fun a b => rank a ≤ rank b) a).Pairwise (Before rank pos) := by
  induction shown with
  | nil => exact List.pairwise_singleton _ _
  | cons b shown ih =>
    obtain ⟨hb, hrest⟩ := List.pairwise_cons.mp h
    rw [List.orderedInsert_cons]
    split
    · rename_i hab
      refine List.pairwise_cons.mpr ⟨fun c hc => ?_, h⟩
      have hac : rank a ≤ rank c := by
        obtain rfl | hc := List.mem_cons.mp hc
        · exact hab
        · exact le_trans hab (hb c hc).rank_le
      obtain hlt | heq := lt_or_eq_of_le hac
      · exact .inl hlt
      · exact .inr ⟨heq, le_of_lt (hpos c hc)⟩
    · rename_i hab
      refine List.pairwise_cons.mpr ⟨fun c hc => ?_,
        ih hrest fun c hc => hpos c (List.mem_cons_of_mem _ hc)⟩
      obtain rfl | hc := (List.mem_orderedInsert _).mp hc
      · exact .inl (lt_of_not_ge hab)
      · exact hb c hc

/-- What is shown: everything comes before what follows it; … -/
theorem pairwise_sorted (hpos : base.Pairwise fun a b => pos a < pos b) :
    (sorted rank base).Pairwise (Before rank pos) := by
  induction base with
  | nil => exact List.Pairwise.nil
  | cons a base ih =>
    obtain ⟨ha, hrest⟩ := List.pairwise_cons.mp hpos
    exact pairwise_orderedInsert (ih hrest) fun b hb => ha b (mem_sorted.mp hb)

/-- … and there is one arrangement like that. -/
theorem eq_sorted (hpos : base.Pairwise fun a b => pos a < pos b) (hperm : shown.Perm base)
    (h : shown.Pairwise (Before rank pos)) : shown = sorted rank base := by
  have hnodup : (base.map pos).Nodup := by
    rw [List.Nodup, List.pairwise_map]
    exact hpos.imp fun hlt => ne_of_lt hlt
  refine List.Perm.eq_of_pairwise (fun a b ha hb hab hba => ?_) h (pairwise_sorted hpos)
    (hperm.trans perm_sorted.symm)
  refine List.inj_on_of_nodup_map hnodup (hperm.mem_iff.mp ha) (mem_sorted.mp hb) ?_
  obtain hlt | ⟨heq, hle⟩ := hab
  · exact absurd hba.rank_le (not_le_of_gt hlt)
  · obtain hlt | ⟨-, hge⟩ := hba
    · exact absurd (le_of_eq heq) (not_le_of_gt hlt)
    · exact le_antisymm hle hge

theorem pairwise_idxOf [DecidableEq ι] (h : base.Nodup) :
    base.Pairwise fun a b => base.idxOf a < base.idxOf b := by
  refine List.pairwise_iff_getElem.mpr fun i j hi hj hij => ?_
  rwa [h.idxOf_getElem, h.idxOf_getElem]

/-- A part of the list is shown as the whole is. -/
theorem filter_sorted [DecidableEq ι] (h : base.Nodup) (p : ι → Bool) :
    (sorted rank base).filter p = sorted rank (base.filter p) :=
  eq_sorted ((pairwise_idxOf h).sublist List.filter_sublist) (perm_sorted.filter p)
    ((pairwise_sorted (pairwise_idxOf h)).sublist List.filter_sublist)

/-- Ranks shown by name. -/
theorem map_sorted {κ : Type} {rank' : κ → β} {f : ι → κ} (h : ∀ a ∈ base, rank' (f a) = rank a) :
    (sorted rank base).map f = sorted rank' (base.map f) := by
  refine List.map_insertionSort _ _ f base fun a ha b hb => ?_
  rw [h a ha, h b hb]

theorem sorted_congr {rank' : ι → β} (h : ∀ a ∈ base, rank' a = rank a) :
    sorted rank' base = sorted rank base := by
  have hmap := map_sorted (f := id) h
  rwa [List.map_id, List.map_id, eq_comm] at hmap

/-! ### What is shown beside what -/

variable {x y z : ι} {A B : List ι} {rank' : ι → β}

theorem pairwise_rank_le (rank : ι → β) (base : List ι) :
    (sorted rank base).Pairwise fun a b => rank a ≤ rank b := by
  have : Std.Total fun a b => rank a ≤ rank b := ⟨fun a b => le_total _ _⟩
  have : IsTrans ι fun a b => rank a ≤ rank b := ⟨fun _ _ _ => le_trans⟩
  exact List.pairwise_insertionSort _ base

/-- Where two elements are shown one after the other. -/
theorem sorted_pair (h : sorted rank base = A ++ y :: x :: B) :
    (∀ a ∈ base, a ∈ A ∨ a = y ∨ a = x ∨ a ∈ B) ∧ (∀ a ∈ A, rank a ≤ rank y ∧ rank a ≤ rank x) ∧
      rank y ≤ rank x ∧ ∀ b ∈ B, rank y ≤ rank b ∧ rank x ≤ rank b := by
  have hmem : ∀ a ∈ base, a ∈ A ∨ a = y ∨ a = x ∨ a ∈ B := by
    intro a ha
    have hshown : a ∈ sorted rank base := mem_sorted.mpr ha
    simpa [h] using hshown
  have hle := pairwise_rank_le rank base
  rw [h, List.pairwise_append] at hle
  obtain ⟨-, hpair, hA⟩ := hle
  obtain ⟨hy, hx⟩ := List.pairwise_cons.mp hpair
  refine ⟨hmem, fun a ha => ⟨hA a ha y List.mem_cons_self, ?_⟩, hy x List.mem_cons_self,
    fun b hb => ⟨hy b (List.mem_cons_of_mem _ hb), (List.pairwise_cons.mp hx).1 b hb⟩⟩
  exact hA a ha x (List.mem_cons_of_mem _ List.mem_cons_self)

theorem mem_of_sorted_pair (h : sorted rank base = A ++ y :: x :: B) : y ∈ base ∧ x ∈ base := by
  have hshown : ∀ a ∈ A ++ y :: x :: B, a ∈ base := fun a ha => mem_sorted.mp (h ▸ ha)
  exact ⟨hshown y (by simp), hshown x (by simp)⟩

theorem nodup_of_sorted_pair (hnodup : base.Nodup) (h : sorted rank base = A ++ y :: x :: B) :
    (A ++ y :: x :: B).Nodup := h ▸ perm_sorted.nodup_iff.mpr hnodup

theorem ne_of_sorted_pair (hnodup : base.Nodup) (h : sorted rank base = A ++ y :: x :: B) :
    y ≠ x := by
  have hshown := nodup_of_sorted_pair hnodup h
  rintro rfl
  simp [List.nodup_append] at hshown

/-- The greatest rank below that of an element. -/
def NextAbove (rank : ι → β) (base : List ι) (x w : ι) : Prop :=
  w ∈ base ∧ rank w < rank x ∧ ∀ m ∈ base, rank m < rank x → rank m ≤ rank w

/-- The least rank above that of an element. -/
def NextBelow (rank : ι → β) (base : List ι) (x w : ι) : Prop :=
  w ∈ base ∧ rank x < rank w ∧ ∀ m ∈ base, rank x < rank m → rank w ≤ rank m

/-- The next above an untied element is the one shown above it, if that is untied. -/
theorem nextAbove_iff (h : sorted rank base = A ++ y :: x :: B) (hx : Untied rank base x)
    (hy : Untied rank base y) (hne : y ≠ x) {w : ι} : NextAbove rank base x w ↔ w = y := by
  obtain ⟨hmem, hA, hyx, hB⟩ := sorted_pair h
  obtain ⟨hybase, -⟩ := mem_of_sorted_pair h
  have hlt : rank y < rank x := lt_of_le_of_ne hyx fun heq => hne (hx y hybase heq)
  have hbelow : ∀ m ∈ base, rank m < rank x → rank m ≤ rank y := by
    intro m hm hmx
    obtain hm | rfl | rfl | hm := hmem m hm
    · exact (hA m hm).1
    · exact le_rfl
    · exact absurd hmx (lt_irrefl _)
    · exact absurd hmx (not_lt_of_ge (hB m hm).2)
  constructor
  · rintro ⟨hw, hwx, hgreatest⟩
    exact hy w hw (le_antisymm (hbelow w hw hwx) (hgreatest y hybase hlt))
  · rintro rfl
    exact ⟨hybase, hlt, hbelow⟩

theorem nextBelow_iff (h : sorted rank base = A ++ x :: z :: B) (hx : Untied rank base x)
    (hz : Untied rank base z) (hne : x ≠ z) {w : ι} : NextBelow rank base x w ↔ w = z := by
  obtain ⟨hmem, hA, hxz, hB⟩ := sorted_pair h
  obtain ⟨hxbase, hzbase⟩ := mem_of_sorted_pair h
  have hlt : rank x < rank z := lt_of_le_of_ne hxz fun heq => hne (hz x hxbase heq)
  have habove : ∀ m ∈ base, rank x < rank m → rank z ≤ rank m := by
    intro m hm hxm
    obtain hm | rfl | rfl | hm := hmem m hm
    · exact absurd hxm (not_lt_of_ge (hA m hm).1)
    · exact absurd hxm (lt_irrefl _)
    · exact le_rfl
    · exact (hB m hm).2
  constructor
  · rintro ⟨hw, hxw, hleast⟩
    exact hz w hw (le_antisymm (hleast z hzbase hlt) (habove w hw hxw))
  · rintro rfl
    exact ⟨hzbase, hlt, habove⟩

/-! ### Ranks that are exchanged -/

section Swap

variable [DecidableEq ι]

theorem swap_mem_iff (hx : x ∈ base) (hy : y ∈ base) : Equiv.swap x y a ∈ base ↔ a ∈ base := by
  rw [Equiv.swap_apply_def]
  split
  · rename_i heq
    exact iff_of_true hy (heq ▸ hx)
  · split
    · rename_i heq
      exact iff_of_true hx (heq ▸ hy)
    · exact Iff.rfl

omit [LinearOrder β] in
theorem Untied.swap_apply (hx : Untied rank base x) (hy : Untied rank base y) (hb : b ∈ base)
    (htie : rank a = rank b) (hne : a ≠ b) : Equiv.swap x y a = a := by
  refine Equiv.swap_apply_of_ne_of_ne ?_ ?_
  · rintro rfl
    exact hne (hx b hb htie.symm).symm
  · rintro rfl
    exact hne (hy b hb htie.symm).symm

omit [LinearOrder β] in
/-- What takes the rank of an untied element is untied. -/
theorem Untied.comp_swap (h : Untied rank base (Equiv.swap x y a)) (hx : x ∈ base)
    (hy : y ∈ base) : Untied (rank ∘ Equiv.swap x y) base a := fun _ hb htie =>
  (Equiv.swap x y).injective (h _ ((swap_mem_iff hx hy).mpr hb) htie)

/-- **Untied elements that exchange their ranks exchange their places.** -/
theorem sorted_swap (hnodup : base.Nodup) (hx : Untied rank base x) (hy : Untied rank base y)
    (hxmem : x ∈ base) (hymem : y ∈ base) :
    sorted (rank ∘ Equiv.swap x y) base = (sorted rank base).map (Equiv.swap x y) := by
  refine (eq_sorted (pairwise_idxOf hnodup) ?_ ?_).symm
  · refine (List.perm_ext_iff_of_nodup ?_ hnodup).mpr fun a => ?_
    · exact (perm_sorted.nodup_iff.mpr hnodup).map (Equiv.swap x y).injective
    · rw [List.mem_map]
      constructor
      · rintro ⟨b, hb, rfl⟩
        exact (swap_mem_iff hxmem hymem).mpr (mem_sorted.mp hb)
      · intro ha
        exact ⟨_, mem_sorted.mpr ((swap_mem_iff hxmem hymem).mpr ha), Equiv.swap_apply_self x y a⟩
  · rw [List.pairwise_map]
    refine (pairwise_sorted (pairwise_idxOf hnodup)).imp_of_mem fun {a b} ha hb hab => ?_
    obtain hlt | ⟨htie, hle⟩ := hab
    · left
      simpa only [Function.comp_apply, Equiv.swap_apply_self] using hlt
    · right
      refine ⟨by simpa only [Function.comp_apply, Equiv.swap_apply_self] using htie, ?_⟩
      -- what is tied is neither of the two
      by_cases hab : a = b
      · rw [hab]
      · rw [hx.swap_apply hy (mem_sorted.mp hb) htie hab,
          hx.swap_apply hy (mem_sorted.mp ha) htie.symm (Ne.symm hab)]
        exact hle

theorem map_swap (h : (A ++ y :: x :: B).Nodup) :
    (A ++ y :: x :: B).map (Equiv.swap x y) = A ++ x :: y :: B := by
  have hfixed : ∀ l : List ι, x ∉ l → y ∉ l → l.map (Equiv.swap x y) = l := by
    intro l hx hy
    refine (List.map_congr_left fun a ha => ?_).trans l.map_id
    exact Equiv.swap_apply_of_ne_of_ne (fun heq => hx (heq ▸ ha)) fun heq => hy (heq ▸ ha)
  simp only [List.nodup_append, List.nodup_cons, List.mem_cons, not_or] at h
  obtain ⟨-, ⟨⟨-, hyB⟩, hxB, -⟩, hA⟩ := h
  rw [List.map_append, List.map_cons, List.map_cons, hfixed A, hfixed B hxB hyB,
    Equiv.swap_apply_right, Equiv.swap_apply_left]
  · exact fun hmem => hA x hmem x (.inr (.inl rfl)) rfl
  · exact fun hmem => hA y hmem y (.inl rfl) rfl

/-! ### Moving by one -/

/-- An element exchanges its rank with one of the next, if there is one. -/
def Moved (Next : (ι → β) → List ι → ι → ι → Prop) (rank : ι → β) (base : List ι) (x : ι)
    (rank' : ι → β) : Prop :=
  (∃ w, Next rank base x w ∧ rank' = rank ∘ Equiv.swap x w) ∨
    (∀ w, ¬Next rank base x w) ∧ rank' = rank

/-- Moving up and down exchanges the element with its neighbour in what is shown, and moving down
undoes moving up. -/
structure MovesByOne (rank : ι → β) (base : List ι) (x : ι) : Prop where
  up : ∀ A y B rank', sorted rank base = A ++ y :: x :: B → Moved NextAbove rank base x rank' →
    sorted rank' base = A ++ x :: y :: B
  down : ∀ A z B rank', sorted rank base = A ++ x :: z :: B → Moved NextBelow rank base x rank' →
    sorted rank' base = A ++ z :: x :: B
  first : ∀ B rank', sorted rank base = x :: B → Moved NextAbove rank base x rank' →
    sorted rank' base = x :: B
  last : ∀ A rank', sorted rank base = A ++ [x] → Moved NextBelow rank base x rank' →
    sorted rank' base = A ++ [x]
  back : ∀ A y B rank₁ rank₂, sorted rank base = A ++ y :: x :: B →
    Moved NextAbove rank base x rank₁ → Moved NextBelow rank₁ base x rank₂ →
      sorted rank₂ base = A ++ y :: x :: B

/-- Neither the element nor one beside it is tied. -/
structure ApartFromNeighbours (rank : ι → β) (base : List ι) (x : ι) : Prop where
  self : Untied rank base x
  above : ∀ A y B, sorted rank base = A ++ y :: x :: B → Untied rank base y
  below : ∀ A z B, sorted rank base = A ++ x :: z :: B → Untied rank base z

omit [LinearOrder β] in
theorem moved_iff_of_unique {Next : (ι → β) → List ι → ι → ι → Prop}
    (h : ∀ w, Next rank base x w ↔ w = y) :
    Moved Next rank base x rank' ↔ rank' = rank ∘ Equiv.swap x y := by
  constructor
  · rintro (⟨w, hw, rfl⟩ | ⟨hnone, -⟩)
    · rw [(h w).mp hw]
    · exact absurd ((h y).mpr rfl) (hnone y)
  · rintro rfl
    exact .inl ⟨y, (h y).mpr rfl, rfl⟩

/-- Moving up between untied elements, … -/
theorem sorted_of_moved_up (hnodup : base.Nodup) (h : sorted rank base = A ++ y :: x :: B)
    (hx : Untied rank base x) (hy : Untied rank base y)
    (hmoved : Moved NextAbove rank base x rank') :
    rank' = rank ∘ Equiv.swap x y ∧ sorted rank' base = A ++ x :: y :: B := by
  have hshown := nodup_of_sorted_pair hnodup h
  have hne : y ≠ x := by
    rintro rfl
    simp [List.nodup_append] at hshown
  obtain ⟨hymem, hxmem⟩ := mem_of_sorted_pair h
  obtain rfl := (moved_iff_of_unique fun w => nextAbove_iff h hx hy hne).mp hmoved
  refine ⟨rfl, ?_⟩
  rw [sorted_swap hnodup hx hy hxmem hymem, h, map_swap hshown]

/-- … and moving down. -/
theorem sorted_of_moved_down (hnodup : base.Nodup) (h : sorted rank base = A ++ x :: z :: B)
    (hx : Untied rank base x) (hz : Untied rank base z)
    (hmoved : Moved NextBelow rank base x rank') : sorted rank' base = A ++ z :: x :: B := by
  have hshown := nodup_of_sorted_pair hnodup h
  have hne : x ≠ z := by
    rintro rfl
    simp [List.nodup_append] at hshown
  obtain ⟨hxmem, hzmem⟩ := mem_of_sorted_pair h
  obtain rfl := (moved_iff_of_unique fun w => nextBelow_iff h hx hz hne).mp hmoved
  rw [sorted_swap hnodup hx hz hxmem hzmem, h, Equiv.swap_comm, map_swap hshown]

/-- What moves up past its neighbour was not tied with it, nor the neighbour with others; … -/
theorem untied_of_up (hnodup : base.Nodup) (h : sorted rank base = A ++ y :: x :: B)
    (hup : ∀ rank', Moved NextAbove rank base x rank' → sorted rank' base = A ++ x :: y :: B) :
    rank y < rank x ∧ Untied rank base y := by
  obtain ⟨hmem, hA, hyx, hB⟩ := sorted_pair h
  have honly : ∀ w, NextAbove rank base x w → w = y := by
    intro w hnext
    obtain hw | rfl | rfl | hw := hmem w hnext.1
    · -- further up, it would stay there with the greater rank
      have hle := ((sorted_pair (hup _ (.inl ⟨w, hnext, rfl⟩))).2.1 w hw).1
      rw [Function.comp_apply, Function.comp_apply, Equiv.swap_apply_right,
        Equiv.swap_apply_left] at hle
      exact absurd hnext.2.1 (not_lt_of_ge hle)
    · rfl
    · exact absurd hnext.2.1 (lt_irrefl _)
    · exact absurd hnext.2.1 (not_lt_of_ge (hB w hw).2)
  have hsome : ∃ w, NextAbove rank base x w := by
    by_contra hnone
    have hsame := hup rank (.inr ⟨not_exists.mp hnone, rfl⟩)
    rw [h] at hsame
    exact ne_of_sorted_pair hnodup h (List.cons.inj (List.append_cancel_left hsame)).1
  obtain ⟨w, hw⟩ := hsome
  obtain rfl := honly w hw
  refine ⟨hw.2.1, fun b hb htie => honly b ⟨hb, ?_, fun m hm hmx => ?_⟩⟩
  · rw [htie]
    exact hw.2.1
  · rw [htie]
    exact hw.2.2 m hm hmx

/-- … likewise down. -/
theorem untied_of_down (hnodup : base.Nodup) (h : sorted rank base = A ++ x :: z :: B)
    (hdown : ∀ rank', Moved NextBelow rank base x rank' → sorted rank' base = A ++ z :: x :: B) :
    rank x < rank z ∧ Untied rank base z := by
  obtain ⟨hmem, hA, hxz, hB⟩ := sorted_pair h
  have honly : ∀ w, NextBelow rank base x w → w = z := by
    intro w hnext
    obtain hw | rfl | rfl | hw := hmem w hnext.1
    · exact absurd hnext.2.1 (not_lt_of_ge (hA w hw).1)
    · exact absurd hnext.2.1 (lt_irrefl _)
    · rfl
    · -- further down, it would stay there with the smaller rank
      have hle := ((sorted_pair (hdown _ (.inl ⟨w, hnext, rfl⟩))).2.2.2 w hw).2
      rw [Function.comp_apply, Function.comp_apply, Equiv.swap_apply_right,
        Equiv.swap_apply_left] at hle
      exact absurd hnext.2.1 (not_lt_of_ge hle)
  have hsome : ∃ w, NextBelow rank base x w := by
    by_contra hnone
    have hsame := hdown rank (.inr ⟨not_exists.mp hnone, rfl⟩)
    rw [h] at hsame
    exact ne_of_sorted_pair hnodup h (List.cons.inj (List.append_cancel_left hsame)).1
  obtain ⟨w, hw⟩ := hsome
  obtain rfl := honly w hw
  refine ⟨hw.2.1, fun b hb htie => honly b ⟨hb, ?_, fun m hm hxm => ?_⟩⟩
  · rw [htie]
    exact hw.2.1
  · rw [htie]
    exact hw.2.2 m hm hxm

/-- What can be undone was not tied. -/
theorem untied_of_back (hnodup : base.Nodup) (h : sorted rank base = A ++ y :: x :: B)
    (hlt : rank y < rank x)
    (hback : ∀ rank', Moved NextBelow (rank ∘ Equiv.swap x y) base x rank' →
      sorted rank' base = A ++ y :: x :: B) : Untied rank base x := by
  obtain ⟨hmem, hA, -, hB⟩ := sorted_pair h
  obtain ⟨hymem, hxmem⟩ := mem_of_sorted_pair h
  intro m hm htie
  by_contra hmx
  have hmy : m ≠ y := by
    rintro rfl
    exact absurd htie (ne_of_lt hlt)
  have hmB : m ∈ B := by
    obtain hmA | rfl | rfl | hmB := hmem m hm
    · exact absurd (hA m hmA).1 (not_le_of_gt (htie ▸ hlt))
    · exact absurd rfl hmy
    · exact absurd rfl hmx
    · exact hmB
  have hnext : NextBelow (rank ∘ Equiv.swap x y) base x m := by
    refine ⟨hm, ?_, fun n hn hxn => ?_⟩
    · rw [Function.comp_apply, Function.comp_apply, Equiv.swap_apply_left,
        Equiv.swap_apply_of_ne_of_ne hmx hmy, htie]
      exact hlt
    · rw [Function.comp_apply, Function.comp_apply, Equiv.swap_apply_left] at hxn
      rw [Function.comp_apply, Function.comp_apply, Equiv.swap_apply_of_ne_of_ne hmx hmy, htie]
      obtain hnA | heq | heq | hnB := hmem _ ((swap_mem_iff hxmem hymem).mpr hn)
      · exact absurd hxn (not_lt_of_ge (hA _ hnA).1)
      · rw [heq] at hxn
        exact absurd hxn (lt_irrefl _)
      · rw [heq]
      · exact (hB _ hnB).2
  -- the tied one takes the rank of the neighbour, and the neighbour stays in front
  have hle := ((sorted_pair (hback _ (.inl ⟨m, hnext, rfl⟩))).2.2.2 m hmB).1
  simp only [Function.comp_apply] at hle
  rw [Equiv.swap_apply_of_ne_of_ne (ne_of_sorted_pair hnodup h) (Ne.symm hmy),
    Equiv.swap_apply_right, Equiv.swap_apply_right, Equiv.swap_apply_left] at hle
  exact absurd hlt (not_lt_of_ge hle)

/-- At the upper end there is none to move past, … -/
theorem sorted_of_moved_first (h : sorted rank base = x :: B)
    (hmoved : Moved NextAbove rank base x rank') : sorted rank' base = x :: B := by
  obtain ⟨w, ⟨hw, hwx, -⟩, -⟩ | ⟨-, rfl⟩ := hmoved
  · have hle := pairwise_rank_le rank base
    rw [h, List.pairwise_cons] at hle
    have hmem : w ∈ x :: B := h ▸ mem_sorted.mpr hw
    obtain rfl | hwB := List.mem_cons.mp hmem
    · exact absurd hwx (lt_irrefl _)
    · exact absurd hwx (not_lt_of_ge (hle.1 w hwB))
  · exact h

/-- … nor at the lower one. -/
theorem sorted_of_moved_last (h : sorted rank base = A ++ [x])
    (hmoved : Moved NextBelow rank base x rank') : sorted rank' base = A ++ [x] := by
  obtain ⟨w, ⟨hw, hxw, -⟩, -⟩ | ⟨-, rfl⟩ := hmoved
  · have hle := pairwise_rank_le rank base
    rw [h, List.pairwise_append] at hle
    have hmem : w ∈ A ++ [x] := h ▸ mem_sorted.mpr hw
    obtain hwA | hwx := List.mem_append.mp hmem
    · exact absurd hxw (not_lt_of_ge (hle.2.2 w hwA x (List.mem_singleton_self x)))
    · rw [List.mem_singleton.mp hwx] at hxw
      exact absurd hxw (lt_irrefl _)
  · exact h

omit [DecidableEq ι] in
/-- The first element is tied with none if it is not tied with the next. -/
theorem untied_first (h : sorted rank base = x :: B)
    (hnext : ∀ z C, B = z :: C → rank x < rank z) : Untied rank base x := by
  intro m hm htie
  have hmem : m ∈ x :: B := h ▸ mem_sorted.mpr hm
  obtain rfl | hmB := List.mem_cons.mp hmem
  · rfl
  · cases B with
    | nil => cases hmB
    | cons z B =>
      obtain ⟨-, -, -, hB⟩ := sorted_pair (A := []) h
      have hlt := hnext z B rfl
      obtain rfl | hmB := List.mem_cons.mp hmB
      · exact absurd htie.symm (ne_of_lt hlt)
      · exact absurd (hB m hmB).2 (not_le_of_gt (htie ▸ hlt))

omit [DecidableEq ι] in
/-- The one shown right above is the next above if its rank is smaller. -/
theorem nextAbove_of_sorted_pair (h : sorted rank base = A ++ y :: x :: B)
    (hlt : rank y < rank x) : NextAbove rank base x y := by
  obtain ⟨hmem, hA, -, hB⟩ := sorted_pair h
  refine ⟨(mem_of_sorted_pair h).1, hlt, fun m hm hmx => ?_⟩
  obtain hmA | rfl | rfl | hmB := hmem m hm
  · exact (hA m hmA).1
  · exact le_rfl
  · exact absurd hmx (lt_irrefl _)
  · exact absurd hmx (not_lt_of_ge (hB m hmB).2)

theorem MovesByOne.apart (hnodup : base.Nodup) (hx : x ∈ base) (h : MovesByOne rank base x) :
    ApartFromNeighbours rank base x := by
  have habove : ∀ A y B, sorted rank base = A ++ y :: x :: B →
      rank y < rank x ∧ Untied rank base y := fun A y B hshown =>
    untied_of_up hnodup hshown fun rank' => h.up A y B rank' hshown
  have hbelow : ∀ A z B, sorted rank base = A ++ x :: z :: B →
      rank x < rank z ∧ Untied rank base z := fun A z B hshown =>
    untied_of_down hnodup hshown fun rank' => h.down A z B rank' hshown
  refine ⟨?_, fun A y B hshown => (habove A y B hshown).2,
    fun A z B hshown => (hbelow A z B hshown).2⟩
  have hmem : x ∈ sorted rank base := mem_sorted.mpr hx
  obtain ⟨A, B, hshown⟩ := List.append_of_mem hmem
  obtain rfl | ⟨A, y, rfl⟩ := A.eq_nil_or_concat
  · refine untied_first hshown fun z C hB => ?_
    exact (hbelow [] z C (hB ▸ hshown)).1
  · -- up and down again
    rw [List.concat_eq_append, List.append_assoc] at hshown
    have hshown : sorted rank base = A ++ y :: x :: B := hshown
    have hlt := (habove A y B hshown).1
    refine untied_of_back hnodup hshown hlt fun rank₂ hdown => ?_
    exact h.back A y B _ rank₂ hshown (.inl ⟨y, nextAbove_of_sorted_pair hshown hlt, rfl⟩) hdown

theorem ApartFromNeighbours.movesByOne (hnodup : base.Nodup)
    (h : ApartFromNeighbours rank base x) : MovesByOne rank base x := by
  obtain ⟨hself, habove, hbelow⟩ := h
  refine ⟨fun A y B rank' hshown hmoved => ?_, fun A z B rank' hshown hmoved => ?_,
    fun B rank' hshown hmoved => sorted_of_moved_first hshown hmoved,
    fun A rank' hshown hmoved => sorted_of_moved_last hshown hmoved,
    fun A y B rank₁ rank₂ hshown hup hdown => ?_⟩
  · exact (sorted_of_moved_up hnodup hshown hself (habove A y B hshown) hmoved).2
  · exact sorted_of_moved_down hnodup hshown hself (hbelow A z B hshown) hmoved
  · have hy := habove A y B hshown
    obtain ⟨hymem, hxmem⟩ := mem_of_sorted_pair hshown
    obtain ⟨rfl, hshown₁⟩ := sorted_of_moved_up hnodup hshown hself hy hup
    refine sorted_of_moved_down hnodup hshown₁ ?_ ?_ hdown
    · exact Untied.comp_swap (by rwa [Equiv.swap_apply_left]) hxmem hymem
    · exact Untied.comp_swap (by rwa [Equiv.swap_apply_right]) hxmem hymem

/-- **An element moves by one exactly if neither it nor one beside it is tied.** -/
theorem movesByOne_iff_apart (hnodup : base.Nodup) (hx : x ∈ base) :
    MovesByOne rank base x ↔ ApartFromNeighbours rank base x :=
  ⟨MovesByOne.apart hnodup hx, ApartFromNeighbours.movesByOne hnodup⟩

end Swap

end StableSort
