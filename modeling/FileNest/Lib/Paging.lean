import FileNest.Lib.Sql

/-!
# Paging through a query

A client reads an ordered list of rows page by page.  With an offset it counts the
rows it has; with a cursor it names the key of the last row it saw, and the server
goes on with the rows whose key is greater.  Counting always gives the rows in order.
A cursor does exactly when, at every boundary between two pages, the rows behind it
are those with the greater keys.

## Main definitions

* `Page`, `follow`, `Visits` — pages, and what following their cursors gives.
* `offsetPage`, `keysetPage` — the two kinds of pages.
* `Boundary`, `Aligned` — where pages end, and what cursors need there.

## Main results

* `visits_offsetPage` — **counting gives all rows, in order.**
* `visits_keysetPage_iff` — **cursors do exactly if the rows are aligned.**
-/

namespace Paging

variable {α κ : Type}

/-- A page: its items, and the cursor of the next page if there is one. -/
structure Page (α κ : Type) where
  items : List α
  next : Option κ

/-- Follow the cursors; `none` if the fuel runs out. -/
def follow (page : Option κ → Page α κ) : ℕ → Option κ → Option (List α)
  | 0, _ => none
  | fuel + 1, cursor =>
      match (page cursor).next with
      | none => some (page cursor).items
      | some c => (follow page fuel (some c)).map ((page cursor).items ++ ·)

/-- Following the cursors ends and has given these items. -/
def Visits (page : Option κ → Page α κ) (cursor : Option κ) (items : List α) : Prop :=
  ∃ fuel, follow page fuel cursor = some items

section Follow

variable {page : Option κ → Page α κ} {cursor : Option κ} {items rest : List α} {c : κ}

theorem visits_last (h : (page cursor).next = none) :
    Visits page cursor items ↔ items = (page cursor).items := by
  constructor
  · rintro ⟨fuel, hf⟩
    cases fuel with
    | zero => simp [follow] at hf
    | succ fuel =>
      simp only [follow, h, Option.some.injEq] at hf
      exact hf.symm
  · rintro rfl
    exact ⟨1, by simp only [follow, h]⟩

theorem visits_more (h : (page cursor).next = some c) :
    Visits page cursor items ↔
      ∃ rest, Visits page (some c) rest ∧ items = (page cursor).items ++ rest := by
  constructor
  · rintro ⟨fuel, hf⟩
    cases fuel with
    | zero => simp [follow] at hf
    | succ fuel =>
      simp only [follow, h, Option.map_eq_some_iff] at hf
      obtain ⟨rest, hrest, rfl⟩ := hf
      exact ⟨rest, ⟨fuel, hrest⟩, rfl⟩
  · rintro ⟨rest, ⟨fuel, hf⟩, rfl⟩
    refine ⟨fuel + 1, ?_⟩
    simp only [follow, h, hf, Option.map_some]

/-- What following the cursors gives is determined. -/
theorem Visits.unique {items' : List α} (h : Visits page cursor items)
    (h' : Visits page cursor items') : items = items' := by
  obtain ⟨fuel, hf⟩ := h
  induction fuel generalizing cursor items items' with
  | zero => simp [follow] at hf
  | succ fuel ih =>
    cases hnext : (page cursor).next with
    | none =>
      simp only [follow, hnext, Option.some.injEq] at hf
      rw [← hf, (visits_last hnext).mp h']
    | some c =>
      simp only [follow, hnext, Option.map_eq_some_iff] at hf
      obtain ⟨rest, hrest, rfl⟩ := hf
      obtain ⟨rest', hrest', rfl⟩ := (visits_more hnext).mp h'
      rw [ih hrest' hrest]

/-- A page that is its own next page is never left. -/
theorem not_visits_of_loop (h : (page cursor).next = some c) (hloop : page (some c) = page cursor) :
    ¬Visits page cursor items := by
  rintro ⟨fuel, hf⟩
  have key : ∀ fuel cursor items, page cursor = page (some c) →
      follow page fuel cursor ≠ some items := by
    intro fuel
    induction fuel with
    | zero => intro cursor items _ hf; simp [follow] at hf
    | succ fuel ih =>
      intro cursor items heq hf
      simp only [follow, heq, hloop, h, Option.map_eq_some_iff] at hf
      obtain ⟨rest, hrest, -⟩ := hf
      exact ih (some c) rest rfl hrest
  exact key fuel cursor items hloop.symm hf

end Follow

/-! ### Counting -/

/-- The page at an offset. -/
def offsetPage (limit : ℕ) (rows : List α) (offset : Option ℕ) : Page α ℕ where
  items := Sql.page (offset.getD 0) limit rows
  next := if offset.getD 0 + limit < rows.length then some (offset.getD 0 + limit) else none

/-- Counting gives all rows that are left, in order. -/
theorem visits_offsetPage {limit : ℕ} (hlimit : 0 < limit) (rows : List α) (offset : Option ℕ) :
    Visits (offsetPage limit rows) offset (rows.drop (offset.getD 0)) := by
  -- induction on the number of rows left
  induction hn : rows.length - offset.getD 0 using Nat.strong_induction_on generalizing offset with
  | _ n ih =>
    by_cases hmore : offset.getD 0 + limit < rows.length
    · have hnext : (offsetPage limit rows offset).next = some (offset.getD 0 + limit) :=
        if_pos hmore
      rw [visits_more hnext]
      refine ⟨_, ih _ (by rw [Option.getD_some]; omega) (some (offset.getD 0 + limit)) rfl, ?_⟩
      rw [Option.getD_some, ← List.drop_drop]
      exact (List.take_append_drop limit _).symm
    · have hnext : (offsetPage limit rows offset).next = none := if_neg hmore
      rw [visits_last hnext]
      refine (List.take_of_length_le ?_).symm
      rw [List.length_drop]
      omega

/-! ### Cursors -/

section Keyset

variable [LinearOrder κ] (key : α → κ) (read : κ → Option κ) (limit : ℕ) (rows : List α)

/-- The rows behind a cursor. -/
def behind : Option κ → List α
  | none => rows
  | some c => rows.filter fun a => decide (c < key a)

/-- The page behind a cursor, as far as the server can read it.  Without a cursor the
server knows how many rows there are; with one, a full page is its sign that there are
more. -/
def keysetPage (cursor : Option κ) : Page α κ :=
  let items := (behind key rows (cursor.bind read)).take limit
  let hasMore := match cursor.bind read with
    | none => items.length == limit && decide (limit < rows.length)
    | some _ => items.length == limit
  { items := items, next := bif hasMore then items.getLast?.map key else none }

/-- A page ends after `m` rows and another is asked for: there are more rows, or the page
was full and not the first. -/
def Boundary (n m : ℕ) : Prop := 0 < m ∧ limit ∣ m ∧ m ≤ n ∧ (m = limit → m < n)

/-- At every boundary the server can read the last key, and the rows behind it are those
with greater keys. -/
def Aligned : Prop :=
  ∀ m, Boundary limit rows.length m → ∀ a, rows[m - 1]? = some a →
    read (key a) = some (key a) ∧ ∀ i b, rows[i]? = some b → (key a < key b ↔ m ≤ i)

/-- The cursor a client holds after `m` rows. -/
def cursorAt (m : ℕ) : Option κ := if m = 0 then none else rows[m - 1]?.map key

/-- After `m` rows the server reads the cursor, and finds the rows that are left. -/
structure InStep (m : ℕ) : Prop where
  read_eq : (cursorAt key rows m).bind read = cursorAt key rows m
  behind_eq : behind key rows (cursorAt key rows m) = rows.drop m

end Keyset

section Keyset

variable [LinearOrder κ] {key : α → κ} {read : κ → Option κ} {limit : ℕ} {rows : List α}

/-- A filter keeps a list's tail if it holds from there on and nowhere before. -/
theorem filter_eq_drop {p : α → Bool} {m : ℕ}
    (h : ∀ i b, rows[i]? = some b → (p b = true ↔ m ≤ i)) : rows.filter p = rows.drop m := by
  induction rows generalizing m with
  | nil => simp
  | cons a rows ih =>
    have ha := h 0 a rfl
    cases m with
    | zero =>
      have htail : rows.filter p = rows := by
        refine (ih (m := 0) fun i b hb => ?_).trans List.drop_zero
        exact (h (i + 1) b (by simpa using hb)).trans (by omega)
      rw [List.filter_cons_of_pos (ha.mpr le_rfl), htail, List.drop_zero]
    | succ m =>
      have hna : ¬p a = true := fun hp => absurd (ha.mp hp) (by omega)
      rw [List.filter_cons_of_neg hna, List.drop_succ_cons]
      refine ih fun i b hb => ?_
      exact (h (i + 1) b (by simpa using hb)).trans (by omega)

/-- Conversely, if rows do not repeat. -/
theorem of_filter_eq_drop {p : α → Bool} {m : ℕ} (hnodup : rows.Nodup)
    (h : rows.filter p = rows.drop m) {i : ℕ} {b : α} (hb : rows[i]? = some b) :
    p b = true ↔ m ≤ i := by
  obtain ⟨hi, rfl⟩ := List.getElem?_eq_some_iff.mp hb
  have hmem : rows[i] ∈ rows.filter p ↔ rows[i] ∈ rows.drop m := by rw [h]
  rw [List.mem_filter, and_iff_right (List.getElem_mem hi)] at hmem
  rw [hmem]
  constructor
  · intro hdrop
    obtain ⟨j, hj, heq⟩ := List.getElem_of_mem hdrop
    rw [List.getElem_drop] at heq
    have := (hnodup.getElem_inj_iff).mp heq
    omega
  · intro hmi
    refine List.mem_of_getElem? (i := i - m) ?_
    rw [List.getElem?_drop, show m + (i - m) = i by omega, hb]

theorem inStep_zero : InStep key read rows 0 :=
  ⟨by simp [cursorAt], by simp [cursorAt, behind]⟩

omit [LinearOrder κ] in
theorem cursorAt_pos (key : α → κ) {m : ℕ} {a : α} (hm : 0 < m) (ha : rows[m - 1]? = some a) :
    cursorAt key rows m = some (key a) := by
  rw [cursorAt, if_neg (by omega), ha, Option.map_some]

/-- Being in step after `m` rows, spelled out. -/
theorem inStep_iff (hnodup : rows.Nodup) {m : ℕ} {a : α} (hm : 0 < m)
    (ha : rows[m - 1]? = some a) : InStep key read rows m ↔
      read (key a) = some (key a) ∧ ∀ i b, rows[i]? = some b → (key a < key b ↔ m ≤ i) := by
  have hcursor := cursorAt_pos key hm ha
  constructor
  · rintro ⟨hread, hbehind⟩
    rw [hcursor] at hread hbehind
    exact ⟨hread, fun i b hb => by simpa using of_filter_eq_drop hnodup hbehind hb⟩
  · rintro ⟨hread, hrows⟩
    refine ⟨by rw [hcursor]; exact hread, ?_⟩
    rw [hcursor]
    exact filter_eq_drop fun i b hb => by simpa using hrows i b hb

/-- **The page of a client that is in step.** -/
theorem keysetPage_inStep (hlimit : 0 < limit) {m : ℕ} (hm : m ≤ rows.length)
    (h : InStep key read rows m) :
    keysetPage key read limit rows (cursorAt key rows m)
      = ⟨(rows.drop m).take limit,
          if m + limit ≤ rows.length ∧ (m = 0 → limit < rows.length)
          then cursorAt key rows (m + limit) else none⟩ := by
  have hlast : limit ≤ rows.length - m →
      ((rows.drop m).take limit).getLast?.map key = cursorAt key rows (m + limit) := by
    intro hle
    rw [List.getLast?_eq_getElem?, List.length_take, List.length_drop, Nat.min_eq_left hle,
      List.getElem?_take_of_lt (by omega), List.getElem?_drop, cursorAt, if_neg (by omega)]
    congr 2
    omega
  simp only [keysetPage, h.read_eq, h.behind_eq, Page.mk.injEq, true_and, List.length_take,
    List.length_drop]
  rcases Nat.eq_zero_or_pos m with rfl | hpos
  · have hnone : cursorAt key rows 0 = none := rfl
    rw [hnone]
    by_cases hmore : limit < rows.length
    · rw [hlast (by omega)]
      simp [hmore, hmore.le]
    · simp [hmore]
  · have hlt : m - 1 < rows.length := by omega
    have hsome : rows[m - 1]? = some rows[m - 1] := List.getElem?_eq_getElem hlt
    rw [cursorAt_pos key hpos hsome]
    by_cases hmore : m + limit ≤ rows.length
    · rw [hlast (by omega), Nat.min_eq_left (by omega)]
      simp [hmore, hpos.ne']
    · have hne : (min limit (rows.length - m) == limit) = false := by
        simp only [beq_eq_false_iff_ne]
        omega
      simp [hne, hmore]

/-- The next boundary. -/
theorem boundary_add {m : ℕ} (hlimit : 0 < limit) (hm : m = 0 ∨ Boundary limit rows.length m)
    (hle : m + limit ≤ rows.length) (hfirst : m = 0 → limit < rows.length) :
    Boundary limit rows.length (m + limit) := by
  have hdvd : limit ∣ m := by
    rcases hm with rfl | hm
    · exact Nat.dvd_zero limit
    · exact hm.2.1
  exact ⟨by omega, (Nat.dvd_add_right hdvd).mpr (Nat.dvd_refl limit), hle,
    fun heq => by have := hfirst (by omega); omega⟩

/-- A client that stays in step sees all rows that are left, in order. -/
theorem visits_of_inStep (hlimit : 0 < limit)
    (hstep : ∀ m, Boundary limit rows.length m → InStep key read rows m) {m : ℕ}
    (hm : m = 0 ∨ Boundary limit rows.length m) :
    Visits (keysetPage key read limit rows) (cursorAt key rows m) (rows.drop m) := by
  -- induction on the number of rows left
  induction hn : rows.length - m using Nat.strong_induction_on generalizing m with
  | _ n ih =>
    have hle : m ≤ rows.length := by
      rcases hm with rfl | hm
      · exact Nat.zero_le _
      · exact hm.2.2.1
    have hin : InStep key read rows m := by
      rcases hm with rfl | hm
      · exact inStep_zero
      · exact hstep m hm
    have hpage := keysetPage_inStep hlimit hle hin
    by_cases hmore : m + limit ≤ rows.length ∧ (m = 0 → limit < rows.length)
    · rw [if_pos hmore] at hpage
      have hboundary := boundary_add hlimit hm hmore.1 hmore.2
      have hlt : m + limit - 1 < rows.length := by omega
      have hlast : rows[m + limit - 1]? = some rows[m + limit - 1] := List.getElem?_eq_getElem hlt
      have hcursor := cursorAt_pos key (by omega) hlast
      have hrest := ih _ (by omega) (Or.inr hboundary) rfl
      rw [hcursor] at hpage hrest
      rw [visits_more (congrArg Page.next hpage), hpage]
      refine ⟨_, hrest, ?_⟩
      rw [← List.drop_drop, List.take_append_drop]
    · rw [if_neg hmore] at hpage
      rw [visits_last (congrArg Page.next hpage), hpage]
      refine (List.take_of_length_le ?_).symm
      rw [List.length_drop]
      rcases Nat.eq_zero_or_pos m with rfl | hpos
      · omega
      · have : ¬m + limit ≤ rows.length := fun h => hmore ⟨h, fun h0 => absurd h0 hpos.ne'⟩
        omega

/-- All rows a readable cursor leads to have greater keys. -/
theorem lt_of_visits (hread : ∀ c, read c = some c ∨ ∀ d, c ≤ d) {c : κ} {items : List α}
    (hc : read c = some c) (h : Visits (keysetPage key read limit rows) (some c) items) :
    ∀ a ∈ items, c < key a := by
  obtain ⟨fuel, hf⟩ := h
  induction fuel generalizing c items with
  | zero => simp [follow] at hf
  | succ fuel ih =>
    have hpage : ∀ a ∈ (keysetPage key read limit rows (some c)).items, c < key a := by
      intro a ha
      simp only [keysetPage, Option.bind_some, hc, behind] at ha
      simpa using (List.mem_filter.mp (List.mem_of_mem_take ha)).2
    cases hnext : (keysetPage key read limit rows (some c)).next with
    | none =>
      simp only [follow, hnext, Option.some.injEq] at hf
      exact hf ▸ hpage
    | some d =>
      simp only [follow, hnext, Option.map_eq_some_iff] at hf
      obtain ⟨rest, hrest, rfl⟩ := hf
      -- the next cursor is the key of a row of the page
      have hcd : c < d := by
        obtain ⟨a, ha, rfl⟩ : ∃ a ∈ (keysetPage key read limit rows (some c)).items, key a = d := by
          simp only [keysetPage, Option.bind_some, hc] at hnext ⊢
          cases hfull : (List.take limit (behind key rows (some c))).length == limit with
          | false => simp only [hfull, cond_false, reduceCtorEq] at hnext
          | true =>
            simp only [hfull, cond_true, Option.map_eq_some_iff] at hnext
            obtain ⟨a, ha, hd⟩ := hnext
            exact ⟨a, List.mem_of_getLast? ha, hd⟩
        exact hpage a ha
      have hd : read d = some d :=
        (hread d).resolve_right fun hmin => absurd (hmin c) (not_le.mpr hcd)
      intro a ha
      rcases List.mem_append.mp ha with ha | ha
      · exact hpage a ha
      · exact hcd.trans (ih hd hrest a ha)

/-- If a readable cursor leads to exactly the rows that are left, it is in step. -/
theorem aligned_of_visits (hnodup : rows.Nodup) (hlimit : 0 < limit)
    (hread : ∀ c, read c = some c ∨ ∀ d, c ≤ d) {c : κ} {m : ℕ} (hc : read c = some c)
    (h : Visits (keysetPage key read limit rows) (some c) (rows.drop m)) {i : ℕ} {b : α}
    (hb : rows[i]? = some b) : c < key b ↔ m ≤ i := by
  constructor
  · intro hlt
    by_contra hi
    -- the first row with a greater key would come first, though it is not among those left
    have hmem : b ∈ (rows.take m).filter fun a => decide (c < key a) := by
      refine List.mem_filter.mpr ⟨List.mem_of_getElem? (i := i) ?_, by simpa using hlt⟩
      rw [List.getElem?_take_of_lt (by omega), hb]
    obtain ⟨x, xs, hx⟩ : ∃ x xs, (rows.take m).filter (fun a => decide (c < key a)) = x :: xs :=
      List.exists_cons_of_ne_nil (List.ne_nil_of_mem hmem)
    have hitems : ∃ ys, (keysetPage key read limit rows (some c)).items = x :: ys := by
      have hsplit : rows.filter (fun a => decide (c < key a))
          = x :: (xs ++ (rows.drop m).filter fun a => decide (c < key a)) := by
        rw [← List.cons_append, ← hx, ← List.filter_append, List.take_append_drop]
      simp only [keysetPage, Option.bind_some, hc, behind, hsplit]
      obtain ⟨l, rfl⟩ : ∃ l, limit = l + 1 := ⟨limit - 1, by omega⟩
      exact ⟨_, List.take_succ_cons⟩
    obtain ⟨ys, hys⟩ := hitems
    have hhead : x ∈ rows.drop m := by
      cases hnext : (keysetPage key read limit rows (some c)).next with
      | none =>
        rw [(visits_last hnext).mp h, hys]
        exact List.mem_cons_self
      | some d =>
        obtain ⟨rest, -, heq⟩ := (visits_more hnext).mp h
        rw [heq, hys]
        exact List.mem_append_left _ List.mem_cons_self
    have hbefore : x ∈ rows.take m := by
      have : x ∈ (rows.take m).filter fun a => decide (c < key a) := hx ▸ List.mem_cons_self
      exact (List.mem_filter.mp this).1
    rw [← List.take_append_drop m rows] at hnodup
    exact (List.nodup_append.mp hnodup).2.2 x hbefore x hhead rfl
  · intro hi
    refine lt_of_visits hread hc h b (List.mem_of_getElem? (i := i - m) ?_)
    rw [List.getElem?_drop, show m + (i - m) = i by omega, hb]

/-- If following the cursors gives all rows in order, the client is in step all along. -/
theorem inStep_of_visits (hnodup : rows.Nodup) (hlimit : 0 < limit)
    (hread : ∀ c, read c = some c ∨ read c = none ∧ ∀ d, c ≤ d)
    (h : Visits (keysetPage key read limit rows) none rows) {m : ℕ}
    (hm : m = 0 ∨ Boundary limit rows.length m) :
    InStep key read rows m
      ∧ Visits (keysetPage key read limit rows) (cursorAt key rows m) (rows.drop m) := by
  -- induction on the number of pages before
  obtain ⟨j, rfl⟩ : limit ∣ m := by
    rcases hm with rfl | hm
    · exact Nat.dvd_zero limit
    · exact hm.2.1
  induction j with
  | zero =>
    rw [Nat.mul_zero]
    exact ⟨inStep_zero, h⟩
  | succ j ih =>
    rw [Nat.mul_succ] at hm ⊢
    obtain ⟨-, -, hle, hfirst⟩ := hm.resolve_left (by omega)
    set m := limit * j with hmdef
    have hprev : m = 0 ∨ Boundary limit rows.length m := by
      rcases Nat.eq_zero_or_pos m with h0 | hpos
      · exact Or.inl h0
      · exact Or.inr ⟨hpos, ⟨j, rfl⟩, by omega, fun _ => by omega⟩
    obtain ⟨hin, hvisits⟩ := ih hprev
    -- the page leads on to the cursor of its last row
    have hpage := keysetPage_inStep hlimit (by omega) hin
    rw [if_pos ⟨hle, fun h0 => by have := hfirst (by omega); omega⟩] at hpage
    have hlt : m + limit - 1 < rows.length := by omega
    have hlast : rows[m + limit - 1]? = some rows[m + limit - 1] := List.getElem?_eq_getElem hlt
    set a := rows[m + limit - 1]
    have hcursor := cursorAt_pos key (by omega) hlast
    rw [hcursor] at hpage ⊢
    obtain ⟨rest, hrest, heq⟩ := (visits_more (congrArg Page.next hpage)).mp hvisits
    have hdrop : rest = rows.drop (m + limit) := by
      rw [hpage] at heq
      have hsplit : (rows.drop m).take limit ++ rest
          = (rows.drop m).take limit ++ rows.drop (m + limit) := by
        rw [← heq, ← List.drop_drop, List.take_append_drop]
      exact List.append_cancel_left hsplit
    subst hdrop
    have hreads : read (key a) = some (key a) := by
      refine (hread (key a)).resolve_right fun hmin => ?_
      rcases Nat.eq_zero_or_pos m with h0 | hpos
      · -- a first page whose cursor cannot be read comes again and again
        rw [h0] at hpage
        refine not_visits_of_loop (congrArg Page.next hpage) ?_ h
        simp only [cursorAt, keysetPage, Option.bind_some, hmin.1, if_true, Option.bind_none]
      · have hlt' : m - 1 < rows.length := by omega
        have hprev : rows[m - 1]? = some rows[m - 1] := List.getElem?_eq_getElem hlt'
        have hlt := ((inStep_iff hnodup hpos hprev).mp hin).2 _ a hlast
        exact absurd (hmin.2 _) (not_le.mpr (hlt.mpr (by omega)))
    refine ⟨?_, hrest⟩
    refine (inStep_iff hnodup (by omega) hlast).mpr ⟨hreads, fun i b hb => ?_⟩
    exact aligned_of_visits hnodup hlimit (fun c => (hread c).imp_right And.right) hreads hrest hb

/-- **Cursors give all rows in order exactly if the rows are aligned.** -/
theorem visits_keysetPage_iff (hnodup : rows.Nodup) (hlimit : 0 < limit)
    (hread : ∀ c, read c = some c ∨ read c = none ∧ ∀ d, c ≤ d) :
    Visits (keysetPage key read limit rows) none rows ↔ Aligned key read limit rows := by
  constructor
  · intro h m hm a ha
    exact (inStep_iff hnodup hm.1 ha).mp (inStep_of_visits hnodup hlimit hread h (Or.inr hm)).1
  · intro h
    refine visits_of_inStep (m := 0) hlimit (fun m hm => ?_) (Or.inl rfl)
    have hpos := hm.1
    have hle := hm.2.2.1
    have hlt : m - 1 < rows.length := by omega
    have hlast : rows[m - 1]? = some rows[m - 1] := List.getElem?_eq_getElem hlt
    exact (inStep_iff hnodup hpos hlast).mpr (h m hm _ hlast)

end Keyset

end Paging
