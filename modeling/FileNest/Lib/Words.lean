import Mathlib.Data.List.DropRight
import Mathlib.Data.List.Chain

/-!
# Words

The words of a text are what its separators leave of it.  To replace every run of separators by
one mark, and to drop the marks at both ends, is to join the words by marks.

## Main definitions

* `words` — the maximal runs of what is not a separator.
* `collapse` — each run of separators becomes one mark.
* `joined` — words with a mark between them.
* `Tidy` — no mark at an end or beside another, and no other separator.

## Main results

* `collapse_eq_joined` — **collapsed text is the words joined, and perhaps a mark at each end.**
* `tidy_joined`, `joined_words` — what joined words are, and that they can be read back.
* `getElem?_joined_iff` — where the marks are.
-/

namespace Words

variable {α : Type}

section Definitions

variable (p : α → Bool) (mark : α)

/-- The maximal runs of what is not a separator. -/
def words (cs : List α) : List (List α) := (cs.splitOnP p).filter fun w => !w.isEmpty

/-- Each run of separators becomes one mark; in a run, the mark is there already. -/
def collapse (inRun : Bool) : List α → List α
  | [] => []
  | c :: cs =>
      if p c then
        if inRun then collapse true cs else mark :: collapse true cs
      else c :: collapse false cs

/-- Words with a mark between them. -/
def joined (ws : List (List α)) : List α := [mark].intercalate ws

/-- The mark is the only separator, is at no end, and is nowhere beside itself. -/
structure Tidy (cs : List α) : Prop where
  only : ∀ c ∈ cs, p c = true → c = mark
  apart : cs.IsChain fun a b => p a = true → p b = false
  first : ∀ c ∈ cs.head?, p c = false
  last : ∀ c ∈ cs.getLast?, p c = false

end Definitions

variable {p : α → Bool} {mark : α} {c d : α} {cs : List α} {w : List α} {ws : List (List α)}

/-! ### Words -/

section Words

theorem words_sep (hc : p c = true) : words p (c :: cs) = words p cs := by
  rw [words, List.splitOnP_cons_eq_if_modifyHead, if_pos hc]
  rfl

theorem words_singleton (hc : p c = false) : words p [c] = [[c]] := by
  rw [words, List.splitOnP_eq_singleton (List.forall_mem_singleton.mpr hc)]
  rfl

/-- A word of one letter. -/
theorem words_word_sep (hc : p c = false) (hd : p d = true) :
    words p (c :: d :: cs) = [c] :: words p cs := by
  rw [words, List.splitOnP_cons_eq_if_modifyHead, if_neg (by rw [hc]; exact Bool.false_ne_true),
    List.splitOnP_cons_eq_if_modifyHead, if_pos hd]
  rfl

variable (cs) in
/-- A word of at least two. -/
theorem words_word_word (hc : p c = false) (hd : p d = false) : ∃ w ws,
    words p (d :: cs) = w :: ws ∧ words p (c :: d :: cs) = (c :: w) :: ws := by
  obtain ⟨piece, pieces, hsplit⟩ := List.exists_cons_of_ne_nil (List.splitOnP_ne_nil p cs)
  have hnot : ∀ {e}, p e = false → ¬p e = true := fun he => by rw [he]; exact Bool.false_ne_true
  refine ⟨d :: piece, pieces.filter fun w => !w.isEmpty, ?_, ?_⟩
  · rw [words, List.splitOnP_cons_eq_if_modifyHead, if_neg (hnot hd), hsplit]
    rfl
  · rw [words, List.splitOnP_cons_eq_if_modifyHead, if_neg (hnot hc),
      List.splitOnP_cons_eq_if_modifyHead, if_neg (hnot hd), hsplit]
    rfl

theorem words_ne_nil_of_head (hc : p c = false) : words p (c :: cs) ≠ [] := by
  cases cs with
  | nil =>
    rw [words_singleton hc]
    exact List.cons_ne_nil _ _
  | cons d cs =>
    cases hd : p d with
    | true =>
      rw [words_word_sep hc hd]
      exact List.cons_ne_nil _ _
    | false =>
      obtain ⟨w, ws, -, hws⟩ := words_word_word cs hc hd
      rw [hws]
      exact List.cons_ne_nil _ _

/-- Separators in front make no difference, … -/
theorem words_append_left {seps : List α} (h : ∀ c ∈ seps, p c = true) :
    words p (seps ++ cs) = words p cs := by
  induction seps with
  | nil => rfl
  | cons c seps ih =>
    obtain ⟨hc, hseps⟩ := List.forall_mem_cons.mp h
    rw [List.cons_append, words_sep hc, ih hseps]

theorem words_of_forall (h : ∀ c ∈ cs, p c = true) : words p cs = [] := by
  have hnil : words p (cs ++ []) = words p [] := words_append_left h
  rwa [List.append_nil] at hnil

/-- … nor do separators behind. -/
theorem words_append_right {seps : List α} (h : ∀ c ∈ seps, p c = true) :
    words p (cs ++ seps) = words p cs := by
  rw [words, words]
  cases seps with
  | nil => rw [List.append_nil]
  | cons s seps =>
    obtain ⟨hs, hseps⟩ := List.forall_mem_cons.mp h
    rw [List.splitOnP_append_cons cs seps hs, List.filter_append]
    have hnone : (seps.splitOnP p).filter (fun w => !w.isEmpty) = [] := words_of_forall hseps
    rw [hnone, List.append_nil]

/-- Words are not empty and have no separators. -/
theorem of_mem_words (h : w ∈ words p cs) : w ≠ [] ∧ ∀ c ∈ w, c ∈ cs ∧ p c = false := by
  induction cs generalizing w with
  | nil => cases h
  | cons c cs ih =>
    have hlift : (w ≠ [] ∧ ∀ e ∈ w, e ∈ cs ∧ p e = false) →
        w ≠ [] ∧ ∀ e ∈ w, e ∈ c :: cs ∧ p e = false := fun hw =>
      ⟨hw.1, fun e he => ⟨List.mem_cons_of_mem _ (hw.2 e he).1, (hw.2 e he).2⟩⟩
    cases hc : p c with
    | true =>
      rw [words_sep hc] at h
      exact hlift (ih h)
    | false =>
      have hsingle : w = [c] → w ≠ [] ∧ ∀ e ∈ w, e ∈ c :: cs ∧ p e = false := by
        rintro rfl
        refine ⟨List.cons_ne_nil _ _, List.forall_mem_singleton.mpr ⟨List.mem_cons_self, hc⟩⟩
      cases cs with
      | nil =>
        rw [words_singleton hc] at h
        exact hsingle (List.mem_singleton.mp h)
      | cons d cs =>
        cases hd : p d with
        | true =>
          rw [words_word_sep hc hd] at h
          rcases List.mem_cons.mp h with rfl | h
          · exact hsingle rfl
          · exact hlift (ih (by rwa [words_sep hd]))
        | false =>
          obtain ⟨v, vs, hvs, hall⟩ := words_word_word cs hc hd
          rw [hall] at h
          rcases List.mem_cons.mp h with rfl | h
          · obtain ⟨-, hv⟩ := ih (hvs ▸ List.mem_cons_self)
            refine ⟨List.cons_ne_nil _ _, List.forall_mem_cons.mpr ⟨⟨List.mem_cons_self, hc⟩, ?_⟩⟩
            exact fun e he => ⟨List.mem_cons_of_mem _ (hv e he).1, (hv e he).2⟩
          · exact hlift (ih (hvs ▸ List.mem_cons_of_mem _ h))

theorem forall_of_words_eq_nil (h : words p cs = []) : ∀ c ∈ cs, p c = true := by
  induction cs with
  | nil => exact List.forall_mem_nil _
  | cons c cs ih =>
    cases hc : p c with
    | false => exact absurd h (words_ne_nil_of_head hc)
    | true =>
      rw [words_sep hc] at h
      exact List.forall_mem_cons.mpr ⟨hc, ih h⟩

end Words

/-! ### Joined words -/

section Joined

@[simp] theorem joined_nil : joined mark ([] : List (List α)) = [] := rfl

@[simp] theorem joined_singleton : joined mark [w] = w := List.intercalate_singleton

theorem joined_cons (h : ws ≠ []) : joined mark (w :: ws) = w ++ mark :: joined mark ws := by
  rw [joined, List.intercalate_cons_of_ne_nil h, List.append_assoc]
  rfl

@[simp] theorem joined_cons_cons : joined mark ((c :: w) :: ws) = c :: joined mark (w :: ws) :=
  List.intercalate_cons_cons_left

theorem mem_joined (h : c ∈ joined mark ws) : c = mark ∨ ∃ w ∈ ws, c ∈ w := by
  induction ws with
  | nil => cases h
  | cons w ws ih =>
    by_cases hws : ws = []
    · subst hws
      rw [joined_singleton] at h
      exact .inr ⟨w, List.mem_cons_self, h⟩
    · rw [joined_cons hws, List.mem_append, List.mem_cons] at h
      rcases h with h | h | h
      · exact .inr ⟨w, List.mem_cons_self, h⟩
      · exact .inl h
      · obtain hc | ⟨v, hv, hc⟩ := ih h
        · exact .inl hc
        · exact .inr ⟨v, List.mem_cons_of_mem _ hv, hc⟩

/-- The first letter is that of the first word, … -/
theorem head?_joined (hw : w ≠ []) : (joined mark (w :: ws)).head? = w.head? := by
  cases w with
  | nil => exact absurd rfl hw
  | cons c w => rw [joined_cons_cons, List.head?_cons, List.head?_cons]

theorem joined_ne_nil (hw : w ≠ []) : joined mark (w :: ws) ≠ [] := by
  intro h
  have hhead : (joined mark (w :: ws)).head? = w.head? := head?_joined hw
  rw [h] at hhead
  exact hw (List.head?_eq_none_iff.mp hhead.symm)

theorem letter_of_head?_joined (h : ∀ w ∈ ws, w ≠ [] ∧ ∀ c ∈ w, p c = false) :
    ∀ c ∈ (joined mark ws).head?, p c = false := by
  cases ws with
  | nil => exact fun c hc => by cases hc
  | cons w ws =>
    obtain ⟨hw, hletters⟩ := h w List.mem_cons_self
    rw [head?_joined hw]
    exact fun c hc => hletters c (List.mem_of_mem_head? hc)

/-- … the last is that of the last, … -/
theorem letter_of_getLast?_joined (h : ∀ w ∈ ws, w ≠ [] ∧ ∀ c ∈ w, p c = false) :
    ∀ c ∈ (joined mark ws).getLast?, p c = false := by
  induction ws with
  | nil => exact fun c hc => by cases hc
  | cons w ws ih =>
    obtain ⟨⟨hw, hletters⟩, hws⟩ := List.forall_mem_cons.mp h
    cases ws with
    | nil =>
      rw [joined_singleton]
      exact fun c hc => hletters c (List.mem_of_mem_getLast? hc)
    | cons v ws =>
      have hne : joined mark (v :: ws) ≠ [] := joined_ne_nil (hws v List.mem_cons_self).1
      obtain ⟨e, cs, hcs⟩ := List.exists_cons_of_ne_nil hne
      have hlast : (joined mark (w :: v :: ws)).getLast? = (joined mark (v :: ws)).getLast? := by
        rw [joined_cons (List.cons_ne_nil v ws), hcs, List.getLast?_append_cons,
          List.getLast?_cons_cons]
      rw [hlast]
      exact ih hws

/-- … and marks are between letters. -/
theorem isChain_joined (h : ∀ w ∈ ws, w ≠ [] ∧ ∀ c ∈ w, p c = false) :
    (joined mark ws).IsChain fun a b => p a = true → p b = false := by
  induction ws with
  | nil => exact .nil
  | cons w ws ih =>
    obtain ⟨⟨hw, hletters⟩, hws⟩ := List.forall_mem_cons.mp h
    have hletter : w.IsChain fun a b => p a = true → p b = false :=
      List.Pairwise.isChain (List.pairwise_of_forall_mem_list fun a ha b _ hsep => by
        rw [hletters a ha] at hsep
        cases hsep)
    by_cases hne : ws = []
    · subst hne
      rw [joined_singleton]
      exact hletter
    · rw [joined_cons hne, List.isChain_append]
      refine ⟨hletter, List.isChain_cons.mpr ⟨fun b hb _ => ?_, ih hws⟩, fun a ha b _ hsep => ?_⟩
      · exact letter_of_head?_joined hws b hb
      · rw [hletters a (List.mem_of_mem_getLast? ha)] at hsep
        cases hsep

/-- **Joined words are tidy.** -/
theorem tidy_joined (h : ∀ w ∈ ws, w ≠ [] ∧ ∀ c ∈ w, p c = false) :
    Tidy p mark (joined mark ws) where
  only c hc hsep := by
    refine (mem_joined hc).resolve_right ?_
    rintro ⟨w, hw, hcw⟩
    rw [(h w hw).2 c hcw] at hsep
    cases hsep
  apart := isChain_joined h
  first := letter_of_head?_joined h
  last := letter_of_getLast?_joined h

/-- An initial part is tidy if it does not end in a mark. -/
theorem Tidy.take (h : Tidy p mark cs) (n : ℕ) (hlast : ∀ c ∈ (cs.take n).getLast?, p c = false) :
    Tidy p mark (cs.take n) where
  only c hc := h.only c (List.mem_of_mem_take hc)
  apart := h.apart.take n
  first c hc := by
    cases n with
    | zero => cases hc
    | succ n =>
      rw [List.head?_take, if_neg (Nat.succ_ne_zero n)] at hc
      exact h.first c hc
  last := hlast

/-- **Where the marks are**: behind an initial part of the words. -/
theorem getElem?_joined_iff (h : ∀ w ∈ ws, mark ∉ w) {n : ℕ} :
    (joined mark ws)[n]? = some mark ↔ ∃ ws' ws'', ws = ws' ++ ws'' ∧ ws' ≠ [] ∧ ws'' ≠ []
      ∧ (joined mark ws').length = n := by
  induction ws generalizing n with
  | nil =>
    refine iff_of_false (by simp) ?_
    rintro ⟨ws', ws'', hws, hne, -⟩
    exact hne (List.append_eq_nil_iff.mp hws.symm).1
  | cons w ws ih =>
    obtain ⟨hw, hws⟩ := List.forall_mem_cons.mp h
    have hletter : w[n]? ≠ some mark := fun hn => hw (List.mem_of_getElem? hn)
    -- the place is in the first word, behind it, or further on
    by_cases hne : ws = []
    · subst hne
      rw [joined_singleton]
      refine iff_of_false hletter ?_
      rintro ⟨ws', ws'', hsplit, hne', hne'', -⟩
      obtain ⟨v, vs, rfl⟩ := List.exists_cons_of_ne_nil hne'
      exact hne'' (List.append_eq_nil_iff.mp (List.cons.inj hsplit).2.symm).2
    · rw [joined_cons hne]
      rcases lt_trichotomy n w.length with hlt | rfl | hgt
      · rw [List.getElem?_append_left hlt]
        refine iff_of_false hletter ?_
        rintro ⟨ws', ws'', hsplit, hne', -, hlength⟩
        obtain ⟨v, vs, rfl⟩ := List.exists_cons_of_ne_nil hne'
        obtain ⟨rfl, -⟩ := List.cons.inj hsplit
        by_cases hvs : vs = []
        · subst hvs
          rw [joined_singleton] at hlength
          omega
        · rw [joined_cons hvs, List.length_append] at hlength
          omega
      · rw [List.getElem?_append_right le_rfl, Nat.sub_self]
        exact iff_of_true rfl ⟨[w], ws, rfl, List.cons_ne_nil _ _, hne, by rw [joined_singleton]⟩
      · obtain ⟨m, rfl⟩ := Nat.exists_eq_add_of_lt hgt
        have hindex : w.length + m + 1 - w.length = m + 1 := by omega
        rw [List.getElem?_append_right (by omega), hindex, List.getElem?_cons_succ, ih hws]
        constructor
        · rintro ⟨ws', ws'', rfl, hne', hne'', rfl⟩
          refine ⟨w :: ws', ws'', rfl, List.cons_ne_nil _ _, hne'', ?_⟩
          rw [joined_cons hne', List.length_append, List.length_cons, Nat.add_assoc]
        · rintro ⟨ws', ws'', hsplit, hne', hne'', hlength⟩
          obtain ⟨v, vs, rfl⟩ := List.exists_cons_of_ne_nil hne'
          obtain ⟨rfl, hrest⟩ := List.cons.inj hsplit
          by_cases hvs : vs = []
          · subst hvs
            rw [joined_singleton] at hlength
            omega
          · rw [joined_cons hvs, List.length_append, List.length_cons] at hlength
            exact ⟨vs, ws'', hrest, hvs, hne'', by omega⟩

end Joined

/-! ### Collapsed text -/

section Collapse

variable (p mark) in
/-- The mark that a run of separators at an end leaves. -/
def markAt (c : Option α) : List α := if c.any p then [mark] else []

theorem collapse_false : collapse p mark false cs
    = markAt p mark cs.head? ++ collapse p mark true cs := by
  cases cs with
  | nil => rfl
  | cons c cs =>
    rw [collapse, collapse, List.head?_cons, markAt, Option.any_some]
    cases p c with
    | true => rfl
    | false => rfl

/-- In a run of separators, what comes of the rest. -/
theorem collapse_true : collapse p mark true cs
    = joined mark (words p cs)
      ++ if words p cs = [] then [] else markAt p mark cs.getLast? := by
  induction cs with
  | nil => rfl
  | cons c cs ih =>
    rw [collapse]
    cases hc : p c with
    | true =>
      rw [if_pos rfl, if_pos rfl, ih, words_sep hc]
      cases cs with
      | nil => rfl
      | cons d cs => rw [List.getLast?_cons_cons]
    | false =>
      rw [if_neg Bool.false_ne_true, collapse_false, ih]
      -- whether the word goes on depends on the next character
      cases cs with
      | nil =>
        have hnone : markAt p mark (some c) = [] := by
          rw [markAt, Option.any_some, hc, if_neg Bool.false_ne_true]
        rw [words_singleton hc, List.getLast?_singleton, hnone]
        rfl
      | cons d cs =>
        rw [List.getLast?_cons_cons, List.head?_cons]
        cases hd : p d with
        | true =>
          rw [words_word_sep hc hd, words_sep hd, if_neg (List.cons_ne_nil _ _)]
          have hmark : markAt p mark (some d) = [mark] := by
            rw [markAt, Option.any_some, hd, if_pos rfl]
          rw [hmark]
          by_cases hws : words p cs = []
          · -- nothing but separators follows
            have he := List.getLast?_eq_some_getLast (List.cons_ne_nil d cs)
            have hsep : ∀ e ∈ d :: cs, p e = true := fun e hmem =>
              (List.mem_cons.mp hmem).elim (fun h => h ▸ hd) (forall_of_words_eq_nil hws e)
            rw [hws, if_pos rfl, he, markAt, Option.any_some, hsep _ (List.getLast_mem _),
              if_pos rfl]
            rfl
          · rw [if_neg hws, joined_cons hws]
            rfl
        | false =>
          obtain ⟨w, ws, hws, hall⟩ := words_word_word cs hc hd
          have hnone : markAt p mark (some d) = [] := by
            rw [markAt, Option.any_some, hd, if_neg Bool.false_ne_true]
          rw [hnone, hws, hall, if_neg (List.cons_ne_nil _ _), if_neg (List.cons_ne_nil _ _),
            joined_cons_cons]
          rfl

/-- **Collapsed text is the words joined**, and perhaps a mark at each end. -/
theorem collapse_eq_joined : collapse p mark false cs
    = markAt p mark cs.head? ++ joined mark (words p cs)
      ++ if words p cs = [] then [] else markAt p mark cs.getLast? := by
  rw [collapse_false, collapse_true, List.append_assoc]

theorem mem_markAt {o : Option α} (h : c ∈ markAt p mark o) : c = mark := by
  rw [markAt] at h
  split at h
  · exact List.mem_singleton.mp h
  · cases h

/-- To drop what is at both ends. -/
theorem drop_ends {q : α → Bool} {before core after : List α} (hbefore : ∀ c ∈ before, q c = true)
    (hafter : ∀ c ∈ after, q c = true) (hfirst : ∀ c ∈ core.head?, q c = false)
    (hlast : ∀ c ∈ core.getLast?, q c = false) :
    ((before ++ core ++ after).dropWhile q).rdropWhile q = core := by
  rw [List.append_assoc, List.dropWhile_append_of_pos hbefore]
  cases core with
  | nil =>
    rw [List.nil_append, List.dropWhile_eq_nil_iff.mpr hafter]
    rfl
  | cons c core =>
    have hc : q c = false := hfirst c rfl
    rw [List.cons_append, List.dropWhile_cons_of_neg (by rw [hc]; exact Bool.false_ne_true),
      ← List.cons_append, List.rdropWhile, List.reverse_append,
      List.dropWhile_append_of_pos fun e he => hafter e (List.mem_reverse.mp he)]
    -- what stays begins with a letter, seen from either end
    have hkept : ((c :: core).reverse).dropWhile q = (c :: core).reverse := by
      cases hreverse : (c :: core).reverse with
      | nil => rfl
      | cons e rest =>
        have he : e ∈ (c :: core).getLast? := by
          rw [← List.head?_reverse, hreverse]
          rfl
        exact List.dropWhile_cons_of_neg (by rw [hlast e he]; exact Bool.false_ne_true)
    rw [hkept, List.reverse_reverse]

/-- **Collapsed text without the marks at its ends is the words joined.** -/
theorem drop_collapse [DecidableEq α] (hmark : p mark = true) :
    ((collapse p mark false cs).dropWhile (· == mark)).rdropWhile (· == mark)
      = joined mark (words p cs) := by
  have htidy : Tidy p mark (joined mark (words p cs)) := tidy_joined fun w hw =>
    ⟨(of_mem_words hw).1, fun c hc => ((of_mem_words hw).2 c hc).2⟩
  have hletter : ∀ {c}, p c = false → (c == mark) = false := fun hc =>
    beq_eq_false_iff_ne.mpr fun h => by rw [h, hmark] at hc; cases hc
  rw [collapse_eq_joined]
  refine drop_ends (fun c hc => ?_) (fun c hc => ?_) (fun c hc => hletter (htidy.first c hc))
    fun c hc => hletter (htidy.last c hc)
  · exact beq_iff_eq.mpr (mem_markAt hc)
  · split at hc
    · cases hc
    · exact beq_iff_eq.mpr (mem_markAt hc)

/-- There is nothing to collapse. -/
theorem collapse_self {inRun : Bool} (hrun : inRun = true → ∀ c ∈ cs.head?, p c = false)
    (honly : ∀ c ∈ cs, p c = true → c = mark)
    (hapart : cs.IsChain fun a b => p a = true → p b = false) : collapse p mark inRun cs = cs := by
  induction cs generalizing inRun with
  | nil => rfl
  | cons c cs ih =>
    obtain ⟨hc, hcs⟩ := List.forall_mem_cons.mp honly
    obtain ⟨hnext, hchain⟩ := List.isChain_cons.mp hapart
    rw [collapse]
    cases hsep : p c with
    | false => rw [if_neg Bool.false_ne_true, ih (fun h => by cases h) hcs hchain]
    | true =>
      cases inRun with
      | true =>
        have hletter := hrun rfl c rfl
        rw [hsep] at hletter
        cases hletter
      | false =>
        rw [if_pos rfl, if_neg Bool.false_ne_true, ih (fun _ e he => hnext e he hsep) hcs hchain,
          hc hsep]

/-- **Tidy text is its words joined.** -/
theorem Tidy.joined_words (h : Tidy p mark cs) : joined mark (words p cs) = cs := by
  have hnone : ∀ o : Option α, (∀ c ∈ o, p c = false) → markAt p mark o = [] := by
    intro o ho
    cases o with
    | none => rfl
    | some c => rw [markAt, Option.any_some, ho c rfl, if_neg Bool.false_ne_true]
  have hcollapse : collapse p mark false cs = cs :=
    collapse_self (fun h => by cases h) h.only h.apart
  rw [collapse_eq_joined, hnone _ h.first, hnone _ h.last, ite_self, List.nil_append,
    List.append_nil] at hcollapse
  exact hcollapse

end Collapse

end Words
