import FileNest.Lib.Sql
import Mathlib.Data.List.Infix

/-!
# Text in patterns of `LIKE`

A text between two `%` finds what contains it, as long as it has none of the characters that
patterns are made of.  Any other text finds something that does not contain it: put another letter
for each of its wildcards and drop its escapes.

## Main definitions

* `Plain` — no character of the text means something in a pattern.
* `Contains` — one text is part of the other, whatever the case of its letters.
* `sample` — what a text finds, as a pattern.

## Main results

* `likeChars_append_iff` — plain text matches itself.
* `likeChars_contains_iff` — **plain text between wildcards finds what contains it.**
* `likeChars_sample` — any text finds its sample.
* `ilike_of_plain`, `exists_ilike_of_not_plain` — **only plain text finds just what contains
  it.**
-/

namespace Sql

/-- No character of the text means something in a pattern. -/
def Plain (cs : List Char) : Prop := '%' ∉ cs ∧ '_' ∉ cs ∧ '\\' ∉ cs

instance (cs : List Char) : Decidable (Plain cs) := inferInstanceAs (Decidable (_ ∧ _ ∧ _))

/-- One text is part of the other, both in lower case. -/
def Contains (s q : String) : Prop := (lower q).toList <:+: (lower s).toList

instance (s q : String) : Decidable (Contains s q) :=
  inferInstanceAs (Decidable (_ <:+: _))

/-- What a text finds: a letter for each wildcard, and what is escaped. -/
def sample : List Char → List Char
  | [] => []
  | '%' :: ps => 'a' :: sample ps
  | '_' :: ps => 'a' :: sample ps
  -- the last `\` escapes the `%` behind the text
  | ['\\'] => ['%']
  | '\\' :: p :: ps => p :: sample ps
  | p :: ps => p :: sample ps

attribute [local simp] sample

section Matching

variable {ps cs : List Char} {c p : Char}

theorem likeChars_any : likeChars ('%' :: ps) cs = true
    ↔ ∃ ds, ds <:+ cs ∧ likeChars ps ds = true := by
  rw [likeChars, List.any_eq_true]
  exact exists_congr fun ds => and_congr_left fun _ => List.mem_tails _ _

theorem likeChars_nil : likeChars [] cs = true ↔ cs = [] := by
  rw [likeChars, List.isEmpty_iff]

/-- The last wildcard takes the rest. -/
theorem likeChars_rest : likeChars ['%'] cs = true :=
  likeChars_any.mpr ⟨[], List.nil_suffix, likeChars_nil.mpr rfl⟩

/-- A plain character matches nothing in what is empty, … -/
theorem likeChars_cons_nil (hany : p ≠ '%') (hone : p ≠ '_') (hescape : p ≠ '\\') :
    likeChars (p :: ps) [] = false := by
  rw [likeChars]
  · exact hany
  · exact hone
  · exact fun _ _ hp => absurd hp hescape

/-- … and itself at the front. -/
theorem likeChars_cons_cons (hany : p ≠ '%') (hone : p ≠ '_') (hescape : p ≠ '\\') :
    likeChars (p :: ps) (c :: cs) = (c == p && likeChars ps cs) := by
  rw [likeChars]
  · exact hany
  · exact hone
  · exact fun _ _ hp => absurd hp hescape

theorem likeChars_cons_iff (hany : p ≠ '%') (hone : p ≠ '_') (hescape : p ≠ '\\') :
    likeChars (p :: ps) cs = true ↔ ∃ ds, cs = p :: ds ∧ likeChars ps ds = true := by
  cases cs with
  | nil =>
    rw [likeChars_cons_nil hany hone hescape]
    exact iff_of_false Bool.false_ne_true fun ⟨_, h, _⟩ => by cases h
  | cons c cs =>
    rw [likeChars_cons_cons hany hone hescape, Bool.and_eq_true, beq_iff_eq]
    constructor
    · rintro ⟨rfl, h⟩
      exact ⟨cs, rfl, h⟩
    · rintro ⟨ds, h, hds⟩
      obtain ⟨rfl, rfl⟩ := List.cons.inj h
      exact ⟨rfl, hds⟩

theorem Plain.of_cons (h : Plain (p :: ps)) : (p ≠ '%' ∧ p ≠ '_' ∧ p ≠ '\\') ∧ Plain ps := by
  obtain ⟨hany, hone, hescape⟩ := h
  rw [List.mem_cons, not_or] at hany hone hescape
  exact ⟨⟨Ne.symm hany.1, Ne.symm hone.1, Ne.symm hescape.1⟩, hany.2, hone.2, hescape.2⟩

/-- **Plain text matches itself.** -/
theorem likeChars_append_iff {qs : List Char} (h : Plain qs) :
    likeChars (qs ++ ps) cs = true ↔ ∃ ds, cs = qs ++ ds ∧ likeChars ps ds = true := by
  induction qs generalizing cs with
  | nil => simp
  | cons q qs ih =>
    obtain ⟨⟨hany, hone, hescape⟩, hqs⟩ := h.of_cons
    rw [List.cons_append, likeChars_cons_iff hany hone hescape]
    constructor
    · rintro ⟨rest, rfl, hrest⟩
      obtain ⟨ds, rfl, hds⟩ := (ih hqs).mp hrest
      exact ⟨ds, rfl, hds⟩
    · rintro ⟨ds, rfl, hds⟩
      exact ⟨qs ++ ds, rfl, (ih hqs).mpr ⟨ds, rfl, hds⟩⟩

/-- **Plain text between wildcards finds what contains it.** -/
theorem likeChars_contains_iff {qs : List Char} (h : Plain qs) :
    likeChars ('%' :: (qs ++ ['%'])) cs = true ↔ qs <:+: cs := by
  rw [likeChars_any]
  constructor
  · rintro ⟨_, ⟨before, hcs⟩, hmatch⟩
    obtain ⟨after, rfl, -⟩ := (likeChars_append_iff h).mp hmatch
    exact ⟨before, after, by rw [List.append_assoc, hcs]⟩
  · rintro ⟨before, after, hcs⟩
    refine ⟨qs ++ after, ⟨before, by rw [← List.append_assoc, hcs]⟩, ?_⟩
    exact (likeChars_append_iff h).mpr ⟨after, rfl, likeChars_rest⟩

end Matching

/-! ### Samples -/

section Sample

variable {ps : List Char} {p : Char}

theorem sample_cons (hany : p ≠ '%') (hone : p ≠ '_') (hescape : p ≠ '\\') :
    sample (p :: ps) = p :: sample ps := by
  rw [sample]
  · exact hany
  · exact hone
  · exact fun hp => absurd hp hescape
  · exact fun _ _ hp => absurd hp hescape

/-- What is neither the last escape nor escapes anything is none. -/
theorem ne_escape (hlast : p = '\\' → ps = [] → False)
    (hescape : ∀ q qs, p = '\\' → ps = q :: qs → False) : p ≠ '\\' := by
  intro hp
  cases ps with
  | nil => exact hlast hp rfl
  | cons q qs => exact hescape q qs hp rfl

/-- **Any text finds its sample.** -/
theorem likeChars_sample (ps : List Char) : likeChars (ps ++ ['%']) (sample ps) = true := by
  induction ps using sample.induct with
  | case1 => exact likeChars_rest
  | case2 ps ih => exact likeChars_any.mpr ⟨sample ps, List.suffix_cons _ _, ih⟩
  | case3 ps ih => exact ih
  | case4 => rfl
  | case5 p ps ih =>
    have hescape : likeChars ('\\' :: p :: (ps ++ ['%'])) (p :: sample ps)
        = (p == p && likeChars (ps ++ ['%']) (sample ps)) := by rw [likeChars]
    rw [sample, List.cons_append, List.cons_append, hescape, beq_self_eq_true, ih]
    rfl
  | case6 p ps hany hone hlast hescape ih =>
    have hplain := ne_escape hlast hescape
    rw [sample_cons hany hone hplain, List.cons_append, likeChars_cons_cons hany hone hplain,
      beq_self_eq_true, ih]
    rfl

/-- A sample is no longer than the text, … -/
theorem length_sample_le (ps : List Char) : (sample ps).length ≤ ps.length := by
  induction ps using sample.induct with
  | case1 | case4 => exact le_rfl
  | case2 ps ih | case3 ps ih => exact Nat.succ_le_succ ih
  | case5 p ps ih => exact (Nat.succ_le_succ ih).trans (Nat.le_succ _)
  | case6 p ps hany hone hlast hescape ih =>
    rw [sample_cons hany hone (ne_escape hlast hescape)]
    exact Nat.succ_le_succ ih

/-- … and is the text only if that is plain. -/
theorem plain_of_sample_eq (h : sample ps = ps) : Plain ps := by
  induction ps using sample.induct with
  | case1 => decide
  | case2 ps ih => exact absurd (List.cons.inj h).1 (by decide)
  | case3 ps ih => exact absurd (List.cons.inj h).1 (by decide)
  | case4 => exact absurd h (by decide)
  | case5 p ps ih =>
    have hlength := congrArg List.length h
    have hle := length_sample_le ps
    rw [sample, List.length_cons, List.length_cons, List.length_cons] at hlength
    omega
  | case6 p ps hany hone hlast hescape ih =>
    have hplain := ne_escape hlast hescape
    rw [sample_cons hany hone hplain] at h
    obtain ⟨hany', hone', hescape'⟩ := ih (List.cons.inj h).2
    simp only [Plain, List.mem_cons, not_or]
    exact ⟨⟨fun hp => hany hp.symm, hany'⟩, ⟨fun hp => hone hp.symm, hone'⟩,
      fun hp => hplain hp.symm, hescape'⟩

/-- A sample has letters of the text, an `a`, and a `%`. -/
theorem mem_sample {c : Char} (h : c ∈ sample ps) : c ∈ ps ∨ c = 'a' ∨ c = '%' := by
  induction ps using sample.induct with
  | case1 => cases h
  | case2 ps ih | case3 ps ih =>
    rcases List.mem_cons.mp h with rfl | h
    · exact .inr (.inl rfl)
    · exact (ih h).imp_left (List.mem_cons_of_mem _)
  | case4 => exact .inr (.inr (List.mem_singleton.mp h))
  | case5 p ps ih =>
    rcases List.mem_cons.mp h with rfl | h
    · exact .inl (List.mem_cons_of_mem _ List.mem_cons_self)
    · exact (ih h).imp_left fun hc => List.mem_cons_of_mem _ (List.mem_cons_of_mem _ hc)
  | case6 p ps hany hone hlast hescape ih =>
    rw [sample_cons hany hone (ne_escape hlast hescape)] at h
    rcases List.mem_cons.mp h with rfl | h
    · exact .inl List.mem_cons_self
    · exact (ih h).imp_left (List.mem_cons_of_mem _)

end Sample

/-! ### Letter case -/

section Lower

variable {s q : String}

theorem toList_lower (s : String) : (lower s).toList = s.toList.map Unicode.lowerSimple :=
  String.toList_ofList

theorem toList_pattern (q : String) : (lower ("%" ++ q ++ "%")).toList
    = '%' :: ((lower q).toList ++ ['%']) := by
  have hany : "%".toList.map Unicode.lowerSimple = ['%'] := by decide
  rw [toList_lower, String.toList_append, String.toList_append, List.map_append, List.map_append,
    hany, toList_lower]
  rfl

theorem plain_lower_iff : Plain (lower q).toList ↔ Plain q.toList := by
  have hmem : ∀ c : Char, c.toNat < 97 → Unicode.lowerSimple c = c →
      (c ∉ (lower q).toList ↔ c ∉ q.toList) := by
    intro c hc hlower
    rw [toList_lower, List.mem_map]
    constructor
    · exact fun h hmem => h ⟨c, hmem, hlower⟩
    · rintro h ⟨d, hd, hsame⟩
      exact h (Unicode.eq_of_lowerSimple_eq hc hsame ▸ hd)
  exact and_congr (hmem '%' (by decide) (by decide))
    (and_congr (hmem '_' (by decide) (by decide)) (hmem '\\' (by decide) (by decide)))

theorem ilike_of_plain (h : Plain q.toList) : ilike s ("%" ++ q ++ "%") = true ↔ Contains s q := by
  rw [ilike, like, toList_pattern]
  exact likeChars_contains_iff (plain_lower_iff.mpr h)

/-- What is in lower case stays. -/
theorem lower_ofList {cs : List Char} (h : ∀ c ∈ cs, Unicode.lowerSimple c = c) :
    (lower (String.ofList cs)).toList = cs := by
  rw [toList_lower, String.toList_ofList]
  exact (List.map_congr_left h).trans (List.map_id _)

/-- A text that is not plain finds something that does not contain it. -/
theorem exists_ilike_of_not_plain (h : ¬Plain q.toList) :
    ∃ s, ilike s ("%" ++ q ++ "%") = true ∧ ¬Contains s q := by
  have hlower : (lower (String.ofList (sample (lower q).toList))).toList
      = sample (lower q).toList := by
    refine lower_ofList fun c hc => ?_
    rcases mem_sample hc with hc | rfl | rfl
    · rw [toList_lower] at hc
      obtain ⟨d, -, rfl⟩ := List.mem_map.mp hc
      exact Unicode.lowerSimple_lowerSimple d
    · decide
    · decide
  refine ⟨String.ofList (sample (lower q).toList), ?_, fun hcontains => h ?_⟩
  · rw [ilike, like, toList_pattern, hlower]
    exact likeChars_any.mpr ⟨_, List.suffix_rfl, likeChars_sample _⟩
  · -- nothing of the sample's length contains the text but the text
    rw [Contains, hlower] at hcontains
    have hsame := hcontains.eq_of_length_le (length_sample_le _)
    exact plain_lower_iff.mp (plain_of_sample_eq hsame.symm)

end Lower

end Sql
