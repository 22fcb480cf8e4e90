import FileNest.Lib.Text
import FileNest.Lib.Words
import Mathlib.Data.String.Basic

/-!
# Slugs of projects

A project created without a slug is to get one made from its name: the words of the name, joined by
hyphens and cut at a hundred characters.  The cut comes after the hyphens at the ends are dropped
and can leave one, a name may have no words, and the validator that makes the slug does not run on
a field that is not sent.

## Main definitions

* `slugify` — the slug of a name.
* `slugMatches` — what is asked of a slug that is sent.
* `validateSlug` — the field of a validated request.
* `nameWords` — the words of a name.

## Main results

* `toList_slugify` — **a slug is the words of the name, joined and cut.**
* `slugMatches_slugify_iff` — when it is as slugs are to be.
* `slugify_slugify` — then its slug is itself.
* `slugDerived_iff` — **null has a slug made, if the name has words and none ends at the cut.**
* `nameless_slug` — a name without words.
-/

namespace FileNest

open Words

/-! ### The validator -/

/-- `[a-z0-9]`. -/
def isSlugChar (c : Char) : Bool := ('a' ≤ c && c ≤ 'z') || ('0' ≤ c && c ≤ '9')

/-- `[a-z0-9\s-]`. -/
def isKept (c : Char) : Bool := isSlugChar c || Text.isSpace c || c == '-'

/-- `[\s_-]`. -/
def isBreak (c : Char) : Bool := Text.isSpace c || c == '_' || c == '-'

/-- `_slugify`. -/
def slugify (name : String) : String :=
  let slug := Text.strip (Text.lower name)
  let slug := slug.toList.filter isKept
  let slug := collapse isBreak '-' false slug
  String.ofList ((Text.stripChar '-' (String.ofList slug)).toList.take 100)

/-- `^[a-z0-9][a-z0-9-]{0,98}[a-z0-9]$|^[a-z0-9]$`, on all of a text. -/
def slugBody : List Char → Bool
  | [] => false
  | [c] => isSlugChar c
  | c :: cs => isSlugChar c && decide (cs.dropLast.length ≤ 98)
      && cs.dropLast.all (fun d => isSlugChar d || d == '-') && cs.getLast?.any isSlugChar

/-- `re.match` of the pattern; a line break may follow what `$` ends. -/
def slugMatches (slug : String) : Bool :=
  slugBody slug.toList
    || (slug.toList.getLast? == some '\n' && slugBody slug.toList.dropLast)

/-- The slug of a request body. -/
inductive SlugField where
  | omitted
  | null
  | text (v : String)

/-- `validate_slug`, and the default where it does not run. -/
def validateSlug (name : String) : SlugField → Except String (Option String)
  | .omitted => .ok none
  | .null => .ok (some (slugify name))
  | .text v =>
      let slug := Text.strip (Text.lower v)
      if slugMatches slug then .ok (some slug)
      else .error "Slug must be lowercase alphanumeric with hyphens, 1–100 chars"

/-! ### Words of a name -/

/-- The words of a name: what white space and hyphens leave, all else but letters and digits
dropped. -/
def nameWords (name : String) : List (List Char) :=
  words isBreak ((Text.lower name).toList.filter isKept)

section Words

variable {name : String} {c : Char}

theorem isBreak_hyphen : isBreak '-' = true := by decide

theorem isBreak_of_isSpace (h : Text.isSpace c = true) : isBreak c = true := by
  rw [isBreak, h, Bool.true_or, Bool.true_or]

/-- What is kept and is no break is a letter or a digit. -/
theorem isSlugChar_of_isKept (h : isKept c = true) (hbreak : isBreak c = false) :
    isSlugChar c = true := by
  rw [isBreak, Bool.or_eq_false_iff, Bool.or_eq_false_iff] at hbreak
  rw [isKept, hbreak.1.1, hbreak.2, Bool.or_false, Bool.or_false] at h
  exact h

theorem isSlugChar_of_mem_nameWords {w : List Char} (hw : w ∈ nameWords name) :
    w ≠ [] ∧ ∀ c ∈ w, isSlugChar c = true ∧ isBreak c = false := by
  obtain ⟨hne, hletters⟩ := of_mem_words hw
  refine ⟨hne, fun c hc => ?_⟩
  obtain ⟨hmem, hbreak⟩ := hletters c hc
  exact ⟨isSlugChar_of_isKept (List.mem_filter.mp hmem).2 hbreak, hbreak⟩

/-- What is stripped is all that is missing. -/
theorem exists_stripBy (p : Char → Bool) (s : String) : ∃ before after,
    s.toList = before ++ (Text.stripBy p s).toList ++ after
      ∧ (∀ c ∈ before, p c = true) ∧ ∀ c ∈ after, p c = true := by
  let rest := s.toList.dropWhile p
  refine ⟨s.toList.takeWhile p, (rest.reverse.takeWhile p).reverse, ?_, ?_, ?_⟩
  · have hrest : rest
        = (rest.reverse.dropWhile p).reverse ++ (rest.reverse.takeWhile p).reverse := by
      rw [← List.reverse_append, List.takeWhile_append_dropWhile, List.reverse_reverse]
    rw [Text.stripBy, String.toList_ofList, List.append_assoc]
    show s.toList = s.toList.takeWhile p
      ++ ((rest.reverse.dropWhile p).reverse ++ (rest.reverse.takeWhile p).reverse)
    rw [← hrest, List.takeWhile_append_dropWhile]
  · exact fun c hc => List.mem_takeWhile_imp hc
  · exact fun c hc => List.mem_takeWhile_imp (List.mem_reverse.mp hc)

/-- White space around the name makes no difference. -/
theorem words_strip (s : String) : words isBreak ((Text.strip s).toList.filter isKept)
    = words isBreak (s.toList.filter isKept) := by
  obtain ⟨before, after, hs, hbefore, hafter⟩ := exists_stripBy Text.isSpace s
  rw [hs, List.filter_append, List.filter_append, words_append_right, words_append_left]
  · rfl
  · exact fun c hc => isBreak_of_isSpace (hbefore c (List.mem_of_mem_filter hc))
  · exact fun c hc => isBreak_of_isSpace (hafter c (List.mem_of_mem_filter hc))

/-- **A slug is the words of the name, joined and cut.** -/
theorem toList_slugify (name : String) :
    (slugify name).toList = (joined '-' (nameWords name)).take 100 := by
  have hstrip : ∀ cs : List Char, (Text.stripChar '-' (String.ofList cs)).toList
      = (cs.dropWhile (· == '-')).rdropWhile (· == '-') := by
    intro cs
    rw [Text.stripChar, Text.stripBy, String.toList_ofList, String.toList_ofList]
    rfl
  rw [slugify, String.toList_ofList, hstrip, drop_collapse isBreak_hyphen, words_strip]
  rfl

/-- The words are tidily joined. -/
theorem tidy_nameWords (name : String) : Tidy isBreak '-' (joined '-' (nameWords name)) :=
  tidy_joined fun _ hw => ⟨(isSlugChar_of_mem_nameWords hw).1, fun c hc =>
    ((isSlugChar_of_mem_nameWords hw).2 c hc).2⟩

/-- What a slug is made of. -/
theorem mem_slugify (hc : c ∈ (slugify name).toList) : isSlugChar c = true ∨ c = '-' := by
  rw [toList_slugify] at hc
  obtain rfl | ⟨w, hw, hcw⟩ := mem_joined (List.mem_of_mem_take hc)
  · exact .inr rfl
  · exact .inl ((isSlugChar_of_mem_nameWords hw).2 c hcw).1

end Words

/-! ### The pattern -/

section Pattern

theorem not_isSlugChar_hyphen : isSlugChar '-' = false := by decide

theorem isSlugChar_iff_ne {c : Char} (h : isSlugChar c = true ∨ c = '-') :
    isSlugChar c = true ↔ c ≠ '-' := by
  constructor
  · rintro hc rfl
    rw [not_isSlugChar_hyphen] at hc
    cases hc
  · exact h.resolve_right

/-- A text of letters, digits and hyphens that does not start with a hyphen. -/
theorem slugBody_iff {cs : List Char} (hmem : ∀ c ∈ cs, isSlugChar c = true ∨ c = '-')
    (hfirst : ∀ c ∈ cs.head?, c ≠ '-') (hlength : cs.length ≤ 100) :
    slugBody cs = true ↔ cs ≠ [] ∧ ∀ c ∈ cs.getLast?, c ≠ '-' := by
  cases cs with
  | nil => exact iff_of_false Bool.false_ne_true fun h => h.1 rfl
  | cons c cs =>
    obtain ⟨hc, hcs⟩ := List.forall_mem_cons.mp hmem
    have hletter : isSlugChar c = true := (isSlugChar_iff_ne hc).mpr (hfirst c rfl)
    cases cs with
    | nil => exact iff_of_true hletter ⟨List.cons_ne_nil _ _, fun e he => hfirst e he⟩
    | cons d cs =>
      have hmiddle : (d :: cs).dropLast.all (fun e => isSlugChar e || e == '-') = true := by
        refine List.all_eq_true.mpr fun e he => ?_
        rw [Bool.or_eq_true, beq_iff_eq]
        exact hcs e (List.dropLast_subset _ he)
      have hcount : decide ((d :: cs).dropLast.length ≤ 98) = true := by
        rw [List.length_cons, List.length_cons] at hlength
        rw [List.length_dropLast, List.length_cons]
        exact decide_eq_true (by omega)
      have hlast := List.getLast?_eq_some_getLast (List.cons_ne_nil d cs)
      rw [slugBody, hletter, hcount, hmiddle, Bool.true_and, Bool.true_and, Bool.true_and,
        List.getLast?_cons_cons, hlast, Option.any_some,
        isSlugChar_iff_ne (hcs _ (List.getLast_mem _))]
      · constructor
        · rintro hne
          refine ⟨List.cons_ne_nil _ _, fun e he => ?_⟩
          obtain rfl := Option.mem_some_iff.mp he
          exact hne
        · exact fun h => h.2 _ rfl
      · exact List.cons_ne_nil _ _

variable {name : String}

theorem head_slugify : ∀ c ∈ (slugify name).toList.head?, c ≠ '-' := by
  rintro c hc rfl
  rw [toList_slugify, List.head?_take, if_neg (by decide)] at hc
  have hfirst := (tidy_nameWords name).first _ hc
  rw [isBreak_hyphen] at hfirst
  cases hfirst

/-- The name has a word, and no initial part of its words ends where the slug is cut. -/
structure SlugFits (name : String) : Prop where
  word : nameWords name ≠ []
  cut : ∀ ws ws', nameWords name = ws ++ ws' → ws ≠ [] → ws' ≠ [] →
    (joined '-' ws).length ≠ 99

/-- **A slug ends in a hyphen** exactly if the words before it end at the cut. -/
theorem hyphen_at_cut_iff : (∃ c ∈ (slugify name).toList.getLast?, c = '-') ↔
    ∃ ws ws', nameWords name = ws ++ ws' ∧ ws ≠ [] ∧ ws' ≠ [] ∧ (joined '-' ws).length = 99 := by
  have hletters : ∀ w ∈ nameWords name, '-' ∉ w := fun w hw hmem => by
    have hbreak := ((isSlugChar_of_mem_nameWords hw).2 _ hmem).2
    rw [isBreak_hyphen] at hbreak
    cases hbreak
  rw [← getElem?_joined_iff hletters, toList_slugify]
  simp only [exists_eq_right, Option.mem_def]
  rcases Nat.lt_or_ge (joined '-' (nameWords name)).length 100 with hshort | hlong
  · -- nothing is cut
    rw [List.take_of_length_le hshort.le]
    refine iff_of_false (fun hlast => ?_) fun hcut => ?_
    · have hbreak := (tidy_nameWords name).last _ hlast
      rw [isBreak_hyphen] at hbreak
      cases hbreak
    · have hindex := (List.getElem?_eq_some_iff.mp hcut).1
      have hpred : (joined '-' (nameWords name)).length - 1 = 99 := by omega
      have hlast : (joined '-' (nameWords name)).getLast? = some '-' := by
        rw [List.getLast?_eq_getElem?, hpred, hcut]
      have hbreak := (tidy_nameWords name).last _ hlast
      rw [isBreak_hyphen] at hbreak
      cases hbreak
  · rw [List.getLast?_take, if_neg (by decide), List.getElem?_eq_getElem (by omega)]
    rfl

/-- **When a slug is as slugs are to be.** -/
theorem slugMatches_slugify_iff : slugMatches (slugify name) = true ↔ SlugFits name := by
  have hlength : (slugify name).toList.length ≤ 100 := by
    rw [toList_slugify]
    exact List.length_take_le _ _
  have hbreak : ((slugify name).toList.getLast? == some '\n') = false := by
    refine beq_eq_false_iff_ne.mpr fun hlast => ?_
    rcases mem_slugify (List.mem_of_mem_getLast? hlast) with hletter | hhyphen
    · exact absurd hletter (by decide)
    · exact absurd hhyphen (by decide)
  have hempty : (slugify name).toList = [] ↔ nameWords name = [] := by
    rw [toList_slugify, List.take_eq_nil_iff, or_iff_right (by decide)]
    constructor
    · intro hnil
      by_contra hne
      obtain ⟨w, ws, hws⟩ := List.exists_cons_of_ne_nil hne
      rw [hws] at hnil
      exact joined_ne_nil (isSlugChar_of_mem_nameWords (hws ▸ List.mem_cons_self)).1 hnil
    · intro hnil
      rw [hnil]
      rfl
  rw [slugMatches, hbreak, Bool.false_and, Bool.or_false,
    slugBody_iff (fun c => mem_slugify) head_slugify hlength, ne_eq, hempty]
  have hcut : (∀ c ∈ (slugify name).toList.getLast?, c ≠ '-')
      ↔ ¬∃ ws ws', nameWords name = ws ++ ws'
        ∧ ws ≠ [] ∧ ws' ≠ [] ∧ (joined '-' ws).length = 99 := by
    rw [← hyphen_at_cut_iff]
    simp only [not_exists, not_and, ne_eq]
  rw [hcut]
  constructor
  · rintro ⟨hword, hcut⟩
    exact ⟨hword, fun ws ws' hsplit hne hne' hlength => hcut ⟨ws, ws', hsplit, hne, hne', hlength⟩⟩
  · rintro ⟨hword, hcut⟩
    refine ⟨hword, ?_⟩
    rintro ⟨ws, ws', hsplit, hne, hne', hlength⟩
    exact hcut ws ws' hsplit hne hne' hlength

end Pattern

/-! ### Deriving it again -/

section Again

variable {name : String}

/-- Letters of a slug are in lower case and stay. -/
theorem small_of_isSlugChar {c : Char} (h : isSlugChar c = true ∨ c = '-') :
    Unicode.lowerSimple c = c ∧ isKept c = true := by
  have hrange : c.toNat = 45 ∨ 48 ≤ c.toNat ∧ c.toNat ≤ 57 ∨ 97 ≤ c.toNat ∧ c.toNat ≤ 122 := by
    rcases h with h | rfl
    · simp only [isSlugChar, Bool.or_eq_true, Bool.and_eq_true, decide_eq_true_eq] at h
      exact .inr (h.symm.imp (fun h => ⟨h.1, h.2⟩) fun h => ⟨h.1, h.2⟩)
    · exact .inl rfl
  refine ⟨?_, ?_⟩
  · rw [Unicode.lowerSimple_of_lt (by omega), Unicode.toLower_eq_self (by omega)]
  · rcases h with h | rfl
    · rw [isKept, h, Bool.true_or, Bool.true_or]
    · decide

/-- **A slug that is as it should be is its own slug.** -/
theorem slugify_slugify (h : SlugFits name) : slugify (slugify name) = slugify name := by
  have hmem : ∀ c ∈ (slugify name).toList, Unicode.lowerSimple c = c ∧ isKept c = true :=
    fun c hc => small_of_isSlugChar (mem_slugify hc)
  have hlower : Text.lower (slugify name) = slugify name :=
    Text.lower_of_small fun c hc => (hmem c hc).1
  have hkept : (slugify name).toList.filter isKept = (slugify name).toList :=
    List.filter_eq_self.mpr fun c hc => (hmem c hc).2
  have htidy : Tidy isBreak '-' (slugify name).toList := by
    rw [toList_slugify]
    refine (tidy_nameWords name).take 100 fun c hc => ?_
    obtain rfl | ⟨w, hw, hcw⟩ := mem_joined (List.mem_of_mem_take (List.mem_of_mem_getLast? hc))
    · rw [← toList_slugify] at hc
      obtain ⟨ws, ws', hsplit, hne, hne', hlength⟩ := hyphen_at_cut_iff.mp ⟨_, hc, rfl⟩
      exact absurd hlength (h.cut ws ws' hsplit hne hne')
    · exact ((isSlugChar_of_mem_nameWords hw).2 c hcw).2
  apply String.toList_injective
  rw [toList_slugify (slugify name), nameWords, hlower, hkept, htidy.joined_words,
    List.take_of_length_le]
  rw [toList_slugify]
  exact List.length_take_le _ _

end Again

/-- The slug of a request is as slugs are to be, and deriving it again changes nothing. -/
structure SlugDerived (name : String) (field : SlugField) : Prop where
  valid : ∃ slug, validateSlug name field = .ok (some slug) ∧ slugMatches slug = true
  idempotent : slugify (slugify name) = slugify name

/-- **A slug is derived exactly if null is sent, the name has words, and none of them ends where
the slug is cut.** -/
theorem slugDerived_iff (name : String) {field : SlugField}
    (hfield : field = .omitted ∨ field = .null) :
    SlugDerived name field ↔ field = .null ∧ SlugFits name := by
  rcases hfield with rfl | rfl
  · refine iff_of_false ?_ fun h => by cases h.1
    rintro ⟨⟨slug, hslug, -⟩, -⟩
    cases hslug
  · rw [← slugMatches_slugify_iff, and_iff_right rfl]
    constructor
    · rintro ⟨⟨slug, hslug, hmatches⟩, -⟩
      obtain rfl := Option.some.inj (Except.ok.inj hslug)
      exact hmatches
    · intro hmatches
      exact ⟨⟨_, rfl, hmatches⟩, slugify_slugify (slugMatches_slugify_iff.mp hmatches)⟩

/-- A name of two words. -/
theorem slugDerived_iff_auto_named :
    SlugDerived "Auto Named" .null ∧ slugify "Auto Named" = "auto-named" := by
  refine ⟨(slugDerived_iff "Auto Named" (.inr rfl)).mpr ⟨rfl, ?_⟩, by decide⟩
  exact slugMatches_slugify_iff.mp (by decide)

/-- A name without words has an empty slug. -/
theorem nameless_slug : ¬∀ (name : String) (field : SlugField), 1 ≤ name.length →
    name.length ≤ 255 → field = .omitted ∨ field = .null → SlugDerived name field := by
  intro h
  obtain ⟨⟨slug, hslug, hmatches⟩, -⟩ := h "!!!" .null (by decide) (by decide) (.inr rfl)
  obtain rfl := Option.some.inj (Except.ok.inj hslug)
  exact absurd hmatches (by decide)

end FileNest
