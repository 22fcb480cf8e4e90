import FileNest.Lib.Case
import Mathlib.Data.List.Basic
import Mathlib.Data.List.DropRight
import Mathlib.Data.List.TakeWhile

/-!
# Text operations

The string operations the scripting languages share — splitting on a character,
stripping whitespace, removing a prefix, lower-casing, the suffix of a path —
by structural recursion on the characters, so that they evaluate.

## Main definitions

* `split`, `joinWith` — split on a character and join with one.
* `strip`, `trim`, `stripChar` — drop leading and trailing whitespace, or a character.
* `startsWith`, `endsWith`, `removePrefix` — prefixes and suffixes.
* `lower` — lower case, the final sigma of a word included.
* `pathSuffix` — the extension of a path's last component, with its dot.
* `thousands` — decimal digits grouped by commas.
* `zeroPad` — decimal digits with zeros in front.
-/

namespace Text

/-- Split a list of characters at every occurrence of a separator. -/
def splitChars (sep : Char) : List Char → List (List Char)
  | [] => [[]]
  | c :: cs =>
      if c = sep then [] :: splitChars sep cs
      else match splitChars sep cs with
        | [] => [[c]]
        | w :: ws => (c :: w) :: ws

attribute [local simp] splitChars

/-- `s.split(sep)`: empty pieces are kept. -/
def split (sep : Char) (s : String) : List String :=
  (splitChars sep s.toList).map String.ofList

/-- `sep.join(ws)`. -/
def joinWith (sep : String) : List String → String
  | [] => ""
  | [w] => w
  | w :: ws => w ++ sep ++ joinWith sep ws

/-- Unicode whitespace. -/
def isSpace (c : Char) : Bool :=
  let n := c.toNat
  (9 ≤ n && n ≤ 13) || (28 ≤ n && n ≤ 32) || n == 0x85 || n == 0xA0 || n == 0x1680 ||
    (0x2000 ≤ n && n ≤ 0x200A) || n == 0x2028 || n == 0x2029 || n == 0x202F || n == 0x205F ||
    n == 0x3000

/-- Drop leading and trailing characters satisfying `p`. -/
def stripBy (p : Char → Bool) (s : String) : String :=
  String.ofList ((s.toList.dropWhile p).reverse.dropWhile p).reverse

/-- `s.strip()`. -/
def strip (s : String) : String := stripBy isSpace s

/-- The white space of JavaScript. -/
def isJsSpace (c : Char) : Bool :=
  let n := c.toNat
  (9 ≤ n && n ≤ 13) || n == 32 || n == 0xA0 || n == 0x1680 || (0x2000 ≤ n && n ≤ 0x200A) ||
    n == 0x2028 || n == 0x2029 || n == 0x202F || n == 0x205F || n == 0x3000 || n == 0xFEFF

/-- `s.trim()`, of JavaScript. -/
def trim (s : String) : String := stripBy isJsSpace s

/-- `s.strip(c)`. -/
def stripChar (c : Char) (s : String) : String := stripBy (· == c) s

/-- `s.startswith(p)`. -/
def startsWith (s p : String) : Bool := p.toList.isPrefixOf s.toList

/-- `s.endswith(p)`. -/
def endsWith (s p : String) : Bool := p.toList.isSuffixOf s.toList

/-- `s.removeprefix(p)`. -/
def removePrefix (s p : String) : String :=
  if startsWith s p then String.ofList (s.toList.drop p.length) else s

/-- Next to come is a letter with case, whatever there is before it that does not end a word. -/
def startsCased (cs : List Char) : Bool :=
  (cs.dropWhile Unicode.isCaseIgnorable).head?.any Unicode.isCased

/-- The lower case of a character between others, those before it read backwards: a capital sigma
is another letter at the end of a word, and the capital I with a dot is two. -/
def lowerAt (before : List Char) (c : Char) (after : List Char) : List Char :=
  if c = Char.ofNat 0x3A3 then
    [Char.ofNat (if startsCased before && !startsCased after then 0x3C2 else 0x3C3)]
  else if c = Char.ofNat 0x130 then ['i', Char.ofNat 0x307]
  else [Unicode.lowerSimple c]

/-- The lower case of what comes behind some characters. -/
def lowerChars (before : List Char) : List Char → List Char
  | [] => []
  | c :: after => lowerAt before c after ++ lowerChars (c :: before) after

attribute [local simp] lowerChars

/-- `s.lower()`. -/
def lower (s : String) : String := String.ofList (lowerChars [] s.toList)

/-- The last component of a path: empty and `.` components do not count. -/
def pathName (s : String) : String :=
  ((split '/' s).filter fun w => w != "" && w != ".").getLastD ""

/-- `Path(s).suffix`: from the last dot of the name on, unless that dot is the
name's first or last character. -/
def pathSuffix (s : String) : String :=
  let name := (pathName s).toList
  let ext := (name.reverse.takeWhile (· != '.')).reverse
  if ext.isEmpty || name.length ≤ ext.length + 1 then "" else String.ofList ('.' :: ext)

/-- Group a reversed digit string by threes. -/
def groupThrees : List Char → List Char
  | a :: b :: c :: d :: cs => a :: b :: c :: ',' :: groupThrees (d :: cs)
  | cs => cs

/-- `f"{n:,}"`. -/
def thousands (n : ℤ) : String :=
  let digits := String.ofList (groupThrees (toString n.natAbs).toList.reverse).reverse
  if n < 0 then "-" ++ digits else digits

/-- `f"{n:0{width}d}"` of a natural number. -/
def zeroPad (width n : ℕ) : String :=
  let digits := (toString n).toList
  String.ofList (List.replicate (width - digits.length) '0' ++ digits)

/-- `repr` of a string without quotes or escapes in it. -/
def quoted (s : String) : String := "'" ++ s ++ "'"

/-! ### Lower case -/

section Lower

open Unicode

variable {before after cs ds : List Char} {c d : Char}

/-- What has no capitals stays, wherever it stands. -/
theorem lowerAt_of_small (h : lowerSimple c = c) : lowerAt before c after = [c] := by
  have hsigma : c ≠ Char.ofNat 0x3A3 := by
    rintro rfl
    exact absurd h (by decide)
  have hdotted : c ≠ Char.ofNat 0x130 := by
    rintro rfl
    exact absurd h (by decide)
  rw [lowerAt, if_neg hsigma, if_neg hdotted, h]

theorem small_of_mem_lowerAt (h : d ∈ lowerAt before c after) : lowerSimple d = d := by
  unfold lowerAt at h
  split at h
  · obtain rfl := List.mem_singleton.mp h
    split <;> decide
  · split at h
    · have hboth : ∀ e ∈ ['i', Char.ofNat 0x307], lowerSimple e = e :=
        List.forall_mem_cons.mpr ⟨by decide, List.forall_mem_singleton.mpr (by decide)⟩
      exact hboth d h
    · obtain rfl := List.mem_singleton.mp h
      exact lowerSimple_lowerSimple c

/-- Only a letter becomes a small letter. -/
theorem eq_of_mem_lowerAt (hd : d.toNat < 97) (h : d ∈ lowerAt before c after) : c = d := by
  unfold lowerAt at h
  split at h
  · obtain rfl := List.mem_singleton.mp h
    split at hd <;> exact absurd hd (by decide)
  · split at h
    · have hboth : ∀ e ∈ ['i', Char.ofNat 0x307], ¬e.toNat < 97 :=
        List.forall_mem_cons.mpr ⟨by decide, List.forall_mem_singleton.mpr (by decide)⟩
      exact absurd hd (hboth d h)
    · exact eq_of_lowerSimple_eq hd (List.mem_singleton.mp h).symm

theorem lowerAt_ne_nil : lowerAt before c after ≠ [] := by
  unfold lowerAt
  split
  · exact List.cons_ne_nil _ _
  · split <;> exact List.cons_ne_nil _ _

theorem lowerChars_of_small (h : ∀ c ∈ cs, lowerSimple c = c) : lowerChars before cs = cs := by
  induction cs generalizing before with
  | nil => rfl
  | cons c cs ih =>
    obtain ⟨hc, hcs⟩ := List.forall_mem_cons.mp h
    rw [lowerChars, lowerAt_of_small hc, ih hcs, List.singleton_append]

/-- What is made of a text is made of its characters. -/
theorem exists_of_mem_lowerChars (h : d ∈ lowerChars before cs) :
    ∃ c ∈ cs, ∃ before after, d ∈ lowerAt before c after := by
  induction cs generalizing before with
  | nil => exact absurd h List.not_mem_nil
  | cons c cs ih =>
    rw [lowerChars, List.mem_append] at h
    obtain h | h := h
    · exact ⟨c, List.mem_cons_self, before, cs, h⟩
    · obtain ⟨e, he, hmade⟩ := ih h
      exact ⟨e, List.mem_cons_of_mem _ he, hmade⟩

/-- A character that ends a word: it has no case, and is not passed over. -/
structure EndsWord (c : Char) : Prop where
  cased : isCased c = false
  caseIgnorable : isCaseIgnorable c = false
  small : lowerSimple c = c

/-- Nothing is looked at behind the end of a word. -/
theorem startsCased_append (hc : EndsWord c) :
    startsCased (cs ++ c :: ds) = startsCased cs := by
  induction cs with
  | nil =>
    rw [List.nil_append, startsCased, List.dropWhile_cons_of_neg (by simp [hc.caseIgnorable])]
    exact hc.cased
  | cons d cs ih =>
    unfold startsCased at ih ⊢
    by_cases hd : isCaseIgnorable d = true
    · rw [List.cons_append, List.dropWhile_cons_of_pos hd, List.dropWhile_cons_of_pos hd, ih]
    · rw [List.cons_append, List.dropWhile_cons_of_neg hd, List.dropWhile_cons_of_neg hd]
      rfl

theorem lowerChars_behind (hc : EndsWord c) :
    lowerChars (before ++ c :: cs) ds = lowerChars before ds := by
  induction ds generalizing before with
  | nil => rfl
  | cons d ds ih =>
    have hhere : lowerAt (before ++ c :: cs) d ds = lowerAt before d ds := by
      rw [lowerAt, startsCased_append hc]
      rfl
    rw [lowerChars, lowerChars, hhere, ← List.cons_append, ih]

/-- **The two sides of the end of a word are made into lower case by themselves.** -/
theorem lowerChars_append (hc : EndsWord c) :
    lowerChars before (cs ++ c :: ds) = lowerChars before cs ++ c :: lowerChars [] ds := by
  induction cs generalizing before with
  | nil =>
    have hrest : lowerChars ([] ++ c :: before) ds = lowerChars [] ds := lowerChars_behind hc
    have hstart :
        lowerChars before (c :: ds) = lowerAt before c ds ++ lowerChars (c :: before) ds := rfl
    rw [List.nil_append] at hrest
    rw [List.nil_append, hstart, lowerAt_of_small hc.small, hrest]
    rfl
  | cons d cs ih =>
    have hhere : lowerAt before d (cs ++ c :: ds) = lowerAt before d cs := by
      rw [lowerAt, startsCased_append hc]
      rfl
    rw [List.cons_append, lowerChars, lowerChars, hhere, ih, List.append_assoc]

end Lower

theorem toList_lower (s : String) : (lower s).toList = lowerChars [] s.toList :=
  String.toList_ofList

/-- A text without capitals stays. -/
theorem lower_of_small {s : String} (h : ∀ c ∈ s.toList, Unicode.lowerSimple c = c) :
    lower s = s := by
  rw [lower, lowerChars_of_small h, String.ofList_toList]

theorem small_of_mem_lower {s : String} {c : Char} (h : c ∈ (lower s).toList) :
    Unicode.lowerSimple c = c := by
  rw [toList_lower] at h
  obtain ⟨_, -, _, _, hmade⟩ := exists_of_mem_lowerChars h
  exact small_of_mem_lowerAt hmade

@[simp] theorem lower_lower (s : String) : lower (lower s) = lower s :=
  lower_of_small fun _ => small_of_mem_lower

theorem notMem_lower {c : Char} {s : String} (hc : c.toNat < 97) (h : c ∉ s.toList) :
    c ∉ (lower s).toList := by
  intro hmem
  rw [toList_lower] at hmem
  obtain ⟨d, hd, _, _, hmade⟩ := exists_of_mem_lowerChars hmem
  exact h (eq_of_mem_lowerAt hc hmade ▸ hd)

theorem lower_append {c : Char} {sep : String} (hsep : sep.toList = [c]) (hc : EndsWord c)
    (s t : String) : lower (s ++ sep ++ t) = lower s ++ sep ++ lower t := by
  apply String.toList_injective
  rw [toList_lower, String.toList_append, String.toList_append, hsep, List.append_assoc,
    List.singleton_append, lowerChars_append hc, String.toList_append, String.toList_append, hsep,
    toList_lower, toList_lower, List.append_assoc, List.singleton_append]

theorem lower_eq_empty {s : String} : lower s = "" ↔ s = "" := by
  constructor
  · intro h
    have hnil : lowerChars [] s.toList = [] := by rw [← toList_lower, h, String.toList_empty]
    cases hs : s.toList with
    | nil => exact String.toList_injective hs
    | cons c cs =>
      rw [hs, lowerChars, List.append_eq_nil_iff] at hnil
      exact absurd hnil.1 lowerAt_ne_nil
  · rintro rfl
    rfl

/-! ### Stripping -/

/-- What is stripped is what is around. -/
theorem stripBy_append {p : Char → Bool} {before core after : String}
    (hbefore : ∀ c ∈ before.toList, p c = true) (hafter : ∀ c ∈ after.toList, p c = true)
    (hcore : ∀ c ∈ core.toList, p c = false) (hne : core ≠ "") :
    stripBy p (before ++ core ++ after) = core := by
  have hdrop : ∀ cs ds : List Char, cs ≠ [] → (∀ c ∈ cs, p c = false) →
      (cs ++ ds).dropWhile p = cs ++ ds := by
    intro cs ds hcs hall
    cases cs with
    | nil => exact absurd rfl hcs
    | cons c cs => rw [List.cons_append, List.dropWhile_cons_of_neg (by simp [hall c])]
  have hcs : core.toList ≠ [] := fun h => hne (String.toList_injective h)
  have hreverse : core.toList.reverse ≠ [] := fun h => hcs (List.reverse_eq_nil_iff.mp h)
  apply String.toList_injective
  rw [stripBy, String.toList_ofList, String.toList_append, String.toList_append, List.append_assoc,
    List.dropWhile_append_of_pos hbefore, hdrop _ _ hcs hcore, List.reverse_append,
    List.dropWhile_append_of_pos fun c hc => hafter c (List.mem_reverse.mp hc)]
  have hlast := hdrop core.toList.reverse [] hreverse fun c hc => hcore c (List.mem_reverse.mp hc)
  rw [List.append_nil] at hlast
  rw [hlast, List.reverse_reverse]

/-- What is stripped has nothing left to strip. -/
theorem stripBy_stripBy (p : Char → Bool) (s : String) : stripBy p (stripBy p s) = stripBy p s := by
  -- what is left when the end is dropped starts as before
  have hfront : ∀ cs : List Char, ((cs.dropWhile p).rdropWhile p).dropWhile p
      = (cs.dropWhile p).rdropWhile p := by
    intro cs
    have hstart := List.rdropWhile_prefix p (cs.dropWhile p)
    refine List.dropWhile_eq_self_iff.mpr fun hl => ?_
    rw [hstart.getElem hl]
    exact List.dropWhile_eq_self_iff.mp (List.dropWhile_idempotent p cs) _
  have hstrip : ∀ t : String, (stripBy p t).toList = (t.toList.dropWhile p).rdropWhile p :=
    fun t => String.toList_ofList
  apply String.toList_injective
  rw [hstrip, hstrip, hfront, List.rdropWhile_idempotent]

/-- What is not stripped stays. -/
theorem mem_stripBy {p : Char → Bool} {s : String} {c : Char} (hc : p c = false) :
    c ∈ (stripBy p s).toList ↔ c ∈ s.toList := by
  have hdrop : ∀ cs : List Char, c ∈ cs.dropWhile p ↔ c ∈ cs := by
    intro cs
    constructor
    · exact fun h => (List.dropWhile_sublist p).subset h
    · intro h
      rw [← List.takeWhile_append_dropWhile (p := p) (l := cs), List.mem_append] at h
      refine h.resolve_left fun htake => ?_
      have hp := List.mem_takeWhile_imp htake
      rw [hc] at hp
      cases hp
  rw [stripBy, String.toList_ofList, List.mem_reverse, hdrop, List.mem_reverse, hdrop]

/-! ### Splitting -/

theorem splitChars_ne_nil (sep : Char) (cs : List Char) : splitChars sep cs ≠ [] := by
  cases cs with
  | nil => simp [splitChars]
  | cons c cs =>
    simp only [splitChars]
    split
    · simp
    · split <;> simp

/-- A text without the separator is its own only piece. -/
theorem splitChars_of_notMem {sep : Char} {cs : List Char} (h : sep ∉ cs) :
    splitChars sep cs = [cs] := by
  induction cs with
  | nil => rfl
  | cons c cs ih =>
    rw [List.mem_cons, not_or] at h
    rw [splitChars, if_neg (Ne.symm h.1), ih h.2]

/-- No piece has the separator in it. -/
theorem notMem_of_mem_splitChars {sep : Char} {cs w : List Char} (h : w ∈ splitChars sep cs) :
    sep ∉ w := by
  induction cs generalizing w with
  | nil =>
    rw [splitChars, List.mem_singleton] at h
    rw [h]
    exact List.not_mem_nil
  | cons c cs ih =>
    rw [splitChars] at h
    split at h
    · rcases List.mem_cons.mp h with rfl | h
      · exact List.not_mem_nil
      · exact ih h
    · rename_i hc
      split at h
      · rename_i hnil
        exact absurd hnil (splitChars_ne_nil sep cs)
      · rename_i v vs hvs
        rcases List.mem_cons.mp h with rfl | h
        · rw [List.mem_cons, not_or]
          exact ⟨Ne.symm hc, ih (hvs ▸ List.mem_cons_self)⟩
        · exact ih (hvs ▸ List.mem_cons_of_mem _ h)

theorem notMem_of_mem_split {sep : Char} {s w : String} (h : w ∈ split sep s) :
    sep ∉ w.toList := by
  obtain ⟨cs, hcs, rfl⟩ := List.mem_map.mp h
  rw [String.toList_ofList]
  exact notMem_of_mem_splitChars hcs

/-- The piece behind the last separator. -/
theorem splitChars_append_sep {sep : Char} {ds : List Char} (h : sep ∉ ds) (cs : List Char) :
    splitChars sep (cs ++ sep :: ds) = splitChars sep cs ++ [ds] := by
  induction cs with
  | nil =>
    have hsep : splitChars sep (sep :: ds) = [] :: splitChars sep ds := by
      rw [splitChars, if_pos rfl]
    rw [List.nil_append, hsep, splitChars_of_notMem h]
    rfl
  | cons c cs ih =>
    rw [List.cons_append, splitChars, splitChars, ih]
    by_cases hc : c = sep
    · rw [if_pos hc, if_pos hc, List.cons_append]
    · rw [if_neg hc, if_neg hc]
      cases hcs : splitChars sep cs with
      | nil => exact absurd hcs (splitChars_ne_nil sep cs)
      | cons w ws => rfl

/-- The piece before the first separator. -/
theorem splitChars_sep_append {sep : Char} {ds : List Char} (h : sep ∉ ds) (cs : List Char) :
    splitChars sep (ds ++ sep :: cs) = ds :: splitChars sep cs := by
  induction ds with
  | nil => rw [List.nil_append, splitChars, if_pos rfl]
  | cons d ds ih =>
    rw [List.mem_cons, not_or] at h
    rw [List.cons_append, splitChars, if_neg (Ne.symm h.1), ih h.2]

/-- Splitting takes apart what was joined of pieces without the separator. -/
theorem split_joinWith {sep : Char} {s : String} (hs : s.toList = [sep]) {ws : List String}
    (h : ∀ w ∈ ws, sep ∉ w.toList) (hne : ws ≠ []) : split sep (joinWith s ws) = ws := by
  induction ws with
  | nil => exact absurd rfl hne
  | cons w ws ih =>
    have hw := h w List.mem_cons_self
    cases ws with
    | nil =>
      rw [joinWith, split, splitChars_of_notMem hw, List.map_singleton, String.ofList_toList]
    | cons v ws =>
      have hrest := ih (fun u hu => h u (List.mem_cons_of_mem _ hu)) (List.cons_ne_nil _ _)
      rw [split] at hrest
      have hjoin : (joinWith s (w :: v :: ws)).toList
          = w.toList ++ sep :: (joinWith s (v :: ws)).toList := by
        rw [joinWith, String.toList_append, String.toList_append, hs]
        · simp
        · simp
      rw [split, hjoin, splitChars_sep_append hw, List.map_cons, hrest, String.ofList_toList]

/-- Splitting a text that goes on behind a separator. -/
theorem split_append_sep {sep : Char} {s t w : String} (ht : t.toList = s.toList ++ sep :: w.toList)
    (hw : sep ∉ w.toList) : split sep t = split sep s ++ [w] := by
  rw [split, ht, splitChars_append_sep hw, List.map_append, split, List.map_singleton,
    String.ofList_toList]

/-! ### Padding -/

/-- A padded number can be read back. -/
theorem zeroPad_injective (width : ℕ) : Function.Injective (zeroPad width) := by
  intro m n h
  have hread : ∀ k, Nat.ofDigitChars 10 (zeroPad width k).toList 0 = k := by
    intro k
    rw [zeroPad, String.toList_ofList, Nat.ofDigitChars_append, Nat.ofDigitChars_replicate_zero,
      Nat.mul_zero, Nat.toString_eq_repr, Nat.toList_repr, Nat.ofDigitChars_ten_toDigits]
  rw [← hread m, h, hread n]

example : lower "ΣΟΦΟΣ, A.Σ" = "σοφος, a.ς" := by decide +kernel

example : zeroPad 6 42 = "000042" ∧ zeroPad 4 12345 = "12345" := by decide

example : thousands (-1234567) = "-1,234,567" := by decide

example : pathSuffix "a/report.tar.gz" = ".gz" ∧ pathSuffix ".bashrc" = "" := by decide

end Text
