import FileNest.Tokens.Advertised

/-!
# Patterns of types, and what they cover

A token may ask for patterns of types.  Each is compared with those of the project as text, the
configuration normalised to a set; an upload is compared with either list as a type.  The two
comparisons come to the same test of a kind and a subtype, so a pattern is covered exactly if it
lets no type in that the project keeps out.

## Main definitions

* `parseConfigMimeTypes` — the set of a project's patterns.
* `MimeToken`, `IsContentType`, `MimePattern` — types and patterns that are well-formed.
* `Lists` — a set of patterns has room for a kind and a subtype.

## Main results

* `tokenMimeCoveredByConfig_iff`, `mimeAllowed_iff_lists` — both tests are `Lists`.
* `mime_coverage_iff` — **coverage is inclusion.**
-/

namespace FileNest

/-- `_parse_config_mime_types` -/
def parseConfigMimeTypes (csv : String) : List String :=
  ((Text.split ',' csv).filter fun t => Text.strip t != "").map fun t => Text.lower (Text.strip t)

/-- A token is refused for the patterns that this comparison does not find covered. -/
theorem rejectTokenMimeTypes_eq (tokenTypes : List String) (configMimeCsv : String) :
    rejectTokenMimeTypes tokenTypes configMimeCsv
      = tokenTypes.filter fun t =>
        !tokenMimeCoveredByConfig t (parseConfigMimeTypes configMimeCsv) := rfl

/-! ### Types and patterns -/

/-- A type or a subtype: not empty, and free of slashes, commas and blanks. -/
structure MimeToken (s : String) : Prop where
  ne_empty : s ≠ ""
  slash : '/' ∉ s.toList
  comma : ',' ∉ s.toList
  blank : ∀ c ∈ s.toList, Text.isSpace c = false

instance (s : String) : Decidable (MimeToken s) :=
  decidable_of_iff (s ≠ "" ∧ '/' ∉ s.toList ∧ ',' ∉ s.toList ∧ s.toList.any Text.isSpace = false)
    ⟨fun h => ⟨h.1, h.2.1, h.2.2.1, fun c hc => by simpa using List.any_eq_false.mp h.2.2.2 c hc⟩,
      fun h => ⟨h.ne_empty, h.slash, h.comma, List.any_eq_false.mpr (by simpa using h.blank)⟩⟩

/-- A kind and a subtype. -/
def mime (kind sub : String) : String := kind ++ "/" ++ sub

/-- `type/subtype` -/
def IsContentType (contentType : String) : Prop :=
  ∃ kind sub, MimeToken kind ∧ MimeToken sub ∧ contentType = mime kind sub

/-- A type neither part of which is a star. -/
def IsProperType (contentType : String) : Prop :=
  ∃ kind sub, MimeToken kind ∧ MimeToken sub ∧ kind ≠ "*" ∧ sub ≠ "*" ∧
    contentType = mime kind sub

/-- The entry is `kind/sub`, either of which may be a star, with blanks around it. -/
def PatternOf (entry kind sub : String) : Prop :=
  MimeToken kind ∧ MimeToken sub ∧ ∃ before after : String,
    before.toList.all Text.isSpace = true ∧ after.toList.all Text.isSpace = true ∧
      entry = before ++ mime kind sub ++ after

/-- `type/subtype`, `type/*` or `*/*`. -/
def MimePattern (entry : String) : Prop := ∃ kind sub, PatternOf entry kind sub

/-- A star is for a kind only if it is for the subtype. -/
def IsProperPattern (entry : String) : Prop :=
  ∃ kind sub, PatternOf entry kind sub ∧ (kind = "*" → sub = "*")

/-- The configuration lets in every type the entry lets in. -/
def Includes (P : String → Prop) (config : List String) (entry : String) : Prop :=
  ∀ contentType, P contentType → mimeAllowed contentType [entry] = true →
    mimeAllowed contentType config = true

/-- A set of patterns has room for a kind and a subtype: it has all types, this one, or all of
this kind. -/
def Lists (patterns : List String) (kind sub : String) : Prop :=
  "*/*" ∈ patterns ∨ mime kind sub ∈ patterns ∨ mime kind "*" ∈ patterns

section Mime

variable {kind sub kind' sub' entry : String}

theorem toList_mime (kind sub : String) :
    (mime kind sub).toList = kind.toList ++ '/' :: sub.toList := by
  rw [mime, String.toList_append, String.toList_append, List.append_assoc]
  rfl

/-- The slash tells the parts. -/
theorem mime_inj (h : '/' ∉ kind.toList) (h' : '/' ∉ sub.toList) :
    mime kind sub = mime kind' sub' ↔ kind = kind' ∧ sub = sub' := by
  rw [← String.toList_inj, toList_mime, toList_mime, List.append_cons_inj_of_notMem h h',
    String.toList_inj, String.toList_inj]
  simp

theorem mime_star (kind : String) : kind ++ "/*" = mime kind "*" := by
  rw [mime, String.append_assoc]
  rfl

theorem all_eq : ("*/*" : String) = mime "*" "*" := rfl

theorem lower_mime (kind sub : String) :
    Text.lower (mime kind sub) = mime (Text.lower kind) (Text.lower sub) := by
  have hslash : Text.EndsWord '/' := ⟨by decide +kernel, by decide +kernel, by decide⟩
  exact Text.lower_append rfl hslash kind sub

theorem MimeToken.slash_lower (h : MimeToken kind) : '/' ∉ (Text.lower kind).toList :=
  Text.notMem_lower (by decide) h.slash

theorem mime_lower_inj (hkind : MimeToken kind) (hsub : MimeToken sub) :
    mime (Text.lower kind) (Text.lower sub) = mime kind' sub'
      ↔ Text.lower kind = kind' ∧ Text.lower sub = sub' :=
  mime_inj hkind.slash_lower hsub.slash_lower

/-- A pattern as it is compared. -/
theorem PatternOf.mimePattern_eq (h : PatternOf entry kind sub) :
    mimePattern entry = mime (Text.lower kind) (Text.lower sub) := by
  obtain ⟨hkind, hsub, before, after, hbefore, hafter, rfl⟩ := h
  have hcore : ∀ c ∈ (mime kind sub).toList, Text.isSpace c = false := by
    intro c hc
    rw [toList_mime, List.mem_append, List.mem_cons] at hc
    rcases hc with hc | rfl | hc
    · exact hkind.blank c hc
    · decide
    · exact hsub.blank c hc
  have hne : mime kind sub ≠ "" := by
    intro hempty
    have hlist := congrArg String.toList hempty
    rw [toList_mime] at hlist
    simp at hlist
  rw [mimePattern, Text.strip, Text.stripBy_append (List.all_eq_true.mp hbefore)
    (List.all_eq_true.mp hafter) hcore hne, lower_mime]

/-- A pattern has no comma, … -/
theorem PatternOf.comma (h : PatternOf entry kind sub) : ',' ∉ entry.toList := by
  obtain ⟨hkind, hsub, before, after, hbefore, hafter, rfl⟩ := h
  simp only [String.toList_append, toList_mime, List.mem_append, List.mem_cons, not_or]
  refine ⟨⟨fun hc => ?_, hkind.comma, by decide, hsub.comma⟩, fun hc => ?_⟩
  · exact absurd (List.all_eq_true.mp hbefore ',' hc) (by decide)
  · exact absurd (List.all_eq_true.mp hafter ',' hc) (by decide)

/-- … and is not blank. -/
theorem PatternOf.strip_ne (h : PatternOf entry kind sub) : Text.strip entry ≠ "" := by
  intro hempty
  have hpattern := h.mimePattern_eq
  rw [mimePattern, hempty, Text.lower_eq_empty.mpr rfl] at hpattern
  have hlist := congrArg String.toList hpattern
  rw [toList_mime] at hlist
  simp at hlist

end Mime

/-- The set of a project's patterns has the patterns as they are compared. -/
theorem parseConfigMimeTypes_joinWith {config : List String} (h : ∀ e ∈ config, MimePattern e) :
    parseConfigMimeTypes (Text.joinWith "," config) = config.map mimePattern := by
  by_cases hne : config = []
  · subst hne
    decide
  · have hsplit : Text.split ',' (Text.joinWith "," config) = config := by
      refine Text.split_joinWith rfl (fun e he => ?_) hne
      obtain ⟨kind, sub, hpattern⟩ := h e he
      exact hpattern.comma
    have hkeep : config.filter (fun t => Text.strip t != "") = config := by
      refine List.filter_eq_self.mpr fun e he => ?_
      obtain ⟨kind, sub, hpattern⟩ := h e he
      exact bne_iff_ne.mpr hpattern.strip_ne
    rw [parseConfigMimeTypes, hsplit, hkeep]
    rfl

/-! ### The two tests -/

section Tests

variable {kind sub entry : String} {config : List String}

/-- What the text of a pattern is compared with. -/
theorem split_slash (hkind : MimeToken kind) (sub : String) :
    (Text.split '/' (mime (Text.lower kind) sub)).headD "" = Text.lower kind := by
  rw [Text.split, toList_mime, Text.splitChars_sep_append hkind.slash_lower, List.map_cons,
    List.headD_cons, String.ofList_toList]

theorem endsWith_star_iff (hkind : MimeToken kind) (hsub : MimeToken sub) :
    Text.endsWith (mime (Text.lower kind) (Text.lower sub)) "/*" = true
      ↔ Text.lower sub = "*" := by
  rw [endsWith_wildcard_iff]
  constructor
  · rintro ⟨kind', h⟩
    rw [mime_star, mime_lower_inj hkind hsub] at h
    exact h.2
  · intro h
    exact ⟨Text.lower kind, by rw [mime_star, h]⟩

/-- **The test of a token's pattern.** -/
theorem tokenMimeCoveredByConfig_iff (h : PatternOf entry kind sub) (patterns : List String) :
    tokenMimeCoveredByConfig entry patterns = true
      ↔ Lists patterns (Text.lower kind) (Text.lower sub) := by
  have hpattern : Text.lower (Text.strip entry) = mime (Text.lower kind) (Text.lower sub) :=
    h.mimePattern_eq
  obtain ⟨hkind, hsub, -⟩ := h
  simp only [tokenMimeCoveredByConfig, hpattern, Lists]
  by_cases hany : "*/*" ∈ patterns
  · rw [if_pos hany]
    exact iff_of_true rfl (.inl hany)
  · rw [if_neg hany]
    by_cases hself : mime (Text.lower kind) (Text.lower sub) = "*/*"
    · rw [if_pos hself]
      obtain ⟨hk, -⟩ := (mime_lower_inj hkind hsub).mp (hself.trans all_eq)
      simp only [Bool.false_eq_true, false_iff, not_or]
      exact ⟨hany, by rwa [hself], by rwa [hk, ← all_eq]⟩
    · rw [if_neg hself]
      by_cases hstar : Text.lower sub = "*"
      · rw [if_pos ((endsWith_star_iff hkind hsub).mpr hstar), hstar]
        simp only [List.contains_iff_mem, hany, false_or, or_self]
      · rw [if_neg fun hends => hstar ((endsWith_star_iff hkind hsub).mp hends),
          split_slash hkind, mime_star]
        simp only [Bool.or_eq_true, List.contains_iff_mem, hany, false_or]

/-- A type matches a pattern with the same text, or with a star for what differs. -/
theorem mimeMatches_iff (h : PatternOf entry kind sub) {t u : String} (ht : MimeToken t)
    (hu : MimeToken u) :
    MimeMatches (mime t u) entry ↔ mimePattern entry = "*/*"
      ∨ mimePattern entry = mime (Text.lower t) (Text.lower u)
      ∨ mimePattern entry = mime (Text.lower t) "*" := by
  rw [MimeMatches, lower_mime]
  refine or_congr_right (or_congr_right ?_)
  rw [h.mimePattern_eq]
  obtain ⟨hkind, hsub, -⟩ := h
  constructor
  · rintro ⟨kind', heq, hstarts⟩
    rw [mime_star] at heq
    obtain ⟨rfl, hstar⟩ := (mime_lower_inj hkind hsub).mp heq
    obtain ⟨rest, hrest⟩ := List.isPrefixOf_iff_prefix.mp hstarts
    have hrest' : (String.ofList rest).toList = rest := String.toList_ofList
    have hmime : mime (Text.lower t) (Text.lower u)
        = mime (Text.lower kind) (String.ofList rest) := by
      apply String.toList_injective
      rw [← hrest, toList_mime, hrest', String.toList_append, List.append_assoc]
      rfl
    rw [((mime_lower_inj ht hu).mp hmime).1, hstar]
  · intro heq
    refine ⟨Text.lower t, heq.trans (mime_star _).symm, ?_⟩
    rw [Text.startsWith, List.isPrefixOf_iff_prefix]
    exact ⟨(Text.lower u).toList, by simp only [mime, String.toList_append]⟩

/-- **The test of an upload's type.** -/
theorem mimeAllowed_iff_lists (hconfig : ∀ e ∈ config, MimePattern e) {t u : String}
    (ht : MimeToken t) (hu : MimeToken u) :
    mimeAllowed (mime t u) config = true
      ↔ Lists (config.map mimePattern) (Text.lower t) (Text.lower u) := by
  have hmatches : ∀ e ∈ config, MimeMatches (mime t u) e ↔ mimePattern e = "*/*"
      ∨ mimePattern e = mime (Text.lower t) (Text.lower u)
      ∨ mimePattern e = mime (Text.lower t) "*" := by
    intro e he
    obtain ⟨kind, sub, hpattern⟩ := hconfig e he
    exact mimeMatches_iff hpattern ht hu
  simp only [mimeAllowed_iff, Lists, List.mem_map, ← exists_or, ← and_or_left]
  exact exists_congr fun e => and_congr_right fun he => hmatches e he

/-! ### Inclusion -/

/-- The characters of all patterns. -/
def totalLength : List String → ℕ
  | [] => 0
  | p :: ps => p.length + totalLength ps

/-- A type that is too long to be in a list. -/
def longToken (patterns : List String) : String :=
  String.ofList (List.replicate (totalLength patterns + 1) 'x')

theorem toList_longToken (patterns : List String) :
    (longToken patterns).toList = List.replicate (totalLength patterns + 1) 'x' :=
  String.toList_ofList

theorem mimeToken_longToken (patterns : List String) : MimeToken (longToken patterns) := by
  have hchars : ∀ c ∈ (longToken patterns).toList, c = 'x' := by
    intro c hc
    rw [toList_longToken] at hc
    exact List.eq_of_mem_replicate hc
  refine ⟨fun hempty => ?_, fun hc => ?_, fun hc => ?_, fun c hc => ?_⟩
  · have hlist := congrArg String.toList hempty
    rw [toList_longToken, List.replicate_succ] at hlist
    cases hlist
  · exact absurd (hchars _ hc) (by decide)
  · exact absurd (hchars _ hc) (by decide)
  · rw [hchars c hc]
    decide

theorem longToken_ne_star (patterns : List String) : longToken patterns ≠ "*" := by
  intro hstar
  have hlist := congrArg String.toList hstar
  rw [toList_longToken, List.replicate_succ] at hlist
  cases hlist

theorem lower_longToken (patterns : List String) :
    Text.lower (longToken patterns) = longToken patterns := by
  refine Text.lower_of_small fun c hc => ?_
  rw [toList_longToken] at hc
  obtain rfl := List.eq_of_mem_replicate hc
  decide

/-- No list has a pattern that is longer than all of them. -/
theorem notMem_of_length_lt {patterns : List String} {p : String}
    (h : totalLength patterns < p.length) : p ∉ patterns := by
  induction patterns with
  | nil => exact List.not_mem_nil
  | cons q ps ih =>
    unfold totalLength at h
    rw [List.mem_cons, not_or]
    refine ⟨fun heq => ?_, ih (by omega)⟩
    rw [heq] at h
    omega

theorem length_mime (kind sub : String) :
    (mime kind sub).length = kind.length + 1 + sub.length := by
  rw [mime, String.length_append, String.length_append]
  rfl

theorem length_longToken (patterns : List String) :
    (longToken patterns).length = totalLength patterns + 1 := by
  rw [longToken, String.length_ofList, List.length_replicate]

/-- A list with room for a subtype that is too long to be in it has all of the kind, … -/
theorem Lists.star_of_longToken {patterns : List String}
    (h : Lists patterns kind (longToken patterns)) : Lists patterns kind "*" := by
  refine h.imp_right fun h => .inl (h.resolve_left (notMem_of_length_lt ?_))
  rw [length_mime, length_longToken]
  omega

/-- … and with room for a kind that is, all. -/
theorem Lists.all_of_longToken {patterns : List String}
    (h : Lists patterns (longToken patterns) "x") : "*/*" ∈ patterns := by
  rcases h with h | h | h
  · exact h
  · refine absurd h (notMem_of_length_lt ?_)
    rw [length_mime, length_longToken]
    omega
  · refine absurd h (notMem_of_length_lt ?_)
    rw [length_mime, length_longToken]
    omega

/-- A pattern lets in what its list has room for. -/
theorem includes_of_lists (hconfig : ∀ e ∈ config, MimePattern e) (h : PatternOf entry kind sub)
    (hlists : Lists (config.map mimePattern) (Text.lower kind) (Text.lower sub))
    {P : String → Prop} (hP : ∀ contentType, P contentType → IsContentType contentType) :
    Includes P config entry := by
  intro contentType hcontent hallowed
  obtain ⟨t, u, ht, hu, rfl⟩ := hP contentType hcontent
  obtain ⟨e, he, hmatches⟩ := mimeAllowed_iff.mp hallowed
  obtain rfl := List.mem_singleton.mp he
  rw [mimeMatches_iff h ht hu, h.mimePattern_eq] at hmatches
  obtain ⟨hkind, hsub, -⟩ := h
  rw [mimeAllowed_iff_lists hconfig ht hu]
  rcases hmatches with hany | hsame | hstar
  · -- the pattern lets all in, so the list does
    obtain ⟨hk, hs⟩ := (mime_lower_inj hkind hsub).mp (hany.trans all_eq)
    rw [hk, hs] at hlists
    exact .inl (hlists.elim id fun hlists => hlists.elim id id)
  · obtain ⟨hk, hs⟩ := (mime_lower_inj hkind hsub).mp hsame
    rwa [hk, hs] at hlists
  · obtain ⟨hk, hs⟩ := (mime_lower_inj hkind hsub).mp hstar
    rw [hk, hs] at hlists
    exact hlists.imp_right fun hlists => .inr (hlists.elim id id)

/-- A list has room for a type that its patterns let in. -/
theorem lists_of_includes (hconfig : ∀ e ∈ config, MimePattern e) {P : String → Prop}
    (hincludes : Includes P config entry) {t u : String} (ht : MimeToken t) (hu : MimeToken u)
    (hP : P (mime t u)) (hmatches : MimeMatches (mime t u) entry) :
    Lists (config.map mimePattern) (Text.lower t) (Text.lower u) :=
  (mimeAllowed_iff_lists hconfig ht hu).mp
    (hincludes _ hP (mimeAllowed_iff.mpr ⟨entry, List.mem_singleton_self entry, hmatches⟩))

/-- The pattern, read as a type, is let in. -/
theorem lists_of_includes_self (hconfig : ∀ e ∈ config, MimePattern e)
    (h : PatternOf entry kind sub) {P : String → Prop} (hincludes : Includes P config entry)
    (hP : P (mime kind sub)) :
    Lists (config.map mimePattern) (Text.lower kind) (Text.lower sub) := by
  refine lists_of_includes hconfig hincludes h.1 h.2.1 hP ?_
  rw [mimeMatches_iff h h.1 h.2.1, h.mimePattern_eq]
  exact .inr (.inl rfl)

/-- Types without stars are enough: those of a wildcard are more than a list has. -/
theorem lists_of_includes_proper (hconfig : ∀ e ∈ config, MimePattern e)
    (h : PatternOf entry kind sub) (hproper : kind = "*" → sub = "*")
    (hincludes : Includes IsProperType config entry) :
    Lists (config.map mimePattern) (Text.lower kind) (Text.lower sub) := by
  have hlong := mimeToken_longToken (config.map mimePattern)
  have hlongNe := longToken_ne_star (config.map mimePattern)
  by_cases hsub : sub = "*"
  · subst hsub
    by_cases hkind : kind = "*"
    · -- any type at all: one of a kind that is not listed
      subst hkind
      have hx : MimeToken "x" := by decide
      have hlists := lists_of_includes hconfig hincludes hlong hx
        ⟨_, _, hlong, hx, hlongNe, by decide, rfl⟩
        (.inl (h.mimePattern_eq.trans rfl))
      rw [lower_longToken] at hlists
      exact .inl hlists.all_of_longToken
    · -- a subtype that is not listed
      have hlists := lists_of_includes hconfig hincludes h.1 hlong
        ⟨_, _, h.1, hlong, hkind, hlongNe, rfl⟩
        ((mimeMatches_iff h h.1 hlong).mpr (.inr (.inr h.mimePattern_eq)))
      rw [lower_longToken] at hlists
      exact hlists.star_of_longToken
  · exact lists_of_includes_self hconfig h hincludes
      ⟨_, _, h.1, h.2.1, fun hkind => hsub (hproper hkind), hsub, rfl⟩

end Tests

/-- **Coverage is inclusion**: the pattern of a token is covered exactly if the configuration
lets in every type the pattern does; types without stars are enough to tell, where the pattern
has none for its kind alone. -/
theorem mime_coverage_iff {entry : String} {config : List String} (hentry : MimePattern entry)
    (hconfig : ∀ e ∈ config, MimePattern e) :
    (tokenMimeCoveredByConfig entry (parseConfigMimeTypes (Text.joinWith "," config)) = true
        ↔ Includes IsContentType config entry) ∧
      (IsProperPattern entry →
        (tokenMimeCoveredByConfig entry (parseConfigMimeTypes (Text.joinWith "," config)) = true
          ↔ Includes IsProperType config entry)) := by
  rw [parseConfigMimeTypes_joinWith hconfig]
  constructor
  · obtain ⟨kind, sub, h⟩ := hentry
    rw [tokenMimeCoveredByConfig_iff h]
    constructor
    · exact fun hlists => includes_of_lists hconfig h hlists fun _ ht => ht
    · exact fun hincludes =>
        lists_of_includes_self hconfig h hincludes ⟨kind, sub, h.1, h.2.1, rfl⟩
  · rintro ⟨kind, sub, h, hproper⟩
    rw [tokenMimeCoveredByConfig_iff h]
    constructor
    · refine fun hlists => includes_of_lists hconfig h hlists ?_
      rintro _ ⟨t, u, ht, hu, -, -, rfl⟩
      exact ⟨t, u, ht, hu, rfl⟩
    · exact lists_of_includes_proper hconfig h hproper

/-- A pattern of images, between blanks. -/
theorem patternOf_images : PatternOf " Image/* " "Image" "*" :=
  ⟨by decide, by decide, " ", " ", by decide, by decide, rfl⟩

/-- Images are covered by images. -/
theorem mime_coverage_images :
    (tokenMimeCoveredByConfig " Image/* " (parseConfigMimeTypes (Text.joinWith "," [" Image/* "]))
        = true ↔ Includes IsContentType [" Image/* "] " Image/* ") ∧
      (IsProperPattern " Image/* " →
        (tokenMimeCoveredByConfig " Image/* "
            (parseConfigMimeTypes (Text.joinWith "," [" Image/* "])) = true
          ↔ Includes IsProperType [" Image/* "] " Image/* ")) :=
  mime_coverage_iff ⟨_, _, patternOf_images⟩ fun _ he =>
    ⟨_, _, List.mem_singleton.mp he ▸ patternOf_images⟩

end FileNest
