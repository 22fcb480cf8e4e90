import FileNest.Lib.Text

/-!
# Subjects of a message broker

A subject is a text of tokens with dots between them.  A subscription is a pattern of the
same form: `*` stands for any one token, and `>` at its end for all that is left, at least
one.  What texts the broker takes for tokens is its own affair, but for plain words.

## Main definitions

* `tokens`, `covers` — the tokens of a subject, and a pattern against them.
* `Broker`, `Broker.delivers` — a broker, and what it delivers to a subscription.

## Main results

* `Broker.delivers_iff` — the subject is well formed, and the pattern covers it.
-/

namespace Subject

/-- What stands between the dots. -/
def tokens (subject : String) : List String := Text.split '.' subject

/-- The tokens of a pattern against those of a subject. -/
def covers : List String → List String → Bool
  | [], [] => true
  | p :: ps, t :: ts => (p == ">" && ps.isEmpty) || ((p == "*" || p == t) && covers ps ts)
  | [], _ :: _ | _ :: _, [] => false

/-- A word of ASCII letters, digits, `-` and `_`. -/
def isPlain (t : String) : Bool :=
  t != "" && t.toList.all fun c => c.isAlphanum || c == '-' || c == '_'

/-- A broker: the texts it takes for tokens of a subject, plain words among them. -/
structure Broker where
  isToken : String → Bool
  isToken_of_isPlain : ∀ t, isPlain t = true → isToken t = true

/-- A message on the subject is delivered to the subscription. -/
def Broker.delivers (broker : Broker) (pattern subject : String) : Bool :=
  (tokens subject).all broker.isToken && covers (tokens pattern) (tokens subject)

theorem Broker.delivers_iff {broker : Broker} {pattern subject : String} :
    broker.delivers pattern subject = true ↔
      (∀ t ∈ tokens subject, broker.isToken t = true)
        ∧ covers (tokens pattern) (tokens subject) = true := by
  rw [delivers, Bool.and_eq_true, List.all_eq_true]

theorem tokens_of_notMem {t : String} (h : '.' ∉ t.toList) : tokens t = [t] := by
  rw [tokens, Text.split, Text.splitChars_of_notMem h, List.map_singleton, String.ofList_toList]

theorem dot_notMem_of_isPlain {t : String} (h : isPlain t = true) : '.' ∉ t.toList := by
  intro hdot
  rw [isPlain, Bool.and_eq_true, List.all_eq_true] at h
  exact absurd (h.2 '.' hdot) (by decide)

/-- The token before the first dot. -/
theorem tokens_append {t s : String} (h : '.' ∉ t.toList) :
    tokens (t ++ "." ++ s) = t :: tokens s := by
  have hlist : (t ++ "." ++ s).toList = t.toList ++ '.' :: s.toList := by
    rw [String.toList_append, String.toList_append, List.append_assoc]
    rfl
  rw [tokens, Text.split, hlist, Text.splitChars_sep_append h, List.map_cons, String.ofList_toList]
  rfl

/-- `*` stands for one token. -/
theorem covers_any (ps : List String) (t : String) (ts : List String) :
    covers ("*" :: ps) (t :: ts) = covers ps ts := by
  rw [covers]
  simp

/-- A word stands for itself. -/
theorem covers_word {p : String} (hp : p ≠ "*" ∧ p ≠ ">") (ps : List String) (t : String)
    (ts : List String) : covers (p :: ps) (t :: ts) = (p == t && covers ps ts) := by
  rw [covers, beq_false_of_ne hp.1, beq_false_of_ne hp.2, Bool.false_and, Bool.false_or,
    Bool.false_or]

theorem covers_nil_iff {ts : List String} : covers [] ts = true ↔ ts = [] := by
  cases ts with
  | nil => exact iff_of_true rfl rfl
  | cons t ts => exact iff_of_false Bool.false_ne_true (List.cons_ne_nil t ts)

theorem covers_any_iff {ps ts : List String} :
    covers ("*" :: ps) ts = true ↔ ∃ t ts', ts = t :: ts' ∧ covers ps ts' = true := by
  cases ts with
  | nil => exact iff_of_false Bool.false_ne_true fun ⟨_, _, h, _⟩ => by cases h
  | cons t ts => simp [covers_any]

theorem covers_word_iff {p : String} (hp : p ≠ "*" ∧ p ≠ ">") {ps ts : List String} :
    covers (p :: ps) ts = true ↔ ∃ ts', ts = p :: ts' ∧ covers ps ts' = true := by
  cases ts with
  | nil => exact iff_of_false Bool.false_ne_true fun ⟨_, h, _⟩ => by cases h
  | cons t ts => simp [covers_word hp, eq_comm (a := p)]

example : covers (tokens "a.*.>") (tokens "a.b.c.d") = true
    ∧ covers (tokens "a.*") (tokens "a.b.c") = false := by decide

end Subject
