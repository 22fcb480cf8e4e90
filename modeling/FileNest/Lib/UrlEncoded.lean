import Mathlib.Data.List.Basic

/-!
# Form-encoded queries

A query is a list of names and values.  Each is written in UTF-8, byte by byte: a byte is kept,
or is written as `%` and two hexadecimal digits; a space may be a `+`.  Pairs are joined by `&`,
and a name and its value by `=`.  Writers differ in the bytes they keep.

## Main definitions

* `Writer` — which bytes a writer keeps, and how it writes a space.
* `serialize`, `parse` — a query as bytes, and what is read from bytes.

## Main results

* `unquotePlus_encode` — a text reads back.
* `parse_serialize` — **so does a query, whatever wrote it.**
-/

namespace UrlEncoded

/-! ### Bytes -/

/-- `&` -/
def amp : UInt8 := 0x26

/-- `=` -/
def equals : UInt8 := 0x3D

/-- `+` -/
def plus : UInt8 := 0x2B

/-- `%` -/
def percent : UInt8 := 0x25

/-- A space. -/
def space : UInt8 := 0x20

/-- The hexadecimal digit of a number below 16, in upper case. -/
def hexDigit (n : ℕ) : UInt8 := UInt8.ofNat (if n < 10 then 0x30 + n else 0x37 + n)

/-- The value of a hexadecimal digit, in either case. -/
def hexValue (b : UInt8) : Option ℕ :=
  if 0x30 ≤ b.toNat ∧ b.toNat ≤ 0x39 then some (b.toNat - 0x30)
  else if 0x41 ≤ b.toNat ∧ b.toNat ≤ 0x46 then some (b.toNat - 0x37)
  else if 0x61 ≤ b.toNat ∧ b.toNat ≤ 0x66 then some (b.toNat - 0x57)
  else none

theorem hexValue_hexDigit : ∀ n < 16, hexValue (hexDigit n) = some n := by decide

/-- The bytes of a text. -/
def utf8 (s : String) : List UInt8 := s.toUTF8.data.toList

/-- The text of some bytes, if they are UTF-8. -/
def ofUtf8 (bs : List UInt8) : Option String := String.fromUTF8? ⟨bs.toArray⟩

theorem ofUtf8_utf8 (s : String) : ofUtf8 (utf8 s) = some s := by
  show String.fromUTF8? s.toByteArray = some s
  unfold String.fromUTF8?
  rw [dif_pos s.isValidUTF8]
  rfl

theorem utf8_injective : Function.Injective utf8 := by
  intro s t h
  have hread := ofUtf8_utf8 s
  rw [h, ofUtf8_utf8] at hread
  exact (Option.some.inj hread).symm

theorem utf8_ofList (cs : List Char) :
    utf8 (String.ofList cs) = cs.flatMap String.utf8EncodeChar := by
  show (String.ofList cs).toByteArray.data.toList = _
  rw [String.toByteArray_ofList, List.utf8Encode]
  simp

/-- A digit is one byte. -/
theorem utf8EncodeChar_of_isDigit {c : Char} (h : c.isDigit) :
    ∃ b : UInt8, String.utf8EncodeChar c = [b] ∧ 48 ≤ b.toNat ∧ b.toNat ≤ 57 := by
  simp only [Char.isDigit, Bool.and_eq_true, decide_eq_true_eq, ge_iff_le] at h
  have hlow : 48 ≤ c.toNat := UInt32.le_iff_toNat_le.mp h.1
  have hhigh : c.toNat ≤ 57 := UInt32.le_iff_toNat_le.mp h.2
  refine ⟨UInt8.ofNat c.toNat, ?_, ?_⟩
  · rw [String.utf8EncodeChar]
    exact if_pos (show c.toNat ≤ 127 by omega)
  · rw [UInt8.toNat_ofNat']
    omega

/-! ### Writing -/

/-- The way a writer writes. -/
structure Writer where
  /-- The bytes it keeps. -/
  keeps : UInt8 → Bool
  /-- It writes a space as `+`. -/
  plusForSpace : Bool
  keeps_plain : ∀ b ∈ [amp, equals, plus, percent], keeps b = false

namespace Writer

variable (w : Writer)

theorem keeps_ne {b : UInt8} (h : w.keeps b = true) :
    b ≠ amp ∧ b ≠ equals ∧ b ≠ plus ∧ b ≠ percent := by
  have hne : b ∉ [amp, equals, plus, percent] := by
    intro hmem
    rw [w.keeps_plain b hmem] at h
    cases h
  simpa using hne

/-- One byte. -/
def byte (b : UInt8) : List UInt8 :=
  if w.keeps b then [b]
  else if b = space ∧ w.plusForSpace then [plus]
  else [percent, hexDigit (b.toNat / 16), hexDigit (b.toNat % 16)]

/-- A text. -/
def encode (s : String) : List UInt8 := (utf8 s).flatMap w.byte

/-- A name and its value. -/
def pair (p : String × String) : List UInt8 := w.encode p.1 ++ equals :: w.encode p.2

/-- A query. -/
def serialize (ps : List (String × String)) : List UInt8 := [amp].intercalate (ps.map w.pair)

end Writer

/-! ### Reading -/

/-- `unquote_plus`, in bytes: a `%` that is not followed by two digits stands for itself. -/
def unquotePlus : List UInt8 → List UInt8
  | b :: high :: low :: rest =>
    if b = percent then
      match hexValue high, hexValue low with
      | some x, some y => UInt8.ofNat (16 * x + y) :: unquotePlus rest
      | _, _ => b :: unquotePlus (high :: low :: rest)
    else (if b = plus then space else b) :: unquotePlus (high :: low :: rest)
  | b :: rest => (if b = plus then space else b) :: unquotePlus rest
  | [] => []

/-- A text, if it is UTF-8. -/
def decode (bs : List UInt8) : Option String := ofUtf8 (unquotePlus bs)

/-- `name_value.split("=", 1)`; without a `=` the value is blank. -/
def splitPair (piece : List UInt8) : List UInt8 × List UInt8 :=
  (piece.takeWhile (· ≠ equals), (piece.dropWhile (· ≠ equals)).tail)

/-- `parse_qsl(query, keep_blank_values=True)`; `none` where a name or a value is not UTF-8. -/
def parse (query : List UInt8) : Option (List (String × String)) :=
  ((query.splitOn amp).filter (· ≠ [])).mapM fun piece => do
    let name ← decode (splitPair piece).1
    let value ← decode (splitPair piece).2
    pure (name, value)

/-! ### What is written reads back -/

theorem unquotePlus_cons_of_ne {b : UInt8} (hb : b ≠ percent) (rest : List UInt8) :
    unquotePlus (b :: rest) = (if b = plus then space else b) :: unquotePlus rest := by
  match rest with
  | [] => rfl
  | [_] => rfl
  | high :: low :: rest => rw [unquotePlus, if_neg hb]

variable (w : Writer)

/-- **A byte reads back.** -/
theorem unquotePlus_byte (b : UInt8) (rest : List UInt8) :
    unquotePlus (w.byte b ++ rest) = b :: unquotePlus rest := by
  unfold Writer.byte
  split
  · rename_i hkeeps
    obtain ⟨-, -, hplus, hpercent⟩ := w.keeps_ne hkeeps
    rw [List.singleton_append, unquotePlus_cons_of_ne hpercent, if_neg hplus]
  · split
    · rename_i hspace
      rw [List.singleton_append, unquotePlus_cons_of_ne (by decide), if_pos rfl, hspace.1]
    · have hlt : b.toNat < 256 := b.toNat_lt
      have hhigh : hexValue (hexDigit (b.toNat / 16)) = some (b.toNat / 16) :=
        hexValue_hexDigit _ (by omega)
      have hlow : hexValue (hexDigit (b.toNat % 16)) = some (b.toNat % 16) :=
        hexValue_hexDigit _ (by omega)
      have hbyte : UInt8.ofNat (16 * (b.toNat / 16) + b.toNat % 16) = b := by
        rw [Nat.div_add_mod, UInt8.ofNat_toNat]
      simp only [List.cons_append, List.nil_append, unquotePlus, if_pos, hhigh, hlow, hbyte]

theorem unquotePlus_flatMap (bs : List UInt8) : unquotePlus (bs.flatMap w.byte) = bs := by
  induction bs with
  | nil => rfl
  | cons b bs ih => rw [List.flatMap_cons, unquotePlus_byte, ih]

/-- A text reads back. -/
theorem unquotePlus_encode (s : String) : unquotePlus (w.encode s) = utf8 s :=
  unquotePlus_flatMap w (utf8 s)

theorem decode_encode (s : String) : decode (w.encode s) = some s := by
  rw [decode, unquotePlus_encode, ofUtf8_utf8]

/-- A digit is neither of the separators. -/
theorem hexDigit_ne : ∀ n < 16, hexDigit n ≠ amp ∧ hexDigit n ≠ equals := by decide

/-- No separator is written in a text. -/
theorem notMem_encode (s : String) : amp ∉ w.encode s ∧ equals ∉ w.encode s := by
  have hbyte (b c : UInt8) (hc : c ∈ w.byte b) : c ≠ amp ∧ c ≠ equals := by
    unfold Writer.byte at hc
    split at hc
    · rename_i hkeeps
      obtain rfl := List.mem_singleton.mp hc
      exact ⟨(w.keeps_ne hkeeps).1, (w.keeps_ne hkeeps).2.1⟩
    · split at hc
      · obtain rfl := List.mem_singleton.mp hc
        decide
      · have hlt : b.toNat < 256 := b.toNat_lt
        simp only [List.mem_cons, List.not_mem_nil, or_false] at hc
        obtain rfl | rfl | rfl := hc
        · decide
        · exact hexDigit_ne _ (by omega)
        · exact hexDigit_ne _ (by omega)
  unfold Writer.encode
  constructor
  · intro hmem
    obtain ⟨b, -, hb⟩ := List.mem_flatMap.mp hmem
    exact (hbyte b amp hb).1 rfl
  · intro hmem
    obtain ⟨b, -, hb⟩ := List.mem_flatMap.mp hmem
    exact (hbyte b equals hb).2 rfl

/-- A pair comes apart where it was joined. -/
theorem splitPair_pair (p : String × String) :
    splitPair (w.pair p) = (w.encode p.1, w.encode p.2) := by
  have hplain : ∀ c ∈ w.encode p.1, decide (c ≠ equals) = true := by
    intro c hc
    refine decide_eq_true ?_
    rintro rfl
    exact (notMem_encode w p.1).2 hc
  unfold splitPair Writer.pair
  rw [List.takeWhile_append_of_pos hplain, List.dropWhile_append_of_pos hplain]
  simp

theorem amp_notMem_pair (p : String × String) : amp ∉ w.pair p := by
  unfold Writer.pair
  intro hmem
  obtain hmem | hmem := List.mem_append.mp hmem
  · exact (notMem_encode w p.1).1 hmem
  · obtain heq | hmem := List.mem_cons.mp hmem
    · exact absurd heq (by decide)
    · exact (notMem_encode w p.2).1 hmem

/-- The pieces of a query are its pairs. -/
theorem pieces_serialize (ps : List (String × String)) :
    ((w.serialize ps).splitOn amp).filter (· ≠ []) = ps.map w.pair := by
  unfold Writer.serialize
  cases ps with
  | nil => rfl
  | cons p ps =>
    rw [List.splitOn_intercalate amp ?_ (by simp)]
    · refine List.filter_eq_self.mpr fun piece hpiece => decide_eq_true ?_
      obtain ⟨q, -, rfl⟩ := List.mem_map.mp hpiece
      exact List.append_ne_nil_of_right_ne_nil _ (List.cons_ne_nil _ _)
    · intro piece hpiece
      obtain ⟨q, -, rfl⟩ := List.mem_map.mp hpiece
      exact amp_notMem_pair w q

/-- **A query reads back, whatever wrote it.** -/
theorem parse_serialize (ps : List (String × String)) : parse (w.serialize ps) = some ps := by
  unfold parse
  rw [pieces_serialize]
  induction ps with
  | nil => rfl
  | cons p ps ih =>
    rw [List.map_cons, List.mapM_cons, ih, splitPair_pair, decode_encode, decode_encode]
    rfl

/-- It also reads back in front of another one. -/
theorem parse_serialize_append (ps : List (String × String)) (query : List UInt8) :
    parse (w.serialize ps ++ amp :: query) = (parse query).map (ps ++ ·) := by
  have hread := parse_serialize w ps
  unfold parse at hread ⊢
  rw [List.splitOn_append_cons_self, List.filter_append, List.mapM_append, hread]
  exact Option.map_eq_bind.symm

end UrlEncoded
