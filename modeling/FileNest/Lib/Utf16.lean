import Mathlib.Data.List.Basic
import Mathlib.Tactic.Common

/-!
# UTF-16

A character outside the basic plane is a pair of surrogates, a high one and a low one.  A sequence
of code units spells a text iff each surrogate is in such a pair, and then only one.

## Main definitions

* `isHigh`, `isLow` — the surrogates.
* `encodeChar`, `encode` — the code units of a text.
* `decode` — the text of code units, if each surrogate has its other half.

## Main results

* `decode_encode`, `encode_of_decode` — **either undoes the other.**
-/

namespace Utf16

/-- A code unit that begins a pair. -/
def isHigh (u : UInt16) : Bool := decide (0xD800 ≤ u.toNat ∧ u.toNat < 0xDC00)

/-- A code unit that ends one. -/
def isLow (u : UInt16) : Bool := decide (0xDC00 ≤ u.toNat ∧ u.toNat < 0xE000)

/-- The character of a pair. -/
def combine (u v : UInt16) : Char :=
  Char.ofNat (0x10000 + (u.toNat - 0xD800) * 0x400 + (v.toNat - 0xDC00))

/-- The code units of a character. -/
def encodeChar (c : Char) : List UInt16 :=
  if c.toNat < 0x10000 then [UInt16.ofNat c.toNat]
  else [UInt16.ofNat (0xD800 + (c.toNat - 0x10000) / 0x400),
    UInt16.ofNat (0xDC00 + (c.toNat - 0x10000) % 0x400)]

/-- The code units of a text. -/
def encode (cs : List Char) : List UInt16 := cs.flatMap encodeChar

/-- The text of some code units. -/
def decode : List UInt16 → Option (List Char)
  | [] => some []
  | [u] => if isHigh u || isLow u then none else some [Char.ofNat u.toNat]
  | u :: v :: us =>
      if isHigh u then if isLow v then (decode us).map (combine u v :: ·) else none
      else if isLow u then none
      else (decode (v :: us)).map (Char.ofNat u.toNat :: ·)

@[simp] theorem encode_nil : encode [] = [] := rfl

@[simp] theorem encode_cons (c : Char) (cs : List Char) :
    encode (c :: cs) = encodeChar c ++ encode cs := rfl

/-- A unit of the basic plane. -/
theorem decode_unit {u : UInt16} (hhigh : isHigh u = false) (hlow : isLow u = false)
    (us : List UInt16) : decode (u :: us) = (decode us).map (Char.ofNat u.toNat :: ·) := by
  cases us with
  | nil => simp [decode, hhigh, hlow]
  | cons v us => simp [decode, hhigh, hlow]

/-- A pair. -/
theorem decode_pair {u v : UInt16} (hhigh : isHigh u = true) (hlow : isLow v = true)
    (us : List UInt16) : decode (u :: v :: us) = (decode us).map (combine u v :: ·) := by
  simp [decode, hhigh, hlow]

/-- The numbers that are characters. -/
theorem toNat_cases (c : Char) : c.toNat < 0xD800 ∨ 0xDFFF < c.toNat ∧ c.toNat < 0x110000 := c.valid

theorem toNat_ofNat {n : ℕ} (h : n < 0xD800 ∨ 0xDFFF < n ∧ n < 0x110000) :
    (Char.ofNat n).toNat = n := by
  have hvalid : n.isValidChar := h
  rw [Char.ofNat, dif_pos hvalid]
  rfl

theorem toNat_unit {n : ℕ} (h : n < 0x10000) : (UInt16.ofNat n).toNat = n := by
  rw [UInt16.toNat_ofNat']
  exact Nat.mod_eq_of_lt h

theorem encodeChar_unit {u : UInt16} (hhigh : isHigh u = false) (hlow : isLow u = false) :
    encodeChar (Char.ofNat u.toNat) = [u] := by
  have hlt : u.toNat < 0x10000 := u.toNat_lt
  have hnot : ¬(0xD800 ≤ u.toNat ∧ u.toNat < 0xDC00) := of_decide_eq_false hhigh
  have hnot' : ¬(0xDC00 ≤ u.toNat ∧ u.toNat < 0xE000) := of_decide_eq_false hlow
  have hchar : (Char.ofNat u.toNat).toNat = u.toNat := toNat_ofNat (by omega)
  rw [encodeChar, hchar, if_pos hlt, UInt16.ofNat_toNat]

theorem encodeChar_combine {u v : UInt16} (hhigh : isHigh u = true) (hlow : isLow v = true) :
    encodeChar (combine u v) = [u, v] := by
  obtain ⟨hu, hu'⟩ := of_decide_eq_true hhigh
  obtain ⟨hv, hv'⟩ := of_decide_eq_true hlow
  have hchar : (combine u v).toNat
      = 0x10000 + (u.toNat - 0xD800) * 0x400 + (v.toNat - 0xDC00) := toNat_ofNat (by omega)
  have hfirst : 0xD800 + ((combine u v).toNat - 0x10000) / 0x400 = u.toNat := by omega
  have hsecond : 0xDC00 + ((combine u v).toNat - 0x10000) % 0x400 = v.toNat := by omega
  rw [encodeChar, if_neg (by omega), hfirst, hsecond, UInt16.ofNat_toNat, UInt16.ofNat_toNat]

/-- **What a text is written as is read as the text.** -/
theorem decode_encode (cs : List Char) : decode (encode cs) = some cs := by
  induction cs with
  | nil => rfl
  | cons c cs ih =>
    have hc := toNat_cases c
    rw [encode_cons, encodeChar]
    split
    · rename_i hlt
      have hunit := toNat_unit hlt
      have hhigh : isHigh (UInt16.ofNat c.toNat) = false := decide_eq_false (by omega)
      have hlow : isLow (UInt16.ofNat c.toNat) = false := decide_eq_false (by omega)
      rw [List.singleton_append, decode_unit hhigh hlow, ih, Option.map_some, hunit,
        Char.ofNat_toNat]
    · rename_i hge
      have hfirst : (UInt16.ofNat (0xD800 + (c.toNat - 0x10000) / 0x400)).toNat
          = 0xD800 + (c.toNat - 0x10000) / 0x400 := toNat_unit (by omega)
      have hsecond : (UInt16.ofNat (0xDC00 + (c.toNat - 0x10000) % 0x400)).toNat
          = 0xDC00 + (c.toNat - 0x10000) % 0x400 := toNat_unit (by omega)
      have hhigh : isHigh (UInt16.ofNat (0xD800 + (c.toNat - 0x10000) / 0x400)) = true :=
        decide_eq_true (by omega)
      have hlow : isLow (UInt16.ofNat (0xDC00 + (c.toNat - 0x10000) % 0x400)) = true :=
        decide_eq_true (by omega)
      have hsum : 0x10000 + (0xD800 + (c.toNat - 0x10000) / 0x400 - 0xD800) * 0x400
          + (0xDC00 + (c.toNat - 0x10000) % 0x400 - 0xDC00) = c.toNat := by omega
      rw [List.cons_append, List.singleton_append, decode_pair hhigh hlow, ih, Option.map_some,
        combine, hfirst, hsecond, hsum, Char.ofNat_toNat]

/-- **What is read as a text is what the text is written as.** -/
theorem encode_of_decode {us : List UInt16} {cs : List Char} (h : decode us = some cs) :
    encode cs = us := by
  induction us using decode.induct generalizing cs with
  | case1 =>
    obtain rfl := Option.some.inj h
    rfl
  | case2 u hnone => simp [decode, hnone] at h
  | case3 u hunit =>
    obtain ⟨hhigh, hlow⟩ := Bool.or_eq_false_iff.mp (Bool.not_eq_true _ ▸ hunit)
    rw [decode_unit hhigh hlow, decode, Option.map_some, Option.some.injEq] at h
    rw [← h, encode_cons, encode_nil, encodeChar_unit hhigh hlow, List.append_nil]
  | case4 u v us hhigh hlow ih =>
    rw [decode_pair hhigh hlow, Option.map_eq_some_iff] at h
    obtain ⟨ds, hds, rfl⟩ := h
    rw [encode_cons, encodeChar_combine hhigh hlow, ih hds, List.cons_append,
      List.singleton_append]
  | case5 u v us hhigh hlow => simp [decode, hhigh, hlow] at h
  | case6 u v us hhigh hlow => simp [decode, hhigh, hlow] at h
  | case7 u v us hhigh hlow ih =>
    rw [Bool.not_eq_true] at hhigh hlow
    rw [decode_unit hhigh hlow, Option.map_eq_some_iff] at h
    obtain ⟨ds, hds, rfl⟩ := h
    rw [encode_cons, encodeChar_unit hhigh hlow, ih hds, List.singleton_append]

end Utf16
