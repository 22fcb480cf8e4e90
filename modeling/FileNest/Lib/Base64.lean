import Mathlib.Data.List.Basic

/-!
# Base64

Three bytes are written as four characters of six bits each; one or two bytes that are left over
are padded.

## Main definitions

* `encode`, `decode` — writing and reading.

## Main results

* `decode_encode` — **what is written reads back.**
* `encode_injective` — different bytes are written differently.
-/

namespace Base64

/-- The character of six bits. -/
def digit (n : ℕ) : Char :=
  if n < 26 then Char.ofNat (65 + n)
  else if n < 52 then Char.ofNat (71 + n)
  else if n < 62 then Char.ofNat (n - 4)
  else if n = 62 then '+' else '/'

/-- The six bits of a character. -/
def value (c : Char) : Option ℕ :=
  if 65 ≤ c.toNat ∧ c.toNat ≤ 90 then some (c.toNat - 65)
  else if 97 ≤ c.toNat ∧ c.toNat ≤ 122 then some (c.toNat - 71)
  else if 48 ≤ c.toNat ∧ c.toNat ≤ 57 then some (c.toNat + 4)
  else if c = '+' then some 62 else if c = '/' then some 63 else none

/-- The characters of some bytes. -/
def encode : List UInt8 → List Char
  | a :: b :: c :: rest =>
    digit (a.toNat / 4) :: digit (a.toNat % 4 * 16 + b.toNat / 16) ::
      digit (b.toNat % 16 * 4 + c.toNat / 64) :: digit (c.toNat % 64) :: encode rest
  | [a, b] =>
    [digit (a.toNat / 4), digit (a.toNat % 4 * 16 + b.toNat / 16), digit (b.toNat % 16 * 4), '=']
  | [a] => [digit (a.toNat / 4), digit (a.toNat % 4 * 16), '=', '=']
  | [] => []

attribute [local simp] encode

/-- The bytes of some characters, if these are Base64. -/
def decode : List Char → Option (List UInt8)
  | x :: y :: z :: w :: rest => do
    let x ← value x
    let y ← value y
    let a := UInt8.ofNat (x * 4 + y / 16)
    match value z, value w with
    | some z, some w =>
      let bytes ← decode rest
      pure (a :: UInt8.ofNat (y % 16 * 16 + z / 4) :: UInt8.ofNat (z % 4 * 64 + w) :: bytes)
    | some z, none =>
      if w = '=' ∧ rest = [] then pure [a, UInt8.ofNat (y % 16 * 16 + z / 4)] else none
    | none, _ => if z = '=' ∧ w = '=' ∧ rest = [] then pure [a] else none
  | [] => some []
  | _ => none

attribute [local simp] decode

theorem value_digit : ∀ n < 64, value (digit n) = some n := by decide

theorem value_pad : value '=' = none := by decide

theorem ofNat_eq {n : ℕ} {a : UInt8} (h : n = a.toNat) : UInt8.ofNat n = a := by
  rw [h, UInt8.ofNat_toNat]

/-- **What is written reads back.** -/
theorem decode_encode (bs : List UInt8) : decode (encode bs) = some bs := by
  fun_induction encode bs with
  | case1 a b c rest ih =>
    have ha := a.toNat_lt
    have hb := b.toNat_lt
    have hc := c.toNat_lt
    simp only [decode, ih, value_digit _ (show a.toNat / 4 < 64 by omega),
      value_digit _ (show a.toNat % 4 * 16 + b.toNat / 16 < 64 by omega),
      value_digit _ (show b.toNat % 16 * 4 + c.toNat / 64 < 64 by omega),
      value_digit _ (show c.toNat % 64 < 64 by omega), Option.bind_eq_bind, Option.bind_some,
      Option.pure_def]
    rw [@ofNat_eq (a.toNat / 4 * 4 + _) a (by omega), @ofNat_eq _ b (by omega),
      @ofNat_eq _ c (by omega)]
  | case2 a b =>
    have ha := a.toNat_lt
    have hb := b.toNat_lt
    simp only [decode, value_digit _ (show a.toNat / 4 < 64 by omega),
      value_digit _ (show a.toNat % 4 * 16 + b.toNat / 16 < 64 by omega),
      value_digit _ (show b.toNat % 16 * 4 < 64 by omega), value_pad, Option.bind_eq_bind,
      Option.bind_some, Option.pure_def, and_self, if_true]
    rw [@ofNat_eq (a.toNat / 4 * 4 + _) a (by omega), @ofNat_eq _ b (by omega)]
  | case3 a =>
    have ha := a.toNat_lt
    simp only [decode, value_digit _ (show a.toNat / 4 < 64 by omega),
      value_digit _ (show a.toNat % 4 * 16 < 64 by omega), value_pad, Option.bind_eq_bind,
      Option.bind_some, Option.pure_def, and_self, if_true]
    rw [@ofNat_eq _ a (by omega)]
  | case4 => rfl

/-- Different bytes are written differently. -/
theorem encode_injective : Function.Injective encode := by
  intro bs bs' h
  have hread := decode_encode bs
  rw [h, decode_encode bs'] at hread
  exact (Option.some.inj hread).symm

end Base64
