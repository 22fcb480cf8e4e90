import FileNest.Lib.Text
import FileNest.Lib.Utf16
import Mathlib.Data.String.Basic

/-!
# Webhook signatures

The webhook worker signs `timestamp.body` and sends `t=<timestamp>,v1=<digest>`.  The
verifiers of the SDKs take the header for the digest itself, with or without a
`sha256=` in front, and compute theirs from the body alone.

## Main definitions

* `HmacSha256` — a keyed hash with 64 lower-case hexadecimal digits.
* `signatureHeader` — what the worker sends.
* `Python.verifyWebhookSignature`, `Node.verify`, `NextJs.verifyWebhookSignature` — what
  the SDKs check.
* `Interoperable` — every verifier accepts exactly the body that was signed.

## Main results

* `verifier_rejects_header` — **no verifier accepts what the worker sends.**
* `verifier_accepts_digest` — every verifier accepts the plain digest of the body.
* `webhook_signature_not_interoperable` — there is no delivery that can be verified.
-/

namespace FileNest

namespace Webhook

/-- Lower-case hexadecimal digits. -/
def hexDigits : List Char := "0123456789abcdef".toList

/-- The shape of a SHA-256 digest in hexadecimal. -/
def IsHexDigest (s : String) : Prop := s.toList.length = 64 ∧ ∀ c ∈ s.toList, c ∈ hexDigits

instance (s : String) : Decidable (IsHexDigest s) :=
  @instDecidableAnd _ _ _ (List.decidableBAll _ _)

/-- `hmac.new(key, msg, sha256).hexdigest()`, and `createHmac` with `digest("hex")`. -/
structure HmacSha256 where
  hexdigest : (key msg : ByteArray) → String
  isHexDigest : ∀ key msg, IsHexDigest (hexdigest key msg)

variable (hmac : HmacSha256)

/-! ### The worker -/

/-- `_sign`. -/
def sign (secret : String) (timestamp : ℕ) (body : String) : String :=
  hmac.hexdigest secret.toUTF8 (toString timestamp ++ "." ++ body).toUTF8

/-- `_signature_header`: the value of `X-FileNest-Signature`. -/
def signatureHeader (secret : String) (timestamp : ℕ) (body : String) : String :=
  "t=" ++ toString timestamp ++ ",v1=" ++ sign hmac secret timestamp body

/-! ### The verifiers -/

/-- `hmac.compare_digest` on text, which raises `TypeError` unless both are ASCII. -/
def compareDigest (a b : String) : Except String Bool :=
  if (a.toList ++ b.toList).all fun c => decide (c.toNat < 128) then .ok (a == b)
  else .error "comparing strings with non-ASCII characters is not supported"

/-- `verify_webhook_signature` of the Python SDK. -/
def Python.verifyWebhookSignature (body : ByteArray) (signature secret : String) :
    Except String Bool :=
  let sig := Text.removePrefix signature "sha256="
  let expected := hmac.hexdigest secret.toUTF8 body
  compareDigest expected sig

/-- The value of a hexadecimal digit; it is looked up by the low byte of the code unit. -/
def hexValue (u : UInt16) : Option UInt8 :=
  let b := u.toUInt8
  if 0x30 ≤ b ∧ b ≤ 0x39 then some (b - 0x30)
  else if 0x61 ≤ b ∧ b ≤ 0x66 then some (b - 0x61 + 10)
  else if 0x41 ≤ b ∧ b ≤ 0x46 then some (b - 0x41 + 10)
  else none

/-- The bytes of pairs of hexadecimal digits, up to the first pair that is not one. -/
def hexBytes : List UInt16 → List UInt8
  | a :: b :: rest =>
      match hexValue a, hexValue b with
      | some x, some y => (16 * x + y) :: hexBytes rest
      | _, _ => []
  | _ => []

/-- `Buffer.from(s, "hex")`. -/
def bufferFromHex (s : String) : List UInt8 := hexBytes (Utf16.encode s.toList)

/-- `timingSafeEqual`, which throws on buffers of different lengths. -/
def timingSafeEqual (a b : List UInt8) : Except String Bool :=
  if a.length = b.length then .ok (a == b)
  else .error "Input buffers must have the same byte length"

/-- The comparison both JavaScript verifiers end with; what is thrown counts as `false`. -/
def compareHex (expected sig : String) : Bool :=
  match timingSafeEqual (bufferFromHex expected) (bufferFromHex sig) with
  | .ok b => b
  | .error _ => false

/-- The raw body given to the Node verifier. -/
inductive RawBody where
  | buffer (bytes : ByteArray)
  | text (s : String)

/-- `Buffer.from(rawBody, "utf8")`, where that is needed. -/
def RawBody.bytes : RawBody → ByteArray
  | .buffer bytes => bytes
  | .text s => s.toUTF8

/-- `WebhooksNamespace.verify` of the Node SDK. -/
def Node.verify (rawBody : RawBody) (signature secret : String) : Bool :=
  let body := rawBody.bytes
  let sig := if Text.startsWith signature "sha256=" then
    String.ofList (signature.toList.drop 7) else signature
  let expected := hmac.hexdigest secret.toUTF8 body
  compareHex expected sig

/-- `verifyWebhookSignature` of the Next.js SDK. -/
def NextJs.verifyWebhookSignature (body signature secret : String) : Bool :=
  let sig := if Text.startsWith signature "sha256=" then
    String.ofList (signature.toList.drop 7) else signature
  let expected := hmac.hexdigest secret.toUTF8 body.toUTF8
  compareHex expected sig

/-- The verifiers of the repository, Node's with a buffer and with a string. -/
inductive Verifier where
  | python | nodeBuffer | nodeText | nextJs

/-- Whether a verifier accepts a body with a header; an exception does not. -/
def Verifier.accepts : Verifier → (body signature secret : String) → Bool
  | python, body, signature, secret =>
      match Python.verifyWebhookSignature hmac body.toUTF8 signature secret with
      | .ok b => b
      | .error _ => false
  | nodeBuffer, body, signature, secret =>
      Node.verify hmac (.buffer body.toUTF8) signature secret
  | nodeText, body, signature, secret => Node.verify hmac (.text body) signature secret
  | nextJs, body, signature, secret => NextJs.verifyWebhookSignature hmac body signature secret

/-- Every verifier accepts the signed body under the header sent with it, and no other. -/
structure Interoperable (secret : String) (timestamp : ℕ) (body : String) : Prop where
  accepts : ∀ v : Verifier,
    v.accepts hmac body (signatureHeader hmac secret timestamp body) secret = true
  rejects : ∀ v : Verifier, ∀ body', body' ≠ body →
    v.accepts hmac body' (signatureHeader hmac secret timestamp body) secret = false

/-! ### Digests -/

/-- A hexadecimal digit is one code unit, and has a value. -/
theorem hexValue_of_mem {c : Char} (h : c ∈ hexDigits) :
    ∃ u x, Utf16.encodeChar c = [u] ∧ hexValue u = some x := by
  have hall : (hexDigits.all fun c => decide (c.toNat < 0x10000) &&
      (hexValue (UInt16.ofNat c.toNat)).isSome) = true := by decide
  have hc := List.all_eq_true.mp hall c h
  simp only [Bool.and_eq_true, decide_eq_true_eq] at hc
  obtain ⟨x, hx⟩ := Option.isSome_iff_exists.mp hc.2
  exact ⟨_, x, if_pos hc.1, hx⟩

theorem toNat_lt_of_mem_hexDigits {c : Char} (h : c ∈ hexDigits) : c.toNat < 128 := by
  have hall : (hexDigits.all fun c => decide (c.toNat < 128)) = true := by decide
  exact of_decide_eq_true (List.all_eq_true.mp hall c h)

/-- A digest starts with two digits. -/
theorem IsHexDigest.exists_cons {s : String} (h : IsHexDigest s) :
    ∃ a b rest, s.toList = a :: b :: rest ∧ a ∈ hexDigits ∧ b ∈ hexDigits := by
  obtain ⟨hlen, hmem⟩ := h
  rcases hs : s.toList with _ | ⟨a, _ | ⟨b, rest⟩⟩
  · simp [hs] at hlen
  · simp [hs] at hlen
  · exact ⟨a, b, rest, rfl, hmem a (by simp [hs]), hmem b (by simp [hs])⟩

theorem IsHexDigest.bufferFromHex_ne_nil {s : String} (h : IsHexDigest s) :
    bufferFromHex s ≠ [] := by
  obtain ⟨a, b, rest, hs, ha, hb⟩ := h.exists_cons
  obtain ⟨u, x, hu, hx⟩ := hexValue_of_mem ha
  obtain ⟨v, y, hv, hy⟩ := hexValue_of_mem hb
  simp [bufferFromHex, hexBytes, hs, hu, hv, hx, hy]

/-- A digest carries no `sha256=`. -/
theorem IsHexDigest.not_startsWith {s : String} (h : IsHexDigest s) :
    Text.startsWith s "sha256=" = false := by
  obtain ⟨a, b, rest, hs, ha, -⟩ := h.exists_cons
  have ha' : a ≠ 's' := by
    rintro rfl
    exact absurd ha (by decide)
  have hp : "sha256=".toList = 's' :: "ha256=".toList := by decide
  simp [Text.startsWith, hs, hp, List.isPrefixOf, ha'.symm]

/-! ### What the worker sends is not accepted -/

section Header

variable {hmac} {secret : String} {timestamp : ℕ} {body : String}

variable (hmac secret timestamp body) in
theorem signatureHeader_toList : ∃ rest,
    (signatureHeader hmac secret timestamp body).toList = 't' :: '=' :: rest := by
  refine ⟨(toString timestamp ++ ",v1=" ++ sign hmac secret timestamp body).toList, ?_⟩
  have ht : "t=".toList = ['t', '='] := by decide
  simp [signatureHeader, String.toList_append, ht]

/-- The header is taken as it is. -/
theorem signatureHeader_not_startsWith :
    Text.startsWith (signatureHeader hmac secret timestamp body) "sha256=" = false := by
  obtain ⟨rest, hrest⟩ := signatureHeader_toList hmac secret timestamp body
  have hp : "sha256=".toList = 's' :: "ha256=".toList := by decide
  simp [Text.startsWith, hrest, hp, List.isPrefixOf]

/-- A `t` is no hexadecimal digit: the buffer stays empty. -/
theorem bufferFromHex_signatureHeader :
    bufferFromHex (signatureHeader hmac secret timestamp body) = [] := by
  obtain ⟨rest, hrest⟩ := signatureHeader_toList hmac secret timestamp body
  have hunit : Utf16.encodeChar 't' = [0x74] := by decide
  have hequals : Utf16.encodeChar '=' = [0x3D] := by decide
  have ht : hexValue 0x74 = none := by decide
  simp [bufferFromHex, hrest, hexBytes, hunit, hequals, ht]

theorem signatureHeader_ne_digest {s : String} (h : IsHexDigest s) :
    s ≠ signatureHeader hmac secret timestamp body := by
  rintro rfl
  obtain ⟨rest, hrest⟩ := signatureHeader_toList hmac secret timestamp body
  exact absurd (h.2 't' (by simp [hrest])) (by decide)

theorem compareHex_signatureHeader {s : String} (h : IsHexDigest s) :
    compareHex s (signatureHeader hmac secret timestamp body) = false := by
  have hlen : (bufferFromHex s).length ≠ 0 := by simpa using h.bufferFromHex_ne_nil
  simp [compareHex, timingSafeEqual, bufferFromHex_signatureHeader, hlen]

variable (hmac secret timestamp body) in
theorem compareDigest_signatureHeader {s : String} (h : IsHexDigest s) :
    compareDigest s (signatureHeader hmac secret timestamp body) ≠ .ok true := by
  simp only [compareDigest]
  split
  · simpa using signatureHeader_ne_digest h
  · simp

/-- **No verifier accepts what the worker sends**, whatever the body it is given. -/
theorem verifier_rejects_header (v : Verifier) (body' secret' : String) :
    v.accepts hmac body' (signatureHeader hmac secret timestamp body) secret' = false := by
  cases v with
  | python =>
    have h := compareDigest_signatureHeader hmac secret timestamp body
      (hmac.isHexDigest secret'.toUTF8 body'.toUTF8)
    simp only [Verifier.accepts, Python.verifyWebhookSignature, Text.removePrefix,
      signatureHeader_not_startsWith]
    split
    · rename_i b hb
      cases b
      · rfl
      · exact absurd hb h
    · rfl
  | nodeBuffer =>
    simpa [Verifier.accepts, Node.verify, signatureHeader_not_startsWith] using
      compareHex_signatureHeader (hmac.isHexDigest _ _)
  | nodeText =>
    simpa [Verifier.accepts, Node.verify, signatureHeader_not_startsWith] using
      compareHex_signatureHeader (hmac.isHexDigest _ _)
  | nextJs =>
    simpa [Verifier.accepts, NextJs.verifyWebhookSignature, signatureHeader_not_startsWith] using
      compareHex_signatureHeader (hmac.isHexDigest _ _)

end Header

/-- Every verifier accepts the plain digest of the body. -/
theorem verifier_accepts_digest (v : Verifier) (body secret : String) :
    v.accepts hmac body (hmac.hexdigest secret.toUTF8 body.toUTF8) secret = true := by
  have h := hmac.isHexDigest secret.toUTF8 body.toUTF8
  have hcompare : ∀ s, compareHex s s = true := fun s => by simp [compareHex, timingSafeEqual]
  have hascii : ((hmac.hexdigest secret.toUTF8 body.toUTF8).toList
      ++ (hmac.hexdigest secret.toUTF8 body.toUTF8).toList).all
        (fun c => decide (c.toNat < 128)) = true := by
    simp only [List.all_eq_true, List.mem_append, or_self, decide_eq_true_eq]
    exact fun c hc => toNat_lt_of_mem_hexDigits (h.2 c hc)
  cases v with
  | python =>
    simp only [Verifier.accepts, Python.verifyWebhookSignature, Text.removePrefix,
      h.not_startsWith, compareDigest, hascii, beq_self_eq_true, if_true, Bool.false_eq_true,
      if_false]
  | nodeBuffer =>
    simp only [Verifier.accepts, Node.verify, RawBody.bytes, h.not_startsWith, hcompare,
      Bool.false_eq_true, if_false]
  | nodeText =>
    simp only [Verifier.accepts, Node.verify, RawBody.bytes, h.not_startsWith, hcompare,
      Bool.false_eq_true, if_false]
  | nextJs =>
    simp only [Verifier.accepts, NextJs.verifyWebhookSignature, h.not_startsWith, hcompare,
      Bool.false_eq_true, if_false]

/-- There is no delivery that can be verified. -/
theorem webhook_signature_not_interoperable (secret : String) (timestamp : ℕ) (body : String) :
    ¬Interoperable hmac secret timestamp body := by
  intro h
  have haccepts := h.accepts .python
  rw [verifier_rejects_header] at haccepts
  cases haccepts

/-- HMAC-SHA256 as far as one delivery needs it: the secret `whsec_1`, the body
`\x7b"event": "file.ready"\x7d`, and the same body behind the timestamp 1700000000. -/
def sampleHmac : HmacSha256 where
  hexdigest key msg :=
    if key.data = "whsec_1".toUTF8.data
        ∧ msg.data = "1700000000.\x7b\"event\": \"file.ready\"\x7d".toUTF8.data then
      "e1eca1e83b96e788e466c3f143e75be8c975287c1b0a7402fc03dc8df63e172e"
    else if key.data = "whsec_1".toUTF8.data
        ∧ msg.data = "\x7b\"event\": \"file.ready\"\x7d".toUTF8.data then
      "e1462b89ff15ad3dfb92629c19b6d0b26d97f70dc7f6d8cc0ae88ac89c43e602"
    else "0000000000000000000000000000000000000000000000000000000000000000"
  isHexDigest key msg := by
    split
    · decide +kernel
    · split
      · decide +kernel
      · decide +kernel

theorem webhook_signature_not_interoperable_sample :
    ¬Interoperable sampleHmac "whsec_1" 1700000000 "\x7b\"event\": \"file.ready\"\x7d" :=
  webhook_signature_not_interoperable sampleHmac _ _ _

/-- One delivery as it goes over the wire, and what the verifiers make of it. -/
theorem webhook_delivery_rejected :
    let body := "\x7b\"event\": \"file.ready\"\x7d"
    let header := "t=1700000000,v1=e1eca1e83b96e788e466c3f143e75be8c975287c1b0a7402fc03dc8df63e172e"
    signatureHeader sampleHmac "whsec_1" 1700000000 body = header
      ∧ (∀ v : Verifier, v.accepts sampleHmac body header "whsec_1" = false)
      ∧ ¬Interoperable sampleHmac "whsec_1" 1700000000 body := by
  intro body header
  have hheader : signatureHeader sampleHmac "whsec_1" 1700000000 body = header := by decide +kernel
  refine ⟨hheader, fun v => ?_, fun h => ?_⟩
  · rw [← hheader]
    exact verifier_rejects_header v body "whsec_1"
  · have haccepts := h.accepts .nextJs
    rw [verifier_rejects_header] at haccepts
    cases haccepts

end Webhook

end FileNest
