import FileNest.Storage

/-!
# Encryption of credentials

A blob is a nonce of twelve bytes and what AES-256-GCM makes of the credentials under the key in
the settings.  The cipher, base64 and JSON are libraries.

## Main definitions

* `CryptoLibrary` — the libraries, and what is relied on of them.
* `cryptoModule` — `app.core.crypto`.

## Main results

* `decryptStorageCredentials_encrypt` — **a blob gives back what was encrypted.**
-/

namespace FileNest

/-- AES-256-GCM, base64 and JSON; bytes are the characters of a text. -/
structure CryptoLibrary where
  b64decode : String → Option String
  encrypt : (key nonce plaintext : String) → String
  decrypt : (key nonce ciphertext : String) → Option String
  dumps : Fields → String
  loads : String → Fields

/-- A dict of texts. -/
def TextFields (data : Fields) : Prop :=
  (data.map Prod.fst).Nodup ∧ ∀ f ∈ data, ∃ text, f.2 = .str text

/-- What the module relies on. -/
structure CryptoLibrary.Lawful (lib : CryptoLibrary) : Prop where
  decrypt_encrypt : ∀ key nonce plaintext,
    lib.decrypt key nonce (lib.encrypt key nonce plaintext) = some plaintext
  loads_dumps : ∀ data, TextFields data → lib.loads (lib.dumps data) = data

section Module

variable (lib : CryptoLibrary) (storageEncryptionKey : Option String)

/-- `_get_key`. -/
def getKey : Except (String × Fields) String :=
  match orNone storageEncryptionKey with
  | none => throw ("STORAGE_ENCRYPTION_KEY is not configured",
      [("hint", .str "Set STORAGE_ENCRYPTION_KEY to a base64-encoded 32-byte value")])
  | some text =>
      match lib.b64decode text with
      | none => throw ("STORAGE_ENCRYPTION_KEY is not valid base64", [])
      | some key =>
          if key.length ≠ 32 then
            throw ("STORAGE_ENCRYPTION_KEY must decode to 32 bytes, got "
              ++ toString key.length, [])
          else pure key

/-- `encrypt_storage_credentials`; `nonce` is what `os.urandom(12)` draws. -/
def encryptStorageCredentials (nonce : String) (data : Fields) :
    Except (String × Fields) String := do
  let key ← getKey lib storageEncryptionKey
  return nonce ++ lib.encrypt key nonce (lib.dumps data)

/-- `decrypt_storage_credentials`. -/
def decryptStorageCredentials (blob : String) : Except (String × Fields) Fields := do
  let key ← getKey lib storageEncryptionKey
  let nonce := String.ofList (blob.toList.take 12)
  let ciphertext := String.ofList (blob.toList.drop 12)
  match lib.decrypt key nonce ciphertext with
  | none =>
      throw ("Failed to decrypt storage credentials — key mismatch or tampered data", [])
  | some plaintext => return lib.loads plaintext

/-- `app.core.crypto`, with the nonce it draws. -/
def cryptoModule (nonce : String) : Crypto where
  encrypt := encryptStorageCredentials lib storageEncryptionKey nonce
  decrypt := decryptStorageCredentials lib storageEncryptionKey

variable {lib storageEncryptionKey} {nonce blob : String} {data : Fields}

theorem encryptStorageCredentials_eq_ok
    (h : encryptStorageCredentials lib storageEncryptionKey nonce data = .ok blob) :
    ∃ key, getKey lib storageEncryptionKey = .ok key
      ∧ blob = nonce ++ lib.encrypt key nonce (lib.dumps data) := by
  obtain ⟨key, hkey, h⟩ := bind_eq_ok.mp h
  exact ⟨key, hkey, (pure_eq_ok.mp h).symm⟩

/-- A blob opens with its nonce, … -/
theorem take_encryptStorageCredentials (hnonce : nonce.length = 12)
    (h : encryptStorageCredentials lib storageEncryptionKey nonce data = .ok blob) :
    blob.toList.take 12 = nonce.toList := by
  obtain ⟨key, -, rfl⟩ := encryptStorageCredentials_eq_ok h
  rw [String.toList_append, List.take_left' ((String.length_toList ..).trans hnonce)]

theorem encryptStorageCredentials_ne_empty (hnonce : nonce.length = 12)
    (h : encryptStorageCredentials lib storageEncryptionKey nonce data = .ok blob) : blob ≠ "" := by
  rintro rfl
  have hempty : ([] : List Char) = nonce.toList := take_encryptStorageCredentials hnonce h
  rw [← String.length_toList, ← hempty] at hnonce
  cases hnonce

/-- … and gives back what was encrypted. -/
theorem decryptStorageCredentials_encrypt (hlib : lib.Lawful) (hnonce : nonce.length = 12)
    (hdata : TextFields data)
    (h : encryptStorageCredentials lib storageEncryptionKey nonce data = .ok blob) :
    decryptStorageCredentials lib storageEncryptionKey blob = .ok data := by
  have htake := take_encryptStorageCredentials hnonce h
  obtain ⟨key, hkey, rfl⟩ := encryptStorageCredentials_eq_ok h
  have hdrop : (nonce ++ lib.encrypt key nonce (lib.dumps data)).toList.drop 12
      = (lib.encrypt key nonce (lib.dumps data)).toList := by
    rw [String.toList_append, List.drop_left' ((String.length_toList ..).trans hnonce)]
  refine bind_eq_ok.mpr ⟨key, hkey, ?_⟩
  simp only [htake, hdrop, String.ofList_toList, hlib.decrypt_encrypt, hlib.loads_dumps data hdata]
  rfl

end Module

/-- A text between a mark before each character and one at its end. -/
def marked (cs : List Char) : List Char := cs.flatMap (fun c => ['+', c]) ++ ['.']

/-- The texts that were marked. -/
def unmarked : List Char → List (List Char)
  | '+' :: c :: cs =>
      match unmarked cs with
      | text :: texts => (c :: text) :: texts
      | [] => [[c]]
  | _ :: cs => [] :: unmarked cs
  | [] => []

theorem unmarked_marked (cs rest : List Char) :
    unmarked (marked cs ++ rest) = cs :: unmarked rest := by
  induction cs with
  | nil => rfl
  | cons c cs ih =>
    have hcons : marked (c :: cs) ++ rest = '+' :: c :: (marked cs ++ rest) := rfl
    rw [hcons, unmarked, ih]

/-- A dict of the texts, in pairs. -/
def pairedFields : List (List Char) → Fields
  | name :: value :: texts => (String.ofList name, .str (String.ofList value)) :: pairedFields texts
  | _ => []

/-- The text of a value. -/
def fieldText : Json → List Char
  | .str text => text.toList
  | _ => []

/-- Texts are marked, and nothing is secret. -/
def devLibrary : CryptoLibrary where
  b64decode := some
  encrypt _ _ plaintext := plaintext
  decrypt _ _ ciphertext := some ciphertext
  dumps data := String.ofList (data.flatMap fun f => marked f.1.toList ++ marked (fieldText f.2))
  loads text := pairedFields (unmarked text.toList)

theorem devLibrary_lawful : devLibrary.Lawful where
  decrypt_encrypt _ _ _ := rfl
  loads_dumps data hdata := by
    have key : ∀ data : Fields, (∀ f ∈ data, ∃ text, f.2 = .str text) → pairedFields (unmarked
        (data.flatMap fun f => marked f.1.toList ++ marked (fieldText f.2))) = data := by
      intro data
      induction data with
      | nil => exact fun _ => rfl
      | cons f data ih =>
        intro htexts
        obtain ⟨text, htext⟩ := htexts f List.mem_cons_self
        rw [List.flatMap_cons, List.append_assoc, unmarked_marked, unmarked_marked, pairedFields,
          ih fun g hg => htexts g (List.mem_cons_of_mem _ hg), htext, fieldText,
          String.ofList_toList, String.ofList_toList, ← htext]
    rw [devLibrary]
    simp only [String.toList_ofList]
    exact key data hdata.2

/-- A key of 32 bytes. -/
def devKey : Option String := some "0123456789abcdef0123456789abcdef"

end FileNest
