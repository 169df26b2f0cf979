import VaultsSyncer.Daemon.MasterKey
import VaultsSyncer.GoStd.Base64RoundTrip

/-! Ciphertexts as texts (`security/crypto.go`, `security/passphrase.go`). AES-GCM under one key is a
    parameter; what is stored of a text is its nonce and what GCM has made of it, in base64.

        Encrypt    text ──▶ nonce ++ seal nonce text ──▶ base64
        Decrypt    base64 ──▶ 12 bytes, the rest ──▶ open, or an error

    So `Decrypt` accepts just what `Encrypt` can have made under the key (`decrypt_eq_ok_iff`), and the
    pair is an `Encryptor` (`AESEncryptor.toEncryptor`). -/

namespace VaultsSyncer

open GoStd Schemes Schemes.Prog

/-! ### Bytes as text -/

theorem utf8_textOf {b : Bytes} (h : ∀ c ∈ b, c < 128) : utf8 (textOf b) = b := by
  have hbyte : ∀ n < 128, String.utf8EncodeChar (Char.ofNat n) = [n.toUInt8] := by decide
  have hone : ∀ c : UInt8, c < 128 → String.utf8EncodeChar (Char.ofNat c.toNat) = [c] := by
    intro c hc
    rw [hbyte c.toNat (UInt8.lt_iff_toNat_lt.mp hc)]
    simp
  rw [utf8_eq_flatMap, textOf, String.toList_ofList]
  induction b with
  | nil => rfl
  | cons c b ih =>
    rw [List.map_cons, List.flatMap_cons, hone c (h c (by simp)),
      ih fun c' hc' => h c' (List.mem_cons_of_mem _ hc')]
    rfl

theorem utf8_textOf_encode (b : Bytes) : utf8 (textOf (Base64.encode b)) = Base64.encode b :=
  utf8_textOf fun _ => Base64.encode_ascii

theorem utf8_textOf_urlEncode (b : Bytes) : utf8 (textOf (Base64.urlEncode b)) = Base64.urlEncode b :=
  utf8_textOf fun _ => Base64.urlEncode_ascii

/-- A key that was generated is a key. -/
theorem masterKeyFromString_textOf {b : Bytes} (h : b.length = derivedKeyLen) :
    masterKeyFromString (textOf (Base64.urlEncode b)) = .ok b := by
  rw [masterKeyFromString, utf8_textOf_urlEncode, Base64.urlDecode_urlEncode]
  simp [h]

@[simp] theorem length_takeBytes (n : ℕ) (b : Bytes) : (takeBytes n b).length = n := by simp [takeBytes]

theorem takeBytes_eq_self {n : ℕ} {b : Bytes} (h : b.length = n) : takeBytes n b = b := by
  refine List.ext_getElem (by rw [length_takeBytes, h]) fun i hi hb => ?_
  simp [takeBytes, List.getD_eq_getElem?_getD, hb]

/-! ### AES-GCM -/

/-- AES-GCM under one key (`cipher.AEAD`): it opens what it has sealed, and nothing else. -/
structure Gcm where
  sealWith : Bytes → Bytes → Bytes
  openWith : Bytes → Bytes → Except GoError Bytes
  open_seal : ∀ nonce plaintext, openWith nonce (sealWith nonce plaintext) = .ok plaintext
  seal_of_open : ∀ {nonce ciphertext plaintext}, openWith nonce ciphertext = .ok plaintext →
    ciphertext = sealWith nonce plaintext

/-- `aesGCM.NonceSize()` -/
def nonceSize : ℕ := 12

namespace AESEncryptor

variable (gcm : Gcm)

/-- The text for a nonce and what comes after it. -/
def frame (nonce sealed : Bytes) : String := textOf (Base64.encode (nonce ++ sealed))

/-- Encrypts plaintext with AES-256-GCM and returns a base64-encoded string. -/
def encrypt (plaintext : Bytes) : Db (Except GoError String) := do
  match ← Db.randRead nonceSize with
  | .error err => return .error (.wrap "security: failed to generate nonce: " err)
  | .ok nonce => return .ok (frame nonce (gcm.sealWith nonce plaintext))

/-- Decodes and decrypts a base64-encoded ciphertext produced by Encrypt. -/
def decrypt (ciphertext : String) : Except GoError Bytes :=
  match Base64.decode (utf8 ciphertext) with
  | .error err => .error (.wrap "security: failed to decode ciphertext: " err)
  | .ok data =>
    if data.length < nonceSize then .error (.new "security: ciphertext too short")
    else
      match gcm.openWith (data.take nonceSize) (data.drop nonceSize) with
      | .error err => .error (.wrap "security: decryption failed (wrong key or corrupted data): " err)
      | .ok plaintext => .ok plaintext

def encryptString (plaintext : String) : Db (Except GoError String) := encrypt gcm (utf8 plaintext)

/-- A convenience wrapper for decrypting to a UTF-8 string; bytes that are none stand for nothing. -/
def decryptString (ciphertext : String) : Except GoError String :=
  (decrypt gcm ciphertext).map fun b => (String.fromUTF8? ⟨b.toArray⟩).getD ""

variable {gcm}

theorem decode_frame (nonce sealed : Bytes) :
    Base64.decode (utf8 (frame nonce sealed)) = .ok (nonce ++ sealed) := by
  rw [frame, utf8_textOf_encode, Base64.decode_encode]

/-- What decodes to a nonce with what was sealed under it is decrypted. -/
theorem decrypt_of_decode {ciphertext : String} {nonce plaintext : Bytes} (hlen : nonce.length = nonceSize)
    (hdata : Base64.decode (utf8 ciphertext) = .ok (nonce ++ gcm.sealWith nonce plaintext)) :
    decrypt gcm ciphertext = .ok plaintext := by
  have hlong : ¬(nonce ++ gcm.sealWith nonce plaintext).length < nonceSize := by
    rw [List.length_append]
    omega
  rw [decrypt, hdata]
  dsimp only
  rw [if_neg hlong, ← hlen, List.take_left, List.drop_left, gcm.open_seal]

/-- What is accepted is a nonce with what was sealed under it, however it is spelled. -/
theorem decrypt_eq_ok_iff {ciphertext : String} {plaintext : Bytes} :
    decrypt gcm ciphertext = .ok plaintext ↔ ∃ nonce, nonce.length = nonceSize ∧
      Base64.decode (utf8 ciphertext) = .ok (nonce ++ gcm.sealWith nonce plaintext) := by
  constructor
  · intro h
    rw [decrypt] at h
    rcases hdata : Base64.decode (utf8 ciphertext) with err | data
    · rw [hdata] at h
      cases h
    rw [hdata] at h
    dsimp only at h
    split_ifs at h with hshort
    rcases hopen : gcm.openWith (data.take nonceSize) (data.drop nonceSize) with err | p
    · rw [hopen] at h
      cases h
    · rw [hopen] at h
      obtain rfl : p = plaintext := Except.ok.inj h
      refine ⟨data.take nonceSize, by rw [List.length_take]; omega, ?_⟩
      rw [← gcm.seal_of_open hopen, List.take_append_drop]
  · rintro ⟨nonce, hlen, hdata⟩
    exact decrypt_of_decode hlen hdata

variable (gcm)

/-- The cipher that the config store works with. -/
def toEncryptor : Encryptor where
  encrypt nonce s :=
    frame (takeBytes nonceSize nonce) (gcm.sealWith (takeBytes nonceSize nonce) (utf8 s))
  decrypt := decryptString gcm
  decrypt_encrypt nonce s := by
    rw [decryptString, decrypt_of_decode (length_takeBytes _ _) (decode_frame _ _)]
    simp [Except.map, fromUTF8_utf8]
  encrypt_ne_empty nonce s := by
    intro hempty
    have hdecoded := decode_frame (takeBytes nonceSize nonce)
      (gcm.sealWith (takeBytes nonceSize nonce) (utf8 s))
    rw [hempty] at hdecoded
    have hnil := Except.ok.inj hdecoded
    have hlen := congrArg List.length hnil
    rw [List.length_append, length_takeBytes] at hlen
    simp [nonceSize] at hlen
    omega

/-- It encrypts as `EncryptString` does, in every run. -/
theorem run_encryptString (s : String) (x : Surroundings × Database) :
    ((toEncryptor gcm).encryptString s).run serve x = (encryptString gcm s).run serve x := by
  obtain ⟨env, db⟩ := x
  rw [Encryptor.encryptString, encryptString, encrypt, run_bind, run_bind, run_randRead, nonceSize,
    run_randRead]
  rcases env.random.head with err | bytes
  · rfl
  · simp [toEncryptor, Except.map, nonceSize, takeBytes_eq_self]

end AESEncryptor

end VaultsSyncer
