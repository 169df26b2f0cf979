import VaultsSyncer.Schemes.Evidence
import VaultsSyncer.Storage.Configuration

/-! What a save puts into a row, whatever its calls are answered. With an encryptor every header value and
    the client secret go through `Encrypt` first, each under a nonce of its own (`Sealed`), and what is
    written reads back as what was saved (`Stores.read`).

        saved     X-Token: t          client_secret: s
        row       X-Token: ⟨n₁, t⟩    client_secret: ⟨n₂, s⟩
        loaded    X-Token: t          client_secret: s -/

namespace VaultsSyncer

open GoStd Schemes Schemes.Prog

/-- The first text is a ciphertext of the second. -/
def Encryptor.Seals (e : Encryptor) (sealed plain : String) : Prop :=
  ∃ nonce, sealed = e.encrypt nonce plain

/-- The client secret is sealed, where there is one, and the rest is as it was. -/
def SealedOAuth (e : Encryptor) (raw oauth : OAuthConfig) : Prop :=
  raw = { oauth with clientSecret := raw.clientSecret } ∧
    if oauth.clientSecret = "" then raw.clientSecret = ""
    else e.Seals raw.clientSecret oauth.clientSecret

structure SealedAuth (e : Encryptor) (raw auth : AuthConfig) : Prop where
  method : raw = { auth with headers := raw.headers, oauth := raw.oauth }
  headers : List.Forall₂ (SameKey e.Seals) raw.headers auth.headers
  oauth : Option.Rel (SealedOAuth e) raw.oauth auth.oauth

/-- The secrets of a vault are sealed, and the rest is as it was. -/
def Sealed (e : Encryptor) (raw v : VaultConfig) : Prop :=
  raw = { v with auth := raw.auth } ∧ Option.Rel (SealedAuth e) raw.auth v.auth

section Encrypting

variable (e : Encryptor)

theorem returns_encryptHeaders : ∀ headers : List (String × String),
    (encryptHeaders e headers).Returns (fun _ _ => True)
      fun res => ∀ out, res = .ok out → List.Forall₂ (SameKey e.Seals) out headers
  | [] => by
      rintro _ ⟨⟩
      exact .nil
  | (k, val) :: rest => by
      rw [encryptHeaders, returns_bind]
      refine (returns_encryptString e val).mono ?_
      rintro (err | enc) henc
      · rintro _ ⟨⟩
      · refine (returns_bind _ _).mpr ((returns_encryptHeaders rest).mono ?_)
        rintro (err | out) hout
        · rintro _ ⟨⟩
        · rintro _ ⟨⟩
          exact .cons ⟨rfl, henc enc rfl⟩ (hout out rfl)

theorem returns_encryptOAuth (oauth : Option OAuthConfig) :
    (encryptOAuth e oauth).Returns (fun _ _ => True)
      fun res => ∀ out, res = .ok out → Option.Rel (SealedOAuth e) out oauth := by
  rcases oauth with _ | oauth
  · rintro _ ⟨⟩
    exact .none
  · rw [encryptOAuth]
    split_ifs with hempty
    · rintro _ ⟨⟩
      exact .some ⟨rfl, by rw [if_pos hempty, hempty]⟩
    · refine (returns_bind _ _).mpr ((returns_encryptString e _).mono ?_)
      rintro (err | enc) henc
      · rintro _ ⟨⟩
      · rintro _ ⟨⟩
        refine .some ⟨rfl, ?_⟩
        rw [if_neg hempty]
        exact henc enc rfl

theorem returns_encryptVaultAuth (v : VaultConfig) : (encryptVaultAuth e v).Returns (fun _ _ => True)
    fun res => ∀ raw, res = .ok raw → Sealed e raw v := by
  rw [encryptVaultAuth]
  rcases hauth : v.auth with _ | auth
  · rintro _ ⟨⟩
    exact ⟨rfl, by rw [hauth]; exact .none⟩
  · refine (returns_bind _ _).mpr ((returns_encryptHeaders e _).mono ?_)
    rintro (err | headers) hheaders
    · rintro _ ⟨⟩
    · refine (returns_bind _ _).mpr ((returns_encryptOAuth e _).mono ?_)
      rintro (err | oauth) hoauth
      · rintro _ ⟨⟩
      · rintro _ ⟨⟩
        refine ⟨rfl, ?_⟩
        rw [hauth]
        exact .some ⟨rfl, hheaders headers rfl, hoauth oauth rfl⟩

end Encrypting

/-! ### Reading it back -/

section Decrypting

variable {e : Encryptor}

theorem Encryptor.Seals.opens {sealed plain : String} (h : e.Seals sealed plain) :
    e.decrypt sealed = .ok plain := by
  obtain ⟨nonce, rfl⟩ := h
  exact e.decrypt_encrypt nonce plain

theorem decryptOAuth_sealed {raw oauth : Option OAuthConfig} (h : Option.Rel (SealedOAuth e) raw oauth) :
    decryptOAuth e (raw.map OAuthConfig.codec.norm) = .ok (oauth.map OAuthConfig.codec.norm) := by
  cases h with
  | none => rfl
  | @some raw oauth h =>
    obtain ⟨hraw, hsecret⟩ := h
    have hnorm : (OAuthConfig.codec.norm raw).clientSecret = raw.clientSecret := rfl
    simp only [Option.map_some, decryptOAuth, hnorm]
    split_ifs at hsecret with hempty
    · rw [if_pos hsecret, hraw, hsecret, ← hempty]
    · obtain ⟨nonce, hnonce⟩ := hsecret
      rw [if_neg (by rw [hnonce]; exact e.encrypt_ne_empty _ _), hnonce, e.decrypt_encrypt, hraw]
      rfl

/-- What was sealed and written reads back as it was. -/
theorem Sealed.decrypt {raw v : VaultConfig} (h : Sealed e raw v) :
    decryptVaultAuth e raw.reread = .ok v.reread := by
  obtain ⟨hraw, hauth⟩ := h
  have hreread : raw.reread = { v.reread with auth := raw.auth.map AuthConfig.codec.norm } :=
    congrArg VaultConfig.reread hraw
  rw [hreread]
  show _ = Except.ok { v.reread with auth := v.auth.map AuthConfig.codec.norm }
  generalize raw.auth = sealed at hauth
  generalize v.auth = plain at hauth
  cases hauth with
  | none => rfl
  | @some sealed plain h =>
    have hheaders := ConfigStore.decryptHeaders_opens e
      (forall₂_mapOf (h.headers.imp fun _ _ hval => ⟨hval.1, hval.2.opens⟩))
    have hoauth := decryptOAuth_sealed h.oauth
    have hmethod : sealed.method = plain.method := by rw [h.method]
    simp only [Option.map_some, decryptVaultAuth, AuthConfig.codec_norm, hheaders, hoauth, hmethod]
    rfl

end Decrypting

/-! ### Rows -/

namespace ConfigStore

variable (s : ConfigStore)

/-- A text that a save may write for a vault. -/
def Stores (v : VaultConfig) (json : String) : Prop :=
  match s.encryptor with
  | none => json = VaultConfig.codec.marshal v
  | some e => ∃ raw, Sealed e raw v ∧ json = VaultConfig.codec.marshal raw

/-- A row that a body asks for. -/
def AskedRow (body : Option VaultConfig × Option SyncConfig) : ConfigTable → String → String → Prop
  | .vaults, id, json => ∃ v, body.1 = some v ∧ s.Stores { v with id := id } json
  | .syncs, id, json => ∃ sc, body.2 = some sc ∧ json = SyncConfig.codec.marshal { sc with id := id }

variable {s}

/-- What was written for a vault reads as the vault. -/
theorem Stores.read {v : VaultConfig} {json : String} (h : s.Stores v json) (pre : String) :
    s.readVault pre json = .ok v.reread := by
  rw [Stores] at h
  rcases hcipher : s.encryptor with _ | e
  · simp only [hcipher] at h
    rw [readVault, h, VaultConfig.unmarshal_marshal, hcipher]
  · simp only [hcipher] at h
    obtain ⟨raw, hsealed, rfl⟩ := h
    rw [readVault, VaultConfig.unmarshal_marshal, hcipher]
    exact hsealed.decrypt

/-- Whatever is answered, a save writes no other text. -/
theorem allCalls_saveVault_stores {p : Stmt → Prop} {v : VaultConfig}
    (hupdate : ∀ json now, s.Stores v json → p (.updateConfig .vaults v.id json now))
    (hinsert : ∀ json now, s.Stores v json → p (.insertConfig .vaults v.id json now)) :
    (s.saveVault v).AllCalls (DbCall.Only p) := by
  have hrow : ∀ json, s.Stores v json →
      (upsertConfigRow .vaults v.id json).AllCalls (DbCall.Only p) := fun json h =>
    allCalls_upsertConfigRow (fun now => hupdate json now h) fun now => hinsert json now h
  rw [saveVault]
  rcases hcipher : s.encryptor with _ | e
  · exact hrow _ (by rw [Stores, hcipher])
  · refine (allCalls_encryptVaultAuth e v).bind_returns (returns_encryptVaultAuth e v) ?_
    rintro (err | raw) hsealed
    · trivial
    · exact hrow _ (by rw [Stores, hcipher]; exact ⟨raw, hsealed raw rfl, rfl⟩)

end ConfigStore

/-! ### The rows of a database -/

section Rows

variable {db : Database} {t : ConfigTable} {k raw : String}

theorem config_exec {st : Stmt} (h : st.OnConfig = false) : (st.exec db).2.config = db.config := by
  cases st <;> simp only [Stmt.OnConfig, Bool.true_eq_false] at h <;> simp only [Stmt.exec] <;>
    first
    | rfl
    | (split_ifs <;> rfl)

/-- Each text is one that was there, or one that the statement writes. -/
theorem text_exec (st : Stmt) (h : (st.exec db).2.text t k = some raw) :
    db.text t k = some raw ∨ ∃ now, st = .updateConfig t k raw now ∨ st = .insertConfig t k raw now := by
  cases st with
  | updateConfig t' id json now =>
    rw [text_update] at h
    split_ifs at h with hat
    · obtain ⟨rfl, rfl⟩ := hat
      obtain ⟨old, -, rfl⟩ := Option.map_eq_some_iff.mp h
      exact .inr ⟨now, .inl rfl⟩
    · exact .inl h
  | insertConfig t' id json now =>
    rcases hfree : db.text t' id with _ | old
    · rw [text_insert hfree] at h
      split_ifs at h with hat
      · obtain ⟨rfl, rfl⟩ := hat
        obtain rfl := Option.some.inj h
        exact .inr ⟨now, .inr rfl⟩
      · exact .inl h
    · have htaken : (db.config t').lookup id ≠ none := fun hnone => by
        rw [Database.text, hnone] at hfree
        cases hfree
      simp only [Stmt.exec, htaken, ↓reduceDIte] at h
      exact .inl h
  | deleteConfig t' id =>
    rw [text_delete] at h
    split_ifs at h
    exact .inl h
  | selectConfig t' id => exact .inl h
  | selectConfigs t' => exact .inl h
  | _ =>
    rw [Database.text, config_exec rfl] at h
    exact .inl h

end Rows

end VaultsSyncer
