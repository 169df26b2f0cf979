import VaultsSyncer.Daemon.StoredRows
import VaultsSyncer.Security.Crypto

/-! The key that a first start prints (`resolveEncryptor` in `main.go`). There is no other copy of it, so
    it had better be a key: one that the daemon takes when it is started with it, and that opens whatever
    was stored in between (`printed_key_reopens`).

        start            prints K     stores under AES(K)
        start with K                  loads what was stored -/

namespace VaultsSyncer

open GoStd Schemes Schemes.Prog

/-- The generator gives as many bytes as were asked for. -/
def DbCall.Drawn : (op : DbCall) → op.Ans → Prop
  | .randRead n, .ok b => b.length = n
  | _, _ => True

theorem drawn_serve (op : DbCall) (x : Surroundings × Database) : op.Drawn (serve op x).1 := by
  obtain ⟨env, db⟩ := x
  cases op with
  | randRead n =>
    simp only [serve]
    rcases env.random.head with err | b
    · trivial
    · exact length_takeBytes n b
  | sql s | rowsAffected n | now => trivial

theorem returns_generateMasterKey : generateMasterKey.Returns DbCall.Drawn fun res =>
    ∀ key, res = .ok key → ∃ b, b.length = derivedKeyLen ∧ key = textOf (Base64.urlEncode b) := by
  rintro (err | b) hdrawn
  · rintro _ ⟨⟩
  · rintro _ ⟨⟩
    exact ⟨b, hdrawn, rfl⟩

section

variable (aes : Bytes → Encryptor)

theorem encryptorOf_textOf {b : Bytes} (h : b.length = derivedKeyLen) :
    encryptorOf aes (textOf (Base64.urlEncode b)) = .ok (aes b) := by
  have hkey : newAESEncryptor aes b = .ok (aes b) := if_neg fun hlen => hlen h
  rw [encryptorOf, masterKeyFromString_textOf h]
  dsimp only
  rw [hkey]

/-- A start that prints a key uses it. -/
theorem returns_resolveEncryptor : (resolveEncryptor aes "").Returns DbCall.Drawn fun res =>
    ∀ key enc, res = { printed := some key, encryptor := .ok enc } →
      ∃ b, b.length = derivedKeyLen ∧ key = textOf (Base64.urlEncode b) ∧ enc = aes b := by
  rw [resolveEncryptor, if_pos rfl, returns_bind]
  refine (returns_true _).mono ?_
  rintro (err | (_ | value)) -
  · rintro key enc ⟨⟩
  · refine (returns_bind _ _).mpr (returns_generateMasterKey.mono ?_)
    rintro (err | generated) hgenerated
    · rintro key enc ⟨⟩
    obtain ⟨b, hlen, rfl⟩ := hgenerated generated rfl
    refine (returns_bind _ _).mpr ((returns_true _).mono ?_)
    rintro (err | ⟨⟩) -
    · rintro key enc ⟨⟩
    · intro key enc h
      rw [encryptorOf_textOf aes hlen, Resolution.mk.injEq] at h
      exact ⟨b, hlen, (Option.some.inj h.1).symm, (Except.ok.inj h.2).symm⟩
  · rintro key enc ⟨⟩

theorem textOf_urlEncode_ne_empty {b : Bytes} (h : b.length = derivedKeyLen) :
    textOf (Base64.urlEncode b) ≠ "" := by
  intro hempty
  have hb : b ≠ [] := by
    rintro rfl
    cases h
  have htext := utf8_textOf_urlEncode b
  rw [hempty] at htext
  have hnil : Base64.urlEncode b = [] := htext.symm
  exact Base64.encode_ne_nil hb (List.map_eq_nil_iff.mp hnil)

variable {aes} {ι : Type} [DecidableEq ι] {d : ι → ApiDeps} {r : ι → HttpRequest}
  {s₀ s : Threads.State DbCall DbCall.Ans Surroundings Database ApiReply ι}

/-- A key that was printed is taken by every later start, and opens what any interleaving of requests has
    left in the store by then: the daemon comes as far as the configuration. -/
theorem printed_key_reopens {env₀ : Surroundings} {db₀ : Database} {key : String} {enc : Encryptor}
    {jsonErr : String → GoError} (hprinted : ((resolveEncryptor aes "").run serve (env₀, db₀)).1 =
      { printed := some key, encryptor := .ok enc })
    (hstore : ∀ j, (d j).store = { encryptor := enc, jsonErr := jsonErr })
    (hstart : ∀ j, s₀.prog j = serveHTTP (d j) (r j)) (hempty : ∀ t k, s₀.shared.text t k = none)
    (hs : Threads.Reaches serve s₀ s) (rest : Config → Except GoError Unit) {env : Surroundings}
    (henv : env.Works) : ∃ cfg,
      ConfigStore.Loads { encryptor := enc, jsonErr := jsonErr } s.shared cfg ∧
      ((runDaemon aes jsonErr key false rest).run serve (env, s.shared)).1 = rest cfg := by
  obtain ⟨b, hlen, rfl, rfl⟩ :=
    Returns.run serve drawn_serve (returns_resolveEncryptor aes) (env₀, db₀) key enc hprinted
  have hsound : ConfigStore.Sound { encryptor := aes b, jsonErr := jsonErr } s₀.shared :=
    ⟨fun k raw h => by simp [hempty] at h, fun k raw h => by simp [hempty] at h⟩
  obtain ⟨cfg, hloads⟩ := (sound_later hstart hs hstore hsound).loads
  refine ⟨cfg, hloads, ?_⟩
  rw [runDaemon, resolveEncryptor_supplied (textOf_urlEncode_ne_empty hlen), ret_bind]
  dsimp only
  rw [encryptorOf_textOf aes hlen]
  dsimp only
  rw [startWith, if_neg Bool.false_ne_true, run_bind]
  have hrun := hloads.of_works henv
  generalize (ConfigStore.loadConfig _).run serve (env, s.shared) = x at hrun ⊢
  obtain ⟨res, env', db'⟩ := x
  obtain rfl : res = .ok cfg := hrun
  rfl

end

/-- A cipher that puts the nonce before the text once more, and looks for it. -/
def nonceGcm : Gcm where
  sealWith nonce plaintext := nonce ++ plaintext
  openWith nonce ciphertext :=
    if ciphertext.take nonce.length = nonce then .ok (ciphertext.drop nonce.length)
    else .error (.new "cipher: message authentication failed")
  open_seal nonce plaintext := by simp
  seal_of_open := by
    intro nonce ciphertext plaintext h
    split_ifs at h with hnonce
    rw [← Except.ok.inj h]
    conv_lhs => rw [← List.take_append_drop nonce.length ciphertext, hnonce]

/-- The first start on a fresh store, where the generator gives zeros. -/
theorem run_resolveEncryptor_fresh (aes : Bytes → Encryptor) :
    ((resolveEncryptor aes "").run serve ({}, .empty)).1 =
      { printed := some (textOf (Base64.urlEncode (takeBytes derivedKeyLen [])))
        encryptor := .ok (aes (takeBytes derivedKeyLen [])) } := by
  have hopen : (Database.empty.appSettings.lookup masterKeyMarker).map Setting.value = none := rfl
  rw [resolveEncryptor, if_pos rfl, run_bind, run_getSetting Surroundings.works_default, hopen]
  dsimp only
  rw [run_bind, generateMasterKey, run_bind, run_randRead]
  have hdraw : (Surroundings.next {}).random.head = .ok [] := rfl
  simp only [hdraw, Except.map, pure_eq, run_ret]
  rw [run_bind]
  have hset : ((SettingsStore.setSetting masterKeyMarker "true").run serve
      ((Surroundings.next {}).drawn, Database.empty)).1 = .ok () := rfl
  generalize (SettingsStore.setSetting masterKeyMarker "true").run serve _ = x at hset ⊢
  obtain ⟨res, y⟩ := x
  obtain rfl : res = .ok () := hset
  dsimp only
  rw [run_ret, encryptorOf_textOf aes (length_takeBytes _ _)]

/-- What the handlers work with after that start. -/
def nonceDeps : ApiDeps where
  store := { encryptor := some (AESEncryptor.toEncryptor nonceGcm) }

/-- The key of zeros opens the store with the vault that was made meanwhile. -/
theorem printed_key_reopens_created : ∃ s cfg, Threads.Reaches serve (creating nonceDeps) s ∧
    s.shared.text .vaults "v" ≠ none ∧
    ConfigStore.Loads { encryptor := some (AESEncryptor.toEncryptor nonceGcm) } s.shared cfg ∧
    ((runDaemon (fun _ => AESEncryptor.toEncryptor nonceGcm) .new
      (textOf (Base64.urlEncode (takeBytes derivedKeyLen []))) false fun _ => .ok ()).run serve
        ({}, s.shared)).1 = .ok () := by
  have hfollow : (Threads.follow serve (creating nonceDeps) (byTurns 8 ++ [false])).map
      (fun s => (s.shared.text .vaults "v").isSome) = some true := by decide +kernel
  obtain ⟨s, hs, hrow⟩ := Threads.exists_of_follow _ _ hfollow
  obtain ⟨cfg, hloads, hruns⟩ := printed_key_reopens (d := fun _ => nonceDeps) (r := creation)
    (run_resolveEncryptor_fresh fun _ => AESEncryptor.toEncryptor nonceGcm) (fun _ => rfl)
    (fun _ => rfl) (text_creating nonceDeps) hs (fun _ => .ok ()) Surroundings.works_default
  exact ⟨s, cfg, hs, Option.isSome_iff_ne_none.mp hrow, hloads, hruns⟩

end VaultsSyncer
