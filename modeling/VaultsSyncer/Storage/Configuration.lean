import Mathlib.Data.List.Forall2
import VaultsSyncer.Schemes.References
import VaultsSyncer.Storage.ConfigStore
import VaultsSyncer.Storage.Effects

/-! What the config store holds, as a graph: the vaults by id, and the syncs by id, which refer to
    vaults. A row is text; the store is `Sound` when every row reads as what its id says, and then a
    load returns just what the graph has (`mem_vaults`, `mem_syncs`). What is saved goes into the
    graph as it reads back, encrypted or not (`sound_saveVault`). -/

namespace VaultsSyncer

open GoStd Schemes Schemes.Prog

/-- The JSON under an id. -/
def Database.text (db : Database) (t : ConfigTable) (k : String) : Option String :=
  ((db.config t).lookup k).map ConfigRow.configJSON

theorem run_reads {α : Type} {q : Db α}
    (hq : q.AllCalls (DbCall.Only fun s => s.Reads = true)) (env : Surroundings) (db : Database) :
    (q.run serve (env, db)).2.2 = db := run_keeps id (fun _ d h => Stmt.exec_reads h d) hq env db

/-! ### Calls of the store -/

section Calls

variable {p : Stmt → Prop} {s : ConfigStore}

theorem allCalls_encryptString (e : Encryptor) (plaintext : String) :
    (e.encryptString plaintext).AllCalls (DbCall.Only p) := by
  refine (allCalls_randRead trivial).bind ?_
  rintro (err | nonce) <;> trivial

/-- Whatever the random generator returns. -/
theorem returns_encryptString (e : Encryptor) (plaintext : String) :
    (e.encryptString plaintext).Returns (fun _ _ => True) fun r =>
      ∀ enc, r = .ok enc → ∃ nonce, enc = e.encrypt nonce plaintext := by
  rintro (err | nonce) -
  · exact fun enc h => by cases h
  · exact fun enc h => ⟨nonce, (Except.ok.inj h).symm⟩

theorem allCalls_encryptHeaders (e : Encryptor) (headers : List (String × String)) :
    (encryptHeaders e headers).AllCalls (DbCall.Only p) := by
  induction headers with
  | nil => trivial
  | cons header rest ih =>
    refine (allCalls_encryptString e header.2).bind ?_
    rintro (err | enc)
    · trivial
    · refine ih.bind ?_
      rintro (err | rest) <;> trivial

theorem allCalls_encryptOAuth (e : Encryptor) (oauth : Option OAuthConfig) :
    (encryptOAuth e oauth).AllCalls (DbCall.Only p) := by
  rcases oauth with _ | oauth
  · trivial
  · simp only [encryptOAuth]
    split_ifs
    · trivial
    · refine (allCalls_encryptString e oauth.clientSecret).bind ?_
      rintro (err | enc) <;> trivial

theorem allCalls_encryptVaultAuth (e : Encryptor) (v : VaultConfig) :
    (encryptVaultAuth e v).AllCalls (DbCall.Only p) := by
  simp only [encryptVaultAuth]
  rcases v.auth with _ | auth
  · trivial
  · refine (allCalls_encryptHeaders e auth.headers).bind ?_
    rintro (err | headers)
    · trivial
    · refine (allCalls_encryptOAuth e auth.oauth).bind ?_
      rintro (err | oauth) <;> trivial

theorem allCalls_upsertConfigRow {t : ConfigTable} {id json : String}
    (hupdate : ∀ now, p (.updateConfig t id json now))
    (hinsert : ∀ now, p (.insertConfig t id json now)) :
    (ConfigStore.upsertConfigRow t id json).AllCalls (DbCall.Only p) := by
  refine (allCalls_now trivial).bind fun now => (allCalls_exec (hupdate now)).bind ?_
  rintro (err | res)
  · trivial
  · refine (allCalls_rowsAffected trivial).bind ?_
    rintro (err | n)
    · trivial
    · dsimp only
      split_ifs
      · exact allCalls_exec (hinsert now)
      · trivial

theorem allCalls_saveVault {v : VaultConfig}
    (hupdate : ∀ json now, p (.updateConfig .vaults v.id json now))
    (hinsert : ∀ json now, p (.insertConfig .vaults v.id json now)) :
    (s.saveVault v).AllCalls (DbCall.Only p) := by
  simp only [ConfigStore.saveVault]
  rcases s.encryptor with _ | e
  · exact allCalls_upsertConfigRow (hupdate _) (hinsert _)
  · refine (allCalls_encryptVaultAuth e v).bind ?_
    rintro (err | raw)
    · trivial
    · exact allCalls_upsertConfigRow (hupdate _) (hinsert _)

theorem allCalls_getConfigJSON {t : ConfigTable} {id : String} (h : p (.selectConfig t id)) :
    (ConfigStore.getConfigJSON t id).AllCalls (DbCall.Only p) := by
  refine (allCalls_exec h).bind ?_
  rintro (err | raw) <;> trivial

theorem allCalls_getVault {id : String} (h : p (.selectConfig .vaults id)) :
    (s.getVault id).AllCalls (DbCall.Only p) := by
  refine (allCalls_getConfigJSON h).bind ?_
  rintro (err | raw)
  · trivial
  · dsimp only
    split_ifs <;> trivial

theorem allCalls_getSync {id : String} (h : p (.selectConfig .syncs id)) :
    (s.getSync id).AllCalls (DbCall.Only p) := by
  refine (allCalls_getConfigJSON h).bind ?_
  rintro (err | raw)
  · trivial
  · dsimp only
    split_ifs <;> trivial

theorem allCalls_loadConfig (h : ∀ t, p (.selectConfigs t)) :
    s.loadConfig.AllCalls (DbCall.Only p) := by
  refine (AllCalls.bind (allCalls_exec (h .vaults)) ?_).bind ?_
  · rintro (err | rows) <;> trivial
  · rintro (err | vaults)
    · trivial
    · refine (AllCalls.bind (allCalls_exec (h .syncs)) ?_).bind ?_
      · rintro (err | rows) <;> trivial
      · rintro (err | syncs) <;> trivial

end Calls

/-! ### Statements -/

section Statements

variable {db : Database} {t : ConfigTable} {id json : String} {now : ℤ}

theorem text_update (k : String) (t' : ConfigTable) :
    ((Stmt.updateConfig t id json now).exec db).2.text t' k =
      if t' = t ∧ k = id then (db.text t id).map fun _ => json else db.text t' k := by
  rcases eq_or_ne t' t with rfl | ht
  · simp only [Stmt.exec, Database.text, Database.setConfig, Function.update_self,
      Table.Keyed.lookup_modify, true_and]
    split_ifs with hk
    · cases (db.config t').lookup id <;> rfl
    · rfl
  · simp [Stmt.exec, Database.text, Database.setConfig, ht]

theorem text_insert (h : db.text t id = none) (k : String) (t' : ConfigTable) :
    ((Stmt.insertConfig t id json now).exec db).2.text t' k =
      if t' = t ∧ k = id then some json else db.text t' k := by
  have hfree : (db.config t).lookup id = none := Option.map_eq_none_iff.mp h
  simp only [Stmt.exec, hfree, ↓reduceDIte]
  rcases eq_or_ne t' t with rfl | ht
  · simp only [Database.text, Database.setConfig, Function.update_self, Table.Keyed.lookup_insert,
      true_and]
    split_ifs <;> rfl
  · simp [Database.text, Database.setConfig, ht]

theorem text_delete (k : String) (t' : ConfigTable) :
    ((Stmt.deleteConfig t id).exec db).2.text t' k =
      if t' = t ∧ k = id then none else db.text t' k := by
  rcases eq_or_ne t' t with rfl | ht
  · simp only [Stmt.exec, Database.text, Database.setConfig, Function.update_self,
      Table.Keyed.lookup_remove, true_and]
    split_ifs <;> rfl
  · simp [Stmt.exec, Database.text, Database.setConfig, ht]

end Statements

namespace ConfigStore

/-- An upsert that goes through leaves the text under the id. -/
theorem text_upsert {t : ConfigTable} {id json : String} {env env' : Surroundings} {db db' : Database}
    (h : (upsertConfigRow t id json).run serve (env, db) = (.ok (), env', db')) (t' : ConfigTable)
    (k : String) : db'.text t' k = if t' = t ∧ k = id then some json else db.text t' k := by
  rw [upsertConfigRow, run_bind, run_now] at h
  have htext := @text_update db t id json env.clock.head
  have hrow : db.text t id = none ↔ (db.config t).affected id = 0 := by
    rw [Database.text, Option.map_eq_none_iff, Table.Keyed.affected_eq_zero]
  rcases upsert_ok (fun _ => rfl) (fun _ => rfl) (fun _ => rfl) (fun _ => rfl)
    (run_exec_or env.tick rfl) h with ⟨haffected, rfl⟩ | ⟨hzero, env₁, hinsert⟩
  · rw [htext]
    split_ifs
    · obtain ⟨old, hold⟩ := Option.ne_none_iff_exists'.mp (mt hrow.mp haffected)
      rw [hold, Option.map_some]
    · rfl
  · have hnone := hrow.mpr hzero
    rw [exec_ok hinsert, text_insert, htext, hnone]
    · split_ifs <;> rfl
    · rw [htext, if_pos ⟨rfl, rfl⟩, hnone, Option.map_none]

theorem text_delete_ok {pre : String} {t : ConfigTable} {id : String} {env env' : Surroundings}
    {db db' : Database}
    (h : (Db.exec pre (.deleteConfig t id)).run serve (env, db) = (.ok (), env', db'))
    (t' : ConfigTable) (k : String) :
    db'.text t' k = if t' = t ∧ k = id then none else db.text t' k := by
  rw [exec_ok h]
  exact text_delete k t'

/-! ### Credentials -/

/-- A header that opens as the other. -/
abbrev OpensAs (e : Encryptor) : String × String → String × String → Prop :=
  SameKey fun sealed plain => e.decrypt sealed = .ok plain

theorem run_encryptHeaders (e : Encryptor) : ∀ (headers : List (String × String)) {env env' : Surroundings}
    {db db' : Database} {out : List (String × String)},
    (encryptHeaders e headers).run serve (env, db) = (.ok out, env', db') →
      List.Forall₂ (OpensAs e) out headers ∧ db' = db
  | [], env, env', db, db', out, h => by
      simp only [encryptHeaders, pure_eq, run_ret, Prod.mk.injEq, Except.ok.injEq] at h
      obtain ⟨rfl, -, rfl⟩ := h
      exact ⟨.nil, rfl⟩
  | (k, val) :: headers, env, env', db, db', out, h => by
      rw [encryptHeaders, Encryptor.encryptString, bind_assoc, run_bind, run_randRead] at h
      rcases hrandom : env.random.head.map (takeBytes 12) with err | nonce
      · rw [hrandom] at h
        cases h
      rw [hrandom] at h
      simp only [pure_eq, ret_bind, run_bind] at h
      generalize hrest : (encryptHeaders e headers).run serve (env.drawn, db) = x at h
      obtain ⟨err | rest, env₁, db₁⟩ := x
      · cases h
      · obtain ⟨hopens, rfl⟩ := run_encryptHeaders e headers hrest
        simp only [run_ret, Prod.mk.injEq, Except.ok.injEq] at h
        obtain ⟨rfl, -, rfl⟩ := h
        exact ⟨.cons ⟨rfl, e.decrypt_encrypt _ _⟩ hopens, rfl⟩

theorem decryptHeaders_opens (e : Encryptor) : ∀ {out headers : List (String × String)},
    List.Forall₂ (OpensAs e) out headers → decryptHeaders e out = .ok headers
  | _, _, .nil => rfl
  | (k, sealed) :: out, (k', plain) :: headers, .cons ⟨hkey, hopen⟩ h => by
      have hrest := decryptHeaders_opens e h
      simp only [decryptHeaders] at hrest
      simp only at hkey hopen
      simp only [decryptHeaders, List.mapM_cons, hopen, hrest, hkey]
      rfl

theorem run_encryptOAuth {e : Encryptor} {o out : Option OAuthConfig} {env env' : Surroundings}
    {db db' : Database} (h : (encryptOAuth e o).run serve (env, db) = (.ok out, env', db')) :
    decryptOAuth e (out.map OAuthConfig.codec.norm) = .ok (o.map OAuthConfig.codec.norm) ∧ db' = db := by
  rcases o with _ | oauth
  · simp only [encryptOAuth, pure_eq, run_ret, Prod.mk.injEq, Except.ok.injEq] at h
    obtain ⟨rfl, -, rfl⟩ := h
    exact ⟨rfl, rfl⟩
  · rw [encryptOAuth] at h
    split_ifs at h with hempty
    · simp only [pure_eq, run_ret, Prod.mk.injEq, Except.ok.injEq] at h
      obtain ⟨rfl, -, rfl⟩ := h
      refine ⟨?_, rfl⟩
      have hnorm : (OAuthConfig.codec.norm oauth).clientSecret = "" := hempty
      simp only [Option.map_some, decryptOAuth, hnorm, ↓reduceIte]
    · rw [Encryptor.encryptString, bind_assoc, run_bind, run_randRead] at h
      rcases hrandom : env.random.head.map (takeBytes 12) with err | nonce
      · rw [hrandom] at h
        cases h
      rw [hrandom] at h
      simp only [pure_eq, ret_bind, run_ret, Prod.mk.injEq, Except.ok.injEq] at h
      obtain ⟨rfl, -, rfl⟩ := h
      refine ⟨?_, rfl⟩
      have hnorm : (OAuthConfig.codec.norm
          { oauth with clientSecret := e.encrypt nonce oauth.clientSecret }).clientSecret =
          e.encrypt nonce oauth.clientSecret := rfl
      simp only [Option.map_some, decryptOAuth, hnorm, e.encrypt_ne_empty, e.decrypt_encrypt,
        ↓reduceIte]
      rfl

/-- What was encrypted and written reads back decrypted. -/
theorem run_encryptVaultAuth {e : Encryptor} {v raw : VaultConfig} {env env' : Surroundings}
    {db db' : Database} (h : (encryptVaultAuth e v).run serve (env, db) = (.ok raw, env', db')) :
    decryptVaultAuth e raw.reread = .ok v.reread ∧ db' = db := by
  rw [encryptVaultAuth] at h
  rcases hauth : v.auth with _ | auth
  · simp only [hauth, pure_eq, run_ret, Prod.mk.injEq, Except.ok.injEq] at h
    obtain ⟨rfl, -, rfl⟩ := h
    exact ⟨by rw [decryptVaultAuth, VaultConfig.reread_auth, hauth]; rfl, rfl⟩
  · simp only [hauth, run_bind] at h
    generalize hrun : (encryptHeaders e auth.headers).run serve (env, db) = x at h
    obtain ⟨err | out, env₁, db₁⟩ := x
    · cases h
    obtain ⟨hopens, rfl⟩ := run_encryptHeaders e _ hrun
    dsimp only at h
    rw [run_bind] at h
    generalize hrun' : (encryptOAuth e auth.oauth).run serve (env₁, db₁) = x at h
    obtain ⟨err | o, env₂, db₂⟩ := x
    · cases h
    obtain ⟨hoauth, rfl⟩ := run_encryptOAuth hrun'
    simp only [pure_eq, run_ret, Prod.mk.injEq, Except.ok.injEq] at h
    obtain ⟨rfl, -, rfl⟩ := h
    refine ⟨?_, rfl⟩
    have hheaders := decryptHeaders_opens e (forall₂_mapOf hopens)
    have hraw : ({ v with auth := some { auth with headers := out, oauth := o } } : VaultConfig).reread =
        { v.reread with auth := some (AuthConfig.codec.norm { auth with headers := out, oauth := o }) } :=
      rfl
    have hplain : some (AuthConfig.codec.norm auth) = v.reread.auth := by
      rw [VaultConfig.reread_auth, hauth]
      rfl
    simp only [hraw, decryptVaultAuth, AuthConfig.codec_norm, hheaders, hoauth]
    rw [AuthConfig.codec_norm] at hplain
    exact congrArg (fun a => Except.ok { v.reread with auth := a }) hplain

end ConfigStore

/-! ### Texts and what they say -/

section Texts

variable {α : Type} {read : String → String → Except GoError α} {key : α → String}
  {text : String → Option String}

/-- Every text reads, as something that is known under the same name. -/
def Legible (read : String → String → Except GoError α) (key : α → String)
    (text : String → Option String) : Prop :=
  ∀ k raw, text k = some raw → ∃ a, key a = k ∧ ∀ pre, read pre raw = .ok a

/-- What the texts say, by name. -/
def said (read : String → String → Except GoError α) (text : String → Option String) (k : String) :
    Option α := (text k).bind fun raw => (read "" raw).toOption

theorem said_of_read {k raw : String} {a : α} (htext : text k = some raw)
    (hread : ∀ pre, read pre raw = .ok a) : said read text k = some a := by
  simp [said, htext, hread, Except.toOption]

theorem Legible.said_iff (h : Legible read key text) {a : α} {k : String} :
    said read text k = some a ↔ ∃ raw, text k = some raw ∧ key a = k ∧ ∀ pre, read pre raw = .ok a := by
  constructor
  · intro hsaid
    rcases htext : text k with _ | raw
    · simp [said, htext] at hsaid
    · obtain ⟨b, hkey, hread⟩ := h k raw htext
      rw [said_of_read htext hread, Option.some.injEq] at hsaid
      subst hsaid
      exact ⟨raw, rfl, hkey, hread⟩
  · rintro ⟨raw, htext, -, hread⟩
    exact said_of_read htext hread

/-- A text beside what it says. -/
theorem Legible.rel (h : Legible read key text) (k : String) :
    Option.Rel (fun raw a => ∀ pre, read pre raw = .ok a) (text k) (said read text k) := by
  rcases htext : text k with _ | raw
  · rw [said, htext]
    exact .none
  · obtain ⟨a, -, hread⟩ := h k raw htext
    rw [said_of_read htext hread]
    exact .some hread

/-- A text that is put. -/
theorem Legible.put (h : Legible read key text) {text' : String → Option String} {k raw : String} {a : α}
    (htext : ∀ k', text' k' = if k' = k then some raw else text k') (hkey : key a = k)
    (hread : ∀ pre, read pre raw = .ok a) :
    Legible read key text' ∧ said read text' = Function.update (said read text) k (some a) := by
  constructor
  · intro k' raw' hk'
    rw [htext] at hk'
    split_ifs at hk' with heq
    · obtain rfl : raw = raw' := by simpa using hk'
      exact ⟨a, hkey.trans heq.symm, hread⟩
    · exact h k' raw' hk'
  · funext k'
    rcases eq_or_ne k' k with rfl | hne
    · rw [Function.update_self]
      exact said_of_read (by rw [htext, if_pos rfl]) hread
    · rw [Function.update_of_ne hne, said, said, htext, if_neg hne]

/-- A text that is dropped. -/
theorem Legible.drop (h : Legible read key text) {text' : String → Option String} {k : String}
    (htext : ∀ k', text' k' = if k' = k then none else text k') :
    Legible read key text' ∧ said read text' = Function.update (said read text) k none := by
  constructor
  · intro k' raw' hk'
    rw [htext] at hk'
    split_ifs at hk' with heq
    exact h k' raw' hk'
  · funext k'
    rcases eq_or_ne k' k with rfl | hne
    · rw [Function.update_self, said, htext, if_pos rfl]
      rfl
    · rw [Function.update_of_ne hne, said, said, htext, if_neg hne]

theorem mem_of_mapM_ok {β ε : Type} {f : α → Except ε β} : ∀ {l : List α} {r : List β},
    l.mapM f = .ok r → ∀ {b : β}, b ∈ r ↔ ∃ a ∈ l, f a = .ok b
  | [], r, h, b => by
      obtain rfl : [] = r := by simpa [pure, Except.pure] using h
      simp
  | a :: l, r, h, b => by
      rw [List.mapM_cons] at h
      rcases hfa : f a with err | b'
      · rw [hfa] at h
        cases h
      rcases hrest : l.mapM f with err | rest
      · rw [hfa, hrest] at h
        cases h
      rw [hfa, hrest] at h
      obtain rfl : b' :: rest = r := Except.ok.inj h
      simp [mem_of_mapM_ok hrest, hfa, eq_comm]

theorem exists_mapM_ok {β ε : Type} {f : α → Except ε β} : ∀ {l : List α},
    (∀ a ∈ l, ∃ b, f a = .ok b) → ∃ r, l.mapM f = .ok r
  | [], _ => ⟨[], rfl⟩
  | a :: l, h => by
      obtain ⟨b, hb⟩ := h a List.mem_cons_self
      obtain ⟨r, hr⟩ := exists_mapM_ok fun a' ha' => h a' (List.mem_cons_of_mem _ ha')
      exact ⟨b :: r, by rw [List.mapM_cons, hb, hr]; rfl⟩

variable {texts : List String} (htexts : ∀ raw, raw ∈ texts ↔ ∃ k, text k = some raw) (pre : String)

include htexts

/-- What is read of all texts, one after another. -/
theorem Legible.mem_of_mapM (h : Legible read key text) {r : List α}
    (hread : texts.mapM (read pre) = .ok r) (a : α) : a ∈ r ↔ said read text (key a) = some a := by
  rw [mem_of_mapM_ok hread, h.said_iff]
  constructor
  · rintro ⟨raw, hraw, hok⟩
    obtain ⟨k, htext⟩ := (htexts raw).mp hraw
    obtain ⟨b, hkey, hok'⟩ := h k raw htext
    obtain rfl : b = a := by simpa [hok'] using hok
    exact ⟨raw, by rwa [hkey], rfl, hok'⟩
  · rintro ⟨raw, htext, -, hok⟩
    exact ⟨raw, (htexts raw).mpr ⟨_, htext⟩, hok _⟩

theorem Legible.exists_mapM (h : Legible read key text) : ∃ r, texts.mapM (read pre) = .ok r := by
  refine exists_mapM_ok fun raw hraw => ?_
  obtain ⟨k, htext⟩ := (htexts raw).mp hraw
  obtain ⟨a, -, hok⟩ := h k raw htext
  exact ⟨a, hok pre⟩

end Texts

/-! ### The graph -/

/-- The JSON of all rows of a table, as they are listed. -/
def Database.texts (db : Database) (t : ConfigTable) : List String :=
  (byCreation ConfigRow.createdAt (db.config t).rows).map ConfigRow.configJSON

theorem mem_texts {db : Database} {t : ConfigTable} {raw : String} :
    raw ∈ db.texts t ↔ ∃ k, db.text t k = some raw := by
  simp only [Database.texts, byCreation, List.mem_map, List.mem_insertionSort, Database.text,
    Option.map_eq_some_iff, Table.Keyed.lookup_eq_some_iff]
  constructor
  · rintro ⟨r, hr, rfl⟩
    exact ⟨r.id, r, ⟨hr, rfl⟩, rfl⟩
  · rintro ⟨k, r, ⟨hr, -⟩, rfl⟩
    exact ⟨r, hr, rfl⟩

namespace ConfigStore

variable (s : ConfigStore)

/-- The vaults and the syncs that the store holds, by id. -/
def graph (db : Database) : References.Graph String VaultConfig SyncConfig where
  nodes := said s.readVault (db.text .vaults)
  links := said s.readSync (db.text .syncs)

/-- Every row reads, as a configuration with the id of the row. -/
structure Sound (db : Database) : Prop where
  vaults : Legible s.readVault VaultConfig.id (db.text .vaults)
  syncs : Legible s.readSync SyncConfig.id (db.text .syncs)

/-- A load of the configuration can return `cfg`. -/
def Loads (db : Database) (cfg : Config) : Prop :=
  ∃ env, (s.loadConfig.run serve (env, db)).1 = .ok cfg

theorem sound_empty : s.Sound .empty where
  vaults := fun k raw h => by cases h
  syncs := fun k raw h => by cases h

variable {s} {db : Database}

/-- What a load that goes through has read. -/
theorem Loads.read {cfg : Config} (h : s.Loads db cfg) :
    (db.texts .vaults).mapM (s.readVault "storage: ListVaults unmarshal: ") = .ok cfg.vaults ∧
      (db.texts .syncs).mapM (s.readSync "storage: ListSyncs unmarshal: ") = .ok cfg.syncs := by
  obtain ⟨env, h⟩ := h
  rw [loadConfig, run_bind, listVaults, run_bind] at h
  rcases run_exec_cases "storage: ListVaults query: " (.selectConfigs .vaults) env db with
    ⟨-, err, hrun⟩ | hrun
  · rw [hrun] at h
    cases h
  rw [hrun] at h
  simp only [Stmt.exec, Except.mapError, pure_eq, run_ret] at h
  generalize hvaults : List.mapM (s.readVault "storage: ListVaults unmarshal: ") _ = vaults at h
  rcases vaults with err | vaults
  · cases h
  dsimp only at h
  rw [run_bind, listSyncs, run_bind] at h
  rcases run_exec_cases "storage: ListSyncs query: " (.selectConfigs .syncs) env.next db with
    ⟨-, err, hrun⟩ | hrun
  · rw [hrun] at h
    cases h
  rw [hrun] at h
  simp only [Stmt.exec, Except.mapError, pure_eq, run_ret] at h
  generalize hsyncs : List.mapM (s.readSync "storage: ListSyncs unmarshal: ") _ = syncs at h
  rcases syncs with err | syncs
  · cases h
  obtain rfl : { vaults := vaults, syncs := syncs } = cfg := Except.ok.inj h
  exact ⟨hvaults, hsyncs⟩

/-- And what is read, a load from a working database returns. -/
theorem run_loadConfig {env : Surroundings} (henv : env.Works) {vaults : List VaultConfig}
    {syncs : List SyncConfig}
    (hvaults : (db.texts .vaults).mapM (s.readVault "storage: ListVaults unmarshal: ") = .ok vaults)
    (hsyncs : (db.texts .syncs).mapM (s.readSync "storage: ListSyncs unmarshal: ") = .ok syncs) :
    (s.loadConfig.run serve (env, db)).1 = .ok { vaults := vaults, syncs := syncs } := by
  rw [Database.texts] at hvaults hsyncs
  rw [loadConfig, run_bind, listVaults, run_bind, run_exec henv]
  simp only [Stmt.exec, Except.mapError, pure_eq, run_ret, hvaults]
  rw [run_bind, listSyncs, run_bind, run_exec henv.next]
  simp only [Stmt.exec, Except.mapError, pure_eq, run_ret, hsyncs]

/-- A load that goes through returns what a load from a working database returns. -/
theorem Loads.of_works {cfg : Config} (h : s.Loads db cfg) {env : Surroundings} (henv : env.Works) :
    (s.loadConfig.run serve (env, db)).1 = .ok cfg := run_loadConfig henv h.read.1 h.read.2

theorem mem_vaults (hs : s.Sound db) {cfg : Config} (h : s.Loads db cfg) {v : VaultConfig} :
    v ∈ cfg.vaults ↔ (s.graph db).nodes v.id = some v :=
  hs.vaults.mem_of_mapM (fun _ => mem_texts) _ h.read.1 v

theorem mem_syncs (hs : s.Sound db) {cfg : Config} (h : s.Loads db cfg) {sc : SyncConfig} :
    sc ∈ cfg.syncs ↔ (s.graph db).links sc.id = some sc :=
  hs.syncs.mem_of_mapM (fun _ => mem_texts) _ h.read.2 sc

theorem Sound.node_id (hs : s.Sound db) {k : String} {v : VaultConfig}
    (h : (s.graph db).nodes k = some v) : v.id = k := by
  obtain ⟨raw, -, hid, -⟩ := hs.vaults.said_iff.mp h
  exact hid

theorem Sound.link_id (hs : s.Sound db) {k : String} {sc : SyncConfig}
    (h : (s.graph db).links k = some sc) : sc.id = k := by
  obtain ⟨raw, -, hid, -⟩ := hs.syncs.said_iff.mp h
  exact hid

/-- What is sound can be loaded. -/
theorem Sound.loads (hs : s.Sound db) : ∃ cfg, s.Loads db cfg := by
  obtain ⟨vaults, hvaults⟩ :=
    hs.vaults.exists_mapM (fun _ => mem_texts) "storage: ListVaults unmarshal: "
  obtain ⟨syncs, hsyncs⟩ :=
    hs.syncs.exists_mapM (fun _ => mem_texts) "storage: ListSyncs unmarshal: "
  exact ⟨_, {}, run_loadConfig Surroundings.works_default hvaults hsyncs⟩

/-! ### Changes -/

section Changes

variable {env env' : Surroundings} {db' : Database}

/-- A text was changed under one id, in one table. -/
theorem text_changed {t : ConfigTable} {id : String} {raw : Option String}
    (htext : ∀ t' k, db'.text t' k = if t' = t ∧ k = id then raw else db.text t' k) :
    (∀ k, db'.text t k = if k = id then raw else db.text t k) ∧
      ∀ t' ≠ t, db'.text t' = db.text t' :=
  ⟨fun k => by rw [htext]; simp, fun t' ht => funext fun k => by rw [htext]; simp [ht]⟩

theorem Sound.putVault (hs : s.Sound db) {v : VaultConfig} {raw : String}
    (htext : ∀ t' k, db'.text t' k = if t' = .vaults ∧ k = v.id then some raw else db.text t' k)
    (hread : ∀ pre, s.readVault pre raw = .ok v.reread) :
    s.Sound db' ∧ s.graph db' = (s.graph db).apply (.putNode v.id v.reread) := by
  obtain ⟨hvaults, hsyncs⟩ := text_changed htext
  have hsyncs := hsyncs .syncs (by decide)
  obtain ⟨hlegible, hsaid⟩ := hs.vaults.put hvaults (a := v.reread) rfl hread
  refine ⟨⟨hlegible, by rw [hsyncs]; exact hs.syncs⟩, ?_⟩
  rw [graph, hsaid, hsyncs]
  rfl

theorem sound_saveVault (hs : s.Sound db) {v : VaultConfig}
    (h : (s.saveVault v).run serve (env, db) = (.ok (), env', db')) :
    s.Sound db' ∧ s.graph db' = (s.graph db).apply (.putNode v.id v.reread) := by
  rw [saveVault] at h
  rcases hcipher : s.encryptor with _ | e
  · simp only [hcipher] at h
    refine hs.putVault (fun t' k => text_upsert h t' k) fun pre => ?_
    rw [readVault, VaultConfig.unmarshal_marshal, hcipher]
  · simp only [hcipher] at h
    rw [run_bind] at h
    generalize hrun : (encryptVaultAuth e v).run serve (env, db) = x at h
    obtain ⟨err | raw, env₁, db₁⟩ := x
    · cases h
    obtain ⟨hopens, rfl⟩ := run_encryptVaultAuth hrun
    refine hs.putVault (fun t' k => text_upsert h t' k) fun pre => ?_
    rw [readVault, VaultConfig.unmarshal_marshal, hcipher]
    exact hopens

theorem sound_deleteVault (hs : s.Sound db) {id : String}
    (h : (deleteVault id).run serve (env, db) = (.ok (), env', db')) :
    s.Sound db' ∧ s.graph db' = (s.graph db).apply (.dropNode id) := by
  obtain ⟨hvaults, hsyncs⟩ := text_changed (text_delete_ok h)
  have hsyncs := hsyncs .syncs (by decide)
  obtain ⟨hlegible, hsaid⟩ := hs.vaults.drop hvaults
  refine ⟨⟨hlegible, by rw [hsyncs]; exact hs.syncs⟩, ?_⟩
  rw [graph, hsaid, hsyncs]
  rfl

theorem sound_saveSync (hs : s.Sound db) {sc : SyncConfig}
    (h : (saveSync sc).run serve (env, db) = (.ok (), env', db')) :
    s.Sound db' ∧ s.graph db' = (s.graph db).apply (.putLink sc.id sc.reread) := by
  obtain ⟨hsyncs, hvaults⟩ := text_changed (text_upsert h)
  have hvaults := hvaults .vaults (by decide)
  obtain ⟨hlegible, hsaid⟩ := hs.syncs.put hsyncs (a := sc.reread) rfl fun pre => by
    rw [readSync, SyncConfig.unmarshal_marshal]
  refine ⟨⟨by rw [hvaults]; exact hs.vaults, hlegible⟩, ?_⟩
  rw [graph, hsaid, hvaults]
  rfl

theorem sound_deleteSync (hs : s.Sound db) {id : String}
    (h : (deleteSync id).run serve (env, db) = (.ok (), env', db')) :
    s.Sound db' ∧ s.graph db' = (s.graph db).apply (.dropLink id) := by
  obtain ⟨hsyncs, hvaults⟩ := text_changed (text_delete_ok h)
  have hvaults := hvaults .vaults (by decide)
  obtain ⟨hlegible, hsaid⟩ := hs.syncs.drop hsyncs
  refine ⟨⟨by rw [hvaults]; exact hs.vaults, hlegible⟩, ?_⟩
  rw [graph, hsaid, hvaults]
  rfl

end Changes

end ConfigStore

end VaultsSyncer
