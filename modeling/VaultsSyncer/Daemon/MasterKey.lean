import VaultsSyncer.Api.StoredConfig
import VaultsSyncer.GoStd.Base64
import VaultsSyncer.Schemes.Runs

/-! The master encryption key over the life of a database (`resolveEncryptor` in `main.go`,
    `security/passphrase.go`). A start without a key generates one, unless a marker in the database says
    that there is one already. The marker is set by such a start alone, so a database that was first
    used with a key of one's own is given a second key later (`empty_starts_fail_iff`). -/

namespace VaultsSyncer

open GoStd Schemes Schemes.Prog

/-! ### Keys -/

/-- The length of an AES-256 key in bytes. -/
def derivedKeyLen : ℕ := 32

/-- The text of ASCII bytes. -/
def textOf (b : Bytes) : String := String.ofList (b.map fun c => Char.ofNat c.toNat)

/-- Produces a new random master key. -/
def generateMasterKey : Db (Except GoError String) := do
  match ← Db.randRead derivedKeyLen with
  | .error err => return .error (.wrap "security: failed to generate random bytes: " err)
  | .ok b => return .ok (textOf (Base64.urlEncode b))

/-- Decodes a master key. -/
def masterKeyFromString (encoded : String) : Except GoError Bytes :=
  match Base64.urlDecode (utf8 encoded) with
  | .error err => .error (.wrap "security: invalid master key encoding: " err)
  | .ok b =>
    if b.length ≠ derivedKeyLen then
      .error (.new ("security: master key must be " ++ toString derivedKeyLen ++ " bytes, got " ++
        toString b.length))
    else .ok b

variable (aes : Bytes → Encryptor)

/-- An encryptor with the given 32-byte key. -/
def newAESEncryptor (key : Bytes) : Except GoError Encryptor :=
  if key.length ≠ 32 then
    .error (.new ("security: AES-256 key must be 32 bytes, got " ++ toString key.length))
  else .ok (aes key)

/-- The encryptor of a key in its textual form. -/
def encryptorOf (keyStr : String) : Except GoError Encryptor :=
  match masterKeyFromString keyStr with
  | .error err => .error (.wrap "invalid MASTER_ENCRYPTION_KEY: " err)
  | .ok keyBytes =>
    match newAESEncryptor aes keyBytes with
    | .error err => .error (.wrap "failed to create encryptor: " err)
    | .ok enc => .ok enc

/-! ### Starts -/

/-- What `resolveEncryptor` comes to: the key it has generated and printed, if so, and its result. -/
structure Resolution where
  printed : Option String := none
  encryptor : Except GoError Encryptor

def masterKeyMarker : String := "master_key_initialized"

/-- The encryptor for a value of `MASTER_ENCRYPTION_KEY`. -/
def resolveEncryptor (keyStr : String) : Db Resolution := do
  if keyStr = "" then
    match ← SettingsStore.getSetting masterKeyMarker with
    | .error err => return { encryptor := .error (.wrap "failed to check master key status: " err) }
    | .ok (some _) =>
      return { encryptor := .error (.new
        ("MASTER_ENCRYPTION_KEY environment variable is required but not set\n" ++
          "Set it to the key that was generated and printed on first start\n" ++
          "If you have lost the key, you must reset the database")) }
    | .ok none =>
      match ← generateMasterKey with
      | .error err => return { encryptor := .error (.wrap "failed to generate master key: " err) }
      | .ok generated =>
        match ← SettingsStore.setSetting masterKeyMarker "true" with
        | .error err =>
          return { printed := generated
                   encryptor := .error (.wrap "failed to persist key marker: " err) }
        | .ok () => return { printed := generated, encryptor := encryptorOf aes generated }
  else return { encryptor := encryptorOf aes keyStr }

/-- What `run` does with an encryptor: in a dry run nothing, else the configuration is loaded; `rest` is
    what the engine, the runner and the servers come to. -/
def startWith (jsonErr : String → GoError) (enc : Encryptor) (dryRun : Bool)
    (rest : Config → Except GoError Unit) : Db (Except GoError Unit) := do
  if dryRun then return .ok ()
  else
    match ← ConfigStore.loadConfig { encryptor := enc, jsonErr := jsonErr } with
    | .error err => return .error err
    | .ok cfg => return rest cfg

/-- A start of the daemon. -/
def runDaemon (jsonErr : String → GoError) (keyStr : String) (dryRun : Bool)
    (rest : Config → Except GoError Unit) : Db (Except GoError Unit) := do
  let resolution ← resolveEncryptor aes keyStr
  match resolution.encryptor with
  | .error err => return .error err
  | .ok enc => startWith jsonErr enc dryRun rest

/-! ### The life of a database -/

/-- What happens to a database: the daemon is started on it, or its configuration is written. -/
inductive DaemonEvent where
  | start (keyStr : String) (dryRun : Bool) (rest : Config → Except GoError Unit) (env : Surroundings)
  | write (s : ConfigStore) (r : ConfigRequest) (env : Surroundings)

/-- A database, and whether some start on it has succeeded. -/
structure DaemonState where
  db : Database
  started : Bool := false

variable (jsonErr : String → GoError)

def daemonStep (st : DaemonState) : DaemonEvent → DaemonState
  | .start keyStr dryRun rest env =>
    let r := (runDaemon aes jsonErr keyStr dryRun rest).run serve (env, st.db)
    { db := r.2.2, started := st.started || r.1.isOk }
  | .write s r env => { st with db := ((r.program s).run serve (env, st.db)).2.2 }

/-- Once a start has succeeded, one without a key fails, and generates none. -/
def EmptyStartsFail (st : DaemonState) : Prop :=
  st.started = true → ∀ env, ∃ err, ((resolveEncryptor aes "").run serve (env, st.db)).1 =
    { printed := none, encryptor := .error err }

/-- The database has the marker. -/
def Marked (db : Database) : Prop := db.appSettings.lookup masterKeyMarker ≠ none

/-- A key of one's own is used where the marker is set, or in vain. -/
def StartsMarked (st : DaemonState) : DaemonEvent → Prop
  | .start keyStr dryRun rest env =>
    keyStr ≠ "" → ∀ enc, encryptorOf aes keyStr = .ok enc →
      ((startWith jsonErr enc dryRun rest).run serve (env, st.db)).1 = .ok () → Marked st.db
  | .write _ _ _ => True

/-! ### Configuration requests -/

theorem allCalls_operation {s : ConfigStore} {r : ConfigRequest} {q : Db (Except GoError Unit)}
    (hq : r.operation s = some q) : q.AllCalls (DbCall.Only fun q => q.OnConfig = true) := by
  cases r with
  | createVault body | updateVault id body =>
    obtain ⟨v, -, rfl⟩ := Option.map_eq_some_iff.mp hq
    exact allCalls_saveVault (fun _ _ => rfl) fun _ _ => rfl
  | createSync body | updateSync id body =>
    obtain ⟨sc, -, rfl⟩ := Option.map_eq_some_iff.mp hq
    exact allCalls_upsertConfigRow (fun _ => rfl) fun _ => rfl
  | deleteVaultConfig id | deleteSyncConfig id =>
    obtain rfl := Option.some.inj hq
    exact allCalls_exec rfl

theorem allCalls_program (s : ConfigStore) (r : ConfigRequest) :
    (r.program s).AllCalls (DbCall.Only fun q => q.OnConfig = true) := by
  rcases program_handles s r with ⟨message, code, -, hp⟩ | ⟨q, hq, hhandles⟩
  · rw [hp]
    trivial
  · refine hhandles.allCalls (allCalls_operation hq) ?_
    rintro (stmt | n | _ | n) hop
    · exact hop.2
    all_goals trivial

/-- A configuration request leaves the marker as it is. -/
theorem marked_program (s : ConfigStore) (r : ConfigRequest) (env : Surroundings) (db : Database) :
    Marked ((r.program s).run serve (env, db)).2.2 ↔ Marked db := by
  rw [Marked, Marked, run_keeps Database.appSettings (fun _ d h => Stmt.exec_onConfig h d)
    (allCalls_program s r) env db]

/-! ### The marker -/

section Marker

variable {aes} {jsonErr} {keyStr : String} {dryRun : Bool} {rest : Config → Except GoError Unit}
  {env : Surroundings} {db : Database}

/-- Where the marker is set, a start without a key fails, and prints nothing. -/
theorem run_resolveEncryptor_marked (h : Marked db) (env : Surroundings) :
    ∃ err env', (resolveEncryptor aes "").run serve (env, db) =
      ({ encryptor := .error err }, env', db) := by
  obtain ⟨row, hrow⟩ := Option.ne_none_iff_exists'.mp h
  rw [resolveEncryptor, if_pos rfl, SettingsStore.getSetting, run_bind]
  rcases run_exec_cases "storage: GetSetting: " (.selectSetting masterKeyMarker) env db with
    ⟨-, err, hrun⟩ | hrun
  · rw [hrun]
    exact ⟨_, _, rfl⟩
  · rw [hrun]
    simp only [Stmt.exec, hrow]
    exact ⟨_, _, rfl⟩

/-- Where it is not, a key is generated, on a database that works. -/
theorem run_resolveEncryptor_unmarked (h : ¬Marked db) :
    ((resolveEncryptor aes "").run serve ({}, db)).1.printed ≠ none := by
  rw [resolveEncryptor, if_pos rfl, run_bind, run_getSetting Surroundings.works_default,
    not_not.mp h, Option.map_none]
  dsimp only
  rw [run_bind, generateMasterKey, run_bind, run_randRead]
  have hdraw : (Surroundings.next {}).random.head = .ok [] := rfl
  simp only [hdraw, Except.map, pure_eq, run_ret]
  rw [run_bind]
  generalize (SettingsStore.setSetting masterKeyMarker "true").run serve _ = x
  obtain ⟨err | ⟨⟩, y⟩ := x <;> exact Option.some_ne_none _

/-- A generated key is used only once the marker is set. -/
theorem run_resolveEncryptor_generated {enc : Encryptor} {printed : Option String}
    {env' : Surroundings} {db' : Database} (h : (resolveEncryptor aes "").run serve (env, db) =
      ({ printed := printed, encryptor := .ok enc }, env', db')) : Marked db' := by
  rw [resolveEncryptor, if_pos rfl, run_bind] at h
  generalize (SettingsStore.getSetting masterKeyMarker).run serve (env, db) = x at h
  obtain ⟨err | (_ | value), env₁, db₁⟩ := x
  · cases h
  · dsimp only at h
    rw [run_bind] at h
    generalize generateMasterKey.run serve (env₁, db₁) = y at h
    obtain ⟨err | generated, env₂, db₂⟩ := y
    · cases h
    dsimp only at h
    rw [run_bind] at h
    generalize hset : (SettingsStore.setSetting masterKeyMarker "true").run serve (env₂, db₂) = z at h
    obtain ⟨err | ⟨⟩, env₃, db₃⟩ := z
    · cases h
    · simp only [pure_eq, run_ret, Prod.mk.injEq] at h
      rw [← h.2.2]
      exact run_setSetting_ok hset
  · cases h

theorem resolveEncryptor_supplied (h : keyStr ≠ "") :
    resolveEncryptor aes keyStr = .ret { encryptor := encryptorOf aes keyStr } := by
  rw [resolveEncryptor, if_neg h, pure_eq]

theorem run_startWith_db (enc : Encryptor) (env : Surroundings) (db : Database) :
    ((startWith jsonErr enc dryRun rest).run serve (env, db)).2.2 = db := by
  refine run_reads ?_ env db
  rw [startWith]
  split_ifs
  · trivial
  · refine AllCalls.bind (allCalls_loadConfig fun _ => rfl) ?_
    rintro (err | cfg) <;> trivial

/-- A start with a key of one's own leaves the database as it is. -/
theorem run_runDaemon_supplied (h : keyStr ≠ "") (env : Surroundings) (db : Database) :
    ((runDaemon aes jsonErr keyStr dryRun rest).run serve (env, db)).2.2 = db ∧
      (((runDaemon aes jsonErr keyStr dryRun rest).run serve (env, db)).1.isOk ↔
        ∃ enc, encryptorOf aes keyStr = .ok enc ∧
          ((startWith jsonErr enc dryRun rest).run serve (env, db)).1 = .ok ()) := by
  rw [runDaemon, resolveEncryptor_supplied h, ret_bind]
  rcases encryptorOf aes keyStr with err | enc
  · simp [Except.isOk, Except.toBool]
  · refine ⟨run_startWith_db enc env db, ?_⟩
    simp only [Except.ok.injEq, exists_eq_left']
    rcases ((startWith jsonErr enc dryRun rest).run serve (env, db)).1 with err | ⟨⟩ <;>
      simp [Except.isOk, Except.toBool]

/-- One without a key that succeeds has set the marker, and none takes it away. -/
theorem run_runDaemon_empty (env : Surroundings) (db : Database)
    (h : Marked db ∨ ((runDaemon aes jsonErr "" dryRun rest).run serve (env, db)).1.isOk) :
    Marked ((runDaemon aes jsonErr "" dryRun rest).run serve (env, db)).2.2 := by
  rw [runDaemon, run_bind] at h ⊢
  rcases h with h | h
  · obtain ⟨err, env', hrun⟩ := run_resolveEncryptor_marked h env
    rw [hrun]
    exact h
  · generalize hrun : (resolveEncryptor aes "").run serve (env, db) = x at h ⊢
    obtain ⟨⟨printed, err | enc⟩, env', db'⟩ := x
    · cases h
    · dsimp only
      rw [run_startWith_db]
      exact run_resolveEncryptor_generated hrun

end Marker

/-- A start without a key fails just where the marker is set. -/
theorem emptyStartsFail_iff {st : DaemonState} :
    EmptyStartsFail aes st ↔ (st.started = true → Marked st.db) := by
  refine imp_congr_right fun _ => ?_
  constructor
  · intro h
    obtain ⟨err, herr⟩ := h {}
    by_contra hmarked
    exact run_resolveEncryptor_unmarked hmarked (congrArg Resolution.printed herr)
  · intro h env
    obtain ⟨err, env', hrun⟩ := run_resolveEncryptor_marked h env
    exact ⟨err, by rw [hrun]⟩

theorem emptyStartsFail_step (st : DaemonState) (ev : DaemonEvent) (h : EmptyStartsFail aes st) :
    EmptyStartsFail aes (daemonStep aes jsonErr st ev) ↔ StartsMarked aes jsonErr st ev := by
  rw [emptyStartsFail_iff] at h ⊢
  cases ev with
  | start keyStr dryRun rest env =>
    simp only [daemonStep, Bool.or_eq_true, StartsMarked]
    rcases eq_or_ne keyStr "" with rfl | hkey
    · refine iff_of_true ?_ fun hne => absurd rfl hne
      rintro (hstarted | hok)
      · exact run_runDaemon_empty env st.db (.inl (h hstarted))
      · exact run_runDaemon_empty env st.db (.inr hok)
    · obtain ⟨hdb, hok⟩ := run_runDaemon_supplied hkey env st.db
      rw [hdb, hok]
      constructor
      · intro hnext _ enc henc hstart
        exact hnext (.inr ⟨enc, henc, hstart⟩)
      · rintro hown (hstarted | ⟨enc, henc, hstart⟩)
        · exact h hstarted
        · exact hown hkey enc henc hstart
  | write s r env => simpa [daemonStep, StartsMarked, marked_program] using h

/-- In every life of a database, starts without a key fail once one has succeeded, just if a key of
    one's own is never used where the marker is not set. -/
theorem empty_starts_fail_iff (db : Database) (es : List DaemonEvent) :
    Runs.Always (daemonStep aes jsonErr) (EmptyStartsFail aes) { db := db } es ↔
      Runs.Each (daemonStep aes jsonErr) (StartsMarked aes jsonErr) { db := db } es := by
  have hstep : ∀ st ev, True → True → EmptyStartsFail aes st → True ∧
      (EmptyStartsFail aes (daemonStep aes jsonErr st ev) ↔ StartsMarked aes jsonErr st ev) :=
    fun st ev _ _ h => ⟨trivial, emptyStartsFail_step aes jsonErr st ev h⟩
  refine Runs.always_iff_each hstep trivial ?_ (Runs.each_of_forall _ fun _ _ _ => trivial)
  intro hstarted
  cases hstarted

/-- A valid key, for 32 bytes of ones. -/
def suppliedKey : String := textOf (Base64.urlEncode (List.replicate 32 1))

/-- After a first start with a key of one's own, a start without one generates a second key. -/
theorem second_key_generated : ¬Runs.Always (daemonStep (fun _ => markingCipher) .new)
    (EmptyStartsFail fun _ => markingCipher) { db := .empty }
    [.start suppliedKey false (fun _ => .ok ()) {}] := by
  rintro ⟨-, h⟩
  have hkey : suppliedKey ≠ "" := by decide +kernel
  have hstarted : (daemonStep (fun _ => markingCipher) .new { db := .empty }
      (.start suppliedKey false (fun _ => .ok ()) {})).started = true := by decide +kernel
  have hmarked := (emptyStartsFail_iff _).mp h hstarted
  simp only [daemonStep, (run_runDaemon_supplied hkey _ _).1] at hmarked
  exact hmarked rfl

end VaultsSyncer
