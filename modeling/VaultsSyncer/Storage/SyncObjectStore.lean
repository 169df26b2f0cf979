import Mathlib.Data.List.Sort
import Mathlib.Data.Stream.Init
import VaultsSyncer.Schemes.Prog
import VaultsSyncer.Storage.Dialect
import VaultsSyncer.Storage.SyncObjects

/-! The sync object store on the three database backends (`storage/store.go`). A statement goes to the
    driver as a text; a driver that does not take the markers in it returns an error, and what a
    statement does is the same on all of them. Only one method writes the markers of its backend: on
    postgres and mssql all others return errors (`results_eq_iff`). -/

namespace VaultsSyncer

open Schemes Schemes.Prog

/-! ### The database -/

/-- A row of `sync_history`. -/
structure SyncHistoryRow where
  id : ℕ
  syncObjectID : ℤ
  syncType : String
  status : String
  errorMessage : String
  durationMs : ℤ
  createdAt : ℤ
  deriving DecidableEq

structure SyncDatabase where
  syncObjects : SyncObjectTable := .empty
  syncHistory : List SyncHistoryRow := []
  syncsRun : List SyncRun := []

/-- The errors of a driver. -/
inductive DriverError where
  /-- The text has markers that the driver does not take. -/
  | syntaxError (text : String)
  | uniqueConstraint
  | foreignKeyConstraint
  deriving DecidableEq

/-- The statements of the store, with the values bound to their markers. -/
inductive SyncStmt where
  | updateObject (obj : SyncObject) (now : ℤ)
  | insertObject (obj : SyncObject) (now : ℤ)
  | selectObject (key : SyncKey)
  | selectObjects (syncID : String)
  | insertHistory (syncObjectID : ℤ) (syncType status errorMsg : String) (durationMs : ℤ)
  | insertRun (syncID status : String) (totalSynced totalFailed durationMs : ℤ) (errorMsg : String)
  | selectRuns (syncID : String) (limit : ℤ)
  | selectTopRuns (limit : ℤ) (syncID : String)

/-- What a statement returns: the number of rows it has changed, or the rows scanned. -/
abbrev SyncStmt.Val : SyncStmt → Type
  | .updateObject _ _ => ℕ
  | .selectObject _ => Option SyncObject
  | .selectObjects _ => List SyncObject
  | .selectRuns _ _ | .selectTopRuns _ _ => List SyncRun
  | _ => Unit

namespace SyncDatabase

/-- The objects of a sync, the last updated first. -/
def objectsOf (db : SyncDatabase) (syncID : String) : List SyncObject :=
  ((db.syncObjects.rows.filter fun r => r.syncID = syncID).insertionSort
    fun r r' => r'.updatedAt ≤ r.updatedAt).map SyncObjectRow.toSyncObject

/-- The last runs of a sync, the newest first. -/
def runsOf (db : SyncDatabase) (syncID : String) (limit : ℤ) : List SyncRun :=
  ((db.syncsRun.filter fun r => r.syncID = syncID).insertionSort
    fun r r' => r'.createdAt ≤ r.createdAt).take limit.toNat

end SyncDatabase

/-- What a statement does at a time. -/
def SyncStmt.exec (time : ℤ) :
    (s : SyncStmt) → SyncDatabase → Except DriverError s.Val × SyncDatabase
  | .updateObject obj now, db =>
    (.ok (db.syncObjects.affected obj), { db with syncObjects := db.syncObjects.update obj now })
  | .insertObject obj now, db =>
    if h : db.syncObjects.lookup obj.key = none then
      (.ok (), { db with syncObjects := db.syncObjects.insert obj now time h })
    else (.error .uniqueConstraint, db)
  | .selectObject key, db =>
    (.ok ((db.syncObjects.lookup key).map SyncObjectRow.toSyncObject), db)
  | .selectObjects syncID, db => (.ok (db.objectsOf syncID), db)
  | .insertHistory syncObjectID syncType status errorMsg durationMs, db =>
    if db.syncObjects.rows.any fun r => r.id = syncObjectID then
      (.ok (), { db with syncHistory := db.syncHistory ++
        [⟨db.syncHistory.length + 1, syncObjectID, syncType, status, errorMsg, durationMs, time⟩] })
    else (.error .foreignKeyConstraint, db)
  | .insertRun syncID status totalSynced totalFailed durationMs errorMsg, db =>
    (.ok (), { db with syncsRun := db.syncsRun ++
      [⟨db.syncsRun.length + 1, syncID, status, totalSynced, totalFailed, durationMs, errorMsg, time⟩] })
  | .selectRuns syncID limit, db => (.ok (db.runsOf syncID limit), db)
  | .selectTopRuns limit syncID, db => (.ok (db.runsOf syncID limit), db)

/-! ### Programs -/

/-- The calls of a method of the store. -/
inductive StoreCall where
  | now
  | sql (text : String) (s : SyncStmt)
  | rowsAffected (n : ℕ)

abbrev StoreCall.Ans : StoreCall → Type
  | .now => ℤ
  | .sql _ s => Except DriverError s.Val
  | .rowsAffected _ => Except DriverError ℕ

/-- How the calls are answered on a backend, by a clock that each of them reads. -/
def serveOn (dbType : DBType) : Handler StoreCall StoreCall.Ans (Stream' ℤ × SyncDatabase)
  | .now, (clock, db) => (clock.head, clock.tail, db)
  | .sql text s, (clock, db) =>
    if Takes dbType text then ((s.exec clock.head db).1, clock.tail, (s.exec clock.head db).2)
    else (.error (.syntaxError text), clock.tail, db)
  | .rowsAffected n, (clock, db) => (.ok n, clock.tail, db)

/-- What a method returns; a pointer, or a slice, and an error. -/
inductive StoreResult where
  | err (err : Option DriverError)
  | object (obj : Option SyncObject) (err : Option DriverError)
  | objects (objs : List SyncObject) (err : Option DriverError)
  | runs (runs : List SyncRun) (err : Option DriverError)
  deriving DecidableEq

/-- The error among what is returned. -/
def StoreResult.error : StoreResult → Option DriverError
  | .err e | .object _ e | .objects _ e | .runs _ e => e

namespace SyncObjectStore

abbrev Method := Prog StoreCall StoreCall.Ans StoreResult

def exec (text : String) (s : SyncStmt) : Prog StoreCall StoreCall.Ans (Except DriverError s.Val) :=
  perform (StoreCall.sql text s)

def readNow : Prog StoreCall StoreCall.Ans ℤ := perform StoreCall.now

/-- The error of a statement that returns nothing else. -/
def errorOf : Except DriverError Unit → Option DriverError
  | .error err => some err
  | .ok () => none

def updateText : String :=
"UPDATE sync_objects SET
external_id=?, source_checksum=?, target_checksum=?, last_sync_time=?,
last_sync_status=?, last_sync_error=?, sync_count=?, failure_count=?,
direction_last=?, updated_at=?
WHERE sync_id=? AND source_vault_id=? AND target_vault_id=? AND secret_name=?"

def insertText : String :=
"INSERT INTO sync_objects (sync_id, source_vault_id, target_vault_id, secret_name,
external_id, source_checksum, target_checksum, last_sync_time, last_sync_status,
last_sync_error, sync_count, failure_count, direction_last, updated_at)
VALUES (?,?,?,?,?,?,?,?,?,?,?,?,?,?)"

/-- Inserts or updates a sync object. -/
def upsertSyncObject (obj : SyncObject) : Method := do
  let now ← readNow
  match ← exec updateText (.updateObject obj now) with
  | .error err => return .err (some err)
  | .ok res =>
    match ← perform (StoreCall.rowsAffected res) with
    | .error err => return .err (some err)
    | .ok n =>
      if n = 0 then
        let r ← exec insertText (.insertObject obj now)
        return .err (errorOf r)
      else return .err none

def selectText : String :=
"SELECT id, sync_id, source_vault_id, target_vault_id, secret_name,
        external_id, source_checksum, target_checksum, last_sync_time,
        last_sync_status, last_sync_error, sync_count, failure_count, direction_last
FROM sync_objects
WHERE sync_id=? AND source_vault_id=? AND target_vault_id=? AND secret_name=?"

/-- A `SyncObject` that nothing was scanned into. -/
def zeroObject : SyncObject :=
  { syncID := "", sourceVaultID := "", targetVaultID := "", secretName := "" }

/-- Retrieves a sync object; with an error comes the object it was to be scanned into. -/
def getSyncObject (syncID sourceVaultID targetVaultID secretName : String) : Method := do
  match ← exec selectText (.selectObject ⟨syncID, sourceVaultID, targetVaultID, secretName⟩) with
  | .error err => return .object (some zeroObject) (some err)
  | .ok obj => return .object obj none

def selectBySyncText : String :=
"SELECT id, sync_id, source_vault_id, target_vault_id, secret_name,
        external_id, source_checksum, target_checksum, last_sync_time,
        last_sync_status, last_sync_error, sync_count, failure_count, direction_last
FROM sync_objects WHERE sync_id=? ORDER BY updated_at DESC"

/-- Retrieves all sync objects for a sync. -/
def getSyncObjectsBySync (syncID : String) : Method := do
  match ← exec selectBySyncText (.selectObjects syncID) with
  | .error err => return .objects [] (some err)
  | .ok objs => return .objects objs none

def historyText : String :=
"INSERT INTO sync_history (sync_object_id, sync_type, status, error_message, duration_ms)
VALUES (?,?,?,?,?)"

/-- Records a sync event. -/
def recordSyncHistory (syncObjectID : ℤ) (syncType status errorMsg : String) (durationMs : ℤ) :
    Method := do
  let r ← exec historyText (.insertHistory syncObjectID syncType status errorMsg durationMs)
  return .err (errorOf r)

def runText : String :=
"INSERT INTO syncs_run (sync_id, status, total_synced, total_failed, duration_ms, error_message)
VALUES (?,?,?,?,?,?)"

/-- Records a complete sync run. -/
def recordSyncRun (syncID status : String) (totalSynced totalFailed durationMs : ℤ)
    (errorMsg : String) : Method := do
  let r ← exec runText (.insertRun syncID status totalSynced totalFailed durationMs errorMsg)
  return .err (errorOf r)

def topRunsText (dbType : DBType) : String :=
  "SELECT TOP (" ++ placeholder dbType 1 ++
    ") id, sync_id, status, total_synced, total_failed, duration_ms, error_message, created_at
FROM syncs_run WHERE sync_id=" ++ placeholder dbType 2 ++ " ORDER BY created_at DESC"

def runsText (dbType : DBType) : String :=
  "SELECT id, sync_id, status, total_synced, total_failed, duration_ms, error_message, created_at
FROM syncs_run WHERE sync_id=" ++ placeholder dbType 1 ++ " ORDER BY created_at DESC LIMIT " ++
    placeholder dbType 2

/-- The runs scanned, or none and the error. -/
def runsOf : Except DriverError (List SyncRun) → StoreResult
  | .error err => .runs [] (some err)
  | .ok runs => .runs runs none

/-- Retrieves sync runs for a sync. -/
def getSyncRuns (dbType : DBType) (syncID : String) (limit : ℤ) : Method := do
  let limit := if limit ≤ 0 then 100 else limit
  if dbType = DBType.mssql then
    -- MSSQL does not support LIMIT
    let r ← exec (topRunsText dbType) (.selectTopRuns limit syncID)
    return runsOf r
  else
    let r ← exec (runsText dbType) (.selectRuns syncID limit)
    return runsOf r

end SyncObjectStore

/-! ### Sequences of calls -/

/-- A call of a method of the store. -/
inductive StoreOp where
  | upsertSyncObject (obj : SyncObject)
  | getSyncObject (syncID sourceVaultID targetVaultID secretName : String)
  | getSyncObjectsBySync (syncID : String)
  | recordSyncHistory (syncObjectID : ℤ) (syncType status errorMsg : String) (durationMs : ℤ)
  | recordSyncRun (syncID status : String) (totalSynced totalFailed durationMs : ℤ) (errorMsg : String)
  | getSyncRuns (syncID : String) (limit : ℤ)

def StoreOp.program (dbType : DBType) : StoreOp → SyncObjectStore.Method
  | .upsertSyncObject obj => SyncObjectStore.upsertSyncObject obj
  | .getSyncObject syncID sourceVaultID targetVaultID secretName =>
    SyncObjectStore.getSyncObject syncID sourceVaultID targetVaultID secretName
  | .getSyncObjectsBySync syncID => SyncObjectStore.getSyncObjectsBySync syncID
  | .recordSyncHistory syncObjectID syncType status errorMsg durationMs =>
    SyncObjectStore.recordSyncHistory syncObjectID syncType status errorMsg durationMs
  | .recordSyncRun syncID status totalSynced totalFailed durationMs errorMsg =>
    SyncObjectStore.recordSyncRun syncID status totalSynced totalFailed durationMs errorMsg
  | .getSyncRuns syncID limit => SyncObjectStore.getSyncRuns dbType syncID limit

/-- The one method that asks for the placeholders of its backend. -/
def StoreOp.IsGetSyncRuns : StoreOp → Prop
  | .getSyncRuns _ _ => True
  | _ => False

/-- What the calls return, one after another, each with the clock it reads. -/
def results (dbType : DBType) : SyncDatabase → List (StoreOp × Stream' ℤ) → List StoreResult
  | _, [] => []
  | db, (op, clock) :: ops =>
    let r := (op.program dbType).run (serveOn dbType) (clock, db)
    r.1 :: results dbType r.2.2 ops

/-! ### Which statements are taken -/

/-- The parameters of the statement are all question marks, and there are some. -/
def QuestionMarks (text : String) : Prop :=
  .question ∈ markers text.toList ∧ ∀ m ∈ markers text.toList, m = .question

theorem QuestionMarks.takes_iff {text : String} (h : QuestionMarks text) (dbType : DBType) :
    Takes dbType text ↔ dbType ≠ DBType.postgres ∧ dbType ≠ DBType.mssql := by
  constructor
  · intro ht
    exact ht _ h.1
  · intro hne m hm
    rw [h.2 m hm]
    exact hne

theorem QuestionMarks.ofList {cs : List Char}
    (h : .question ∈ markers cs ∧ ∀ m ∈ markers cs, m = .question) :
    QuestionMarks (String.ofList cs) := by
  rw [QuestionMarks, String.toList_ofList]
  exact h

namespace SyncObjectStore

section Texts

-- the texts are taken apart into their characters
set_option maxRecDepth 8000

theorem texts_marks : QuestionMarks updateText ∧ QuestionMarks insertText ∧ QuestionMarks selectText ∧
    QuestionMarks selectBySyncText ∧ QuestionMarks historyText ∧ QuestionMarks runText := by
  refine ⟨.ofList ?_, .ofList ?_, .ofList ?_, .ofList ?_, .ofList ?_, .ofList ?_⟩ <;> decide +kernel

/-- The characters of a text that is put together. -/
theorem toList_append_of {a b : String} {cs ds : List Char} (ha : a.toList = cs) (hb : b.toList = ds) :
    (a ++ b).toList = cs ++ ds := by
  rw [String.toList_append, ha, hb]

theorem takes_topRunsText : Takes DBType.mssql (topRunsText DBType.mssql) := by
  have hsync : (placeholder DBType.mssql 2).toList = ['@', 'p', '2'] := by decide +kernel
  have hlimit : (placeholder DBType.mssql 1).toList = ['@', 'p', '1'] := by decide +kernel
  have htext : (topRunsText DBType.mssql).toList = _ :=
    toList_append_of (toList_append_of (toList_append_of
      (toList_append_of String.toList_ofList hlimit) String.toList_ofList) hsync) String.toList_ofList
  rw [Takes, htext]
  decide +kernel

theorem takes_runsText {dbType : DBType} (h : dbType = DBType.sqlite ∨ dbType = DBType.postgres) :
    Takes dbType (runsText dbType) := by
  have htext {ds ds' : List Char} (hsync : (placeholder dbType 1).toList = ds)
      (hlimit : (placeholder dbType 2).toList = ds') : (runsText dbType).toList = _ :=
    toList_append_of (toList_append_of (toList_append_of String.toList_ofList hsync)
      String.toList_ofList) hlimit
  rcases h with rfl | rfl
  · have hmark (n : ℕ) : (placeholder DBType.sqlite n).toList = ['?'] := String.toList_ofList
    rw [Takes, htext (hmark 1) (hmark 2)]
    decide +kernel
  · have hsync : (placeholder DBType.postgres 1).toList = ['$', '1'] := by decide +kernel
    have hlimit : (placeholder DBType.postgres 2).toList = ['$', '2'] := by decide +kernel
    rw [Takes, htext hsync hlimit]
    decide +kernel

end Texts

end SyncObjectStore

section Dialects

variable {dbType : DBType} {clock : Stream' ℤ} {db : SyncDatabase}

theorem run_readNow :
    SyncObjectStore.readNow.run (serveOn dbType) (clock, db) = (clock.head, clock.tail, db) := rfl

theorem run_exec_taken {text : String} (h : Takes dbType text) (s : SyncStmt) :
    (SyncObjectStore.exec text s).run (serveOn dbType) (clock, db) =
      ((s.exec clock.head db).1, clock.tail, (s.exec clock.head db).2) := by
  change serveOn dbType (.sql text s) (clock, db) = _
  rw [serveOn, if_pos h]

theorem run_exec_rejected {text : String} (h : ¬Takes dbType text) (s : SyncStmt) :
    (SyncObjectStore.exec text s).run (serveOn dbType) (clock, db) =
      (.error (.syntaxError text), clock.tail, db) := by
  change serveOn dbType (.sql text s) (clock, db) = _
  rw [serveOn, if_neg h]

/-- A method that passes the error of its statement on. -/
theorem error_of_exec {text : String} (h : ¬Takes dbType text) {s : SyncStmt}
    {f : Except DriverError s.Val → SyncObjectStore.Method}
    (hf : ∀ err, ∃ r : StoreResult, f (.error err) = .ret r ∧ r.error = some err) :
    ((SyncObjectStore.exec text s >>= f).run (serveOn dbType) (clock, db)).1.error =
      some (.syntaxError text) := by
  obtain ⟨r, hr, herror⟩ := hf (.syntaxError text)
  rw [run_bind, run_exec_rejected h, hr, run_ret]
  exact herror

/-- A backend that does not take question marks returns a syntax error from every method but one. -/
theorem error_of_rejected (h : ¬(dbType ≠ DBType.postgres ∧ dbType ≠ DBType.mssql)) {op : StoreOp}
    (hop : ¬op.IsGetSyncRuns) :
    ∃ text, ((op.program dbType).run (serveOn dbType) (clock, db)).1.error =
      some (.syntaxError text) := by
  have hrejected : ∀ {text}, QuestionMarks text → ¬Takes dbType text := fun hm => mt (hm.takes_iff _).mp h
  obtain ⟨hupdate, -, hselect, hbySync, hhistory, hrun⟩ := SyncObjectStore.texts_marks
  cases op with
  | upsertSyncObject obj =>
    refine ⟨SyncObjectStore.updateText, ?_⟩
    rw [StoreOp.program, SyncObjectStore.upsertSyncObject, run_bind, run_readNow]
    exact error_of_exec (hrejected hupdate) fun err => ⟨_, rfl, rfl⟩
  | getSyncObject a b c d =>
    exact ⟨_, error_of_exec (hrejected hselect) fun err => ⟨_, rfl, rfl⟩⟩
  | getSyncObjectsBySync a =>
    exact ⟨_, error_of_exec (hrejected hbySync) fun err => ⟨_, rfl, rfl⟩⟩
  | recordSyncHistory a b c d e =>
    exact ⟨_, error_of_exec (hrejected hhistory) fun err => ⟨_, rfl, rfl⟩⟩
  | recordSyncRun a b c d e f =>
    exact ⟨_, error_of_exec (hrejected hrun) fun err => ⟨_, rfl, rfl⟩⟩
  | getSyncRuns a b => exact absurd trivial hop

/-- The error of a statement that was taken is none of syntax. -/
theorem exec_ne_syntaxError (s : SyncStmt) (time : ℤ) (db : SyncDatabase) (text : String) :
    (s.exec time db).1 ≠ .error (.syntaxError text) := by
  cases s with
  | insertObject obj now =>
    simp only [SyncStmt.exec]
    split_ifs <;> simp
  | insertHistory a b c d e =>
    simp only [SyncStmt.exec]
    split_ifs <;> simp
  | _ => simp [SyncStmt.exec]

/-- Where its statement is taken, a method that passes the error of the statement on, and returns none
    else, returns no syntax error. -/
theorem error_of_taken {text : String} (h : Takes dbType text) {s : SyncStmt}
    {f : Except DriverError s.Val → SyncObjectStore.Method}
    (herr : ∀ err, ∃ r : StoreResult, f (.error err) = .ret r ∧ r.error = some err)
    (hok : ∀ v, ∃ r : StoreResult, f (.ok v) = .ret r ∧ r.error = none) (text' : String) :
    ((SyncObjectStore.exec text s >>= f).run (serveOn dbType) (clock, db)).1.error ≠
      some (.syntaxError text') := by
  have hne := exec_ne_syntaxError s clock.head db text'
  rw [run_bind, run_exec_taken h]
  rcases hexec : (s.exec clock.head db).1 with err | v
  · obtain ⟨r, hr, herror⟩ := herr err
    rw [hr, run_ret, herror]
    exact fun heq => hne (hexec.trans (congrArg Except.error (Option.some.inj heq)))
  · obtain ⟨r, hr, hnone⟩ := hok v
    rw [hr, run_ret, hnone]
    exact fun heq => by cases heq

theorem error_of_sqlite (op : StoreOp) (text : String) :
    ((op.program DBType.sqlite).run (serveOn DBType.sqlite) (clock, db)).1.error ≠
      some (.syntaxError text) := by
  have htaken : ∀ {text}, QuestionMarks text → Takes DBType.sqlite text :=
    fun hm => (hm.takes_iff _).mpr (by decide)
  obtain ⟨hupdate, hinsert, hselect, hbySync, hhistory, hrun⟩ := SyncObjectStore.texts_marks
  cases op with
  | upsertSyncObject obj =>
    rw [StoreOp.program, SyncObjectStore.upsertSyncObject, run_bind, run_readNow]
    dsimp only
    rw [run_bind, run_exec_taken (htaken hupdate)]
    simp only [SyncStmt.exec]
    rw [perform_bind, run_call]
    simp only [serveOn]
    split_ifs
    · exact error_of_taken (htaken hinsert) (fun err => ⟨_, rfl, rfl⟩)
        (fun v => ⟨_, rfl, rfl⟩) text
    · simp [StoreResult.error]
  | getSyncObject a b c d =>
    exact error_of_taken (htaken hselect) (fun err => ⟨_, rfl, rfl⟩)
      (fun v => ⟨_, rfl, rfl⟩) text
  | getSyncObjectsBySync a =>
    exact error_of_taken (htaken hbySync) (fun err => ⟨_, rfl, rfl⟩)
      (fun v => ⟨_, rfl, rfl⟩) text
  | recordSyncHistory a b c d e =>
    exact error_of_taken (htaken hhistory) (fun err => ⟨_, rfl, rfl⟩)
      (fun v => ⟨_, rfl, rfl⟩) text
  | recordSyncRun a b c d e f =>
    exact error_of_taken (htaken hrun) (fun err => ⟨_, rfl, rfl⟩)
      (fun v => ⟨_, rfl, rfl⟩) text
  | getSyncRuns a b =>
    exact error_of_taken (SyncObjectStore.takes_runsText (.inl rfl)) (fun err => ⟨_, rfl, rfl⟩)
      (fun v => ⟨_, rfl, rfl⟩) text

/-- The runs of a sync are read alike on every backend. -/
theorem run_getSyncRuns (hdb : dbType = DBType.sqlite ∨ dbType = DBType.postgres ∨ dbType = DBType.mssql)
    (syncID : String) (limit : ℤ) :
    (SyncObjectStore.getSyncRuns dbType syncID limit).run (serveOn dbType) (clock, db) =
      (.runs (db.runsOf syncID (if limit ≤ 0 then 100 else limit)) none, clock.tail, db) := by
  rw [SyncObjectStore.getSyncRuns]
  by_cases hmssql : dbType = DBType.mssql
  · subst hmssql
    rw [if_pos rfl, run_bind, run_exec_taken SyncObjectStore.takes_topRunsText]
    rfl
  · have htaken : Takes dbType (SyncObjectStore.runsText dbType) :=
      SyncObjectStore.takes_runsText (by tauto)
    rw [if_neg hmssql, run_bind, run_exec_taken htaken]
    rfl

end Dialects

theorem results_getSyncRuns {dbType : DBType}
    (hdb : dbType = DBType.sqlite ∨ dbType = DBType.postgres ∨ dbType = DBType.mssql)
    {ops : List (StoreOp × Stream' ℤ)} (hops : ∀ op ∈ ops, op.1.IsGetSyncRuns) (db : SyncDatabase) :
    results dbType db ops = results DBType.sqlite db ops := by
  induction ops with
  | nil => rfl
  | cons op ops ih =>
    obtain ⟨op, clock⟩ := op
    have hop : op.IsGetSyncRuns := hops _ List.mem_cons_self
    cases op with
    | getSyncRuns syncID limit =>
      simp only [results, StoreOp.program, run_getSyncRuns hdb, run_getSyncRuns (.inl rfl)]
      rw [ih fun op hop => hops op (List.mem_cons_of_mem _ hop)]
    | _ => exact hop.elim

/-- Whatever the databases hold, a syntax error is returned on one backend alone. -/
theorem isGetSyncRuns_of_results {dbType : DBType}
    (h : ¬(dbType ≠ DBType.postgres ∧ dbType ≠ DBType.mssql)) {ops : List (StoreOp × Stream' ℤ)}
    {db db' : SyncDatabase} (heq : results dbType db ops = results DBType.sqlite db' ops) :
    ∀ op ∈ ops, op.1.IsGetSyncRuns := by
  induction ops generalizing db db' with
  | nil => simp
  | cons op ops ih =>
    obtain ⟨op, clock⟩ := op
    obtain ⟨hhead, htail⟩ := List.cons_eq_cons.mp heq
    intro op' hop'
    rcases List.mem_cons.mp hop' with rfl | hop'
    · by_contra hne
      obtain ⟨text, htext⟩ := @error_of_rejected dbType clock db h op hne
      rw [hhead] at htext
      exact error_of_sqlite op text htext
    · exact ih htail op' hop'

/-- What is returned alike on a backend and on sqlite: on sqlite itself everything, and on the others
    the runs of a sync alone. -/
theorem results_eq_iff {sqlOpen : String → String → Option GoStd.GoError} {cfg : DBConfig}
    {conn : Connection} (hopen : openDB sqlOpen cfg = .ok conn) (db : SyncDatabase)
    (ops : List (StoreOp × Stream' ℤ)) :
    results cfg.type db ops = results DBType.sqlite db ops ↔
      cfg.type = DBType.sqlite ∨ ∀ op ∈ ops, op.1.IsGetSyncRuns := by
  have htype := openDB_type hopen
  constructor
  · intro heq
    refine or_iff_not_imp_left.mpr fun hne => isGetSyncRuns_of_results ?_ heq
    tauto
  · rintro (hsqlite | hops)
    · rw [hsqlite]
    · exact results_getSyncRuns htype hops db

/-- A connection that opens, to a postgres server. -/
def postgresConfig : DBConfig := { type := DBType.postgres, dsn := "postgres://db/sync" }

/-- Two runs of the sync `s` and one of another. -/
def threeRuns : SyncDatabase where
  syncsRun := [⟨1, "s", "success", 1, 0, 20, "", 5⟩, ⟨2, "t", "success", 3, 0, 20, "", 6⟩,
    ⟨3, "s", "failed", 0, 1, 20, "", 7⟩]

/-- The runs of a sync, asked for twice. -/
def runsTwice : List (StoreOp × Stream' ℤ) :=
  [(.getSyncRuns "s" 0, Stream'.const 0), (.getSyncRuns "s" 1, Stream'.const 0)]

theorem results_runsTwice :
    results postgresConfig.type threeRuns runsTwice = results DBType.sqlite threeRuns runsTwice ∧
      results DBType.sqlite threeRuns runsTwice =
        [.runs [⟨3, "s", "failed", 0, 1, 20, "", 7⟩, ⟨1, "s", "success", 1, 0, 20, "", 5⟩] none,
          .runs [⟨3, "s", "failed", 0, 1, 20, "", 7⟩] none] := by
  have hopen : openDB (fun _ _ => none) postgresConfig = .ok ⟨"postgres", "postgres://db/sync"⟩ := by
    decide
  refine ⟨(results_eq_iff hopen threeRuns runsTwice).mpr (.inr ?_), by decide +kernel⟩
  intro op hop
  simp only [runsTwice, List.mem_cons, List.not_mem_nil, or_false] at hop
  rcases hop with rfl | rfl <;> trivial

/-- On postgres an object is not even recorded. -/
theorem upsert_differs : ¬∀ (sqlOpen : String → String → Option GoStd.GoError) (cfg : DBConfig)
    (conn : Connection), openDB sqlOpen cfg = .ok conn → ∀ db ops,
      results cfg.type db ops = results DBType.sqlite db ops := by
  intro h
  have heq := h (fun _ _ => none) postgresConfig ⟨"postgres", "postgres://db/sync"⟩ (by decide) {}
    [(.upsertSyncObject ⟨0, "s", "a", "b", "token", "", "", "", 0, "success", "", 0, 0, ""⟩,
      Stream'.const 0)]
  exact isGetSyncRuns_of_results (by decide) heq _ List.mem_cons_self

end VaultsSyncer
