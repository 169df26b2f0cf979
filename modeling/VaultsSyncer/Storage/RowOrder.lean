import VaultsSyncer.Schemes.OrderBy
import VaultsSyncer.Storage.SyncObjectStore

/-! The two queries of the store that sort (`storage/store.go`). Their timestamps are whole seconds, and
    SQL leaves it open how rows of one second are ordered: a `RowOrder` is one way to order them, and
    `serveOrdered` answers the queries by it. -/

namespace VaultsSyncer

open Schemes Schemes.Prog
open OrderBy (Ordered)

/-- How a database orders the rows of a query, whatever these are. -/
structure RowOrder where
  runs : List SyncRun → List SyncRun
  objects : List SyncObjectRow → List SyncObjectRow
  runs_ordered : ∀ rows, Ordered SyncRun.createdAt rows (runs rows)
  objects_ordered : ∀ rows, Ordered SyncObjectRow.updatedAt rows (objects rows)

theorem ordered_insertionSort {α : Type} (key : α → ℤ) (rows : List α) :
    Ordered key rows (rows.insertionSort fun a b => key b ≤ key a) := by
  have : Std.Total fun a b : α => key b ≤ key a := ⟨fun a b => le_total (key b) (key a)⟩
  have : IsTrans α fun a b => key b ≤ key a := ⟨fun _ _ _ hab hbc => hbc.trans hab⟩
  exact ⟨List.perm_insertionSort _ rows, List.pairwise_insertionSort _ rows⟩

/-- Rows that tie are left as they are stored. -/
def RowOrder.stable : RowOrder where
  runs rows := rows.insertionSort fun r r' => r'.createdAt ≤ r.createdAt
  objects rows := rows.insertionSort fun r r' => r'.updatedAt ≤ r.updatedAt
  runs_ordered := ordered_insertionSort SyncRun.createdAt
  objects_ordered := ordered_insertionSort SyncObjectRow.updatedAt

theorem ordered_mergeSort {α : Type} (key : α → ℤ) (rows : List α) :
    Ordered key rows (rows.mergeSort fun a b => key b ≤ key a) := by
  have hsorted : (rows.mergeSort fun a b => decide (key b ≤ key a)).Pairwise
      fun a b => decide (key b ≤ key a) = true := by
    refine List.pairwise_mergeSort (fun a b c hab hbc => ?_) (fun a b => ?_) rows
    · exact decide_eq_true ((of_decide_eq_true hbc).trans (of_decide_eq_true hab))
    · simpa using le_total (key b) (key a)
  exact ⟨List.mergeSort_perm _ _, hsorted.imp of_decide_eq_true⟩

/-- The order of a merge sort. -/
def RowOrder.mergeSorted : RowOrder where
  runs rows := rows.mergeSort fun r r' => r'.createdAt ≤ r.createdAt
  objects rows := rows.mergeSort fun r r' => r'.updatedAt ≤ r.updatedAt
  runs_ordered := ordered_mergeSort SyncRun.createdAt
  objects_ordered := ordered_mergeSort SyncObjectRow.updatedAt

/-- The runs of a sync are ordered as `answer`, and all others as they are stored. -/
def RowOrder.answering {rows answer : List SyncRun} (h : Ordered SyncRun.createdAt rows answer) :
    RowOrder where
  runs := Function.update RowOrder.stable.runs rows answer
  objects := RowOrder.stable.objects
  runs_ordered := by
    intro rows'
    rcases eq_or_ne rows' rows with rfl | hne
    · rwa [Function.update_self]
    · rw [Function.update_of_ne hne]
      exact RowOrder.stable.runs_ordered rows'
  objects_ordered := RowOrder.stable.objects_ordered

/-- The runs of a sync, in the order in which they were recorded. -/
def SyncDatabase.recordedRuns (db : SyncDatabase) (syncID : String) : List SyncRun :=
  db.syncsRun.filter fun r => r.syncID = syncID

/-- The objects of a sync, as they are stored. -/
def SyncDatabase.storedObjects (db : SyncDatabase) (syncID : String) : List SyncObjectRow :=
  db.syncObjects.rows.filter fun r => r.syncID = syncID

/-- What a statement returns where the rows come in some order. -/
def SyncStmt.answer (o : RowOrder) (time : ℤ) :
    (s : SyncStmt) → SyncDatabase → Except DriverError s.Val
  | .selectObjects syncID, db =>
    .ok ((o.objects (db.storedObjects syncID)).map SyncObjectRow.toSyncObject)
  | .selectRuns syncID limit, db => .ok ((o.runs (db.recordedRuns syncID)).take limit.toNat)
  | .selectTopRuns limit syncID, db => .ok ((o.runs (db.recordedRuns syncID)).take limit.toNat)
  | .updateObject obj now, db => (SyncStmt.exec time (.updateObject obj now) db).1
  | .insertObject obj now, db => (SyncStmt.exec time (.insertObject obj now) db).1
  | .selectObject key, db => (SyncStmt.exec time (.selectObject key) db).1
  | .insertHistory a b c d e, db => (SyncStmt.exec time (.insertHistory a b c d e) db).1
  | .insertRun a b c d e f, db => (SyncStmt.exec time (.insertRun a b c d e f) db).1

/-- How the calls are answered on a backend that orders its rows in some way. -/
def serveOrdered (o : RowOrder) (dbType : DBType) :
    Handler StoreCall StoreCall.Ans (Stream' ℤ × SyncDatabase)
  | .now, (clock, db) => (clock.head, clock.tail, db)
  | .sql text s, (clock, db) =>
    if Takes dbType text then (s.answer o clock.head db, clock.tail, (s.exec clock.head db).2)
    else (.error (.syntaxError text), clock.tail, db)
  | .rowsAffected n, (clock, db) => (.ok n, clock.tail, db)

/-- `serveOn` is one of them. -/
theorem serveOrdered_stable (dbType : DBType) : serveOrdered .stable dbType = serveOn dbType := by
  funext op s
  obtain ⟨clock, db⟩ := s
  cases op with
  | now | rowsAffected n => rfl
  | sql text s =>
    have hanswer : s.answer .stable clock.head db = (s.exec clock.head db).1 := by
      cases s <;> rfl
    rw [serveOrdered, serveOn, hanswer]

section Queries

variable {o : RowOrder} {dbType : DBType} {clock : Stream' ℤ} {db : SyncDatabase}

theorem run_ordered_taken {text : String} (h : Takes dbType text) (s : SyncStmt) :
    (SyncObjectStore.exec text s).run (serveOrdered o dbType) (clock, db) =
      (s.answer o clock.head db, clock.tail, (s.exec clock.head db).2) := by
  change serveOrdered o dbType (.sql text s) (clock, db) = _
  rw [serveOrdered, if_pos h]

/-- The runs of a sync, on a backend that orders them in some way. -/
theorem run_ordered_getSyncRuns
    (hdb : dbType = DBType.sqlite ∨ dbType = DBType.postgres ∨ dbType = DBType.mssql)
    (syncID : String) (limit : ℤ) :
    (SyncObjectStore.getSyncRuns dbType syncID limit).run (serveOrdered o dbType) (clock, db) =
      (.runs ((o.runs (db.recordedRuns syncID)).take (if limit ≤ 0 then 100 else limit).toNat) none,
        clock.tail, db) := by
  rw [SyncObjectStore.getSyncRuns]
  by_cases hmssql : dbType = DBType.mssql
  · subst hmssql
    rw [if_pos rfl, run_bind, run_ordered_taken SyncObjectStore.takes_topRunsText]
    rfl
  · have htaken : Takes dbType (SyncObjectStore.runsText dbType) :=
      SyncObjectStore.takes_runsText (by tauto)
    rw [if_neg hmssql, run_bind, run_ordered_taken htaken]
    rfl

/-- The objects of a sync, on sqlite. -/
theorem run_ordered_getSyncObjectsBySync (syncID : String) :
    (SyncObjectStore.getSyncObjectsBySync syncID).run (serveOrdered o DBType.sqlite) (clock, db) =
      (.objects ((o.objects (db.storedObjects syncID)).map SyncObjectRow.toSyncObject) none,
        clock.tail, db) := by
  obtain ⟨-, -, -, hmarks, -⟩ := SyncObjectStore.texts_marks
  rw [SyncObjectStore.getSyncObjectsBySync, run_bind,
    run_ordered_taken ((hmarks.takes_iff _).mpr (by decide))]
  rfl

end Queries

end VaultsSyncer
