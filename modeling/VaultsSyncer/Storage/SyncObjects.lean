import VaultsSyncer.Config.Types
import VaultsSyncer.Schemes.Table

/-! The tables `sync_objects` and `syncs_run` (`storage/store.go`) and the single SQL statements on
    them. The table type carries what the schema enforces: the UNIQUE key, and row ids that are never
    handed out twice. -/

namespace VaultsSyncer

open Schemes

/-- The columns of the UNIQUE constraint. -/
structure SyncKey where
  syncID : String
  sourceVaultID : String
  targetVaultID : String
  secretName : String
  deriving DecidableEq

def SyncObject.key (o : SyncObject) : SyncKey :=
  ⟨o.syncID, o.sourceVaultID, o.targetVaultID, o.secretName⟩

/-- A row: the object as `GetSyncObject` scans it, and the two timestamps it leaves out. -/
structure SyncObjectRow extends SyncObject where
  createdAt : ℤ
  updatedAt : ℤ
  deriving DecidableEq

def SyncObjectRow.rowKey (r : SyncObjectRow) : SyncKey := r.toSyncObject.key

structure SyncObjectTable where
  rows : List SyncObjectRow
  nextID : ℕ
  keys_nodup : (rows.map SyncObjectRow.rowKey).Nodup
  ids_nodup : (rows.map fun r => r.id).Nodup
  ids_lt : ∀ r ∈ rows, r.id < nextID

namespace SyncObjectTable

/-- The table of a fresh database; SQLite hands out ids from 1. -/
def empty : SyncObjectTable := ⟨[], 1, by simp, by simp, by simp⟩

/-- The row under a key. -/
def lookup (t : SyncObjectTable) (k : SyncKey) : Option SyncObjectRow :=
  Table.lookup SyncObjectRow.rowKey k t.rows

/-- The `SET` list of the `UPDATE`: the key, the id and `created_at` stay. -/
def assign (o : SyncObject) (now : ℤ) (r : SyncObjectRow) : SyncObjectRow :=
  { o with id := r.id, syncID := r.syncID, sourceVaultID := r.sourceVaultID
           targetVaultID := r.targetVaultID, secretName := r.secretName
           createdAt := r.createdAt, updatedAt := now }

@[simp] theorem rowKey_assign (o : SyncObject) (now : ℤ) (r : SyncObjectRow) :
    (assign o now r).rowKey = r.rowKey := rfl

/-- The row an `INSERT` writes: the database gives the id and `created_at`. -/
def newRow (o : SyncObject) (now created : ℤ) (id : ℕ) : SyncObjectRow :=
  { o with id := id, createdAt := created, updatedAt := now }

@[simp] theorem rowKey_newRow (o : SyncObject) (now created : ℤ) (id : ℕ) :
    (newRow o now created id).rowKey = o.key := rfl

/-- `UPDATE sync_objects SET … WHERE <key of o>`. -/
def update (t : SyncObjectTable) (o : SyncObject) (now : ℤ) : SyncObjectTable where
  rows := Table.modify SyncObjectRow.rowKey o.key (assign o now) t.rows
  nextID := t.nextID
  keys_nodup := by rw [Table.map_key_modify (rowKey_assign o now)]; exact t.keys_nodup
  ids_nodup := by
    have hids : (Table.modify SyncObjectRow.rowKey o.key (assign o now) t.rows).map (fun r => r.id) =
        t.rows.map fun r => r.id := by
      rw [Table.modify, List.map_map]
      refine List.map_congr_left fun r _ => ?_
      by_cases hr : r.rowKey = o.key <;> simp [hr, assign]
    rw [hids]; exact t.ids_nodup
  ids_lt := by
    intro r hr
    obtain ⟨r', hr', rfl⟩ := List.mem_map.mp hr
    have := t.ids_lt r' hr'
    split <;> simpa [assign] using this

/-- The rows that `UPDATE` changes. -/
def affected (t : SyncObjectTable) (o : SyncObject) : ℕ :=
  Table.affected SyncObjectRow.rowKey o.key t.rows

/-- `INSERT INTO sync_objects …`, where no row has the key. -/
def insert (t : SyncObjectTable) (o : SyncObject) (now created : ℤ) (h : t.lookup o.key = none) :
    SyncObjectTable where
  rows := t.rows ++ [newRow o now created t.nextID]
  nextID := t.nextID + 1
  keys_nodup := by
    rw [List.map_append, List.nodup_append]
    refine ⟨t.keys_nodup, by simp, ?_⟩
    rintro k hk k' hk' rfl
    have hkey : k = o.key := by simpa using hk'
    exact Table.lookup_eq_none.mp h (hkey ▸ hk)
  ids_nodup := by
    rw [List.map_append, List.nodup_append]
    refine ⟨t.ids_nodup, by simp, ?_⟩
    rintro i hi i' hi' rfl
    obtain ⟨r, hr, rfl⟩ := List.mem_map.mp hi
    have hid : r.id = t.nextID := by simpa [newRow] using hi'
    exact absurd (t.ids_lt r hr) (by omega)
  ids_lt := by
    intro r hr
    rcases List.mem_append.mp hr with hr | hr
    · exact Nat.lt_succ_of_lt (t.ids_lt r hr)
    · have : r = newRow o now created t.nextID := by simpa using hr
      subst this; exact Nat.lt_succ_self _

theorem lookup_key {t : SyncObjectTable} {k : SyncKey} {r : SyncObjectRow}
    (h : t.lookup k = some r) : r.rowKey = k := Table.lookup_key h

theorem affected_eq_zero {t : SyncObjectTable} {o : SyncObject} :
    t.affected o = 0 ↔ t.lookup o.key = none := Table.affected_eq_zero

/-- The key is unique, so at most one row changes. -/
theorem affected_eq (t : SyncObjectTable) (o : SyncObject) :
    t.affected o = if t.lookup o.key = none then 0 else 1 := by
  split_ifs with h
  · exact affected_eq_zero.mpr h
  · have hle : t.affected o ≤ 1 := Table.affected_le_one t.keys_nodup o.key
    have hne : t.affected o ≠ 0 := fun h0 => h (affected_eq_zero.mp h0)
    omega

theorem lookup_update (t : SyncObjectTable) (o : SyncObject) (now : ℤ) (k : SyncKey) :
    (t.update o now).lookup k =
      if k = o.key then (t.lookup o.key).map (assign o now) else t.lookup k :=
  Table.lookup_modify (rowKey_assign o now) o.key k t.rows

theorem update_of_absent {t : SyncObjectTable} {o : SyncObject} (h : t.lookup o.key = none)
    (now : ℤ) : t.update o now = t := by
  have hrows := Table.modify_of_absent (Table.lookup_eq_none.mp h) (assign o now)
  rcases t with ⟨rows, nextID, hkeys, hids, hlt⟩
  simp only [update, mk.injEq, and_true]
  exact hrows

theorem lookup_insert (t : SyncObjectTable) (o : SyncObject) (now created : ℤ)
    (h : t.lookup o.key = none) (k : SyncKey) :
    (t.insert o now created h).lookup k =
      if k = o.key then some (newRow o now created t.nextID) else t.lookup k := by
  simp only [insert, lookup, Table.lookup_concat, rowKey_newRow]
  rcases eq_or_ne k o.key with rfl | hk
  · have hnone : Table.lookup SyncObjectRow.rowKey o.key t.rows = none := h
    simp [hnone]
  · simp [hk, Ne.symm hk]

end SyncObjectTable

/-- A row of `syncs_run`. -/
structure SyncRun where
  id : ℕ
  syncID : String
  status : String
  totalSynced : ℤ
  totalFailed : ℤ
  durationMs : ℤ
  errorMessage : String
  createdAt : ℤ
  deriving DecidableEq

end VaultsSyncer
