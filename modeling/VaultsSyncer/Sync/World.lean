import Mathlib.Data.Stream.Init
import VaultsSyncer.GoStd.Text
import VaultsSyncer.Schemes.Prog
import VaultsSyncer.Storage.SyncObjects

/-! What the sync engine acts on: the vaults behind the backends, and the sync database. Each backend
    method and each SQL statement is one call. A goroutine carries the stream of answers its
    surroundings have in store for it: for every call whether it fails and what the clock shows. A
    call that fails leaves everything as it was. -/

namespace VaultsSyncer

open GoStd Schemes

/-- A secret with name and value. -/
structure Secret where
  name : String
  value : Bytes
  deriving DecidableEq

/-- What the surroundings have in store for one call. -/
structure Answer where
  fault : Option GoError := none
  clock : ℤ := 0
  names : List String := []

/-- The answers to the calls still to come. -/
abbrev Env := Stream' Answer

/-- The vaults by id, each from names to values, and the sync database. -/
structure World where
  vaults : String → String → Option Bytes
  syncObjects : SyncObjectTable := .empty
  syncsRun : List SyncRun := []

/-- The atomic calls of the engine: backend methods, the clock, and single SQL statements. -/
inductive Call where
  | listSecrets (vault : String)
  | getSecret (vault name : String)
  | setSecret (vault name : String) (value : Bytes)
  | sleep (ns : ℤ)
  | now
  | updateSyncObject (obj : SyncObject) (now : ℤ)
  | rowsAffected (n : ℕ)
  | insertSyncObject (obj : SyncObject) (now : ℤ)
  | selectSyncObject (key : SyncKey)
  | insertSyncRun (run : SyncRun)
  deriving DecidableEq

abbrev Call.Ans : Call → Type
  | .listSecrets _ => Except GoError (List String)
  | .getSecret _ _ => Except GoError Secret
  | .setSecret _ _ _ => Except GoError Unit
  | .sleep _ => Unit
  | .now => ℤ
  | .updateSyncObject _ _ => Except GoError ℕ
  | .rowsAffected _ => Except GoError ℕ
  | .insertSyncObject _ _ => Except GoError Unit
  | .selectSyncObject _ => Except GoError (Option SyncObject)
  | .insertSyncRun _ => Except GoError Unit

/-- A program of the engine. -/
abbrev Sync (α : Type) := Prog Call Call.Ans α

namespace World

/-- A secret written. -/
def setVault (w : World) (vault name : String) (value : Bytes) : World :=
  { w with vaults := fun v n => if v = vault ∧ n = name then some value else w.vaults v n }

@[simp] theorem setVault_self (w : World) (vault name : String) (value : Bytes) :
    (w.setVault vault name value).vaults vault name = some value := by simp [setVault]

theorem setVault_of_ne (w : World) {vault name v n : String} (value : Bytes)
    (h : v ≠ vault ∨ n ≠ name) : (w.setVault vault name value).vaults v n = w.vaults v n := by
  have hne : ¬(v = vault ∧ n = name) := by tauto
  simp [setVault, hne]

@[simp] theorem setVault_syncObjects (w : World) (vault name : String) (value : Bytes) :
    (w.setVault vault name value).syncObjects = w.syncObjects := rfl

/-- `GetSecret` on a working backend. -/
def read (w : World) (vault name : String) : Except GoError Secret :=
  match w.vaults vault name with
  | some value => .ok ⟨name, value⟩
  | none => .error (.new ("secret not found: " ++ name))

/-- `UPDATE sync_objects`: the number of rows changed and the world after. -/
def update (w : World) (obj : SyncObject) (now : ℤ) : ℕ × World :=
  (w.syncObjects.affected obj, { w with syncObjects := w.syncObjects.update obj now })

/-- `INSERT INTO sync_objects`; a second row under the key violates the UNIQUE constraint. -/
def insert (w : World) (obj : SyncObject) (now created : ℤ) : Except GoError Unit × World :=
  if h : w.syncObjects.lookup obj.key = none then
    (.ok (), { w with syncObjects := w.syncObjects.insert obj now created h })
  else (.error (.new "UNIQUE constraint failed"), w)

end World

/-- The reply to a call that reads, unless the call is to fail. -/
def Answer.reply {α : Type} (a : Answer) (r : Except GoError α) : Except GoError α :=
  match a.fault with
  | some err => .error err
  | none => r

/-- The reply to a call that writes and the world after it, unless the call is to fail: then nothing is
    written, so a request that times out after the vault has taken it is none of these calls. -/
def Answer.commit {α : Type} (a : Answer) (r : Except GoError α × World) (w : World) :
    Except GoError α × World :=
  match a.fault with
  | some err => (.error err, w)
  | none => r

/-- How each call is answered. -/
def handle : Handler Call Call.Ans (Env × World)
  | .listSecrets _, (env, w) => (env.head.reply (.ok env.head.names), env.tail, w)
  | .getSecret vault name, (env, w) => (env.head.reply (w.read vault name), env.tail, w)
  | .setSecret vault name value, (env, w) =>
    let r := env.head.commit (.ok (), w.setVault vault name value) w
    (r.1, env.tail, r.2)
  | .sleep _, (env, w) => ((), env, w)
  | .now, (env, w) => (env.head.clock, env.tail, w)
  | .updateSyncObject obj now, (env, w) =>
    let r := env.head.commit (.ok (w.update obj now).1, (w.update obj now).2) w
    (r.1, env.tail, r.2)
  | .rowsAffected n, (env, w) => (env.head.reply (.ok n), env.tail, w)
  | .insertSyncObject obj now, (env, w) =>
    let r := env.head.commit (w.insert obj now env.head.clock) w
    (r.1, env.tail, r.2)
  | .selectSyncObject key, (env, w) =>
    (env.head.reply (.ok ((w.syncObjects.lookup key).map (·.toSyncObject))), env.tail, w)
  | .insertSyncRun run, (env, w) =>
    let r := env.head.commit (.ok (), { w with
      syncsRun := w.syncsRun ++
        [{ run with id := w.syncsRun.length + 1, createdAt := env.head.clock }] }) w
    (r.1, env.tail, r.2)

/-- What a call leaves of the world: what was there, or one write of it. -/
theorem handle_cases (op : Call) (env : Env) (w : World) :
    (handle op (env, w)).2.2 = w ∨
    (∃ vault name value, op = .setSecret vault name value ∧
      (handle op (env, w)).2.2 = w.setVault vault name value) ∨
    (∃ obj now, op = .updateSyncObject obj now ∧
      (handle op (env, w)).2.2 = (w.update obj now).2) ∨
    (∃ obj now, op = .insertSyncObject obj now ∧ ∃ h : w.syncObjects.lookup obj.key = none,
      (handle op (env, w)).2.2 =
        { w with syncObjects := w.syncObjects.insert obj now env.head.clock h }) ∨
    ∃ run, op = .insertSyncRun run ∧ (handle op (env, w)).2.2 = { w with
      syncsRun := w.syncsRun ++
        [{ run with id := w.syncsRun.length + 1, createdAt := env.head.clock }] } := by
  cases op with
  | listSecrets | getSecret | sleep | now | rowsAffected | selectSyncObject => exact .inl rfl
  | setSecret vault name value =>
    simp only [handle, Answer.commit]
    cases env.head.fault with
    | some err => exact .inl rfl
    | none => exact .inr (.inl ⟨vault, name, value, rfl, rfl⟩)
  | updateSyncObject obj now =>
    simp only [handle, Answer.commit]
    cases env.head.fault with
    | some err => exact .inl rfl
    | none => exact .inr (.inr (.inl ⟨obj, now, rfl, rfl⟩))
  | insertSyncObject obj now =>
    simp only [handle, Answer.commit]
    cases env.head.fault with
    | some err => exact .inl rfl
    | none =>
      by_cases h : w.syncObjects.lookup obj.key = none
      · exact .inr (.inr (.inr (.inl ⟨obj, now, rfl, h, by simp only [World.insert, dif_pos h]⟩)))
      · exact .inl (by simp only [World.insert, dif_neg h])
  | insertSyncRun run =>
    simp only [handle, Answer.commit]
    cases env.head.fault with
    | some err => exact .inl rfl
    | none => exact .inr (.inr (.inr (.inr ⟨run, rfl, rfl⟩)))

end VaultsSyncer
