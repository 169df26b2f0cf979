import VaultsSyncer.Sync.Engine

/-! Which part of the world a program of the engine works on, and that the rest of the world does not
    matter to it. Two worlds that agree on the part a program reads, and two clocks that show
    anything, make it do the same calls up to their timestamps. -/

namespace VaultsSyncer

open GoStd Schemes Schemes.Prog

/-- The secrets read, the secrets written and the records used by a program. -/
structure Footprint where
  reads : String → String → Prop
  writes : String → String → Prop
  keys : SyncKey → Prop

/-- A call stays in a footprint. -/
def Footprint.Within (F : Footprint) : Call → Prop
  | .getSecret vault name => F.reads vault name
  | .setSecret vault name _ => F.writes vault name
  | .updateSyncObject obj _ => F.keys obj.key
  | .insertSyncObject obj _ => F.keys obj.key
  | .selectSyncObject key => F.keys key
  | .sleep _ => True
  | .now => True
  | .rowsAffected _ => True
  | .listSecrets _ => False
  | .insertSyncRun _ => False

/-! ### Staying in a footprint -/

section Within

variable {F : Footprint}

theorem within_getSecret {vault name : String} (h : F.reads vault name) :
    (getSecret vault name).AllCalls F.Within := ⟨h, fun _ => trivial⟩

theorem within_setSecret {vault name : String} (h : F.writes vault name) (value : Bytes) :
    (setSecret vault name value).AllCalls F.Within := ⟨h, fun _ => trivial⟩

theorem within_upsert {obj : SyncObject} (h : F.keys obj.key) :
    (upsertSyncObject obj).AllCalls F.Within := by
  refine ⟨trivial, fun t => ⟨h, fun res => ?_⟩⟩
  cases res with
  | error err => trivial
  | ok n =>
    refine ⟨trivial, fun rows => ?_⟩
    cases rows with
    | error err => trivial
    | ok n =>
      change (if n = 0 then execInsert obj t else pure (.ok ())).AllCalls F.Within
      split_ifs
      · exact ⟨h, fun _ => trivial⟩
      · trivial

/-- `now`, an upsert and a result. -/
theorem within_record {α : Type} {o : ℤ → SyncObject} (h : ∀ t, F.keys (o t).key) (res : α) :
    (do
      let t ← now
      let _ ← upsertSyncObject (o t)
      return res : Sync α).AllCalls F.Within :=
  ⟨trivial, fun t => (within_upsert (h t)).bind fun _ => trivial⟩

theorem within_retryLoop {policy : RetryPolicy} {fn : Sync (Except GoError Unit)}
    (h : fn.AllCalls F.Within) (n : ℕ) (attempt backoff : ℤ) (lastErr : Option GoError) :
    (retryLoop policy fn n attempt backoff lastErr).AllCalls F.Within := by
  induction n generalizing attempt backoff lastErr with
  | zero => trivial
  | succ n ih =>
    refine h.bind fun res => ?_
    cases res with
    | ok _ => trivial
    | error err =>
      simp only
      split_ifs
      · exact ⟨trivial, fun _ => ih _ _ _⟩
      · exact ih _ _ _

theorem within_withRetry {policy : RetryPolicy} {fn : Sync (Except GoError Unit)}
    (h : fn.AllCalls F.Within) : (withRetry policy fn).AllCalls F.Within :=
  within_retryLoop h _ _ _ _

variable {e : Engine} {syncCfg : SyncConfig} {targetID secretName source target : String}

theorem within_syncSecretUnidirectional (hr : F.reads source secretName)
    (hw : F.writes targetID secretName) (hk : F.keys (syncKey syncCfg targetID secretName)) :
    (syncSecretUnidirectional e syncCfg targetID secretName source).AllCalls F.Within := by
  unfold syncSecretUnidirectional
  by_cases hreg : targetID ∉ e.backends
  · rw [if_pos hreg]
    trivial
  rw [if_neg hreg]
  refine (within_getSecret hr).bind fun res => ?_
  cases res with
  | error err => trivial
  | ok secret =>
    cases ht : applyTransforms secret.value syncCfg.transforms with
    | error err => simp only [ht]; trivial
    | ok value =>
      simp only [ht]
      refine (within_withRetry (within_setSecret hw value)).bind fun res => ?_
      cases res with
      | error err => exact within_record (fun _ => hk) _
      | ok _ => exact within_record (fun _ => hk) _

theorem within_applyDirection (hs : F.writes source secretName) (ht : F.writes target secretName)
    (hk : F.keys (syncKey syncCfg targetID secretName)) (s t : Bytes) (d : Direction) :
    (applyDirection syncCfg targetID secretName source target s t d).AllCalls F.Within := by
  have hwrite : (d.write secretName source target s t).AllCalls F.Within := by
    cases d with
    | sourceToTarget => exact within_setSecret ht s
    | targetToSource => exact within_setSecret hs t
  refine (within_withRetry hwrite).bind fun res => ?_
  cases res with
  | error err => exact within_record (fun _ => hk) _
  | ok _ => exact within_record (fun _ => hk) _

theorem within_syncSecretBidirectional (hrs : F.reads source secretName)
    (hrt : F.reads target secretName) (hws : F.writes source secretName)
    (hwt : F.writes target secretName) (hwi : F.writes targetID secretName)
    (hk : F.keys (syncKey syncCfg targetID secretName)) :
    (syncSecretBidirectional e syncCfg targetID secretName source target).AllCalls F.Within := by
  refine (within_getSecret hrs).bind fun res => ?_
  cases res with
  | error err => trivial
  | ok sourceSecret =>
    refine (within_getSecret hrt).bind fun res => ?_
    cases res with
    | error err => exact within_syncSecretUnidirectional hrs hwi hk
    | ok targetSecret =>
      simp only
      split_ifs
      · exact within_record (fun _ => hk) _
      · refine ⟨hk, fun res => ?_⟩
        cases res with
        | error err => trivial
        | ok existingObj => exact within_applyDirection hws hwt hk _ _ _

end Within

end VaultsSyncer
