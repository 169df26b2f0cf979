import VaultsSyncer.Sync.Attempts

/-! What the parts of the engine do in surroundings that move the world between their calls. A write
    with retries, a record, and the two together (`copyAndRecord`), which both sync functions end
    with; a result about every interleaving is put together from these under its own contract. -/

namespace VaultsSyncer

open GoStd Schemes Schemes.Prog

variable {T : Contract Call Env World} {Q : Except GoError Unit → Env → World → Prop}

/-- A call that neither writes a secret nor writes a record. -/
def Call.Quiet : Call → Prop
  | .setSecret _ _ _ => False
  | .updateSyncObject _ _ => False
  | .insertSyncObject _ _ => False
  | .insertSyncRun _ => False
  | _ => True

/-- A quiet call changes nothing. -/
theorem handle_of_quiet {op : Call} (h : op.Quiet) (env : Env) (w : World) :
    (handle op (env, w)).2.2 = w := by
  cases op with
  | listSecrets | getSecret | sleep | now | rowsAffected | selectSyncObject => rfl
  | setSecret | updateSyncObject | insertSyncObject | insertSyncRun => exact h.elim

/-- Only writing a secret changes a vault. -/
theorem handle_vaults {op : Call} (h : ∀ v n x, op ≠ .setSecret v n x) (env : Env) (w : World) :
    (handle op (env, w)).2.2.vaults = w.vaults := by
  rcases handle_cases op env w with hw | ⟨vault, name, value, rfl, hw⟩ | ⟨obj, t, rfl, hw⟩ |
    ⟨obj, t, rfl, hl, hw⟩ | ⟨run, rfl, hw⟩
  · rw [hw]
  · exact absurd rfl (h vault name value)
  · rw [hw]
    rfl
  · rw [hw]
  · rw [hw]

/-! ### A write with retries -/

/-- The write comes about only where one of the answers works; until then the world is as the others
    leave it. -/
theorem keeps_retryLoop {policy : RetryPolicy} {vault name : String} {value : Bytes}
    (hquiet : ∀ op e s, Call.Quiet op → T.call op e s) (n : ℕ) (attempt backoff : ℤ)
    (lastErr : Option GoError) {e : Env} {s : World}
    (hset : ∀ e' s', (e'.head.Works → firstWorking n e ≠ none) → T.rely s s' →
      T.call (.setSecret vault name value) e' s')
    (hok : firstWorking n e ≠ none → ∀ e' s' s'', T.rely s s' →
      T.rely (s'.setVault vault name value) s'' → Q (.ok ()) e' s'')
    (herr : ∀ err e' s', T.rely s s' → Q (.error err) e' s') :
    (retryLoop policy (setSecret vault name value) n attempt backoff lastErr).Keeps handle T Q e s := by
  induction n generalizing attempt backoff lastErr e s with
  | zero => exact fun s' hs => herr _ _ s' hs
  | succ n ih =>
    intro s' hs _
    have hfirst : e.head.Works → firstWorking (n + 1) e ≠ none := by
      intro hw
      rw [firstWorking, if_pos hw]
      exact Option.some_ne_none _
    refine ⟨hset e s' hfirst hs, ?_⟩
    by_cases hw : e.head.Works
    · have hanswer : handle (.setSecret vault name value) (e, s') =
          (.ok (), e.tail, s'.setVault vault name value) := by
        simp only [handle, Answer.commit_of_works hw]
      rw [hanswer]
      exact fun s'' hs'' => hok (hfirst hw) _ s' s'' hs hs''
    · obtain ⟨err, herror⟩ := Option.ne_none_iff_exists'.mp hw
      have hanswer : handle (.setSecret vault name value) (e, s') = (.error err, e.tail, s') := by
        simp only [handle, Answer.commit, herror]
      rw [hanswer]
      have hlater : firstWorking n e.tail ≠ none → firstWorking (n + 1) e ≠ none := by
        rw [firstWorking, if_neg hw, ne_eq, ne_eq, Option.map_eq_none_iff]
        exact id
      -- what is left of the loop, from a world `t` that the others have moved to
      have hrest (t : World) (ht : T.rely s t) (attempt backoff : ℤ) :
          (retryLoop policy (setSecret vault name value) n attempt backoff (some err)).Keeps
            handle T Q e.tail t :=
        ih attempt backoff (some err)
          (fun e' s' hworks h => hset e' s' (fun hw' => hlater (hworks hw')) (T.trans ht h))
          (fun hne e' u u' h => hok (hlater hne) e' u u' (T.trans ht h))
          fun err e' s' h => herr err e' s' (T.trans ht h)
      change (if attempt < policy.maxRetries then _ else _ : Sync _).Keeps handle T Q e.tail s'
      split_ifs with hat
      · exact fun t ht _ => ⟨hquiet _ _ _ trivial, hrest t (T.trans hs ht) _ _⟩
      · exact hrest s' hs _ _

theorem keeps_withRetry {policy : RetryPolicy} {vault name : String} {value : Bytes}
    (hquiet : ∀ op e s, Call.Quiet op → T.call op e s) {e : Env} {s : World}
    (hset : ∀ e' s', (e'.head.Works → firstWorking (attempts policy) e ≠ none) → T.rely s s' →
      T.call (.setSecret vault name value) e' s')
    (hok : firstWorking (attempts policy) e ≠ none → ∀ e' s' s'', T.rely s s' →
      T.rely (s'.setVault vault name value) s'' → Q (.ok ()) e' s'')
    (herr : ∀ err e' s', T.rely s s' → Q (.error err) e' s') :
    (withRetry policy (setSecret vault name value)).Keeps handle T Q e s :=
  keeps_retryLoop hquiet _ _ _ _ hset hok herr

/-! ### A record -/

/-- What an upsert does with the number of rows its UPDATE changed. -/
def afterUpdate (o : SyncObject) (t : ℤ) : Except GoError ℕ → Sync (Except GoError Unit)
  | .error err => return .error err
  | .ok res => do
    match ← rowsAffected res with
    | .error err => return .error err
    | .ok n => if n = 0 then execInsert o t else return .ok ()

theorem upsertSyncObject_eq (o : SyncObject) :
    upsertSyncObject o = now >>= fun t => execUpdate o t >>= afterUpdate o t := by
  refine congrArg (now >>= ·) (funext fun t => congrArg (execUpdate o t >>= ·) (funext fun r => ?_))
  cases r <;> rfl

/-- A fact `K` that neither the others nor the two writes of an upsert take away. -/
theorem keeps_upsert {K : World → Prop} {o : SyncObject}
    (hquiet : ∀ op e s, Call.Quiet op → T.call op e s) (hrely : ∀ s s', T.rely s s' → K s → K s')
    (hupdate : ∀ t e s, K s → T.call (.updateSyncObject o t) e s ∧
      K (handle (.updateSyncObject o t) (e, s)).2.2)
    (hinsert : ∀ t e s, K s → T.call (.insertSyncObject o t) e s ∧
      K (handle (.insertSyncObject o t) (e, s)).2.2)
    {e : Env} {s : World} (hK : K s) :
    (upsertSyncObject o).Keeps handle T (fun _ _ s => K s) e s := by
  have hret (r : Except GoError Unit) (e : Env) (s : World) (hs : K s) :
      (pure r : Sync _).Keeps handle T (fun _ _ s => K s) e s := fun s' hs' => hrely s s' hs' hs
  rw [upsertSyncObject_eq]
  refine keeps_call fun s₁ h₁ _ => ⟨hquiet _ _ _ trivial, ?_⟩
  have hK₁ : K s₁ := hrely s s₁ h₁ hK
  change (execUpdate o e.head.clock >>= afterUpdate o e.head.clock).Keeps handle T _ e.tail s₁
  refine keeps_call fun s₂ h₂ _ => ?_
  obtain ⟨hcall, hK₃⟩ := hupdate e.head.clock e.tail s₂ (hrely _ _ h₂ hK₁)
  refine ⟨hcall, ?_⟩
  generalize handle (.updateSyncObject o e.head.clock) (e.tail, s₂) = r at hK₃ ⊢
  obtain ⟨err | m, e₃, s₃⟩ := r
  · exact hret _ _ _ hK₃
  refine keeps_call fun s₄ h₄ _ => ⟨hquiet _ _ _ trivial, ?_⟩
  have hK₄ : K s₄ := hrely _ _ h₄ hK₃
  rw [handle_of_quiet (show (Call.rowsAffected m).Quiet from trivial)]
  generalize handle (.rowsAffected m) (e₃, s₄) = r
  obtain ⟨err | rows, e₅, s₅⟩ := r
  · exact hret _ _ _ hK₄
  dsimp only
  split_ifs
  · intro s₅ h₅ _
    obtain ⟨hcall, hK₆⟩ := hinsert e.head.clock e₅ s₅ (hrely _ _ h₅ hK₄)
    exact ⟨hcall, hret _ _ _ hK₆⟩
  · exact hret _ _ _ hK₄

/-- The calls of an upsert. -/
def Call.Upserts : Call → Prop
  | .updateSyncObject _ _ => True
  | .rowsAffected _ => True
  | .insertSyncObject _ _ => True
  | _ => False

instance : DecidablePred Call.Upserts
  | .updateSyncObject _ _ | .rowsAffected _ | .insertSyncObject _ _ => isTrue trivial
  | .listSecrets _ | .getSecret _ _ | .setSecret _ _ _ | .sleep _ | .now | .selectSyncObject _
  | .insertSyncRun _ => isFalse id

/-- Where the calls of an upsert work and nobody else touches the row, the row is there in the end. -/
theorem keeps_upsert_saved {o : SyncObject} (hquiet : ∀ op e s, Call.Quiet op → T.call op e s)
    (hrely : ∀ s s', T.rely s s' → s'.syncObjects.lookup o.key = s.syncObjects.lookup o.key)
    (hworks : ∀ op e s, Call.Upserts op → T.given op e s → e.head.Works)
    (hupdate : ∀ t e s, T.call (.updateSyncObject o t) e s)
    (hinsert : ∀ t e s, T.call (.insertSyncObject o t) e s) (e : Env) (s : World) :
    (upsertSyncObject o).Keeps handle T
      (fun _ _ s => ∃ r, s.syncObjects.lookup o.key = some r ∧ r.Records o) e s := by
  have hret (r : Except GoError Unit) (e : Env) (s : World)
      (hs : ∃ r, s.syncObjects.lookup o.key = some r ∧ r.Records o) :
      (pure r : Sync _).Keeps handle T
        (fun _ _ s => ∃ r, s.syncObjects.lookup o.key = some r ∧ r.Records o) e s :=
    fun s' hs' => by simpa only [hrely s s' hs'] using hs
  rw [upsertSyncObject_eq]
  refine keeps_call fun s₁ _ _ => ⟨hquiet _ _ _ trivial, ?_⟩
  change (execUpdate o e.head.clock >>= afterUpdate o e.head.clock).Keeps handle T _ e.tail s₁
  refine keeps_call fun s₂ _ hgiven => ⟨hupdate _ _ _, ?_⟩
  have hw : e.tail.head.Works := hworks (.updateSyncObject _ _) _ _ trivial hgiven
  have hupd : handle (.updateSyncObject o e.head.clock) (e.tail, s₂) =
      (.ok (s₂.syncObjects.affected o), e.tail.tail, (s₂.update o e.head.clock).2) := by
    simp only [handle, Answer.commit_of_works hw, World.update]
  have hsaved := @lookup_of_saved (.updateSyncObject o e.head.clock) e.tail s₂ o
  rw [hupd] at hsaved ⊢
  refine keeps_call fun s₄ h₄ hgiven => ⟨hquiet _ _ _ trivial, ?_⟩
  have hw' : e.tail.tail.head.Works := hworks (.rowsAffected _) _ _ trivial hgiven
  have hrows : handle (.rowsAffected (s₂.syncObjects.affected o)) (e.tail.tail, s₄) =
      (.ok (s₂.syncObjects.affected o), e.tail.tail.tail, s₄) := by
    simp only [handle, Answer.reply_of_works hw']
  rw [hrows]
  change (if s₂.syncObjects.affected o = 0 then execInsert o e.head.clock else pure (.ok ())).Keeps
    handle T _ _ s₄
  by_cases hl : s₂.syncObjects.lookup o.key = none
  · -- the UPDATE found no row, so the row is inserted
    rw [if_pos (SyncObjectTable.affected_eq_zero.mpr hl)]
    refine fun s₅ h₅ hgiven => ⟨hinsert _ _ _, hret _ _ _ ?_⟩
    have hw'' : e.tail.tail.tail.head.Works := hworks (.insertSyncObject _ _) _ _ trivial hgiven
    have hnone : s₅.syncObjects.lookup o.key = none := by
      rw [hrely s₄ s₅ h₅, hrely _ s₄ h₄, World.update, SyncObjectTable.update_of_absent hl, hl]
    refine (lookup_of_saved (o := o) ?_).1
    exact if_pos ⟨hw'', hnone⟩
  · rw [if_neg fun h0 => hl (SyncObjectTable.affected_eq_zero.mp h0)]
    refine hret _ _ _ ?_
    rw [hrely _ s₄ h₄]
    exact (hsaved (if_pos ⟨hw, hl⟩)).1

/-! ### A write and its record -/

/-- `now`, an upsert whose error is dropped, and a result. -/
def record (o : ℤ → SyncObject) (res : Except GoError Unit) : Sync (Except GoError Unit) := do
  let t ← now
  let _ ← upsertSyncObject (o t)
  return res

theorem keeps_record {o : ℤ → SyncObject} {res : Except GoError Unit} {e : Env} {s : World}
    (hquiet : ∀ op e s, Call.Quiet op → T.call op e s)
    (hupsert : ∀ s', T.rely s s' → (upsertSyncObject (o e.head.clock)).Keeps handle T
      (fun _ e s => Q res e s) e.tail s')
    (hstable : ∀ e s s', Q res e s → T.rely s s' → Q res e s') :
    (record o res).Keeps handle T Q e s := by
  refine keeps_call fun s' hs' _ => ⟨hquiet _ _ _ trivial, Keeps.bind ?_⟩
  exact (hupsert s' hs').mono fun _ e s hQ s'' hs'' => hstable e s s'' hQ hs''

/-- Where the contract has nothing against the record, it may be written at any time. -/
theorem keeps_record_free {o : ℤ → SyncObject} {res : Except GoError Unit}
    (hquiet : ∀ op e s, Call.Quiet op → T.call op e s)
    (hupdate : ∀ t t' e s, T.call (.updateSyncObject (o t) t') e s)
    (hinsert : ∀ t t' e s, T.call (.insertSyncObject (o t) t') e s) {e : Env} {s : World} :
    (record o res).Keeps handle T (fun _ _ _ => True) e s := by
  refine keeps_record hquiet (fun s' _ => ?_) fun _ _ _ _ _ => trivial
  exact (keeps_upsert (K := fun _ => True) hquiet (fun _ _ _ _ => trivial)
    (fun _ _ _ _ => ⟨hupdate .., trivial⟩) (fun _ _ _ _ => ⟨hinsert .., trivial⟩)
    trivial).mono fun _ _ _ _ => trivial

/-- Both sync functions end with a write and the record of how it went. -/
def copyAndRecord (policy : RetryPolicy) (vault name : String) (value : Bytes)
    (failed : GoError → ℤ → SyncObject) (done : ℤ → SyncObject) : Sync (Except GoError Unit) := do
  match ← withRetry policy (setSecret vault name value) with
  | .error err => record (failed err) (.error err)
  | .ok () => record done (.ok ())

theorem keeps_copyAndRecord {policy : RetryPolicy} {vault name : String} {value : Bytes}
    {failed : GoError → ℤ → SyncObject} {done : ℤ → SyncObject}
    (hquiet : ∀ op e s, Call.Quiet op → T.call op e s) {e : Env} {s : World}
    (hset : ∀ e' s', (e'.head.Works → firstWorking (attempts policy) e ≠ none) → T.rely s s' →
      T.call (.setSecret vault name value) e' s')
    (hdone : firstWorking (attempts policy) e ≠ none → ∀ e' s' s'', T.rely s s' →
      T.rely (s'.setVault vault name value) s'' → (record done (.ok ())).Keeps handle T Q e' s'')
    (hfailed : ∀ err e' s', T.rely s s' → (record (failed err) (.error err)).Keeps handle T Q e' s') :
    (copyAndRecord policy vault name value failed done).Keeps handle T Q e s :=
  (keeps_withRetry hquiet hset hdone hfailed).bind

/-- The record of a secret with a status, checksums and a direction. -/
def SyncConfig.outcome (syncCfg : SyncConfig) (targetID secretName : String) (note : Note)
    (lastSyncError : String) (t : ℤ) : SyncObject :=
  { syncID := syncCfg.id, sourceVaultID := syncCfg.source, targetVaultID := targetID
    secretName := secretName, sourceChecksum := note.sourceChecksum
    targetChecksum := note.targetChecksum, lastSyncTime := t, lastSyncStatus := note.status
    lastSyncError := lastSyncError, directionLast := note.directionLast }

section Parts

variable (e : Engine) (syncCfg : SyncConfig) (targetID secretName : String)

/-- The write of the sync in one direction, and its record. -/
def copyValue (v x : Bytes) : Sync (Except GoError Unit) :=
  copyAndRecord (effectiveRetryPolicy syncCfg.retryPolicy) targetID secretName x
    (fun err => syncCfg.outcome targetID secretName
      ⟨"failed", hashString v, "", "source_to_target"⟩ err.text)
    (syncCfg.outcome targetID secretName
      ⟨"success", hashString v, hashString v, "source_to_target"⟩ "")

/-- What the sync in one direction does with the secret it has read. -/
def copyOneWay : Except GoError Secret → Sync (Except GoError Unit)
  | .error err => return .error (.wrap "failed to get secret from source: " err)
  | .ok secret =>
    match applyTransforms secret.value syncCfg.transforms with
    | .error err => return .error (.wrap "failed to apply transforms: " err)
    | .ok value => copyValue syncCfg targetID secretName secret.value value

theorem syncSecretUnidirectional_eq (source : String) :
    syncSecretUnidirectional e syncCfg targetID secretName source =
      if targetID ∉ e.backends then
        return .error (.new ("target vault backend not found: " ++ targetID))
      else getSecret source secretName >>= copyOneWay syncCfg targetID secretName := by
  unfold syncSecretUnidirectional
  refine if_congr Iff.rfl rfl (congrArg (getSecret source secretName >>= ·) (funext fun r => ?_))
  rcases r with err | secret
  · rfl
  · simp only [copyOneWay]
    rcases applyTransforms secret.value syncCfg.transforms with err | value
    · rfl
    · refine congrArg (withRetry _ (setSecret targetID secretName value) >>= ·) (funext fun r => ?_)
      rcases r with err | ⟨⟩ <;> rfl

/-- What a bidirectional sync does when both sides have a value. -/
def copyEitherWay (sourceBackend targetBackend : String) (s t : Bytes) (d : Direction) :
    Sync (Except GoError Unit) :=
  copyAndRecord (effectiveRetryPolicy syncCfg.retryPolicy) (d.dst sourceBackend targetBackend)
    secretName (d.pick s t)
    (fun err => syncCfg.outcome targetID secretName
      ⟨"failed", hashString s, hashString t, d.text⟩ err.text)
    (syncCfg.outcome targetID secretName
      ⟨"success", hashString (d.pick s t), hashString (d.pick s t), d.text⟩ "")

theorem applyDirection_eq (sourceBackend targetBackend : String) (s t : Bytes) (d : Direction) :
    applyDirection syncCfg targetID secretName sourceBackend targetBackend s t d =
      copyEitherWay syncCfg targetID secretName sourceBackend targetBackend s t d := by
  unfold applyDirection
  rw [Direction.write_eq]
  refine congrArg (withRetry _ (setSecret _ secretName _) >>= ·) (funext fun r => ?_)
  rcases r with err | ⟨⟩
  · rfl
  · cases d <;> rfl

/-- What the sync in both directions does with the record it has read. -/
def resolve (sourceBackend targetBackend : String) (s t : Bytes) :
    Except GoError (Option SyncObject) → Sync (Except GoError Unit)
  | .error err => return .error (.wrap "failed to get sync object: " err)
  | .ok existingObj =>
    copyEitherWay syncCfg targetID secretName sourceBackend targetBackend s t
      (chooseDirection existingObj)

/-- What it does with what it has read in the target, next to the source value `s`. -/
def compareSides (sourceBackend targetBackend : String) (s : Bytes) :
    Except GoError Secret → Sync (Except GoError Unit)
  | .error _ => syncSecretUnidirectional e syncCfg targetID secretName sourceBackend
  | .ok targetSecret =>
    if hashString s = hashString targetSecret.value then
      record (syncCfg.outcome targetID secretName
        ⟨"in_sync", hashString s, hashString targetSecret.value, "none"⟩ "") (.ok ())
    else
      getSyncObject (syncKey syncCfg targetID secretName) >>=
        resolve syncCfg targetID secretName sourceBackend targetBackend s targetSecret.value

/-- And what it does with what it has read in the source. -/
def readTarget (sourceBackend targetBackend : String) :
    Except GoError Secret → Sync (Except GoError Unit)
  | .error err => return .error (.wrap "failed to get secret from source: " err)
  | .ok sourceSecret => getSecret targetBackend secretName >>=
      compareSides e syncCfg targetID secretName sourceBackend targetBackend sourceSecret.value

theorem syncSecretBidirectional_eq (sourceBackend targetBackend : String) :
    syncSecretBidirectional e syncCfg targetID secretName sourceBackend targetBackend =
      getSecret sourceBackend secretName >>=
        readTarget e syncCfg targetID secretName sourceBackend targetBackend := by
  unfold syncSecretBidirectional
  refine congrArg (getSecret sourceBackend secretName >>= ·) (funext fun r => ?_)
  rcases r with err | s
  · rfl
  refine congrArg (getSecret targetBackend secretName >>= ·) (funext fun r => ?_)
  rcases r with err | t
  · rfl
  refine if_congr Iff.rfl rfl (congrArg (getSyncObject _ >>= ·) (funext fun r => ?_))
  rcases r with err | existingObj
  · rfl
  · exact applyDirection_eq ..

end Parts

/-! ### Syncing one secret -/

section Syncing

variable {e : Engine} {syncCfg : SyncConfig} {targetID secretName source target : String} {env : Env}
  {s : World}

theorem keepsNow_unidirectional (hquiet : ∀ op e s, Call.Quiet op → T.call op e s)
    (hrejected : (∀ v x, ¬Ready e syncCfg targetID secretName source env s v x) →
      ∀ err e', (pure (.error err) : Sync _).Keeps handle T Q e' s)
    (hcopy : ∀ v x, Ready e syncCfg targetID secretName source env s v x →
      (copyValue syncCfg targetID secretName v x).Keeps handle T Q (env.drop 1) s) :
    (syncSecretUnidirectional e syncCfg targetID secretName source).KeepsNow handle T Q env s := by
  rw [syncSecretUnidirectional_eq]
  by_cases hreg : targetID ∈ e.backends
  · rw [if_neg (not_not.mpr hreg)]
    refine fun _ => ⟨hquiet _ _ _ trivial, ?_⟩
    change (copyOneWay syncCfg targetID secretName (readWith (env.get 0) s source secretName)).Keeps
      handle T Q (env.drop 1) s
    rcases readWith_cases (env.get 0) s source secretName with ⟨err, hread, hno⟩ | ⟨v, hread, hw, hv⟩
    · rw [hread]
      exact hrejected (fun v x h => hno ⟨h.works, v, h.stored⟩) _ _
    · rw [hread]
      rcases hx : applyTransforms v syncCfg.transforms with err | x
      · simp only [copyOneWay, hx]
        refine hrejected (fun v' x h => ?_) _ _
        obtain rfl := Option.some.inj (hv.symm.trans h.stored)
        exact absurd (hx.symm.trans h.transformed) (by simp)
      · simp only [copyOneWay, hx]
        exact hcopy v x ⟨hreg, hw, hv, hx⟩
  · rw [if_pos hreg]
    exact (hrejected (fun v x h => hreg h.registered) _ _).now

/-- The source is read in `s`, and later the target in `s'`. -/
structure SidesRead (T : Contract Call Env World) (secretName source target : String) (env : Env)
    (s s' : World) (v t : Bytes) : Prop where
  sourceWorks : (env.get 0).Works
  source : s.vaults source secretName = some v
  moved : T.rely s s'
  targetWorks : (env.get 1).Works
  target : s'.vaults target secretName = some t

theorem keepsNow_bidirectional (hquiet : ∀ op e s, Call.Quiet op → T.call op e s)
    (hunread : ¬((env.get 0).Works ∧ ∃ v, s.vaults source secretName = some v) →
      ∀ err e', (pure (.error err) : Sync _).Keeps handle T Q e' s)
    (hhandedOver : ∀ v s', (env.get 0).Works → s.vaults source secretName = some v → T.rely s s' →
      ¬((env.get 1).Works ∧ ∃ t, s'.vaults target secretName = some t) →
      (syncSecretUnidirectional e syncCfg targetID secretName source).Keeps handle T Q (env.drop 2) s')
    (hinSync : ∀ v t s', SidesRead T secretName source target env s s' v t →
      hashString v = hashString t → (record (syncCfg.outcome targetID secretName
        ⟨"in_sync", hashString v, hashString t, "none"⟩ "") (.ok ())).Keeps handle T Q (env.drop 2) s')
    (hunselected : ∀ v t s' s'', SidesRead T secretName source target env s s' v t →
      hashString v ≠ hashString t → T.rely s' s'' → ¬(env.get 2).Works →
      ∀ err e', (pure (.error err) : Sync _).Keeps handle T Q e' s'')
    (hdirected : ∀ v t s' s'' d, SidesRead T secretName source target env s s' v t →
      hashString v ≠ hashString t → T.rely s' s'' →
      (copyEitherWay syncCfg targetID secretName source target v t d).Keeps handle T Q (env.drop 3) s'') :
    (syncSecretBidirectional e syncCfg targetID secretName source target).KeepsNow handle T Q env s := by
  rw [syncSecretBidirectional_eq]
  refine fun _ => ⟨hquiet _ _ _ trivial, ?_⟩
  change (readTarget e syncCfg targetID secretName source target
    (readWith (env.get 0) s source secretName)).Keeps handle T Q (env.drop 1) s
  rcases readWith_cases (env.get 0) s source secretName with ⟨err, hread, hno⟩ | ⟨v, hread, hw, hv⟩
  · rw [hread]
    exact hunread hno _ _
  rw [hread]
  refine keeps_call fun s' hs' _ => ⟨hquiet _ _ _ trivial, ?_⟩
  change (compareSides e syncCfg targetID secretName source target v
    (readWith (env.get 1) s' target secretName)).Keeps handle T Q (env.drop 2) s'
  rcases readWith_cases (env.get 1) s' target secretName with ⟨err, hread', hno⟩ | ⟨t, hread', hw', ht⟩
  · rw [hread']
    exact hhandedOver v s' hw hv hs' hno
  rw [hread']
  have hsides : SidesRead T secretName source target env s s' v t := ⟨hw, hv, hs', hw', ht⟩
  by_cases heq : hashString v = hashString t
  · simp only [compareSides, if_pos heq]
    exact hinSync v t s' hsides heq
  · simp only [compareSides, if_neg heq]
    refine keeps_call fun s'' hs'' _ => ⟨hquiet _ _ _ trivial, ?_⟩
    change (resolve syncCfg targetID secretName source target v t ((env.get 2).reply _)).Keeps
      handle T Q (env.drop 3) s''
    by_cases hselect : (env.get 2).Works
    · rw [Answer.reply_of_works hselect]
      exact hdirected v t s' s'' _ hsides heq hs''
    · generalize hr : (env.get 2).reply _ = r
      rcases r with err | existingObj
      · exact hunselected v t s' s'' hsides heq hs'' hselect _ _
      · exact hdirected v t s' s'' _ hsides heq hs''

end Syncing

end VaultsSyncer
