import VaultsSyncer.Sync.Outcomes

/-! Every way one run of `syncSecretUnidirectional` or `syncSecretBidirectional` can go, with what it
    returns and what it leaves. The cases exclude each other, so each also says when it happens. What
    the later modules prove about runs, they read off these cases. -/

namespace VaultsSyncer

open GoStd Schemes Schemes.Prog

/-- The fields of a record that a later run, or a reader of the status, looks at. -/
structure Note where
  status : String
  sourceChecksum : String
  targetChecksum : String
  directionLast : String
  deriving DecidableEq

def SyncObject.note (o : SyncObject) : Note :=
  ⟨o.lastSyncStatus, o.sourceChecksum, o.targetChecksum, o.directionLast⟩

theorem SyncObjectRow.Records.note {r : SyncObjectRow} {o : SyncObject} (h : r.Records o) :
    r.note = o.note := by
  rw [← h]; rfl

/-- An upsert under `key` with the fields of `note`, started at `env`, leads from `w` to `w'`. -/
def Noted (key : SyncKey) (note : Note) (env : Env) (w w' : World) : Prop :=
  ∃ o : SyncObject, o.key = key ∧ o.note = note ∧ Upserted o env w w'

section Noted

variable {key : SyncKey} {note : Note} {env : Env} {w w' : World}

theorem Noted.vaults (h : Noted key note env w w') : w'.vaults = w.vaults := by
  obtain ⟨_, _, _, hup⟩ := h
  exact hup.vaults

theorem Noted.others (h : Noted key note env w w') {k : SyncKey} (hk : k ≠ key) :
    w'.syncObjects.lookup k = w.syncObjects.lookup k := by
  obtain ⟨o, rfl, _, hup⟩ := h
  exact hup.others k hk

theorem Noted.saved (h : Noted key note env w w') (hrec : Recorded env w key) :
    ∃ r, w'.syncObjects.lookup key = some r ∧ r.note = note := by
  obtain ⟨o, rfl, rfl, hup⟩ := h
  obtain ⟨r, hr, hrecs, -⟩ := hup.saved hrec
  exact ⟨r, hr, hrecs.note⟩

theorem Noted.lost (h : Noted key note env w w') (hrec : ¬Recorded env w key) : w' = w := by
  obtain ⟨o, rfl, _, hup⟩ := h
  obtain ⟨hv, hs, hr⟩ : w'.vaults = w.vaults ∧ w'.syncObjects = w.syncObjects ∧
      w'.syncsRun = w.syncsRun := ⟨hup.vaults, hup.lost hrec, hup.runs⟩
  cases w; cases w'
  simp_all

end Noted

theorem exec_bind {α β : Type} {p : Sync α} {env env' : Env} {w w' : World} {a : α}
    (h : exec p env w = (a, env', w')) (f : α → Sync β) :
    exec (p >>= f) env w = exec (f a) env' w' := by
  have hp : p.run handle (env, w) = (a, env', w') := h
  rw [exec, run_bind, hp]

/-- `now`, an upsert whose error is dropped, and a result. -/
theorem exec_record {α : Type} (o : ℤ → SyncObject) (res : α) (env : Env) (w : World) :
    exec (do
      let t ← now
      let _ ← upsertSyncObject (o t)
      return res) env w =
        (res, (exec (upsertSyncObject (o env.head.clock)) env.tail w).2) := by
  simp only [exec, now, perform_bind, run_call, handle, run_bind]
  rfl

/-- How often the write of a sync is tried. -/
def SyncConfig.attempts (syncCfg : SyncConfig) : ℕ :=
  VaultsSyncer.attempts (effectiveRetryPolicy syncCfg.retryPolicy)

/-! ### One direction -/

section Unidirectional

variable (e : Engine) (syncCfg : SyncConfig) (targetID secretName sourceBackend : String)

/-- The write is reached: the source value `s` is read and its transformed value is `x`. -/
structure Ready (env : Env) (w : World) (s x : Bytes) : Prop where
  registered : targetID ∈ e.backends
  works : (env.get 0).Works
  stored : w.vaults sourceBackend secretName = some s
  transformed : applyTransforms s syncCfg.transforms = .ok x

/-- The ways a run of `syncSecretUnidirectional` can go. -/
inductive UnidirectionalRun (env : Env) (w : World) : Except GoError Unit → World → Prop
  | rejected (err : GoError)
      (h : ∀ s x, ¬Ready e syncCfg targetID secretName sourceBackend env w s x) :
      UnidirectionalRun env w (.error err) w
  | exhausted {s x : Bytes} {err : GoError} {w' : World}
      (h : Ready e syncCfg targetID secretName sourceBackend env w s x)
      (hfail : firstWorking syncCfg.attempts (env.drop 1) = none)
      (hnote : Noted (syncKey syncCfg targetID secretName)
        ⟨"failed", hashString s, "", "source_to_target"⟩ (env.drop (syncCfg.attempts + 2)) w w') :
      UnidirectionalRun env w (.error err) w'
  | delivered {s x : Bytes} {k : ℕ} {w' : World}
      (h : Ready e syncCfg targetID secretName sourceBackend env w s x)
      (hset : firstWorking syncCfg.attempts (env.drop 1) = some k)
      (hnote : Noted (syncKey syncCfg targetID secretName)
        ⟨"success", hashString s, hashString s, "source_to_target"⟩ (env.drop (k + 3))
        (w.setVault targetID secretName x) w') :
      UnidirectionalRun env w (.ok ()) w'

end Unidirectional

theorem run_syncSecretUnidirectional (e : Engine) (syncCfg : SyncConfig)
    (targetID secretName sourceBackend : String) (env : Env) (w : World) :
    UnidirectionalRun e syncCfg targetID secretName sourceBackend env w
      (exec (syncSecretUnidirectional e syncCfg targetID secretName sourceBackend) env w).1
      (exec (syncSecretUnidirectional e syncCfg targetID secretName sourceBackend) env w).2.2 := by
  unfold syncSecretUnidirectional
  by_cases hreg : targetID ∈ e.backends
  · rw [if_neg (not_not.mpr hreg), run_getSecret]
    rcases readWith_cases env.head w sourceBackend secretName with ⟨err, herr, hno⟩ | ⟨s, hs, hw, hv⟩
    · rw [herr]
      exact .rejected _ fun s x h => hno ⟨h.works, s, h.stored⟩
    · rw [hs]
      cases ht : applyTransforms s syncCfg.transforms with
      | error err =>
        simp only [ht]
        refine .rejected _ fun s' x h => ?_
        obtain rfl := Option.some.inj (hv.symm.trans h.stored)
        have := h.transformed
        simp [ht] at this
      | ok x =>
        have hready : Ready e syncCfg targetID secretName sourceBackend env w s x :=
          ⟨hreg, hw, hv, ht⟩
        simp only [ht]
        cases hf : firstWorking syncCfg.attempts env.tail with
        | none =>
          obtain ⟨err, hrun⟩ := run_withRetry_error hf targetID secretName x w
          rw [exec_bind hrun]
          simp only [exec_record, Stream'.tail_drop', Stream'.drop_tail']
          exact .exhausted hready hf ⟨_, rfl, rfl, run_upsert ..⟩
        | some k =>
          rw [exec_bind (run_withRetry_ok hf targetID secretName x w)]
          simp only [exec_record, Stream'.tail_drop', Stream'.drop_tail']
          exact .delivered hready hf ⟨_, rfl, rfl, run_upsert ..⟩
  · rw [if_pos hreg]
    exact .rejected _ fun s x h => hreg h.registered

/-! ### Both directions -/

/-- The vault a direction writes. -/
def Direction.dst (d : Direction) (sourceBackend targetBackend : String) : String :=
  match d with
  | .sourceToTarget => targetBackend
  | .targetToSource => sourceBackend

theorem Direction.write_eq (d : Direction) (secretName sourceBackend targetBackend : String)
    (s t : Bytes) : d.write secretName sourceBackend targetBackend s t =
      setSecret (d.dst sourceBackend targetBackend) secretName (d.pick s t) := by
  cases d <;> rfl

section Bidirectional

variable (e : Engine) (syncCfg : SyncConfig)
  (targetID secretName sourceBackend targetBackend : String)

/-- Both reads work, and they find `s` and `t`. -/
structure BothRead (env : Env) (w : World) (s t : Bytes) : Prop where
  sourceWorks : (env.get 0).Works
  targetWorks : (env.get 1).Works
  source : w.vaults sourceBackend secretName = some s
  target : w.vaults targetBackend secretName = some t

variable {secretName sourceBackend targetBackend} in
theorem BothRead.eq {env : Env} {w : World} {s t s' t' : Bytes}
    (h : BothRead secretName sourceBackend targetBackend env w s t)
    (h' : BothRead secretName sourceBackend targetBackend env w s' t') : s = s' ∧ t = t' :=
  ⟨Option.some.inj (h.source.symm.trans h'.source), Option.some.inj (h.target.symm.trans h'.target)⟩

/-- The direction a run chooses from the stored record. -/
def World.direction (w : World) (key : SyncKey) : Direction :=
  chooseDirection ((w.syncObjects.lookup key).map (·.toSyncObject))

/-- The ways a run of `applyDirection` can go. -/
inductive DirectionRun (s t : Bytes) (d : Direction) (env : Env) (w : World) :
    Except GoError Unit → World → Prop
  | failed {err : GoError} {w' : World} (hfail : firstWorking syncCfg.attempts env = none)
      (hnote : Noted (syncKey syncCfg targetID secretName)
        ⟨"failed", hashString s, hashString t, d.text⟩ (env.drop (syncCfg.attempts + 1)) w w') :
      DirectionRun s t d env w (.error err) w'
  | copied {k : ℕ} {w' : World} (hset : firstWorking syncCfg.attempts env = some k)
      (hnote : Noted (syncKey syncCfg targetID secretName)
        ⟨"success", hashString (d.pick s t), hashString (d.pick s t), d.text⟩ (env.drop (k + 2))
        (w.setVault (d.dst sourceBackend targetBackend) secretName (d.pick s t)) w') :
      DirectionRun s t d env w (.ok ()) w'

/-- The ways a run of `syncSecretBidirectional` can go. -/
inductive BidirectionalRun (env : Env) (w : World) : Except GoError Unit → World → Prop
  | unread (err : GoError)
      (h : ¬((env.get 0).Works ∧ ∃ s, w.vaults sourceBackend secretName = some s)) :
      BidirectionalRun env w (.error err) w
  | handedOver {s : Bytes} {res : Except GoError Unit} {w' : World} (hsource : (env.get 0).Works)
      (hs : w.vaults sourceBackend secretName = some s)
      (htarget : ¬((env.get 1).Works ∧ ∃ t, w.vaults targetBackend secretName = some t))
      (hrun : UnidirectionalRun e syncCfg targetID secretName sourceBackend (env.drop 2) w res w') :
      BidirectionalRun env w res w'
  | inSync {s t : Bytes} {w' : World}
      (h : BothRead secretName sourceBackend targetBackend env w s t)
      (heq : hashString s = hashString t)
      (hnote : Noted (syncKey syncCfg targetID secretName)
        ⟨"in_sync", hashString s, hashString t, "none"⟩ (env.drop 3) w w') :
      BidirectionalRun env w (.ok ()) w'
  | unselected {s t : Bytes} (err : GoError)
      (h : BothRead secretName sourceBackend targetBackend env w s t)
      (hne : hashString s ≠ hashString t) (hselect : ¬(env.get 2).Works) :
      BidirectionalRun env w (.error err) w
  | directed {s t : Bytes} {res : Except GoError Unit} {w' : World}
      (h : BothRead secretName sourceBackend targetBackend env w s t)
      (hne : hashString s ≠ hashString t) (hselect : (env.get 2).Works)
      (hrun : DirectionRun syncCfg targetID secretName sourceBackend targetBackend s t
        (w.direction (syncKey syncCfg targetID secretName)) (env.drop 3) w res w') :
      BidirectionalRun env w res w'

end Bidirectional

theorem run_applyDirection (syncCfg : SyncConfig)
    (targetID secretName sourceBackend targetBackend : String) (s t : Bytes) (d : Direction)
    (env : Env) (w : World) :
    DirectionRun syncCfg targetID secretName sourceBackend targetBackend s t d env w
      (exec (applyDirection syncCfg targetID secretName sourceBackend targetBackend s t d) env w).1
      (exec (applyDirection syncCfg targetID secretName sourceBackend targetBackend s t d) env
        w).2.2 := by
  unfold applyDirection
  rw [Direction.write_eq]
  cases hf : firstWorking syncCfg.attempts env with
  | none =>
    obtain ⟨err, hrun⟩ := run_withRetry_error hf (d.dst sourceBackend targetBackend) secretName
      (d.pick s t) w
    rw [exec_bind hrun]
    simp only [exec_record, Stream'.tail_drop']
    exact .failed hf ⟨_, rfl, rfl, run_upsert ..⟩
  | some k =>
    rw [exec_bind (run_withRetry_ok hf (d.dst sourceBackend targetBackend) secretName
      (d.pick s t) w)]
    simp only [exec_record, Stream'.tail_drop']
    refine .copied hf ⟨_, rfl, ?_, run_upsert ..⟩
    cases d <;> rfl

theorem run_syncSecretBidirectional (e : Engine) (syncCfg : SyncConfig)
    (targetID secretName sourceBackend targetBackend : String) (env : Env) (w : World) :
    BidirectionalRun e syncCfg targetID secretName sourceBackend targetBackend env w
      (exec (syncSecretBidirectional e syncCfg targetID secretName sourceBackend targetBackend)
        env w).1
      (exec (syncSecretBidirectional e syncCfg targetID secretName sourceBackend targetBackend)
        env w).2.2 := by
  unfold syncSecretBidirectional
  rw [run_getSecret]
  rcases readWith_cases env.head w sourceBackend secretName with ⟨err, herr, hno⟩ | ⟨s, hs, hsw, hsv⟩
  · rw [herr]
    exact .unread _ hno
  rw [hs]
  simp only
  rw [run_getSecret]
  rcases readWith_cases env.tail.head w targetBackend secretName with
    ⟨err, herr, hno⟩ | ⟨t, ht, htw, htv⟩
  · rw [herr]
    exact .handedOver hsw hsv hno (run_syncSecretUnidirectional ..)
  rw [ht]
  have hread : BothRead secretName sourceBackend targetBackend env w s t := ⟨hsw, htw, hsv, htv⟩
  by_cases heq : hashString s = hashString t
  · simp only [heq, if_true, exec_record]
    exact .inSync hread heq ⟨_, rfl, by rw [heq]; rfl, run_upsert ..⟩
  · simp only [heq, if_false]
    by_cases hsel : (env.get 2).Works
    · have hrun : exec (getSyncObject (syncKey syncCfg targetID secretName)) env.tail.tail w =
          (.ok ((w.syncObjects.lookup (syncKey syncCfg targetID secretName)).map (·.toSyncObject)),
            env.tail.tail.tail, w) := by
        simp [getSyncObject, perform, handle, Answer.reply, hsel]
      rw [exec_bind hrun]
      exact .directed hread heq hsel (run_applyDirection ..)
    · obtain ⟨err, herr⟩ := Option.ne_none_iff_exists'.mp hsel
      have hrun : exec (getSyncObject (syncKey syncCfg targetID secretName)) env.tail.tail w =
          (.error err, env.tail.tail.tail, w) := by
        simp [getSyncObject, perform, handle, Answer.reply, herr]
      rw [exec_bind hrun]
      exact .unselected _ hread heq hsel

end VaultsSyncer
