import VaultsSyncer.Sync.Engine

/-! What one run of each engine function does, case by case: one lemma a function, with everything
    the run can do to the vaults and to the sync database. Later modules use these and do not
    unfold the functions again. Answers are counted from the start of the function: a run of
    `syncSecretBidirectional` meets the source read as answer 0, the target read as answer 1. -/

namespace VaultsSyncer

open GoStd Schemes Schemes.Prog

/-- The run of a program against the answers `env` from the world `w`. -/
abbrev exec {α : Type} (p : Sync α) (env : Env) (w : World) : α × Env × World :=
  p.run handle (env, w)

/-- The call that meets `a` does not fail. -/
abbrev Answer.Works (a : Answer) : Prop := a.fault = none

theorem Answer.reply_of_works {α : Type} {a : Answer} (h : a.Works) (r : Except GoError α) :
    a.reply r = r := by simp [Answer.reply, h]

theorem Answer.commit_of_works {α : Type} {a : Answer} (h : a.Works) (r : Except GoError α × World)
    (w : World) : a.commit r w = r := by simp [Answer.commit, h]

theorem Answer.reply_of_fault {α : Type} {a : Answer} (h : ¬a.Works) (r : Except GoError α) :
    ∃ err, a.reply r = .error err := by
  obtain ⟨err, herr⟩ := Option.ne_none_iff_exists'.mp h
  exact ⟨err, by simp [Answer.reply, herr]⟩

theorem Answer.commit_of_fault {α : Type} {a : Answer} (h : ¬a.Works) (r : Except GoError α × World)
    (w : World) : ∃ err, a.commit r w = (.error err, w) := by
  obtain ⟨err, herr⟩ := Option.ne_none_iff_exists'.mp h
  exact ⟨err, by simp [Answer.commit, herr]⟩

/-! ### Reading a secret -/

/-- What a `GetSecret` returns under an answer. -/
def readWith (a : Answer) (w : World) (vault name : String) : Except GoError Secret :=
  a.reply (w.read vault name)

theorem readWith_ok {a : Answer} {w : World} {vault name : String} {x : Bytes} (ha : a.Works)
    (hx : w.vaults vault name = some x) : readWith a w vault name = .ok ⟨name, x⟩ := by
  simp [readWith, Answer.reply, ha, World.read, hx]

/-- A read fails, or it returns what is stored. -/
theorem readWith_cases (a : Answer) (w : World) (vault name : String) :
    (∃ err, readWith a w vault name = .error err ∧
      ¬(a.Works ∧ ∃ x, w.vaults vault name = some x)) ∨
    ∃ x, readWith a w vault name = .ok ⟨name, x⟩ ∧ a.Works ∧ w.vaults vault name = some x := by
  by_cases ha : a.Works
  · cases hx : w.vaults vault name with
    | none => exact .inl ⟨_, by simp [readWith, Answer.reply, ha, World.read, hx]; rfl, by simp⟩
    | some x => exact .inr ⟨x, readWith_ok ha hx, ha, rfl⟩
  · obtain ⟨err, herr⟩ := Answer.reply_of_fault ha (w.read vault name)
    exact .inl ⟨err, herr, fun h => ha h.1⟩

theorem run_getSecret {α : Type} (vault name : String) (f : Except GoError Secret → Sync α)
    (env : Env) (w : World) : exec (getSecret vault name >>= f) env w =
      exec (f (readWith env.head w vault name)) env.tail w := rfl

theorem calls_getSecret {α : Type} (vault name : String) (f : Except GoError Secret → Sync α)
    (env : Env) (w : World) : (getSecret vault name >>= f).calls handle (env, w) =
      .getSecret vault name :: (f (readWith env.head w vault name)).calls handle (env.tail, w) :=
  rfl

/-! ### Recording an outcome -/

/-- The row `r` holds the fields of `o`; the id is the table's. -/
def SyncObjectRow.Records (r : SyncObjectRow) (o : SyncObject) : Prop :=
  { r.toSyncObject with id := o.id } = o

/-- An upsert that starts at `env` takes effect: its UPDATE works, and where no row is there, the
    row count and the INSERT do too. -/
def Recorded (env : Env) (w : World) (k : SyncKey) : Prop :=
  (env.get 1).Works ∧
    (w.syncObjects.lookup k ≠ none ∨ ((env.get 2).Works ∧ (env.get 3).Works))

theorem records_assign {o : SyncObject} {r : SyncObjectRow} (h : r.rowKey = o.key) (now : ℤ) :
    (SyncObjectTable.assign o now r).Records o := by
  simp only [SyncObjectRow.rowKey, SyncObject.key, SyncKey.mk.injEq] at h
  simp [SyncObjectRow.Records, SyncObjectTable.assign, h]

theorem records_newRow (o : SyncObject) (now created : ℤ) (id : ℕ) :
    (SyncObjectTable.newRow o now created id).Records o := by
  simp [SyncObjectRow.Records, SyncObjectTable.newRow]

/-- What an upsert of `o` that starts at `env` in `w` leaves: no vault changes, no row under another
    key; and there is a row that holds the object, or nothing has changed. -/
structure Upserted (o : SyncObject) (env : Env) (w w' : World) : Prop where
  vaults : w'.vaults = w.vaults
  runs : w'.syncsRun = w.syncsRun
  others : ∀ k, k ≠ o.key → w'.syncObjects.lookup k = w.syncObjects.lookup k
  saved : Recorded env w o.key → ∃ r, w'.syncObjects.lookup o.key = some r ∧ r.Records o ∧
    ∀ r₀, w.syncObjects.lookup o.key = some r₀ → r.id = r₀.id
  lost : ¬Recorded env w o.key → w'.syncObjects = w.syncObjects

theorem Upserted.of_unchanged {o : SyncObject} {env : Env} {w : World}
    (h : ¬Recorded env w o.key) : Upserted o env w w :=
  ⟨rfl, rfl, fun _ _ => rfl, fun hr => absurd hr h, fun _ => rfl⟩

/-- The UPDATE found the row. -/
theorem Upserted.of_update {o : SyncObject} {env : Env} {w : World} {r : SyncObjectRow}
    (hr : w.syncObjects.lookup o.key = some r) (hrec : Recorded env w o.key) (t : ℤ) :
    Upserted o env w (w.update o t).2 where
  vaults := rfl
  runs := rfl
  others := fun k hk => by simp [World.update, SyncObjectTable.lookup_update, hk]
  saved := fun _ => by
    refine ⟨SyncObjectTable.assign o t r, ?_, records_assign (SyncObjectTable.lookup_key hr) t, ?_⟩
    · simp [World.update, SyncObjectTable.lookup_update, hr]
    · intro r₀ hr₀; rw [hr] at hr₀; cases hr₀; rfl
  lost := fun h => absurd hrec h

/-- The UPDATE found nothing and the INSERT added the row. -/
theorem Upserted.of_insert {o : SyncObject} {env : Env} {w : World}
    (hnone : w.syncObjects.lookup o.key = none) (hrec : Recorded env w o.key) (t created : ℤ) :
    Upserted o env w (w.insert o t created).2 where
  vaults := by simp [World.insert, hnone]
  runs := by simp [World.insert, hnone]
  others := fun k hk => by simp [World.insert, hnone, SyncObjectTable.lookup_insert, hk]
  saved := fun _ => by
    refine ⟨SyncObjectTable.newRow o t created w.syncObjects.nextID, ?_, records_newRow .., ?_⟩
    · simp [World.insert, hnone, SyncObjectTable.lookup_insert]
    · intro r₀ hr₀; rw [hnone] at hr₀; cases hr₀
  lost := fun h => absurd hrec h

/-- The world after an upsert, statement by statement. -/
theorem upsert_world (o : SyncObject) (env : Env) (w : World) :
    (exec (upsertSyncObject o) env w).2.2 =
      if (env.get 1).Works then
        if (env.get 2).Works ∧ w.syncObjects.affected o = 0 then
          ((env.get 3).commit ((w.update o (env.get 0).clock).2.insert o (env.get 0).clock
            (env.get 3).clock) (w.update o (env.get 0).clock).2).2
        else (w.update o (env.get 0).clock).2
      else w := by
  simp only [exec, upsertSyncObject, now, execUpdate, perform_bind, run_call, handle]
  split_ifs with h1 h2
  · simp [Answer.commit, h1, rowsAffected, handle, Answer.reply, h2, World.update, execInsert,
      perform]
  · cases hf : (env.get 2).fault with
    | some err => simp [Answer.commit, h1, rowsAffected, handle, Answer.reply, hf]
    | none =>
      have haff : w.syncObjects.affected o ≠ 0 := fun h => h2 ⟨hf, h⟩
      simp [Answer.commit, h1, rowsAffected, handle, Answer.reply, hf, World.update, haff]
  · obtain ⟨err, herr⟩ := Option.ne_none_iff_exists'.mp h1
    simp [Answer.commit, herr]

theorem run_upsert (o : SyncObject) (env : Env) (w : World) :
    Upserted o env w (exec (upsertSyncObject o) env w).2.2 := by
  rw [upsert_world]
  split_ifs with h1 h2
  · -- no row is there, so the UPDATE changed nothing
    obtain ⟨h2, haff⟩ := h2
    have hl : w.syncObjects.lookup o.key = none := SyncObjectTable.affected_eq_zero.mp haff
    have hup : (w.update o (env.get 0).clock).2 = w := by
      simp [World.update, SyncObjectTable.update_of_absent hl]
    rw [hup]
    by_cases h3 : (env.get 3).Works
    · rw [Answer.commit_of_works h3]
      exact .of_insert hl ⟨h1, .inr ⟨h2, h3⟩⟩ _ _
    · obtain ⟨err, herr⟩ := Answer.commit_of_fault h3 (w.insert o (env.get 0).clock
        (env.get 3).clock) w
      rw [herr]
      exact .of_unchanged fun h => h.2.elim (fun hne => hne hl) fun h' => h3 h'.2
  · cases hl : w.syncObjects.lookup o.key with
    | some r => exact .of_update hl ⟨h1, .inl (by simp [hl])⟩ _
    | none =>
      have hup : (w.update o (env.get 0).clock).2 = w := by
        simp [World.update, SyncObjectTable.update_of_absent hl]
      rw [hup]
      refine .of_unchanged fun h => h.2.elim (fun hne => hne hl) fun h' => h2 ⟨h'.1, ?_⟩
      exact SyncObjectTable.affected_eq_zero.mpr hl
  · exact .of_unchanged fun h => h1 h.1

/-! ### Retrying a write -/

/-- The first of the next `n` answers that does not fail. -/
def firstWorking : ℕ → Env → Option ℕ
  | 0, _ => none
  | n + 1, env => if env.head.Works then some 0 else (firstWorking n env.tail).map (· + 1)

theorem firstWorking_eq_none {n : ℕ} {env : Env} :
    firstWorking n env = none ↔ ∀ k < n, ¬(env.get k).Works := by
  induction n generalizing env with
  | zero => simp [firstWorking]
  | succ n ih =>
    simp only [firstWorking]
    split_ifs with h
    · simp only [false_iff]
      exact fun hall => hall 0 (Nat.succ_pos n) h
    · rw [Option.map_eq_none_iff, ih, Nat.forall_lt_succ_left]
      exact (and_iff_right h).symm

theorem firstWorking_works {n k : ℕ} {env : Env} (h : firstWorking n env = some k) :
    k < n ∧ (env.get k).Works := by
  induction n generalizing env k with
  | zero => simp [firstWorking] at h
  | succ n ih =>
    simp only [firstWorking] at h
    split_ifs at h with hw
    · obtain rfl := Option.some.inj h
      exact ⟨Nat.succ_pos n, hw⟩
    · obtain ⟨j, hj, rfl⟩ := Option.map_eq_some_iff.mp h
      have hj' := ih hj
      exact ⟨Nat.succ_lt_succ hj'.1, hj'.2⟩

theorem retryLoop_works (policy : RetryPolicy) (vault name : String) (value : Bytes) (n : ℕ)
    (attempt backoff : ℤ) (lastErr : Option GoError) {env : Env} (h : env.head.Works) (w : World) :
    exec (retryLoop policy (setSecret vault name value) (n + 1) attempt backoff lastErr) env w =
      (.ok (), env.tail, w.setVault vault name value) := by
  have hf : env.head.fault = none := h
  simp [retryLoop, setSecret, handle, Answer.commit, hf]

/-- A failed write goes on with the next answer, after a sleep or without one. -/
theorem retryLoop_fails (policy : RetryPolicy) (vault name : String) (value : Bytes) (n : ℕ)
    (attempt backoff : ℤ) (lastErr : Option GoError) {env : Env} (h : ¬env.head.Works) (w : World) :
    ∃ backoff' err,
      exec (retryLoop policy (setSecret vault name value) (n + 1) attempt backoff lastErr) env w =
        exec (retryLoop policy (setSecret vault name value) n (attempt + 1) backoff' (some err))
          env.tail w := by
  obtain ⟨err, herr⟩ := Option.ne_none_iff_exists'.mp h
  by_cases hat : attempt < policy.maxRetries
  · refine ⟨nextBackoff Float64.amd64 policy backoff, err, ?_⟩
    simp [retryLoop, setSecret, handle, Answer.commit, herr, hat, sleep]
  · exact ⟨backoff, err, by simp [retryLoop, setSecret, handle, Answer.commit, herr, hat]⟩

/-- The loop of `withRetry` writes at the first answer that works. -/
theorem run_retryLoop (policy : RetryPolicy) (vault name : String) (value : Bytes) (n : ℕ)
    (attempt backoff : ℤ) (lastErr : Option GoError) (env : Env) (w : World) :
    (∀ k, firstWorking n env = some k →
      exec (retryLoop policy (setSecret vault name value) n attempt backoff lastErr) env w =
        (.ok (), env.drop (k + 1), w.setVault vault name value)) ∧
    (firstWorking n env = none → ∃ err,
      exec (retryLoop policy (setSecret vault name value) n attempt backoff lastErr) env w =
        (.error err, env.drop n, w)) := by
  induction n generalizing attempt backoff lastErr env with
  | zero =>
    refine ⟨fun k hk => ?_, fun _ => ⟨_, rfl⟩⟩
    cases hk
  | succ n ih =>
    by_cases hw : env.head.Works
    · rw [retryLoop_works policy vault name value n attempt backoff lastErr hw w]
      rw [firstWorking, if_pos hw]
      refine ⟨fun k hk => ?_, fun hn => ?_⟩
      · obtain rfl := Option.some.inj hk
        rfl
      · cases hn
    · obtain ⟨backoff', err, hstep⟩ :=
        retryLoop_fails policy vault name value n attempt backoff lastErr hw w
      obtain ⟨hok, herr⟩ := ih (attempt + 1) backoff' (some err) env.tail
      rw [hstep, firstWorking, if_neg hw]
      refine ⟨fun k hk => ?_, fun hn => herr (Option.map_eq_none_iff.mp hn)⟩
      obtain ⟨j, hj, rfl⟩ := Option.map_eq_some_iff.mp hk
      exact hok j hj

theorem run_withRetry_ok {policy : RetryPolicy} {env : Env} {k : ℕ}
    (h : firstWorking (attempts policy) env = some k) (vault name : String) (value : Bytes)
    (w : World) : exec (withRetry policy (setSecret vault name value)) env w =
      (.ok (), env.drop (k + 1), w.setVault vault name value) := by
  exact (run_retryLoop policy vault name value _ 0 policy.initialBackoff none env w).1 k h

theorem run_withRetry_error {policy : RetryPolicy} {env : Env}
    (h : firstWorking (attempts policy) env = none) (vault name : String) (value : Bytes)
    (w : World) : ∃ err, exec (withRetry policy (setSecret vault name value)) env w =
      (.error err, env.drop (attempts policy), w) := by
  exact (run_retryLoop policy vault name value _ 0 policy.initialBackoff none env w).2 h

end VaultsSyncer
