import VaultsSyncer.Sync.Footprint
import VaultsSyncer.Sync.Outcomes

/-! A program of the engine in two worlds that agree on its footprint. The records may differ in what
    no program looks at: the view under which they are compared is a parameter, so that one proof
    serves the comparison of two schedules (equal up to timestamps and row ids) and that of two
    histories (equal up to the choice of the next direction). -/

namespace VaultsSyncer

open GoStd Schemes Schemes.Prog

def SyncObject.timeless (o : SyncObject) : SyncObject := { o with lastSyncTime := 0 }

theorem SyncObject.key_eq_of_timeless {o o' : SyncObject} (h : o.timeless = o'.timeless) :
    o.key = o'.key := (congrArg SyncObject.key h :)

/-- Equal up to timestamps. -/
inductive SameCall : Call → Call → Prop
  | same (c : Call) : SameCall c c
  | update {o o' : SyncObject} (t t' : ℤ) (h : o.timeless = o'.timeless) :
      SameCall (.updateSyncObject o t) (.updateSyncObject o' t')
  | insert {o o' : SyncObject} (t t' : ℤ) (h : o.timeless = o'.timeless) :
      SameCall (.insertSyncObject o t) (.insertSyncObject o' t')

/-- Answers that send a program the same way: equal, but for what a clock shows and for what a
    stored record says besides the direction it leads to. -/
def SameAnswer : ∀ op op' : Call, op.Ans → op'.Ans → Prop
  | .now, .now, _, _ => True
  | .selectSyncObject _, .selectSyncObject _, r, r' =>
    r.map chooseDirection = r'.map chooseDirection
  | .listSecrets _, .listSecrets _, r, r' => r = r'
  | .getSecret _ _, .getSecret _ _, r, r' => r = r'
  | .setSecret _ _ _, .setSecret _ _ _, r, r' => r = r'
  | .sleep _, .sleep _, _, _ => True
  | .updateSyncObject _ _, .updateSyncObject _ _, r, r' => r = r'
  | .rowsAffected _, .rowsAffected _, r, r' => r = r'
  | .insertSyncObject _ _, .insertSyncObject _ _, r, r' => r = r'
  | .insertSyncRun _, .insertSyncRun _, r, r' => r = r'
  | _, _, _, _ => False

/-- The same calls fail, whatever the clocks show. -/
def SameFaults (e e' : Env) : Prop := ∀ k, (e.get k).fault = (e'.get k).fault

theorem SameFaults.tail {e e' : Env} (h : SameFaults e e') : SameFaults e.tail e'.tail :=
  fun k => h (k + 1)

/-- What two rows are compared by. -/
structure RowView (β : Type) where
  view : SyncObjectRow → β
  direction : ∀ {r r' : SyncObjectRow}, view r = view r' →
    chooseDirection (some r.toSyncObject) = chooseDirection (some r'.toSyncObject)
  assign : ∀ {r r' : SyncObjectRow} {o o' : SyncObject} (t t' : ℤ), view r = view r' →
    o.timeless = o'.timeless →
    view (SyncObjectTable.assign o t r) = view (SyncObjectTable.assign o' t' r')
  newRow : ∀ {o o' : SyncObject} (t t' created created' : ℤ) (id id' : ℕ),
    o.timeless = o'.timeless →
    view (SyncObjectTable.newRow o t created id) = view (SyncObjectTable.newRow o' t' created' id')

/-- Only the direction a record leads to. -/
def RowView.choice : RowView Direction where
  view := fun r => chooseDirection (some r.toSyncObject)
  direction := id
  assign := fun _ _ _ h => (congrArg (fun o => chooseDirection (some o)) h :)
  newRow := fun _ _ _ _ _ _ h => (congrArg (fun o => chooseDirection (some o)) h :)

/-- A row up to its id and its timestamps. -/
def SyncObjectRow.content (r : SyncObjectRow) : SyncObject :=
  { r.toSyncObject with id := 0, lastSyncTime := 0 }

/-- Everything but the id and the timestamps. -/
def RowView.content : RowView SyncObject where
  view := SyncObjectRow.content
  direction := fun h => (congrArg (fun o => chooseDirection (some o)) h :)
  assign := by
    intro r r' o o' t t' hr ho
    simp only [SyncObjectRow.content, SyncObject.mk.injEq] at hr
    simp only [SyncObject.timeless, SyncObject.mk.injEq] at ho
    simp [SyncObjectRow.content, SyncObjectTable.assign, hr, ho]
  newRow := by
    intro o o' t t' created created' id id' ho
    simp only [SyncObject.timeless, SyncObject.mk.injEq] at ho
    simp [SyncObjectRow.content, SyncObjectTable.newRow, ho]

/-- Two worlds agree on a footprint. -/
structure Agree {β : Type} (F : Footprint) (ρ : RowView β) (w u : World) : Prop where
  cells : ∀ v n, F.reads v n ∨ F.writes v n → w.vaults v n = u.vaults v n
  rows : ∀ k, F.keys k →
    (w.syncObjects.lookup k).map ρ.view = (u.syncObjects.lookup k).map ρ.view

theorem agree_equivalence {β : Type} (F : Footprint) (ρ : RowView β) : Equivalence (Agree F ρ) where
  refl := fun _ => ⟨fun _ _ _ => rfl, fun _ _ => rfl⟩
  symm := fun h => ⟨fun v n hF => (h.cells v n hF).symm, fun k hk => (h.rows k hk).symm⟩
  trans := fun h h' => ⟨fun v n hF => (h.cells v n hF).trans (h'.cells v n hF),
    fun k hk => (h.rows k hk).trans (h'.rows k hk)⟩

/-! ### Related calls in worlds that agree -/

section Respects

variable {β : Type} {F : Footprint} {ρ : RowView β} {w u : World}

theorem Agree.setVault (h : Agree F ρ w u) (vault name : String) (value : Bytes) :
    Agree F ρ (w.setVault vault name value) (u.setVault vault name value) where
  cells := fun v n hF => by
    simp only [World.setVault]
    rw [h.cells v n hF]
  rows := h.rows

theorem Agree.lookup_eq_none (h : Agree F ρ w u) {k : SyncKey} (hk : F.keys k) :
    w.syncObjects.lookup k = none ↔ u.syncObjects.lookup k = none := by
  rw [← Option.map_eq_none_iff (f := ρ.view), h.rows k hk, Option.map_eq_none_iff]

theorem Agree.update (h : Agree F ρ w u) {o o' : SyncObject} (ho : o.timeless = o'.timeless)
    (hk : F.keys o.key) (t t' : ℤ) :
    (w.update o t).1 = (u.update o' t').1 ∧ Agree F ρ (w.update o t).2 (u.update o' t').2 := by
  have hkey := SyncObject.key_eq_of_timeless ho
  refine ⟨?_, h.cells, fun k hkF => ?_⟩
  · simp only [World.update, SyncObjectTable.affected_eq, ← hkey, h.lookup_eq_none hk]
  · simp only [World.update, SyncObjectTable.lookup_update, ← hkey]
    split_ifs with hko
    · have hrow := h.rows o.key hk
      cases hw : w.syncObjects.lookup o.key with
      | none =>
        have hu := (h.lookup_eq_none hk).mp hw
        rw [hu]
        rfl
      | some r =>
        cases hu : u.syncObjects.lookup o.key with
        | none => rw [(h.lookup_eq_none hk).mpr hu] at hw; cases hw
        | some r' =>
          rw [hw, hu] at hrow
          exact congrArg some (ρ.assign t t' (Option.some.inj hrow) ho)
    · exact h.rows k hkF

theorem Agree.insert (h : Agree F ρ w u) {o o' : SyncObject} (ho : o.timeless = o'.timeless)
    (hk : F.keys o.key) (t t' created created' : ℤ) :
    (w.insert o t created).1 = (u.insert o' t' created').1 ∧
      Agree F ρ (w.insert o t created).2 (u.insert o' t' created').2 := by
  have hkey := SyncObject.key_eq_of_timeless ho
  by_cases hw : w.syncObjects.lookup o.key = none
  · have hu : u.syncObjects.lookup o'.key = none := hkey ▸ (h.lookup_eq_none hk).mp hw
    simp only [World.insert, hw, hu, dif_pos]
    refine ⟨trivial, h.cells, fun k hkF => ?_⟩
    simp only [SyncObjectTable.lookup_insert, ← hkey]
    split_ifs with hko
    · exact congrArg some (ρ.newRow t t' created created' _ _ ho)
    · exact h.rows k hkF
  · have hu : u.syncObjects.lookup o'.key ≠ none :=
      fun hn => hw ((h.lookup_eq_none hk).mpr (hkey ▸ hn))
    simp only [World.insert, hw, hu, dif_neg, not_false_eq_true]
    exact ⟨trivial, h⟩

/-- The answer a write returns and the world it leaves, when it fails in neither world or in both. -/
theorem Agree.commit {α : Type} (h : Agree F ρ w u) {a a' : Answer} (ha : a.fault = a'.fault)
    (r r' : Except GoError α × World) (hr : r.1 = r'.1) (hagree : Agree F ρ r.2 r'.2) :
    (a.commit r w).1 = (a'.commit r' u).1 ∧ Agree F ρ (a.commit r w).2 (a'.commit r' u).2 := by
  simp only [Answer.commit, ← ha]
  cases a.fault with
  | some err => exact ⟨rfl, h⟩
  | none => exact ⟨hr, hagree⟩

theorem Answer.reply_congr {α : Type} {a a' : Answer} (ha : a.fault = a'.fault)
    {r r' : Except GoError α} (hr : r = r') : a.reply r = a'.reply r' := by
  rw [Answer.reply, Answer.reply, ha, hr]

theorem handle_respects (F : Footprint) (ρ : RowView β) :
    Respects handle handle F.Within SameCall SameAnswer
      fun x y => SameFaults x.1 y.1 ∧ Agree F ρ x.2 y.2 := by
  rintro op op' ⟨env, w⟩ ⟨env', u⟩ hin hcall ⟨henv, hag⟩
  have ha : env.head.fault = env'.head.fault := henv 0
  cases hcall with
  | update t t' ho =>
    obtain ⟨hn, hag'⟩ := hag.update ho hin t t'
    obtain ⟨h1, h2⟩ := hag.commit ha (.ok (w.update _ t).1, (w.update _ t).2)
      (.ok (u.update _ t').1, (u.update _ t').2) (congrArg Except.ok hn) hag'
    exact ⟨h1, henv.tail, h2⟩
  | insert t t' ho =>
    obtain ⟨hn, hag'⟩ := hag.insert ho hin t t' env.head.clock env'.head.clock
    obtain ⟨h1, h2⟩ := hag.commit ha _ _ hn hag'
    exact ⟨h1, henv.tail, h2⟩
  | same =>
    cases op with
    | listSecrets vault => exact absurd hin id
    | insertSyncRun run => exact absurd hin id
    | getSecret vault name =>
      refine ⟨Answer.reply_congr ha ?_, henv.tail, hag⟩
      rw [World.read, World.read, hag.cells vault name (.inl hin)]
    | setSecret vault name value =>
      obtain ⟨h1, h2⟩ := hag.commit ha (.ok (), w.setVault vault name value)
        (.ok (), u.setVault vault name value) rfl (hag.setVault vault name value)
      exact ⟨h1, henv.tail, h2⟩
    | sleep ms => exact ⟨trivial, henv, hag⟩
    | now => exact ⟨trivial, henv.tail, hag⟩
    | rowsAffected n => exact ⟨Answer.reply_congr ha rfl, henv.tail, hag⟩
    | updateSyncObject obj t =>
      obtain ⟨hn, hag'⟩ := hag.update rfl hin t t
      obtain ⟨h1, h2⟩ := hag.commit ha (.ok (w.update obj t).1, (w.update obj t).2)
        (.ok (u.update obj t).1, (u.update obj t).2) (congrArg Except.ok hn) hag'
      exact ⟨h1, henv.tail, h2⟩
    | insertSyncObject obj t =>
      obtain ⟨hn, hag'⟩ := hag.insert (o := obj) rfl hin t t env.head.clock env'.head.clock
      obtain ⟨h1, h2⟩ := hag.commit ha _ _ hn hag'
      exact ⟨h1, henv.tail, h2⟩
    | selectSyncObject key =>
      refine ⟨?_, henv.tail, hag⟩
      simp only [SameAnswer, handle, Answer.reply, ← ha]
      cases env.head.fault with
      | some err => rfl
      | none =>
        have hrow := hag.rows key hin
        cases hw : w.syncObjects.lookup key with
        | none =>
          rw [(hag.lookup_eq_none hin).mp hw]
        | some r =>
          cases hu : u.syncObjects.lookup key with
          | none => rw [(hag.lookup_eq_none hin).mpr hu] at hw; cases hw
          | some r' =>
            rw [hw, hu] at hrow
            exact congrArg Except.ok (ρ.direction (Option.some.inj hrow))

end Respects

/-! ### Each program is related to itself -/

/-- Related calls all along, and related results. -/
abbrev Alike {α : Type} (V : α → α → Prop) (p q : Sync α) : Prop := Sim SameCall SameAnswer V p q

section Alike

theorem alike_getSecret (vault name : String) :
    Alike Eq (getSecret vault name) (getSecret vault name) :=
  .call (.same _) fun _ _ h => .ret h

theorem alike_setSecret (vault name : String) (value : Bytes) :
    Alike Eq (setSecret vault name value) (setSecret vault name value) :=
  .call (.same _) fun _ _ h => .ret h

theorem alike_upsert {o o' : SyncObject} (ho : o.timeless = o'.timeless) :
    Alike Eq (upsertSyncObject o) (upsertSyncObject o') := by
  refine .call (.same _) fun t t' _ => .call (.update t t' ho) ?_
  rintro res _ rfl
  cases res with
  | error err => exact .ret rfl
  | ok n =>
    refine .call (.same _) ?_
    rintro rows _ rfl
    cases rows with
    | error err => exact .ret rfl
    | ok n =>
      change Alike Eq (if n = 0 then execInsert o t else pure (.ok ()))
        (if n = 0 then execInsert o' t' else pure (.ok ()))
      split_ifs
      · exact .call (.insert t t' ho) fun _ _ h => .ret h
      · exact .ret rfl

/-- `now`, an upsert and a result. -/
theorem alike_record {α : Type} {o : ℤ → SyncObject} (ho : ∀ t t', (o t).timeless = (o t').timeless)
    (res : α) :
    Alike Eq (do
      let t ← now
      let _ ← upsertSyncObject (o t)
      return res) (do
      let t ← now
      let _ ← upsertSyncObject (o t)
      return res) :=
  .call (.same _) fun t t' _ => (alike_upsert (ho t t')).bind fun _ _ _ => .ret rfl

theorem alike_retryLoop (policy : RetryPolicy) {fn : Sync (Except GoError Unit)}
    (h : Alike Eq fn fn) (n : ℕ) (attempt backoff : ℤ) (lastErr : Option GoError) :
    Alike Eq (retryLoop policy fn n attempt backoff lastErr)
      (retryLoop policy fn n attempt backoff lastErr) := by
  induction n generalizing attempt backoff lastErr with
  | zero => exact .ret rfl
  | succ n ih =>
    refine h.bind ?_
    rintro res _ rfl
    cases res with
    | ok _ => exact .ret rfl
    | error err =>
      simp only
      split_ifs
      · exact .call (.same _) fun _ _ _ => ih _ _ _
      · exact ih _ _ _

theorem alike_withRetry (policy : RetryPolicy) {fn : Sync (Except GoError Unit)}
    (h : Alike Eq fn fn) : Alike Eq (withRetry policy fn) (withRetry policy fn) :=
  alike_retryLoop policy h _ _ _ _

variable (e : Engine) (syncCfg : SyncConfig) (targetID secretName source target : String)

theorem alike_syncSecretUnidirectional :
    Alike Eq (syncSecretUnidirectional e syncCfg targetID secretName source)
      (syncSecretUnidirectional e syncCfg targetID secretName source) := by
  unfold syncSecretUnidirectional
  by_cases hreg : targetID ∉ e.backends
  · rw [if_pos hreg]
    exact .ret rfl
  rw [if_neg hreg]
  refine (alike_getSecret _ _).bind ?_
  rintro res _ rfl
  cases res with
  | error err => exact .ret rfl
  | ok secret =>
    cases ht : applyTransforms secret.value syncCfg.transforms with
    | error err => simp only [ht]; exact .ret rfl
    | ok value =>
      simp only [ht]
      refine (alike_withRetry _ (alike_setSecret _ _ _)).bind ?_
      rintro res _ rfl
      cases res with
      | error err => exact alike_record (fun _ _ => rfl) _
      | ok _ => exact alike_record (fun _ _ => rfl) _

theorem alike_applyDirection (s t : Bytes) (d : Direction) :
    Alike Eq (applyDirection syncCfg targetID secretName source target s t d)
      (applyDirection syncCfg targetID secretName source target s t d) := by
  have hwrite : Alike Eq (d.write secretName source target s t)
      (d.write secretName source target s t) := by
    cases d with
    | sourceToTarget => exact alike_setSecret _ _ _
    | targetToSource => exact alike_setSecret _ _ _
  refine (alike_withRetry _ hwrite).bind ?_
  rintro res _ rfl
  cases res with
  | error err => exact alike_record (fun _ _ => rfl) _
  | ok _ => exact alike_record (fun _ _ => rfl) _

theorem alike_syncSecretBidirectional :
    Alike Eq (syncSecretBidirectional e syncCfg targetID secretName source target)
      (syncSecretBidirectional e syncCfg targetID secretName source target) := by
  refine (alike_getSecret _ _).bind ?_
  rintro res _ rfl
  cases res with
  | error err => exact .ret rfl
  | ok sourceSecret =>
    refine (alike_getSecret _ _).bind ?_
    rintro res _ rfl
    cases res with
    | error err => exact alike_syncSecretUnidirectional e syncCfg targetID secretName source
    | ok targetSecret =>
      simp only
      split_ifs
      · exact alike_record (fun _ _ => rfl) _
      · refine .call (.same _) fun r r' hr => ?_
        cases r with
        | error err =>
          cases r' with
          | error err' => cases hr; exact .ret rfl
          | ok o' => cases hr
        | ok o =>
          cases r' with
          | error err' => cases hr
          | ok o' =>
            have hd : chooseDirection o = chooseDirection o' := Except.ok.inj hr
            change Alike Eq (applyDirection syncCfg targetID secretName source target
              sourceSecret.value targetSecret.value (chooseDirection o)) (applyDirection syncCfg
              targetID secretName source target sourceSecret.value targetSecret.value
              (chooseDirection o'))
            rw [hd]
            exact alike_applyDirection ..

end Alike

end VaultsSyncer
