import VaultsSyncer.Schemes.Linearize
import VaultsSyncer.Sync.Engine

/-! Concurrent calls of `UpsertSyncObject` (`storage/store.go`): any number of them, one statement at a
    time. A call whose UPDATE has met no row goes on to its INSERT, and another may have inserted the
    row in between. So all is as in some order of the calls exactly where no two of them write to one
    key that has no row yet (`upserts_linearized_iff`). -/

namespace VaultsSyncer

open GoStd Schemes Schemes.Prog Schemes.Phases Schemes.Linearize

/-- The data of a call: its object, the time it has read, and the one at which the row is made. -/
structure UpsertCall where
  obj : SyncObject
  now : ℤ
  created : ℤ

/-- What the next statement of a call is, or what it has returned. -/
inductive UpsertPhase where
  | updating
  | inserting
  | done (result : Except GoError Unit)

namespace UpsertCall

variable (c : UpsertCall)

def step : UpsertPhase → SyncObjectTable → Option (UpsertPhase × SyncObjectTable)
  | .updating, t =>
    if t.lookup c.obj.key = none then some (.inserting, t)
    else some (.done (.ok ()), t.update c.obj c.now)
  | .inserting, t =>
    if h : t.lookup c.obj.key = none then
      some (.done (.ok ()), t.insert c.obj c.now c.created h)
    else some (.done (.error (.new "UNIQUE constraint failed")), t)
  | .done _, _ => none

/-- The call on its own. -/
def alone (t : SyncObjectTable) : Except GoError Unit × SyncObjectTable :=
  if h : t.lookup c.obj.key = none then (.ok (), t.insert c.obj c.now c.created h)
  else (.ok (), t.update c.obj c.now)

end UpsertCall

def UpsertPhase.result : UpsertPhase → Option (Except GoError Unit)
  | .done r => some r
  | _ => none

theorem UpsertCall.step_of_result {c : UpsertCall} {p : UpsertPhase} {r : Except GoError Unit}
    (h : p.result = some r) (t : SyncObjectTable) : c.step p t = none := by
  cases p with
  | done r => rfl
  | _ => cases h

/-- The INSERT of the call comes next. -/
def UpsertCall.Inserts (c : UpsertCall) (p : Sync (Except GoError Unit)) (env : Env) : Prop :=
  env.head.fault = none ∧ env.head.clock = c.created ∧ p = execInsert c.obj c.now

/-- The program of a call in each phase. -/
def UpsertCall.At (c : UpsertCall) : UpsertPhase → Sync (Except GoError Unit) → Env → Prop
  | .updating, p, env => env.head.fault = none ∧ ∃ k, p = .call (.updateSyncObject c.obj c.now) k ∧
      Settles handle c.Inserts (k (.ok 0)) env.tail ∧
      Settles handle (fun p _ => p = .ret (.ok ())) (k (.ok 1)) env.tail
  | .inserting, p, env => c.Inserts p env
  | .done r, p, _ => p = .ret r

/-! ### The threads -/

section Threads

variable {n : ℕ} (obj : Fin n → SyncObject) (env : Fin n → Env)

def upsertCall (i : Fin n) : UpsertCall := ⟨obj i, (env i).head.clock, ((env i).get 3).clock⟩

/-- The calls side by side. -/
def upserts (w : World) : Threads.State Call Call.Ans Env World (Except GoError Unit) (Fin n) where
  prog := fun i => upsertSyncObject (obj i)
  env := env
  shared := w

/-- One of the calls with no other beside it. -/
def upsertAlone (i : Fin n) (w : World) : Except GoError Unit × World :=
  (((upsertSyncObject (obj i)).run handle (env i, w)).1,
    ((upsertSyncObject (obj i)).run handle (env i, w)).2.2)

end Threads

theorem upserts_refine {n : ℕ} (obj : Fin n → SyncObject) (env : Fin n → Env) (w : World) :
    Refines handle (fun i => (upsertCall obj env i).step) UpsertPhase.result
      (fun i => (upsertCall obj env i).At) (fun x t => x = { w with syncObjects := t })
      fun _ a o => a = o where
  call := by
    intro i p op k e x t hG hR
    subst hR
    generalize upsertCall obj env i = c at hG ⊢
    cases p with
    | updating =>
      obtain ⟨hfault, k', hcall, hinserts, hreturns⟩ := hG
      obtain ⟨rfl, rfl⟩ := Prog.call.inj hcall
      simp only [handle, Answer.commit, hfault, World.update, SyncObjectTable.affected_eq]
      by_cases habsent : t.lookup c.obj.key = none
      · refine ⟨.inserting, t, by simp [UpsertCall.step, habsent], ?_, ?_⟩
        · simp only [habsent, ↓reduceIte]
          exact hinserts
        · rw [SyncObjectTable.update_of_absent habsent]
      · refine ⟨.done (.ok ()), t.update c.obj c.now, by simp [UpsertCall.step, habsent], ?_, rfl⟩
        simp only [habsent, ↓reduceIte]
        exact hreturns
    | inserting =>
      obtain ⟨hfault, hclock, hcall⟩ := hG
      obtain ⟨rfl, rfl⟩ := Prog.call.inj hcall
      simp only [handle, Answer.commit, hfault, World.insert, hclock]
      by_cases habsent : t.lookup c.obj.key = none
      · exact ⟨.done (.ok ()), _, by simp [UpsertCall.step, habsent]; rfl, by
          simpa [habsent] using .here rfl, by simp [habsent]⟩
      · exact ⟨.done _, t, by simp [UpsertCall.step, habsent]; rfl, by
          simpa [habsent] using .here rfl, by simp [habsent]⟩
    | done r => cases hG
  ret := by
    intro i p a e hG
    cases p with
    | updating =>
      obtain ⟨-, k, hcall, -⟩ := hG
      cases hcall
    | inserting =>
      obtain ⟨-, -, hcall⟩ := hG
      cases hcall
    | done r => exact ⟨r, rfl, by cases hG; rfl⟩
  stays := UpsertCall.step_of_result

/-- A call starts at its UPDATE, where the database answers all its calls. -/
theorem upserts_settle {n : ℕ} (obj : Fin n → SyncObject) (env : Fin n → Env)
    (hworks : ∀ i m, ((env i).get m).fault = none) (i : Fin n) :
    Settles handle ((upsertCall obj env i).At .updating) (upsertSyncObject (obj i)) (env i) := by
  have hrows : ∀ m w, handle (.rowsAffected m) ((env i).tail.tail, w) =
      (.ok m, (env i).tail.tail.tail, w) := by
    intro m w
    have hfault : (env i).tail.tail.head.fault = none := hworks i 2
    simp only [handle, Answer.reply, hfault]
  refine .skip (fun w => rfl) (.here ⟨hworks i 1, _, rfl, ?_, ?_⟩)
  · exact .skip (hrows 0) (.here ⟨hworks i 3, rfl, rfl⟩)
  · exact .skip (hrows 1) (.here rfl)

theorem upserts_match {n : ℕ} (obj : Fin n → SyncObject) (env : Fin n → Env)
    (hworks : ∀ i m, ((env i).get m).fault = none) (w : World) :
    Matches handle (fun i => (upsertCall obj env i).At) (fun x t => x = { w with syncObjects := t })
      (upserts obj env w) ⟨fun _ => .updating, w.syncObjects⟩ :=
  ⟨upserts_settle obj env hworks, rfl⟩

/-! ### Different new keys -/

theorem SyncObjectTable.lookup_update_none {t : SyncObjectTable} {o : SyncObject} {now : ℤ} {k : SyncKey} :
    (t.update o now).lookup k = none ↔ t.lookup k = none := by
  rw [lookup_update]
  split_ifs with hk
  · rw [Option.map_eq_none_iff, hk]
  · rfl

theorem SyncObjectTable.lookup_insert_none {t : SyncObjectTable} {o : SyncObject} {now created : ℤ}
    (h : t.lookup o.key = none) {k : SyncKey} :
    (t.insert o now created h).lookup k = none ↔ k ≠ o.key ∧ t.lookup k = none := by
  rw [lookup_insert]
  split_ifs with hk <;> simp [hk]

section Commits

variable {n : ℕ} {c : Fin n → UpsertCall} {t₀ : SyncObjectTable}

/-- What is known of the rows while the calls are at work. -/
structure UpsertInv (c : Fin n → UpsertCall) (t₀ : SyncObjectTable)
    (t : State (Fin n) UpsertPhase SyncObjectTable) : Prop where
  present : ∀ k, t₀.lookup k ≠ none → t.shared.lookup k ≠ none
  absent : ∀ i, (t.phase i).result = none → t₀.lookup (c i).obj.key = none →
    t.shared.lookup (c i).obj.key = none
  inserting : ∀ i, t.phase i = .inserting → t₀.lookup (c i).obj.key = none
  written : ∀ i, (t.phase i).result ≠ none → t.shared.lookup (c i).obj.key ≠ none

/-- A call goes to its next phase, and its row may come to be. -/
theorem UpsertInv.next {t : State (Fin n) UpsertPhase SyncObjectTable} (hI : UpsertInv c t₀ t) {i : Fin n}
    {p : UpsertPhase} {t' : SyncObjectTable}
    (hgrow : ∀ k, t.shared.lookup k ≠ none → t'.lookup k ≠ none)
    (hothers : ∀ j, j ≠ i → t₀.lookup (c j).obj.key = none → t.shared.lookup (c j).obj.key = none →
      t'.lookup (c j).obj.key = none)
    (hopen : p.result = none → t₀.lookup (c i).obj.key = none ∧ t'.lookup (c i).obj.key = none)
    (hdone : p.result ≠ none → p ≠ .inserting ∧ t'.lookup (c i).obj.key ≠ none) :
    UpsertInv c t₀ (t.set i p t') := by
  refine ⟨fun k hk => hgrow k (hI.present k hk), fun j hj h0 => ?_, fun j hj => ?_, fun j hj => ?_⟩
  · rcases eq_or_ne j i with rfl | hji
    · exact (hopen (by simpa using hj)).2
    · exact hothers j hji h0 (hI.absent j (by simpa [hji] using hj) h0)
  · rcases eq_or_ne j i with rfl | hji
    · have hp : p = .inserting := by simpa using hj
      by_cases hresult : p.result = none
      · exact (hopen hresult).1
      · exact absurd hp (hdone hresult).1
    · exact hI.inserting j (by simpa [hji] using hj)
  · rcases eq_or_ne j i with rfl | hji
    · exact (hdone (by simpa using hj)).2
    · exact hgrow _ (hI.written j (by simpa [hji] using hj))

/-- Where each new key has one writer, its row is still missing when it is inserted. -/
theorem upserts_commit (hone : ∀ i j, i ≠ j → (c i).obj.key = (c j).obj.key →
    t₀.lookup (c i).obj.key ≠ none) :
    Commits (fun i => (c i).step) UpsertPhase.result (fun i => (c i).alone) (UpsertInv c t₀) where
  kept := by
    intro t i p' y' hI hstep
    rcases hphase : t.phase i with _ | _ | r
    · rw [hphase, UpsertCall.step] at hstep
      split_ifs at hstep with hrow
      · obtain ⟨rfl, rfl⟩ := Prod.mk.inj (Option.some.inj hstep)
        refine hI.next (fun _ h => h) (fun _ _ _ h => h) (fun _ => ⟨?_, hrow⟩) fun h => absurd rfl h
        by_contra hne
        exact hI.present _ hne hrow
      · obtain ⟨rfl, rfl⟩ := Prod.mk.inj (Option.some.inj hstep)
        have hsame : ∀ k, (t.shared.update (c i).obj (c i).now).lookup k ≠ none ↔
            t.shared.lookup k ≠ none := fun k => not_congr SyncObjectTable.lookup_update_none
        refine hI.next (fun k => (hsame k).mpr) (fun _ _ _ h => ?_) (fun h => by cases h) fun _ =>
          ⟨by simp, (hsame _).mpr hrow⟩
        exact SyncObjectTable.lookup_update_none.mpr h
    · have h0 := hI.inserting i hphase
      have hrow : t.shared.lookup (c i).obj.key = none := hI.absent i (by rw [hphase]; rfl) h0
      rw [hphase, UpsertCall.step, dif_pos hrow] at hstep
      obtain ⟨rfl, rfl⟩ := Prod.mk.inj (Option.some.inj hstep)
      refine hI.next (fun k hk => ?_) (fun j hji hj0 h => ?_) (fun h => by cases h) fun _ => ⟨by simp, ?_⟩
      · rw [ne_eq, SyncObjectTable.lookup_insert_none]
        exact fun h => hk h.2
      · exact (SyncObjectTable.lookup_insert_none hrow).mpr ⟨fun hkey => hone j i hji hkey hj0, h⟩
      · rw [ne_eq, SyncObjectTable.lookup_insert_none]
        exact fun h => h.1 rfl
    · rw [hphase] at hstep
      cases hstep
  effect := by
    intro t i p' y' hI hstep
    rcases hphase : t.phase i with _ | _ | r
    · rw [hphase, UpsertCall.step] at hstep
      split_ifs at hstep with hrow
      · obtain ⟨rfl, rfl⟩ := Prod.mk.inj (Option.some.inj hstep)
        exact .inl ⟨rfl, rfl⟩
      · obtain ⟨rfl, rfl⟩ := Prod.mk.inj (Option.some.inj hstep)
        exact .inr ⟨.ok (), rfl, by rw [UpsertCall.alone, dif_neg hrow]⟩
    · have hrow : t.shared.lookup (c i).obj.key = none :=
        hI.absent i (by rw [hphase]; rfl) (hI.inserting i hphase)
      rw [hphase, UpsertCall.step, dif_pos hrow] at hstep
      obtain ⟨rfl, rfl⟩ := Prod.mk.inj (Option.some.inj hstep)
      exact .inr ⟨.ok (), rfl, by rw [UpsertCall.alone, dif_pos hrow]⟩
    · rw [hphase] at hstep
      cases hstep
  stays := UpsertCall.step_of_result

end Commits

/-! ### All interleavings -/

section Runs

variable {n : ℕ} (obj : Fin n → SyncObject) (env : Fin n → Env) (w : World)

/-- All calls have returned nil, there is one row for each key that was written, and all is as the calls
    leave it one after another, in some order. -/
structure UpsertsLinearized (s : Threads.State Call Call.Ans Env World (Except GoError Unit) (Fin n)) :
    Prop where
  returned : ∀ i, s.prog i = .ret (.ok ())
  rows : ∀ i, ∃! r, r ∈ s.shared.syncObjects.rows ∧ r.rowKey = (obj i).key
  order : ∃ l : List (Fin n), l.Nodup ∧ (∀ i, i ∈ l) ∧ s.shared = (inTurn (upsertAlone obj env) w l).2

/-- However the statements of the calls interleave. -/
def UpsertsLinearizable : Prop :=
  ∀ s, Threads.Reaches handle (upserts obj env w) s → s.Finished → UpsertsLinearized obj env w s

variable {obj env w}

/-- The steps of a call with nothing in between. -/
theorem UpsertCall.alone_of_steps {c : Fin n → UpsertCall} {i : Fin n} {t t' : SyncObjectTable}
    {p : UpsertPhase} {r : Except GoError Unit}
    (h : Alone (fun i => (c i).step) i .updating t p t') (hp : p.result = some r) :
    (c i).alone t = (r, t') := by
  cases h with
  | refl => cases hp
  | step hstep hrest =>
    by_cases hrow : t.lookup (c i).obj.key = none
    · rw [UpsertCall.step, if_pos hrow] at hstep
      obtain ⟨rfl, rfl⟩ := Prod.mk.inj (Option.some.inj hstep)
      cases hrest with
      | refl => cases hp
      | step hstep hrest =>
        rw [UpsertCall.step, dif_pos hrow] at hstep
        obtain ⟨rfl, rfl⟩ := Prod.mk.inj (Option.some.inj hstep)
        obtain ⟨rfl, rfl⟩ := hrest.of_stays fun _ => rfl
        rw [UpsertCall.alone, dif_pos hrow, Option.some.inj hp]
    · rw [UpsertCall.step, if_neg hrow] at hstep
      obtain ⟨rfl, rfl⟩ := Prod.mk.inj (Option.some.inj hstep)
      obtain ⟨rfl, rfl⟩ := hrest.of_stays fun _ => rfl
      rw [UpsertCall.alone, dif_neg hrow, Option.some.inj hp]

/-- A call on its own does what its steps do. -/
theorem upsertAlone_eq (hworks : ∀ i m, ((env i).get m).fault = none) (i : Fin n) {x : World}
    {t : SyncObjectTable} (hx : x = { w with syncObjects := t }) :
    (upsertAlone obj env i x).1 = ((upsertCall obj env i).alone t).1 ∧
      (upsertAlone obj env i x).2 = { w with syncObjects := ((upsertCall obj env i).alone t).2 } := by
  obtain ⟨p', t', o, halone, hdone, hV, hR⟩ :=
    (upserts_refine obj env w).alone (upserts_settle obj env hworks i) hx
  rw [UpsertCall.alone_of_steps halone hdone]
  exact ⟨hV, hR⟩

/-- Each new key has one writer: then every interleaving is as some order. -/
theorem linearized_of_one (hworks : ∀ i m, ((env i).get m).fault = none)
    (hone : ∀ i j, i ≠ j → (obj i).key = (obj j).key → w.syncObjects.lookup (obj i).key ≠ none)
    {s : Threads.State Call Call.Ans Env World (Except GoError Unit) (Fin n)}
    (hs : Threads.Reaches handle (upserts obj env w) s) (hfinished : s.Finished) :
    UpsertsLinearized obj env w s := by
  have href := upserts_refine obj env w
  obtain ⟨t, ht, hm⟩ := href.run (upserts_match obj env hworks w) hs
  have hinit : UpsertInv (upsertCall obj env) w.syncObjects
      ⟨fun _ => .updating, w.syncObjects⟩ :=
    ⟨fun _ h => h, fun _ _ h => h, fun _ h => (by cases h), fun _ h => absurd rfl h⟩
  obtain ⟨hI, l, hnd, hmem, hl⟩ := (upserts_commit hone).exists_order hinit
    (fun i o h => by cases h) ht
  have hdone : ∀ i, ∃ a, s.prog i = .ret a ∧ (t.phase i).result = some a := by
    intro i
    obtain ⟨a, ha⟩ := hfinished i
    obtain ⟨o, ho, rfl⟩ := href.returned hm ha
    exact ⟨a, ha, ho⟩
  have hall : ∀ i, i ∈ l := by
    intro i
    obtain ⟨a, -, ha⟩ := hdone i
    rw [hmem, ha]
    exact Option.some_ne_none a
  refine ⟨fun i => ?_, fun i => ?_, l, hnd, hall, ?_⟩
  · obtain ⟨a, ha, hresult⟩ := hdone i
    have hturn : (inTurn (fun i => (upsertCall obj env i).alone) w.syncObjects l).1 i = some a := by
      rw [hl]
      exact hresult
    obtain ⟨-, y, rfl⟩ := exists_of_inTurn hturn
    rw [ha, UpsertCall.alone]
    split_ifs <;> rfl
  · obtain ⟨a, -, hresult⟩ := hdone i
    have hrow := hI.written i (by rw [hresult]; exact Option.some_ne_none a)
    obtain ⟨r, hr⟩ := Option.ne_none_iff_exists'.mp hrow
    have hshared : s.shared.syncObjects = t.shared := by rw [hm.shared]
    rw [hshared]
    refine ⟨r, (Table.lookup_eq_some_iff t.shared.keys_nodup).mp hr, fun r' hr' => ?_⟩
    have hr' := (Table.lookup_eq_some_iff t.shared.keys_nodup).mpr hr'
    exact Option.some.inj (hr'.symm.trans hr)
  · have halone : ∀ i x y, x = { w with syncObjects := y } →
        (upsertAlone obj env i x).1 = ((upsertCall obj env i).alone y).1 ∧
          (upsertAlone obj env i x).2 = { w with syncObjects := ((upsertCall obj env i).alone y).2 } :=
      fun i x y hxy => upsertAlone_eq hworks i hxy
    have hturn := inTurn_rel (V := fun _ a o => a = o) (R := fun x t => x = { w with syncObjects := t })
      halone (rfl : w = { w with syncObjects := w.syncObjects }) l
    rw [hm.shared, hturn.2, hl]

/-- Two calls that both miss the row of a new key: the second INSERT fails. -/
theorem second_insert_fails (hworks : ∀ i m, ((env i).get m).fault = none) {i j : Fin n} (hij : i ≠ j)
    (hkey : (obj i).key = (obj j).key) (hrow : w.syncObjects.lookup (obj i).key = none) :
    ∃ s, Threads.Reaches handle (upserts obj env w) s ∧ s.Finished ∧
      s.prog j = .ret (.error (.new "UNIQUE constraint failed")) := by
  have href := upserts_refine obj env w
  have hrowj : w.syncObjects.lookup (upsertCall obj env j).obj.key = none := by
    rw [← hrow, hkey]
    rfl
  have hstart : Run (fun i => (upsertCall obj env i).step) ⟨fun _ => .updating, w.syncObjects⟩
      ⟨fun _ => .updating, w.syncObjects⟩ := .refl
  -- both updates come before both inserts
  have hi := hstart.next (i := i) rfl .inserting w.syncObjects (if_pos hrow)
  have hj := hi.next (i := j) (p := .updating) (by simp [hij.symm]) .inserting w.syncObjects
    (if_pos hrowj)
  have hinsert := hj.next (i := i) (p := .inserting) (by simp [hij]) (.done (.ok ())) _ (dif_pos hrow)
  have hfound : (SyncObjectTable.insert w.syncObjects (upsertCall obj env i).obj
      (upsertCall obj env i).now (upsertCall obj env i).created hrow).lookup
        (upsertCall obj env j).obj.key ≠ none :=
    fun h => ((SyncObjectTable.lookup_insert_none hrow).mp h).1 hkey.symm
  have hfails := hinsert.next (i := j) (p := .inserting) (by simp [hij.symm])
    (.done (.error (.new "UNIQUE constraint failed"))) _ (dif_neg hfound)
  obtain ⟨s, t', hs, hfinished, ht', hm⟩ := href.finish (upserts_match obj env hworks w) hfails
  obtain ⟨a, ha⟩ := hfinished j
  obtain ⟨o, ho, rfl⟩ := href.returned hm ha
  rw [ht'.phase_stays (i := j) fun y => by rw [State.set_phase_self]; rfl, State.set_phase_self] at ho
  obtain rfl := Option.some.inj ho
  exact ⟨s, hs, hfinished, ha⟩

/-- Concurrent upserts are as in some order, whatever the interleaving, exactly if no two of them write
    to one key that has no row yet. -/
theorem upserts_linearized_iff (hworks : ∀ i m, ((env i).get m).fault = none) :
    UpsertsLinearizable obj env w ↔
      ∀ i j, i ≠ j → (obj i).key = (obj j).key → w.syncObjects.lookup (obj i).key ≠ none := by
  constructor
  · intro h i j hij hkey hrow
    obtain ⟨s, hs, hfinished, herror⟩ := second_insert_fails hworks hij hkey hrow
    have hok := (h s hs hfinished).returned j
    rw [herror] at hok
    cases hok
  · intro hone s hs hfinished
    exact linearized_of_one hworks hone hs hfinished

end Runs

/-- Two secrets of one sync, at the same time. -/
def twoNames (i : Fin 2) : SyncObject :=
  { syncID := "s", sourceVaultID := "a", targetVaultID := "b",
    secretName := if i.val = 0 then "token" else "password" }

theorem upserts_twoNames :
    UpsertsLinearizable twoNames (fun _ => Stream'.const {}) ⟨fun _ _ => none, .empty, []⟩ := by
  refine (upserts_linearized_iff fun _ _ => rfl).mpr fun i j hij hkey => absurd hkey ?_
  revert i j
  decide

/-- The row of one secret, written first by two calls at the same time. -/
theorem upserts_not_linearized : ¬∀ (n : ℕ) (obj : Fin n → SyncObject) (env : Fin n → Env) (w : World),
    (∀ i m, ((env i).get m).fault = none) → UpsertsLinearizable obj env w := by
  intro h
  obtain ⟨s, hs, hfinished, herror⟩ := @second_insert_fails 2 (fun _ => twoNames 0)
    (fun _ => Stream'.const {}) ⟨fun _ _ => none, .empty, []⟩ (fun _ _ => rfl) 0 1 (by decide) rfl rfl
  have hok := (h 2 _ _ _ (fun _ _ => rfl) s hs hfinished).returned 1
  rw [herror] at hok
  cases hok

end VaultsSyncer
