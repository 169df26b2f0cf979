import VaultsSyncer.Schemes.Interrupts
import VaultsSyncer.Sync.Contracts
import VaultsSyncer.Sync.Convergence

/-! A daemon that dies in the middle of a sync. Whatever the goroutines were doing, what is left in the
    vaults is a state that the calls of each goroutine pass through one by one; running the sync again
    brings every secret to where an uninterrupted run would have brought it.

        w ──run, cut short──▶ w₁ ──run, cut short──▶ w₂ ──run──▶ u'
        w ──run──▶ u                                      u' = u

    One-way syncs recover whatever failed in the runs that were cut short. A two-way sync recovers if
    nothing failed but the daemon: a write that failed may have turned the direction round. -/

namespace VaultsSyncer

open GoStd Schemes Schemes.Prog

/-! ### Writes cut short -/

theorem firstWorking_of_faultFree {env : Env} (h : FaultFree env) {n : ℕ} (hn : 0 < n) :
    firstWorking n env = some 0 := by
  obtain ⟨m, rfl⟩ := Nat.exists_eq_succ_of_ne_zero hn.ne'
  rw [firstWorking, if_pos (h 0)]

theorem setVault_setVault (w : World) (vault name : String) (value : Bytes) :
    (w.setVault vault name value).setVault vault name value = w.setVault vault name value := by
  simp only [World.setVault, World.mk.injEq, and_true]
  funext v n
  split_ifs <;> rfl

theorem allCalls_retryLoop {P : Call → Prop} (policy : RetryPolicy) {fn : Sync (Except GoError Unit)}
    (hfn : fn.AllCalls P) (hsleep : ∀ ms, P (.sleep ms)) (n : ℕ) (attempt backoff : ℤ)
    (lastErr : Option GoError) : (retryLoop policy fn n attempt backoff lastErr).AllCalls P := by
  induction n generalizing attempt backoff lastErr with
  | zero => trivial
  | succ n ih =>
    refine hfn.bind ?_
    rintro (err | ⟨⟩)
    · dsimp only
      split_ifs
      · exact ⟨hsleep _, fun _ => ih _ _ _⟩
      · exact ih _ _ _
    · trivial

/-- A write that is cut short has been made, or nothing has. -/
theorem visits_withRetry {policy : RetryPolicy} {vault name : String} {value : Bytes} {env : Env}
    {w : World} {x : Env × World}
    (hx : (withRetry policy (setSecret vault name value)).Visits handle (env, w) x) :
    x.2 = w ∨ attempts policy ≠ 0 ∧ x.2 = w.setVault vault name value := by
  rcases Nat.eq_zero_or_pos (attempts policy) with hzero | hpos
  · left
    rw [withRetry, hzero] at hx
    exact congrArg Prod.snd (show x = (env, w) from hx)
  · have hset : (setSecret vault name value).AllCalls fun op =>
        op = .setSecret vault name value ∨ ∃ ms, op = .sleep ms := ⟨.inl rfl, fun _ => trivial⟩
    have hcalls := allCalls_retryLoop policy hset (fun ms => .inr ⟨ms, rfl⟩)
      (attempts policy) 0 policy.initialBackoff none
    refine Or.imp_right (fun h => ⟨hpos.ne', h⟩) (hcalls.visited
      (I := fun s => s.2 = w ∨ s.2 = w.setVault vault name value) ?_ (.inl rfl) hx)
    rintro _ ⟨env', w'⟩ (rfl | ⟨ms, rfl⟩) hI
    · simp only [handle, Answer.commit]
      split
      · exact hI
      · rcases hI with rfl | rfl
        · exact .inr rfl
        · exact .inr (setVault_setVault ..)
    · exact hI

/-- Taking notes changes no vault. -/
theorem visits_record {o : ℤ → SyncObject} {res : Except GoError Unit} {env : Env} {w : World}
    {x : Env × World} (hx : (record o res).Visits handle (env, w) x) : x.2.vaults = w.vaults := by
  let F : Footprint := ⟨fun _ _ => True, fun _ _ => False, fun _ => True⟩
  have hcalls : (record o res).AllCalls F.Within := within_record (fun _ => trivial) res
  funext v n
  refine hcalls.visited (I := fun s => s.2.vaults v n = w.vaults v n) ?_ rfl hx
  rintro op ⟨env', w'⟩ hop hI
  exact (frame_cell hop id env' w').trans hI

/-- What a write with its record may leave when it is cut short: nothing has happened yet, all tries
    have failed, or the value is there. -/
theorem visits_copyAndRecord {policy : RetryPolicy} {vault name : String} {value : Bytes}
    {failed : GoError → ℤ → SyncObject} {done : ℤ → SyncObject} {env : Env} {w : World}
    {x : Env × World}
    (hx : (copyAndRecord policy vault name value failed done).Visits handle (env, w) x) :
    x.2 = w ∨ firstWorking (attempts policy) env = none ∧ x.2.vaults = w.vaults ∨
      attempts policy ≠ 0 ∧ x.2.vaults = (w.setVault vault name value).vaults := by
  rcases visits_bind.mp hx with hx | hx
  · rcases visits_withRetry hx with h | ⟨hpos, h⟩
    · exact .inl h
    · exact .inr (.inr ⟨hpos, by rw [h]⟩)
  · rcases hfirst : firstWorking (attempts policy) env with _ | k
    · obtain ⟨err, hrun⟩ := run_withRetry_error hfirst vault name value w
      rw [show (withRetry policy _).run handle (env, w) = _ from hrun] at hx
      exact .inr (.inl ⟨rfl, visits_record hx⟩)
    · have hrun := run_withRetry_ok hfirst vault name value w
      rw [show (withRetry policy _).run handle (env, w) = _ from hrun] at hx
      refine .inr (.inr ⟨?_, visits_record hx⟩)
      exact Nat.ne_zero_of_lt (firstWorking_works hfirst).1

/-! ### One secret, one way -/

section OneWay

variable (e : Engine) (syncCfg : SyncConfig) (targetID secretName : String)

/-- What a one-way sync is to write: the value of the source, and what the transforms make of it. -/
def toWrite (w : World) : Option (Bytes × Bytes) :=
  if targetID ∈ e.backends then
    (w.vaults syncCfg.source secretName).bind fun s =>
      (applyTransforms s syncCfg.transforms).toOption.map fun x => (s, x)
  else none

/-- The value and the note that a one-way sync without faults leaves in the target. -/
def settledOneWay (w : World) : Option Bytes × Option Note :=
  match toWrite e syncCfg targetID secretName w with
  | none => (w.vaults targetID secretName,
      (w.syncObjects.lookup (syncKey syncCfg targetID secretName)).map (·.note))
  | some (s, x) =>
    if 0 < syncCfg.attempts then
      (some x, some ⟨"success", hashString s, hashString s, "source_to_target"⟩)
    else (w.vaults targetID secretName, some ⟨"failed", hashString s, "", "source_to_target"⟩)

variable {e syncCfg targetID secretName} {w w' : World} {s x : Bytes} {env : Env}

theorem toWrite_eq_some : toWrite e syncCfg targetID secretName w = some (s, x) ↔
    targetID ∈ e.backends ∧ w.vaults syncCfg.source secretName = some s ∧
      applyTransforms s syncCfg.transforms = .ok x := by
  have hok : ∀ r : Except GoError Bytes, r.toOption = some x ↔ r = .ok x := by
    rintro (err | y) <;> simp [Except.toOption]
  rw [toWrite]
  split_ifs with hreg
  · simp only [Option.bind_eq_some_iff, Option.map_eq_some_iff, Prod.mk.injEq, hreg, true_and]
    constructor
    · rintro ⟨s', hs, x', hx, rfl, rfl⟩
      exact ⟨hs, (by rwa [← hok])⟩
    · rintro ⟨hs, hx⟩
      exact ⟨s, hs, x, (hok _).mpr hx, rfl, rfl⟩
  · simp [hreg]

theorem Ready.toWrite (h : Ready e syncCfg targetID secretName syncCfg.source env w s x) :
    toWrite e syncCfg targetID secretName w = some (s, x) :=
  toWrite_eq_some.mpr ⟨h.registered, h.stored, h.transformed⟩

/-- What is to be written depends on the source alone. -/
theorem toWrite_congr
    (h : w'.vaults syncCfg.source secretName = w.vaults syncCfg.source secretName) :
    toWrite e syncCfg targetID secretName w' = toWrite e syncCfg targetID secretName w := by
  rw [toWrite, toWrite, h]

/-- Without faults, a one-way sync does just that. -/
theorem settledOneWay_run (hfree : FaultFree env) (w : World) :
    let u := (exec (syncSecretUnidirectional e syncCfg targetID secretName syncCfg.source) env w).2.2
    (u.vaults targetID secretName,
      (u.syncObjects.lookup (syncKey syncCfg targetID secretName)).map (·.note)) =
        settledOneWay e syncCfg targetID secretName w := by
  intro u
  have hrun := run_syncSecretUnidirectional e syncCfg targetID secretName syncCfg.source env w
  change UnidirectionalRun _ _ _ _ _ _ _ _ u at hrun
  generalize (exec (syncSecretUnidirectional e syncCfg targetID secretName syncCfg.source) env w).1 =
    res at hrun
  clear_value u
  rw [settledOneWay]
  cases hrun with
  | rejected err h =>
    rcases hwrite : toWrite e syncCfg targetID secretName w with _ | ⟨s, x⟩
    · rfl
    · obtain ⟨hreg, hs, hx⟩ := toWrite_eq_some.mp hwrite
      exact absurd ⟨hreg, hfree 0, hs, hx⟩ (h s x)
  | exhausted h hfail hnote =>
    have hzero : ¬0 < syncCfg.attempts := fun hpos => by
      rw [firstWorking_of_faultFree (hfree.drop 1) hpos] at hfail
      cases hfail
    obtain ⟨r, hr, hnoted⟩ := hnote.saved ((hfree.drop _).recorded w _)
    rw [h.toWrite, hnote.vaults, hr, Option.map_some, hnoted]
    simp only [hzero, if_false]
  | delivered h hset hnote =>
    have hpos := Nat.zero_lt_of_lt (firstWorking_works hset).1
    obtain ⟨r, hr, hnoted⟩ := hnote.saved ((hfree.drop _).recorded _ _)
    rw [h.toWrite, hnote.vaults, World.setVault_self, hr, Option.map_some, hnoted]
    simp only [hpos, if_true]

/-- A one-way sync that is cut short has done nothing, or it was about to write: it may have taken
    notes, and if it tries at all, the value may be there. -/
theorem visits_oneWay {y : Env × World}
    (hy : (syncSecretUnidirectional e syncCfg targetID secretName syncCfg.source).Visits handle
      (env, w) y) :
    y.2 = w ∨ ∃ s x, toWrite e syncCfg targetID secretName w = some (s, x) ∧
      (y.2.vaults = w.vaults ∨
        0 < syncCfg.attempts ∧ y.2.vaults = (w.setVault targetID secretName x).vaults) := by
  rw [syncSecretUnidirectional_eq] at hy
  by_cases hreg : targetID ∉ e.backends
  · rw [if_pos hreg] at hy
    exact .inl (congrArg Prod.snd (show y = (env, w) from hy))
  rw [if_neg hreg] at hy
  rcases hy with rfl | hy
  · exact .inl rfl
  have hread : (handle (.getSecret syncCfg.source secretName) (env, w)).1 =
      readWith env.head w syncCfg.source secretName := rfl
  change (copyOneWay syncCfg targetID secretName
    (handle (.getSecret syncCfg.source secretName) (env, w)).1).Visits handle (env.tail, w) y at hy
  rw [hread] at hy
  rcases readWith_cases env.head w syncCfg.source secretName with ⟨err, herr, -⟩ | ⟨s, hs, -, hstored⟩
  · rw [herr] at hy
    exact .inl (congrArg Prod.snd (show y = (env.tail, w) from hy))
  rw [hs] at hy
  rcases htrans : applyTransforms s syncCfg.transforms with err | x
  · simp only [copyOneWay, htrans] at hy
    exact .inl (congrArg Prod.snd (show y = (env.tail, w) from hy))
  · simp only [copyOneWay, htrans] at hy
    rcases visits_copyAndRecord hy with h | ⟨-, h⟩ | ⟨hpos, h⟩
    · exact .inl h
    · exact .inr ⟨s, x, toWrite_eq_some.mpr ⟨not_not.mp hreg, hstored, htrans⟩, .inl h⟩
    · exact .inr ⟨s, x, toWrite_eq_some.mpr ⟨not_not.mp hreg, hstored, htrans⟩,
        .inr ⟨Nat.pos_of_ne_zero hpos, h⟩⟩

/-- Cut short or not, what it comes to is settled. -/
theorem settledOneWay_of_visits (hne : syncCfg.source ≠ targetID) {y : Env × World}
    (hy : (syncSecretUnidirectional e syncCfg targetID secretName syncCfg.source).Visits handle
      (env, w) y) :
    settledOneWay e syncCfg targetID secretName y.2 = settledOneWay e syncCfg targetID secretName w := by
  rcases visits_oneWay hy with h | ⟨s, x, hwrite, hvaults | ⟨hpos, hvaults⟩⟩
  · rw [h]
  · have hsame : toWrite e syncCfg targetID secretName y.2 = some (s, x) :=
      (toWrite_congr (by rw [hvaults])).trans hwrite
    rw [settledOneWay, settledOneWay, hsame, hwrite, hvaults]
  · have hsource : y.2.vaults syncCfg.source secretName = w.vaults syncCfg.source secretName := by
      rw [hvaults]
      exact w.setVault_of_ne x (.inl hne)
    rw [settledOneWay, settledOneWay, (toWrite_congr hsource).trans hwrite, hwrite]
    simp only [hpos, if_true]

end OneWay

/-! ### One secret, both ways -/

section BothWays

variable (e : Engine) (syncCfg : SyncConfig) (targetID secretName : String)

/-- What a two-way sync without faults and transforms leaves in the two vaults. -/
def settledBothWays (w : World) : Replicas.Pair Bytes :=
  match w.vaults syncCfg.source secretName, w.vaults targetID secretName with
  | none, t => ⟨none, t⟩
  | some s, none => ⟨some s, if targetID ∈ e.backends ∧ 0 < syncCfg.attempts then some s else none⟩
  | some s, some t =>
    if hashString s = hashString t ∨ syncCfg.attempts = 0 then ⟨some s, some t⟩
    else
      let v := (w.direction (syncKey syncCfg targetID secretName)).pick s t
      ⟨some v, some v⟩

variable {e syncCfg targetID secretName} {w w' : World} {s t : Bytes} {env : Env}

theorem settledBothWays_none (hs : w.vaults syncCfg.source secretName = none) :
    settledBothWays e syncCfg targetID secretName w = ⟨none, w.vaults targetID secretName⟩ := by
  simp only [settledBothWays, hs]

theorem settledBothWays_left (hs : w.vaults syncCfg.source secretName = some s)
    (ht : w.vaults targetID secretName = none) :
    settledBothWays e syncCfg targetID secretName w =
      ⟨some s, if targetID ∈ e.backends ∧ 0 < syncCfg.attempts then some s else none⟩ := by
  simp only [settledBothWays, hs, ht]

theorem settledBothWays_both (hs : w.vaults syncCfg.source secretName = some s)
    (ht : w.vaults targetID secretName = some t) :
    settledBothWays e syncCfg targetID secretName w =
      if hashString s = hashString t ∨ syncCfg.attempts = 0 then ⟨some s, some t⟩
      else ⟨some ((w.direction (syncKey syncCfg targetID secretName)).pick s t),
        some ((w.direction (syncKey syncCfg targetID secretName)).pick s t)⟩ := by
  simp only [settledBothWays, hs, ht]

/-- Two vaults with one value stay as they are. -/
theorem settledBothWays_same (hs : w.vaults syncCfg.source secretName = some s)
    (ht : w.vaults targetID secretName = some s) :
    settledBothWays e syncCfg targetID secretName w = ⟨some s, some s⟩ := by
  rw [settledBothWays_both hs ht, if_pos (.inl rfl)]

/-- Where no write depends on the record, it does not matter. -/
theorem settledBothWays_congr (hvaults : w'.vaults = w.vaults)
    (hsame : ∀ s t, w.vaults syncCfg.source secretName = some s →
      w.vaults targetID secretName = some t → hashString s = hashString t ∨ syncCfg.attempts = 0) :
    settledBothWays e syncCfg targetID secretName w' =
      settledBothWays e syncCfg targetID secretName w := by
  rcases hs : w.vaults syncCfg.source secretName with _ | s
  · rw [settledBothWays_none hs, settledBothWays_none (by rw [hvaults, hs]), hvaults]
  · rcases ht : w.vaults targetID secretName with _ | t
    · rw [settledBothWays_left hs ht, settledBothWays_left (by rw [hvaults, hs]) (by rw [hvaults, ht])]
    · rw [settledBothWays_both hs ht, if_pos (hsame s t hs ht),
        settledBothWays_both (by rw [hvaults, hs]) (by rw [hvaults, ht]), if_pos (hsame s t hs ht)]

theorem attempts_of_faultFree (hfree : FaultFree env)
    (h : firstWorking syncCfg.attempts env = none) : syncCfg.attempts = 0 := by
  by_contra hne
  rw [firstWorking_of_faultFree hfree (Nat.pos_of_ne_zero hne)] at h
  cases h

/-- A value copied in either direction is on both sides. -/
theorem vaults_of_setVault_dst (hne : syncCfg.source ≠ targetID)
    (hs : w.vaults syncCfg.source secretName = some s) (ht : w.vaults targetID secretName = some t)
    (d : Direction) :
    let u := w.setVault (d.dst syncCfg.source targetID) secretName (d.pick s t)
    u.vaults syncCfg.source secretName = some (d.pick s t) ∧
      u.vaults targetID secretName = some (d.pick s t) := by
  cases d with
  | sourceToTarget => exact ⟨(w.setVault_of_ne _ (.inl hne)).trans hs, w.setVault_self ..⟩
  | targetToSource => exact ⟨w.setVault_self .., (w.setVault_of_ne _ (.inl hne.symm)).trans ht⟩

/-- Without faults, a two-way sync does just that. -/
theorem settledBothWays_run (hnone : syncCfg.transforms = []) (hne : syncCfg.source ≠ targetID)
    (hfree : FaultFree env) (w : World) :
    (syncOnce e syncCfg targetID secretName env w).2.pair syncCfg.source targetID secretName =
      settledBothWays e syncCfg targetID secretName w := by
  have hrun := run_syncOnce e syncCfg targetID secretName env w
  generalize (syncOnce e syncCfg targetID secretName env w).1 = res at hrun
  generalize (syncOnce e syncCfg targetID secretName env w).2 = w' at hrun
  cases hrun with
  | unread err h =>
    have hs : w.vaults syncCfg.source secretName = none := by
      by_contra hsome
      exact h ⟨hfree 0, Option.ne_none_iff_exists'.mp hsome⟩
    rw [settledBothWays_none hs, World.pair, hs]
  | @handedOver s _ _ _ hs htarget huni =>
    have ht : w.vaults targetID secretName = none := by
      by_contra hsome
      exact htarget ⟨hfree 1, Option.ne_none_iff_exists'.mp hsome⟩
    have hsource := huni.vaults_of_ne (v := syncCfg.source) (n := secretName) (.inl hne)
    rw [settledBothWays_left hs ht, World.pair, hsource, hs]
    cases huni with
    | rejected _ h =>
      have hreg : ¬(targetID ∈ e.backends ∧ 0 < syncCfg.attempts) := fun hreg =>
        h s s ⟨hreg.1, hfree 2, hs, by rw [hnone]; rfl⟩
      rw [if_neg hreg, ht]
    | exhausted _ hfail hnote =>
      have hzero := attempts_of_faultFree ((hfree.drop 2).drop 1) hfail
      rw [hnote.vaults, ht, if_neg (by simp [hzero])]
    | delivered h hset hnote =>
      have hpos := Nat.zero_lt_of_lt (firstWorking_works hset).1
      have hvalue := UnidirectionalRun.vaults_of_ok (.delivered h hset hnote) rfl hnone hs
      rw [hvalue, if_pos ⟨h.registered, hpos⟩]
  | inSync hread heq hnote =>
    rw [settledBothWays_both hread.source hread.target, if_pos (.inl heq), World.pair, hnote.vaults,
      hread.source, hread.target]
  | unselected _ _ _ hselect => exact absurd (hfree 2) hselect
  | directed hread hdiff _ hdir =>
    rw [settledBothWays_both hread.source hread.target]
    cases hdir with
    | failed hfail hnote =>
      have hzero := attempts_of_faultFree (hfree.drop 3) hfail
      rw [if_pos (.inr hzero), World.pair, hnote.vaults, hread.source, hread.target]
    | copied hset hnote =>
      obtain ⟨hsource, htarget⟩ := DirectionRun.copies hne hread (.copied hset hnote) rfl
      have hpos := Nat.zero_lt_of_lt (firstWorking_works hset).1
      rw [if_neg (by simp [hdiff, hpos.ne']), World.pair, hsource, htarget]

/-- Cut short or not, what it comes to is settled. -/
theorem settledBothWays_of_visits (hnone : syncCfg.transforms = []) (hne : syncCfg.source ≠ targetID)
    (hfree : FaultFree env) {y : Env × World}
    (hy : (syncSecretBidirectional e syncCfg targetID secretName syncCfg.source targetID).Visits
      handle (env, w) y) :
    settledBothWays e syncCfg targetID secretName y.2 =
      settledBothWays e syncCfg targetID secretName w := by
  rw [syncSecretBidirectional_eq] at hy
  rcases hy with rfl | hy
  · rfl
  change (readTarget e syncCfg targetID secretName syncCfg.source targetID
    (readWith env.head w syncCfg.source secretName)).Visits handle (env.tail, w) y at hy
  rcases readWith_cases env.head w syncCfg.source secretName with ⟨err, herr, -⟩ | ⟨s, hs, -, hstored⟩
  · rw [herr] at hy
    rw [show y = (env.tail, w) from hy]
  rw [hs] at hy
  rcases hy with rfl | hy
  · rfl
  change (compareSides e syncCfg targetID secretName syncCfg.source targetID s
    (readWith env.tail.head w targetID secretName)).Visits handle (env.tail.tail, w) y at hy
  rcases readWith_cases env.tail.head w targetID secretName with ⟨err, herr, hno⟩ | ⟨t, ht, -, htarget⟩
  · -- handed over to the one-way sync
    have hmissing : w.vaults targetID secretName = none := by
      by_contra hsome
      exact hno ⟨hfree 1, Option.ne_none_iff_exists'.mp hsome⟩
    rw [herr] at hy
    rcases visits_oneWay hy with h | ⟨s', x, hwrite, hvaults | ⟨hpos, hvaults⟩⟩
    · rw [h]
    · exact settledBothWays_congr hvaults fun _ _ _ h => by rw [hmissing] at h; cases h
    · obtain ⟨hreg, hs', hx⟩ := toWrite_eq_some.mp hwrite
      obtain rfl := Option.some.inj (hstored.symm.trans hs')
      rw [hnone, applyTransforms, Except.ok.injEq] at hx
      subst hx
      rw [settledBothWays_left hstored hmissing, if_pos ⟨hreg, hpos⟩]
      refine settledBothWays_same ?_ ?_
      · rw [hvaults, w.setVault_of_ne _ (.inl hne), hstored]
      · rw [hvaults, World.setVault_self]
  rw [ht] at hy
  by_cases hhash : hashString s = hashString t
  · simp only [compareSides, hhash, if_true] at hy
    refine settledBothWays_congr (visits_record hy) fun s' t' h h' => .inl ?_
    rw [← Option.some.inj (hstored.symm.trans h), ← Option.some.inj (htarget.symm.trans h'), hhash]
  · simp only [compareSides, hhash, if_false] at hy
    rcases hy with rfl | hy
    · rfl
    have hselect : (handle (.selectSyncObject (syncKey syncCfg targetID secretName))
        (env.tail.tail, w)).1 =
        .ok ((w.syncObjects.lookup (syncKey syncCfg targetID secretName)).map (·.toSyncObject)) :=
      Answer.reply_of_works (hfree 2) _
    rw [hselect] at hy
    rcases visits_copyAndRecord hy with h | ⟨hfail, hvaults⟩ | ⟨htried, hvaults⟩
    · rw [h]
    · have hzero := attempts_of_faultFree (hfree.drop 3) hfail
      exact settledBothWays_congr hvaults fun _ _ _ _ => .inr hzero
    · obtain ⟨hsource', htarget'⟩ := vaults_of_setVault_dst hne hstored htarget
        (w.direction (syncKey syncCfg targetID secretName))
      have hpos : syncCfg.attempts ≠ 0 := htried
      rw [settledBothWays_both hstored htarget, if_neg (not_or.mpr ⟨hhash, hpos⟩)]
      exact settledBothWays_same ((congrFun (congrFun hvaults _) _).trans hsource')
        ((congrFun (congrFun hvaults _) _).trans htarget')

end BothWays

/-! ### The goroutines of a run -/

section Confined

variable {κ : Type} {jobs : List κ} {task : κ → Sync (Except GoError Unit)} {footprint : κ → Footprint}
  {workerCount : ℕ} {env : κ → Env} {w : World}
  {s : Pool.State Call Call.Ans Env World jobs.length}

/-- A pool that is cut short leaves of each job what the job alone leaves when it is cut short. -/
theorem Confined.visited (h : Confined jobs task footprint)
    (hs : Pool.Reaches (workerPool jobs task workerCount env) w s) {j : κ} (hj : j ∈ jobs) :
    ∃ x, (task j).Visits handle (env j, w) x ∧ Agree (footprint j) RowView.content s.shared x.2 := by
  obtain ⟨i, hi, rfl⟩ := List.getElem_of_mem hj
  have hsame : ∀ j, SameFaults (env j) (env j) := fun j k => rfl
  obtain ⟨x, hx, hagree⟩ := hs.visited (h.isolated RowView.content workerCount hsame)
    (fun i => (agree_equivalence (footprint jobs[i]) RowView.content).refl w) ⟨i, hi⟩
  exact ⟨x, visits_map.mp hx, hagree⟩

/-- What no job writes stays. -/
theorem Confined.cell_kept (h : Confined jobs task footprint)
    (hs : Pool.Reaches (workerPool jobs task workerCount env) w s) {v n : String}
    (hno : ∀ j ∈ jobs, ¬(footprint j).writes v n) : s.shared.vaults v n = w.vaults v n :=
  (h.invariant hs (I := fun u => u.vaults v n = w.vaults v n)
    (fun j hj _ env' u hop hu => (frame_cell hop (hno j hj) env' u).trans hu) rfl env).1

theorem Confined.row_kept (h : Confined jobs task footprint)
    (hs : Pool.Reaches (workerPool jobs task workerCount env) w s) {k : SyncKey}
    (hno : ∀ j ∈ jobs, ¬(footprint j).keys k) :
    s.shared.syncObjects.lookup k = w.syncObjects.lookup k :=
  (h.invariant hs (I := fun u => u.syncObjects.lookup k = w.syncObjects.lookup k)
    (fun j hj _ env' u hop hu => (frame_row hop (hno j hj) env' u).trans hu) rfl env).1

end Confined

section Runs

variable (e : Engine) (syncCfg : SyncConfig) (names : List String)

/-- What a run of the sync may leave when it is cut short: the world at any moment of its goroutines,
    or the one at its end. The source lists `names`; `Ok` is what is known of the answers. -/
inductive CutShort (Ok : Env → Prop) (w : World) : World → Prop
  | amid {a : RunAnswers} {env : String × String → Env} {n : ℕ}
      {pool : Pool.Setup Call Call.Ans Env World n} {pair : Fin n → String × String}
      {s : Pool.State Call Call.Ans Env World n} (hnames : a.relisting.names = names)
      (hok : ∀ job, Ok (env job)) (hg : Goroutines e syncCfg a env pool pair)
      (hs : Pool.Reaches pool w s) : CutShort Ok w s.shared
  | ended {a : RunAnswers} {env : String × String → Env} {r : Except GoError Unit} {w' : World}
      (hnames : a.relisting.names = names) (hok : ∀ job, Ok (env job))
      (hrun : ExecuteSync e syncCfg a env w r w') : CutShort Ok w w'

/-- A run without faults, from its start to its end. -/
def Completes (w u : World) : Prop :=
  ∃ a env, a.relisting.Works ∧ a.relisting.names = names ∧ (∀ job, FaultFree (env job)) ∧
    ExecuteSync e syncCfg a env w (.ok ()) u

variable {e syncCfg names} {Ok : Env → Prop} {w w' u : World}

/-- A run that is cut short was idle so far, or its goroutines were at work. -/
theorem CutShort.cases (h : CutShort e syncCfg names Ok w w') : Idle w w' ∨
    ∃ (a : RunAnswers) (env : String × String → Env) (n : ℕ)
      (pool : Pool.Setup Call Call.Ans Env World n) (pair : Fin n → String × String)
      (s : Pool.State Call Call.Ans Env World n), a.relisting.names = names ∧ (∀ job, Ok (env job)) ∧
      Goroutines e syncCfg a env pool pair ∧ Pool.Reaches pool w s ∧ Idle s.shared w' := by
  cases h with
  | amid hnames hok hg hs => exact .inr ⟨_, _, _, _, _, _, hnames, hok, hg, hs, rfl, rfl⟩
  | ended hnames hok hrun =>
    rcases hrun.goroutines with hidle | ⟨n, pool, pair, s, hg, hs, -, rfl⟩
    · exact .inl hidle
    · exact .inr ⟨_, _, _, _, _, _, hnames, hok, hg, hs, recordSyncRun_idle ..⟩

/-- From any world, a run can complete. -/
theorem exists_completes_oneWay (e : Engine) (syncCfg : SyncConfig)
    (htype : syncCfg.syncType = "unidirectional") (hsource : syncCfg.source ∈ e.backends)
    (names : List String) (w : World) : ∃ u, Completes e syncCfg names w u := by
  have hg : Goroutines e syncCfg { relisting := { names := names } } (fun _ => noFaults) _ _ :=
    .unidirectional hsource rfl rfl htype
  obtain ⟨s, hs, hr⟩ := Pool.Reaches.exists_returned hg.workers (.init : Pool.Reaches _ w _)
  exact ⟨_, _, _, rfl, rfl, fun _ _ => rfl, hg.executeSync hs hr⟩

theorem exists_completes_bothWays (e : Engine) (syncCfg : SyncConfig) {targetID : String}
    (htargets : syncCfg.targets.head? = some targetID)
    (htype : syncCfg.syncType = "bidirectional") (hsource : syncCfg.source ∈ e.backends)
    (htarget : targetID ∈ e.backends) (names : List String) (w : World) :
    ∃ u, Completes e syncCfg names w u := by
  have hg : Goroutines e syncCfg { relisting := { names := names } } (fun _ => noFaults) _ _ :=
    .bidirectional hsource rfl rfl htype htargets htarget
  obtain ⟨s, hs, hr⟩ := Pool.Reaches.exists_returned hg.workers (.init : Pool.Reaches _ w _)
  exact ⟨_, _, _, rfl, rfl, fun _ _ => rfl, hg.executeSync hs hr⟩

end Runs

/-! ### Recovery, one way -/

section RecoverOneWay

variable (e : Engine) (syncCfg : SyncConfig) (names : List String)

/-- From `w'` the sync comes to what it comes to from `w`, and what it does not touch is the same. -/
structure Resumes (w w' : World) : Prop where
  settled : ∀ job ∈ unidirectionalJobs syncCfg names,
    settledOneWay e syncCfg job.2 job.1 w' = settledOneWay e syncCfg job.2 job.1 w
  cells : ∀ v n, (n, v) ∉ unidirectionalJobs syncCfg names → w'.vaults v n = w.vaults v n
  rows : ∀ k, (∀ job ∈ unidirectionalJobs syncCfg names, k ≠ syncKey syncCfg job.2 job.1) →
    w'.syncObjects.lookup k = w.syncObjects.lookup k

variable {e syncCfg names} {w w' w'' u : World}

theorem Resumes.of_idle (h : Idle w w') : Resumes e syncCfg names w w' where
  settled job _ := by simp only [settledOneWay, toWrite, h.1, h.2]
  cells v n _ := by rw [h.1]
  rows k _ := by rw [h.2]

theorem Resumes.trans (h : Resumes e syncCfg names w w') (h' : Resumes e syncCfg names w' w'') :
    Resumes e syncCfg names w w'' where
  settled job hj := (h'.settled job hj).trans (h.settled job hj)
  cells v n hno := (h'.cells v n hno).trans (h.cells v n hno)
  rows k hno := (h'.rows k hno).trans (h.rows k hno)

theorem settledOneWay_congr {job : String × String}
    (h : Agree (unidirectionalFootprint syncCfg job) RowView.content w' w) :
    settledOneWay e syncCfg job.2 job.1 w' = settledOneWay e syncCfg job.2 job.1 w := by
  have hsource := h.cells syncCfg.source job.1 (.inl ⟨rfl, rfl⟩)
  have htarget := h.cells job.2 job.1 (.inr ⟨rfl, rfl⟩)
  have hnote := congrArg (Option.map SyncObject.note) (h.rows _ rfl)
  simp only [Option.map_map] at hnote
  have hnote' : (w'.syncObjects.lookup (syncKey syncCfg job.2 job.1)).map (·.note) =
      (w.syncObjects.lookup (syncKey syncCfg job.2 job.1)).map (·.note) := hnote
  simp only [settledOneWay, toWrite_congr hsource, htarget, hnote']

variable (hnd : syncCfg.targets.Nodup) (hsrc : syncCfg.source ∉ syncCfg.targets)
  (hnames : names.Nodup) (htype : syncCfg.syncType = "unidirectional")

include hnd hsrc hnames htype

theorem CutShort.resumes {Ok : Env → Prop} (h : CutShort e syncCfg names Ok w w') :
    Resumes e syncCfg names w w' := by
  rcases h.cases with hidle | ⟨a, env, n, pool, pair, s, rfl, -, hg, hs, hidle⟩
  · exact .of_idle hidle
  refine Resumes.trans ?_ (.of_idle hidle)
  cases hg with
  | bidirectional _ _ _ htype' => exact absurd (htype.symm.trans htype') (by decide)
  | unidirectional =>
    have hconf := unidirectional_confined e hnd hsrc hnames
    refine ⟨fun job hj => ?_, fun v n hno => ?_, fun k hno => ?_⟩
    · obtain ⟨x, hx, hagree⟩ := hconf.visited hs hj
      have hne : syncCfg.source ≠ job.2 := fun heq =>
        hsrc (heq ▸ (List.mem_product.mp hj).2)
      exact (settledOneWay_congr hagree).trans (settledOneWay_of_visits hne hx)
    · refine hconf.cell_kept hs ?_
      rintro ⟨n', t⟩ hj ⟨rfl, rfl⟩
      exact hno hj
    · exact hconf.row_kept hs fun job hj => hno job hj

/-- A complete run leaves what is settled, and touches nothing else. -/
theorem Completes.oneWay (h : Completes e syncCfg names w u) :
    (∀ job ∈ unidirectionalJobs syncCfg names, (u.vaults job.2 job.1,
      (u.syncObjects.lookup (syncKey syncCfg job.2 job.1)).map (·.note)) =
        settledOneWay e syncCfg job.2 job.1 w) ∧
    (∀ v n, (n, v) ∉ unidirectionalJobs syncCfg names → u.vaults v n = w.vaults v n) ∧
    ∀ k, (∀ job ∈ unidirectionalJobs syncCfg names, k ≠ syncKey syncCfg job.2 job.1) →
      u.syncObjects.lookup k = w.syncObjects.lookup k := by
  obtain ⟨a, env, hrelist, rfl, hfree, hrun⟩ := h
  have hconf := unidirectional_confined e hnd hsrc hnames
  cases hrun with
  | bidirectional _ _ htype' => exact absurd (htype.symm.trans htype') (by decide)
  | otherType _ _ htype' => exact absurd htype htype'.1
  | unidirectional _ _ _ hpool =>
    cases hpool with
    | unlisted h => exact absurd hrelist h
    | @returned s _ hs hr =>
      obtain ⟨hvaults, hrows⟩ := recordSyncRun_idle a syncCfg.id
        (runStatus ⟨s.success, s.failure⟩) ⟨s.success, s.failure⟩ "" s.shared
      rw [hvaults, hrows]
      refine ⟨fun job hj => ?_, fun v n hno => ?_, fun k hno => ?_⟩
      · have halone := hconf.as_alone RowView.content hs hr hj
        have hcell := halone.cells job.2 job.1 (.inr ⟨rfl, rfl⟩)
        have hnote := congrArg (Option.map SyncObject.note) (halone.rows _ rfl)
        simp only [Option.map_map] at hnote
        rw [hcell]
        exact (congrArg (Prod.mk _) hnote).trans (settledOneWay_run (hfree job) w)
      · refine hconf.cell_kept hs ?_
        rintro ⟨n', t⟩ hj ⟨rfl, rfl⟩
        exact hno hj
      · exact hconf.row_kept hs fun job hj => hno job hj

/-- However often a one-way sync is cut short, at whatever moment and whatever has failed so far: once
    it runs to its end without faults, every vault and the note of every record is what one
    uninterrupted run would have left. -/
theorem one_way_sync_recovers
    (hcrashes : Relation.ReflTransGen (CutShort e syncCfg names fun _ => True) w w') {u' : World}
    (hagain : Completes e syncCfg names w' u') (hstraight : Completes e syncCfg names w u) :
    u'.vaults = u.vaults ∧ ∀ k, (u'.syncObjects.lookup k).map (·.note) =
      (u.syncObjects.lookup k).map (·.note) := by
  have hresumes : Resumes e syncCfg names w w' := by
    clear hagain
    induction hcrashes with
    | refl => exact .of_idle ⟨rfl, rfl⟩
    | tail _ hcut ih => exact ih.trans (hcut.resumes hnd hsrc hnames htype)
  obtain ⟨hsettled', hcells', hrows'⟩ := hagain.oneWay hnd hsrc hnames htype
  obtain ⟨hsettled, hcells, hrows⟩ := hstraight.oneWay hnd hsrc hnames htype
  have hjob : ∀ job ∈ unidirectionalJobs syncCfg names, (u'.vaults job.2 job.1,
      (u'.syncObjects.lookup (syncKey syncCfg job.2 job.1)).map (·.note)) =
        (u.vaults job.2 job.1, (u.syncObjects.lookup (syncKey syncCfg job.2 job.1)).map (·.note)) :=
    fun job hj => (hsettled' job hj).trans ((hresumes.settled job hj).trans (hsettled job hj).symm)
  constructor
  · funext v n
    by_cases hin : (n, v) ∈ unidirectionalJobs syncCfg names
    · exact congrArg Prod.fst (hjob _ hin)
    · rw [hcells' v n hin, hresumes.cells v n hin, hcells v n hin]
  · intro k
    by_cases hin : ∃ job ∈ unidirectionalJobs syncCfg names, k = syncKey syncCfg job.2 job.1
    · obtain ⟨job, hj, rfl⟩ := hin
      exact congrArg Prod.snd (hjob job hj)
    · have hno : ∀ job ∈ unidirectionalJobs syncCfg names, k ≠ syncKey syncCfg job.2 job.1 :=
        fun job hj hk => hin ⟨job, hj, hk⟩
      rw [hrows' k hno, hresumes.rows k hno, hrows k hno]

end RecoverOneWay

/-- The pair, one way. -/
def oneWayPair : SyncConfig := { pairSync with syncType := "unidirectional" }

/-- The daemon dies after the write and before the record of it. -/
theorem one_way_sync_recovers_pair : ∃ w' u' u : World,
    CutShort pairEngine oneWayPair ["k"] (fun _ => True) (pairWorld (some (utf8 "v")) none) w' ∧
    (w'.vaults "b" "k", w'.syncObjects.lookup (syncKey oneWayPair "b" "k")) =
      (some (utf8 "v"), none) ∧
    u'.vaults = u.vaults := by
  have hg : Goroutines pairEngine oneWayPair { relisting := { names := ["k"] } } (fun _ => noFaults)
      _ _ := .unidirectional (by decide) rfl rfl rfl
  obtain ⟨s, hs, hcut⟩ := Pool.exists_of_follow (workerPool (unidirectionalJobs oneWayPair ["k"])
      (fun job => syncSecretUnidirectional pairEngine oneWayPair job.2 job.1 "a") 1 fun _ => noFaults)
    (pairWorld (some (utf8 "v")) none)
    [.launch, .acquire ⟨0, by decide +kernel⟩, .exec ⟨0, by decide +kernel⟩,
      .exec ⟨0, by decide +kernel⟩]
    (fun s => (s.shared.vaults "b" "k", s.shared.syncObjects.lookup (syncKey oneWayPair "b" "k")))
    (b := (some (utf8 "v"), none)) (by decide +kernel)
  have hdied : CutShort pairEngine oneWayPair ["k"] (fun _ => True)
      (pairWorld (some (utf8 "v")) none) s.shared := .amid rfl (fun _ => trivial) hg hs
  obtain ⟨u', hagain⟩ := exists_completes_oneWay pairEngine oneWayPair rfl
    (by decide) ["k"] s.shared
  obtain ⟨u, hstraight⟩ := exists_completes_oneWay pairEngine oneWayPair rfl
    (by decide) ["k"] (pairWorld (some (utf8 "v")) none)
  exact ⟨_, u', u, hdied, hcut, (one_way_sync_recovers (by decide) (by decide) (by decide) rfl
    (.single hdied) hagain hstraight).1⟩

/-! ### Recovery, both ways -/

section RecoverBothWays

variable {e : Engine} {syncCfg : SyncConfig} {targetID : String} {names : List String}
  {w w' u : World}

theorem settledBothWays_of_agree {secretName : String}
    (h : Agree (bidirectionalFootprint syncCfg targetID secretName) RowView.content w' w) :
    settledBothWays e syncCfg targetID secretName w' =
      settledBothWays e syncCfg targetID secretName w := by
  have hsource := h.cells syncCfg.source secretName (.inl ⟨.inl rfl, rfl⟩)
  have htarget := h.cells targetID secretName (.inl ⟨.inr rfl, rfl⟩)
  have hrow := congrArg (Option.map SyncObject.directionLast) (h.rows _ rfl)
  have hdirection : w'.direction (syncKey syncCfg targetID secretName) =
      w.direction (syncKey syncCfg targetID secretName) := by
    simp only [Option.map_map] at hrow
    rcases hl' : w'.syncObjects.lookup (syncKey syncCfg targetID secretName) with _ | r' <;>
      rcases hl : w.syncObjects.lookup (syncKey syncCfg targetID secretName) with _ | r <;>
      rw [hl', hl] at hrow
    · rw [World.direction, World.direction, hl', hl]
    · cases hrow
    · cases hrow
    · have hlast : r'.directionLast = r.directionLast := Option.some.inj hrow
      simp only [World.direction, hl', hl, Option.map_some, chooseDirection, hlast]
  simp only [settledBothWays, hsource, htarget, hdirection]

variable (hnone : syncCfg.transforms = []) (hne : syncCfg.source ≠ targetID)
  (htargets : syncCfg.targets.head? = some targetID) (hnames : names.Nodup)
  (htype : syncCfg.syncType = "bidirectional")

include hnone hne htargets hnames htype

theorem CutShort.settled (h : CutShort e syncCfg names FaultFree w w') :
    (∀ n ∈ filterSecrets names syncCfg.filter,
      settledBothWays e syncCfg targetID n w' = settledBothWays e syncCfg targetID n w) ∧
    ∀ v n, ¬(n ∈ filterSecrets names syncCfg.filter ∧ (v = syncCfg.source ∨ v = targetID)) →
      w'.vaults v n = w.vaults v n := by
  have hidle : ∀ {x y : World}, Idle x y → (∀ n ∈ filterSecrets names syncCfg.filter,
      settledBothWays e syncCfg targetID n y = settledBothWays e syncCfg targetID n x) ∧
      ∀ v n, ¬(n ∈ filterSecrets names syncCfg.filter ∧ (v = syncCfg.source ∨ v = targetID)) →
        y.vaults v n = x.vaults v n := fun hxy =>
    ⟨fun n _ => by simp only [settledBothWays, World.direction, hxy.1, hxy.2],
      fun v n _ => by rw [hxy.1]⟩
  rcases h.cases with h | ⟨a, env, n, pool, pair, s, rfl, hfree, hg, hs, h⟩
  · exact hidle h
  obtain ⟨hsettled, hcells⟩ := hidle h
  cases hg with
  | unidirectional _ _ _ htype' => exact absurd (htype.symm.trans htype') (by decide)
  | bidirectional _ _ _ _ hfirst =>
    obtain rfl := Option.some.inj (htargets.symm.trans hfirst)
    have hconf := bidirectional_confined e syncCfg targetID hnames
    refine ⟨fun n hn => ?_, fun v n hno => ?_⟩
    · obtain ⟨x, hx, hagree⟩ := hconf.visited hs hn
      exact (hsettled n hn).trans ((settledBothWays_of_agree hagree).trans
        (settledBothWays_of_visits hnone hne (hfree (n, targetID)) hx))
    · refine (hcells v n hno).trans (hconf.cell_kept hs ?_)
      rintro n' hn ⟨hv, rfl⟩
      exact hno ⟨hn, hv⟩

/-- A complete run leaves what is settled, and touches nothing else. -/
theorem Completes.bothWays (h : Completes e syncCfg names w u) :
    (∀ n ∈ filterSecrets names syncCfg.filter,
      u.pair syncCfg.source targetID n = settledBothWays e syncCfg targetID n w) ∧
    ∀ v n, ¬(n ∈ filterSecrets names syncCfg.filter ∧ (v = syncCfg.source ∨ v = targetID)) →
      u.vaults v n = w.vaults v n := by
  obtain ⟨a, env, hrelist, rfl, hfree, hrun⟩ := h
  have hconf := bidirectional_confined e syncCfg targetID hnames
  cases hrun with
  | unidirectional _ _ htype' => exact absurd (htype.symm.trans htype') (by decide)
  | otherType _ _ htype' => exact absurd htype htype'.2
  | bidirectional _ _ _ hfirst _ hpool =>
    obtain rfl := Option.some.inj (htargets.symm.trans hfirst)
    cases hpool with
    | unlisted h => exact absurd hrelist h
    | @returned s _ hs hr =>
      simp only [World.pair, recordSyncRun_vaults]
      refine ⟨fun n hn => ?_, fun v n hno => ?_⟩
      · have halone := hconf.as_alone RowView.content hs hr hn
        rw [halone.cells syncCfg.source n (.inl ⟨.inl rfl, rfl⟩),
          halone.cells targetID n (.inl ⟨.inr rfl, rfl⟩)]
        exact settledBothWays_run hnone hne (hfree (n, targetID)) w
      · refine hconf.cell_kept hs ?_
        rintro n' hn ⟨hv, rfl⟩
        exact hno ⟨hn, hv⟩

/-- However often a two-way sync without transforms is cut short, at whatever moment: once it runs to
    its end, the vaults are what one uninterrupted run would have left; the same side wins. -/
theorem two_way_sync_recovers
    (hcrashes : Relation.ReflTransGen (CutShort e syncCfg names FaultFree) w w') {u' : World}
    (hagain : Completes e syncCfg names w' u') (hstraight : Completes e syncCfg names w u) :
    u'.vaults = u.vaults := by
  have hkept : (∀ n ∈ filterSecrets names syncCfg.filter,
      settledBothWays e syncCfg targetID n w' = settledBothWays e syncCfg targetID n w) ∧
      ∀ v n, ¬(n ∈ filterSecrets names syncCfg.filter ∧ (v = syncCfg.source ∨ v = targetID)) →
        w'.vaults v n = w.vaults v n := by
    clear hagain
    induction hcrashes with
    | refl => exact ⟨fun _ _ => rfl, fun _ _ _ => rfl⟩
    | tail _ hcut ih =>
      obtain ⟨hsettled, hcells⟩ := hcut.settled hnone hne htargets hnames htype
      exact ⟨fun n hn => (hsettled n hn).trans (ih.1 n hn),
        fun v n hno => (hcells v n hno).trans (ih.2 v n hno)⟩
  obtain ⟨hsettled', hcells'⟩ := hagain.bothWays hnone hne htargets hnames htype
  obtain ⟨hsettled, hcells⟩ := hstraight.bothWays hnone hne htargets hnames htype
  funext v n
  by_cases hin : n ∈ filterSecrets names syncCfg.filter ∧ (v = syncCfg.source ∨ v = targetID)
  · have hpair : u'.pair syncCfg.source targetID n = u.pair syncCfg.source targetID n :=
      (hsettled' n hin.1).trans ((hkept.1 n hin.1).trans (hsettled n hin.1).symm)
    rcases hin.2 with rfl | rfl
    · exact congrArg Replicas.Pair.left hpair
    · exact congrArg Replicas.Pair.right hpair
  · rw [hcells' v n hin, hkept.2 v n hin, hcells v n hin]

end RecoverBothWays

/-- The vaults differ, and the daemon dies after the write. -/
theorem two_way_sync_recovers_pair : ∃ w' u' u : World,
    CutShort pairEngine pairSync ["k"] FaultFree
      (pairWorld (some (utf8 "v")) (some (utf8 "w"))) w' ∧
    (w'.vaults "b" "k", w'.syncObjects.lookup (syncKey pairSync "b" "k")) =
      (some (utf8 "v"), none) ∧
    u'.vaults = u.vaults := by
  have hg : Goroutines pairEngine pairSync { relisting := { names := ["k"] } } (fun _ => noFaults)
      _ _ := .bidirectional (by decide) rfl rfl rfl rfl (by decide)
  obtain ⟨s, hs, hcut⟩ := Pool.exists_of_follow (workerPool (filterSecrets ["k"] pairSync.filter)
      (fun n => syncSecretBidirectional pairEngine pairSync "b" n "a" "b") 1 fun _ => noFaults)
    (pairWorld (some (utf8 "v")) (some (utf8 "w")))
    [.launch, .acquire ⟨0, by decide +kernel⟩, .exec ⟨0, by decide +kernel⟩,
      .exec ⟨0, by decide +kernel⟩, .exec ⟨0, by decide +kernel⟩, .exec ⟨0, by decide +kernel⟩]
    (fun s => (s.shared.vaults "b" "k", s.shared.syncObjects.lookup (syncKey pairSync "b" "k")))
    (b := (some (utf8 "v"), none)) (by decide +kernel)
  have hdied : CutShort pairEngine pairSync ["k"] FaultFree
      (pairWorld (some (utf8 "v")) (some (utf8 "w"))) s.shared :=
    .amid rfl (fun _ _ => rfl) hg hs
  obtain ⟨u', hagain⟩ := exists_completes_bothWays pairEngine pairSync rfl rfl
    (by decide) (by decide) ["k"] s.shared
  obtain ⟨u, hstraight⟩ := exists_completes_bothWays pairEngine pairSync rfl rfl
    (by decide) (by decide) ["k"] (pairWorld (some (utf8 "v")) (some (utf8 "w")))
  exact ⟨_, u', u, hdied, hcut, two_way_sync_recovers rfl (by decide) rfl (by decide) rfl
    (.single hdied) hagain hstraight⟩

end VaultsSyncer
