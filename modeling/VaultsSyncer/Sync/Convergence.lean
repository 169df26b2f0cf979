import VaultsSyncer.Sync.Footprint
import VaultsSyncer.Sync.History

/-! Repeated bidirectional syncs of one secret without edits in between. Without transforms they
    converge, whatever fails on the way (`syncs_converge`). With transforms a first run that finds no
    target value writes the transformed one, and the next run compares it with the untransformed
    source; `syncs_stay_quiet_iff` says exactly when the runs after the first have nothing to do. -/

namespace VaultsSyncer

open GoStd Schemes Schemes.Prog

section Converge

variable (e : Engine) {syncCfg : SyncConfig} {targetID secretName : String}

/-- No call invents a value, touches another name or moves anything when it fails; and from the
    first call that succeeds onward both vaults hold one and the same value. -/
theorem syncs_converge (hnone : syncCfg.transforms = []) (hne : syncCfg.source ≠ targetID)
    (w₀ : World) {s : Bytes} (hs : w₀.vaults syncCfg.source secretName = some s)
    (hinj : ∀ t, w₀.vaults targetID secretName = some t → hashString s = hashString t → s = t) :
    (∀ envs env,
      let w := syncs e syncCfg targetID secretName envs w₀
      let r := syncOnce e syncCfg targetID secretName env w
      (∀ v x, v = syncCfg.source ∨ v = targetID → r.2.vaults v secretName = some x →
        x = s ∨ w₀.vaults targetID secretName = some x) ∧
      (∀ v n, n ≠ secretName → r.2.vaults v n = w.vaults v n) ∧
      (r.1.isOk = false → r.2.vaults = w.vaults)) ∧
    (∀ envs env,
      (syncOnce e syncCfg targetID secretName env
        (syncs e syncCfg targetID secretName envs w₀)).1.isOk = true →
      ∃ x, ∀ envs',
        let w := syncs e syncCfg targetID secretName (envs ++ env :: envs') w₀
        w.vaults syncCfg.source secretName = some x ∧ w.vaults targetID secretName = some x) := by
  -- the checksums tell the two initial values apart, and no others ever come up
  have hheld : ∀ x y, (w₀.pair syncCfg.source targetID secretName).Holds x →
      (w₀.pair syncCfg.source targetID secretName).Holds y → hashString x = hashString y →
      x = y := by
    rintro x y (hx | hx) (hy | hy) hxy <;> simp only [World.pair] at hx hy
    · exact Option.some.inj (hx.symm.trans hy)
    · obtain rfl := Option.some.inj (hs.symm.trans hx)
      exact hinj y hy hxy
    · obtain rfl := Option.some.inj (hs.symm.trans hy)
      exact (hinj x hx hxy.symm).symm
    · exact Option.some.inj (hx.symm.trans hy)
  have hrun : ∀ envs, Replicas.Run (w₀.pair syncCfg.source targetID secretName)
      (reports e syncCfg targetID secretName envs w₀)
      ((syncs e syncCfg targetID secretName envs w₀).pair syncCfg.source targetID secretName) :=
    fun envs => syncs_refines hnone hne envs w₀ hheld
  have hstep : ∀ envs env, Replicas.Step
      ((syncs e syncCfg targetID secretName envs w₀).pair syncCfg.source targetID secretName)
      (syncOnce e syncCfg targetID secretName env (syncs e syncCfg targetID secretName envs w₀)).1.isOk
      ((syncOnce e syncCfg targetID secretName env
        (syncs e syncCfg targetID secretName envs w₀)).2.pair syncCfg.source targetID secretName) :=
    fun envs env => syncOnce_refines hnone hne env _ fun x y hx hy =>
      hheld x y ((hrun envs).holds (.inl hx)) ((hrun envs).holds (.inr hy))
  refine ⟨fun envs env => ⟨?_, ?_, (run_syncOnce ..).vaults_of_error⟩, ?_⟩
  · intro v x hv hx
    have hholds := (hrun envs).holds ((hstep envs env).holds (x := x) (by
      rcases hv with rfl | rfl
      · exact .inl hx
      · exact .inr hx))
    rcases hholds with hx' | hx'
    · exact .inl (Option.some.inj (hx'.symm.trans hs))
    · exact .inr hx'
  · intro v n hn
    exact (run_syncOnce ..).vaults_of_ne (.inl hn)
  · intro envs env hok
    have hfirst := hstep envs env
    rw [hok] at hfirst
    obtain ⟨x, hx⟩ := hfirst.agreed
    refine ⟨x, fun envs' => ?_⟩
    rw [syncs_append]
    have hrest := syncs_refines (e := e) hnone hne envs' (syncOnce e syncCfg targetID secretName env
        (syncs e syncCfg targetID secretName envs w₀)).2 fun x y hx hy =>
      hheld x y ((hrun envs).holds (hfirst.holds hx)) ((hrun envs).holds (hfirst.holds hy))
    exact hrest.stays hx

/-- A call that fails and one that works, between two vaults that differ. -/
theorem syncs_converge_pair : ∃ x, ∀ envs',
    let w := syncs pairEngine pairSync "b" "k" ([allDown] ++ noFaults :: envs')
      (pairWorld (some (utf8 "v")) (some (utf8 "w")))
    w.vaults "a" "k" = some x ∧ w.vaults "b" "k" = some x := by
  have hinj : ∀ t, (pairWorld (some (utf8 "v")) (some (utf8 "w"))).vaults "b" "k" = some t →
      hashString (utf8 "v") = hashString t → utf8 "v" = t := by
    rintro t ht h
    obtain rfl := Option.some.inj ht
    exact absurd h (by decide +kernel)
  exact (@syncs_converge pairEngine pairSync "b" "k" rfl (by decide) _ _ rfl hinj).2 _ noFaults
    (by decide +kernel)

end Converge

/-! ### Stability -/

/-- No call fails. -/
def FaultFree (env : Env) : Prop := ∀ k, (env.get k).Works

theorem FaultFree.drop {env : Env} (h : FaultFree env) (k : ℕ) : FaultFree (env.drop k) :=
  fun j => h (j + k)

theorem FaultFree.recorded {env : Env} (h : FaultFree env) (w : World) (key : SyncKey) :
    Recorded env w key := ⟨h 1, .inr ⟨h 2, h 3⟩⟩

section Quiet

variable (e : Engine) (syncCfg : SyncConfig) (targetID secretName : String)

/-- A run that has nothing to do: it succeeds, sets no secret and records `in_sync`. -/
structure Quiet (env : Env) (w : World) : Prop where
  succeeds : (syncOnce e syncCfg targetID secretName env w).1 = .ok ()
  silent : ∀ v n x, Call.setSecret v n x ∉
    (syncSecretBidirectional e syncCfg targetID secretName syncCfg.source targetID).calls handle
      (env, w)
  vaults : (syncOnce e syncCfg targetID secretName env w).2.vaults = w.vaults
  recorded : ∃ r, (syncOnce e syncCfg targetID secretName env w).2.syncObjects.lookup
    (syncKey syncCfg targetID secretName) = some r ∧ r.lastSyncStatus = "in_sync"

/-- Both vaults hold a value, and the two have one checksum. -/
def InSync (w : World) : Prop :=
  ∃ s t, w.vaults syncCfg.source secretName = some s ∧ w.vaults targetID secretName = some t ∧
    hashString s = hashString t

variable {e syncCfg targetID secretName}

theorem calls_inSync {env : Env} {w : World} {s t : Bytes}
    (h : BothRead secretName syncCfg.source targetID env w s t) (heq : hashString s = hashString t)
    (v n : String) (x : Bytes) : Call.setSecret v n x ∉
      (syncSecretBidirectional e syncCfg targetID secretName syncCfg.source targetID).calls handle
        (env, w) := by
  have hs : readWith env.head w syncCfg.source secretName = .ok ⟨secretName, s⟩ :=
    readWith_ok h.sourceWorks h.source
  have ht : readWith env.tail.head w targetID secretName = .ok ⟨secretName, t⟩ :=
    readWith_ok h.targetWorks h.target
  intro hmem
  unfold syncSecretBidirectional at hmem
  rw [calls_getSecret, hs] at hmem
  simp only at hmem
  rw [calls_getSecret, ht] at hmem
  simp only [heq, if_true, List.mem_cons, reduceCtorEq, false_or] at hmem
  -- after the two reads only the record is written
  exact (within_record (F := ⟨fun _ _ => False, fun _ _ => False, fun _ => True⟩)
    (fun _ => trivial) _).mem_calls handle _ _ hmem

/-- A run that meets no fault is quiet exactly where the checksums are equal. -/
theorem quiet_iff {env : Env} (henv : FaultFree env) (w : World) :
    Quiet e syncCfg targetID secretName env w ↔ InSync syncCfg targetID secretName w := by
  have hrun := run_syncOnce e syncCfg targetID secretName env w
  constructor
  · intro hq
    obtain ⟨r, hr, hstatus⟩ := hq.recorded
    rw [hq.succeeds] at hrun
    generalize (syncOnce e syncCfg targetID secretName env w).2 = w' at hrun hr
    -- any other successful run records a success
    have hno : ∀ {sum sum' dir env' u}, FaultFree env' →
        ¬Noted (syncKey syncCfg targetID secretName) ⟨"success", sum, sum', dir⟩ env' u w' := by
      intro sum sum' dir env' u henv' hnote
      obtain ⟨r', hr', hn⟩ := hnote.saved (henv'.recorded u _)
      obtain rfl := Option.some.inj (hr.symm.trans hr')
      have hsuccess : r.lastSyncStatus = "success" := congrArg Note.status hn
      rw [hstatus] at hsuccess
      exact absurd hsuccess (by decide)
    cases hrun with
    | inSync hread heq _ => exact ⟨_, _, hread.source, hread.target, heq⟩
    | handedOver _ _ _ huni =>
      cases huni with
      | delivered _ _ hnote => exact absurd hnote (hno ((henv.drop 2).drop _))
    | directed _ _ _ hdir =>
      cases hdir with
      | copied _ hnote => exact absurd hnote (hno ((henv.drop 3).drop _))
  · rintro ⟨s, t, hs, ht, heq⟩
    have hread : BothRead secretName syncCfg.source targetID env w s t := ⟨henv 0, henv 1, hs, ht⟩
    have hsilent := calls_inSync (e := e) hread heq
    generalize hres : (syncOnce e syncCfg targetID secretName env w).1 = res at hrun
    generalize hw' : (syncOnce e syncCfg targetID secretName env w).2 = w' at hrun
    cases hrun with
    | unread err h => exact absurd ⟨henv 0, s, hs⟩ h
    | handedOver _ _ h => exact absurd ⟨henv 1, t, ht⟩ h
    | unselected err h hne => exact absurd (h.eq hread).1 (fun hst => hne (by rw [hst, (h.eq hread).2, heq]))
    | directed h hne => exact absurd (h.eq hread).1 (fun hst => hne (by rw [hst, (h.eq hread).2, heq]))
    | inSync h _ hnote =>
      obtain ⟨r, hr, hn⟩ := hnote.saved ((henv.drop 3).recorded w _)
      refine ⟨hres, hsilent, ?_, r, ?_, congrArg Note.status hn⟩
      · rw [hw', hnote.vaults]
      · rw [hw', hr]

/-- Once the checksums are equal, they stay so. -/
theorem InSync.stays {w : World} (h : InSync syncCfg targetID secretName w) {envs : List Env}
    (henvs : ∀ env ∈ envs, FaultFree env) :
    InSync syncCfg targetID secretName (syncs e syncCfg targetID secretName envs w) := by
  induction envs generalizing w with
  | nil => exact h
  | cons env envs ih =>
    refine ih ?_ fun env' h' => henvs env' (List.mem_cons_of_mem _ h')
    have hq := (quiet_iff (e := e) (henvs env List.mem_cons_self) w).mpr h
    obtain ⟨s, t, hs, ht, heq⟩ := h
    exact ⟨s, t, by rw [hq.vaults, hs], by rw [hq.vaults, ht], heq⟩

/-- What the first run leaves: equal checksums, unless it wrote a transformed value over. -/
theorem inSync_after_iff (hne : syncCfg.source ≠ targetID) {env : Env} {w : World}
    (hok : (syncOnce e syncCfg targetID secretName env w).1 = .ok ()) :
    InSync syncCfg targetID secretName (syncOnce e syncCfg targetID secretName env w).2 ↔
      ((env.get 1).Works ∧ ∃ t, w.vaults targetID secretName = some t) ∨
      ∃ s x, w.vaults syncCfg.source secretName = some s ∧
        applyTransforms s syncCfg.transforms = .ok x ∧ hashString x = hashString s := by
  have hrun := run_syncOnce e syncCfg targetID secretName env w
  rw [hok] at hrun
  generalize (syncOnce e syncCfg targetID secretName env w).2 = w' at hrun
  cases hrun with
  | inSync h heq hnote =>
    refine iff_of_true ⟨_, _, ?_, ?_, heq⟩ (.inl ⟨h.targetWorks, _, h.target⟩)
    · rw [hnote.vaults, h.source]
    · rw [hnote.vaults, h.target]
  | directed h _ _ hdir =>
    obtain ⟨hsrc, htgt⟩ := hdir.copies hne h rfl
    exact iff_of_true ⟨_, _, hsrc, htgt, rfl⟩ (.inl ⟨h.targetWorks, _, h.target⟩)
  | handedOver _ hs htarget huni =>
    cases huni with
    | @delivered s x k _ hready _ hnote =>
      have hsrc : w'.vaults syncCfg.source secretName = some s := by
        rw [hnote.vaults, World.setVault_of_ne _ _ (.inl hne), hready.stored]
      have htgt : w'.vaults targetID secretName = some x := by
        rw [hnote.vaults, World.setVault_self]
      constructor
      · rintro ⟨s', x', hs', hx', heq⟩
        obtain rfl := Option.some.inj (hsrc.symm.trans hs')
        obtain rfl := Option.some.inj (htgt.symm.trans hx')
        exact .inr ⟨s, x, hready.stored, hready.transformed, heq.symm⟩
      · rintro (hboth | ⟨s', x', hs', hx', heq⟩)
        · exact absurd hboth htarget
        · obtain rfl := Option.some.inj (hready.stored.symm.trans hs')
          obtain rfl := Except.ok.inj (hready.transformed.symm.trans hx')
          exact ⟨s, x, hsrc, htgt, heq.symm⟩

/-- After a first successful run every later run that meets no fault has nothing to do, exactly if
    the first run read a value from the target, or the transforms keep the source's checksum. -/
theorem syncs_stay_quiet_iff (hne : syncCfg.source ≠ targetID) {env : Env} {w : World}
    (hok : (syncOnce e syncCfg targetID secretName env w).1 = .ok ()) :
    (∀ envs env', (∀ env'' ∈ envs, FaultFree env'') → FaultFree env' →
      Quiet e syncCfg targetID secretName env' (syncs e syncCfg targetID secretName envs
        (syncOnce e syncCfg targetID secretName env w).2)) ↔
      ((env.get 1).Works ∧ ∃ t, w.vaults targetID secretName = some t) ∨
      ∃ s x, w.vaults syncCfg.source secretName = some s ∧
        applyTransforms s syncCfg.transforms = .ok x ∧ hashString x = hashString s := by
  rw [← inSync_after_iff hne hok]
  constructor
  · intro h
    have henv : FaultFree noFaults := fun _ => rfl
    exact (quiet_iff henv _).mp (h [] _ (by simp) henv)
  · intro h envs env' henvs henv'
    exact (quiet_iff henv' _).mpr (h.stays henvs)

theorem syncs_stay_quiet_iff_pair :
    (∀ envs env', (∀ env'' ∈ envs, FaultFree env'') → FaultFree env' →
      Quiet pairEngine pairSync "b" "k" env' (syncs pairEngine pairSync "b" "k" envs
        (syncOnce pairEngine pairSync "b" "k" noFaults (pairWorld (some (utf8 "v")) none)).2)) ↔
      ((noFaults.get 1).Works ∧
        ∃ t, (pairWorld (some (utf8 "v")) none).vaults "b" "k" = some t) ∨
      ∃ s x, (pairWorld (some (utf8 "v")) none).vaults "a" "k" = some s ∧
        applyTransforms s pairSync.transforms = .ok x ∧ hashString x = hashString s :=
  @syncs_stay_quiet_iff pairEngine pairSync "b" "k" (by decide) _ _ (by decide +kernel)

/-- A sync that encodes values on their way to the target. -/
def encodingSync : SyncConfig :=
  { pairSync with transforms := [{ field := "value", type := "base64_encode" }] }

/-- The target is empty: the first run writes the encoded value there, and the second one copies it
    back over the original. -/
theorem encoding_overwrites_source :
    let r := syncOnce pairEngine encodingSync "b" "k" noFaults (pairWorld (some (utf8 "v")) none)
    r.1 = .ok () ∧ FaultFree noFaults ∧
      (syncOnce pairEngine encodingSync "b" "k" noFaults r.2).2.vaults "a" "k" =
        some (utf8 "dg==") ∧
      ¬Quiet pairEngine encodingSync "b" "k" noFaults r.2 := by
  intro r
  have hafter : (syncOnce pairEngine encodingSync "b" "k" noFaults r.2).2.vaults "a" "k" =
      some (utf8 "dg==") := by decide +kernel
  have hbefore : r.2.vaults "a" "k" = some (utf8 "v") := by decide +kernel
  refine ⟨by decide +kernel, fun _ => rfl, hafter, fun hq => ?_⟩
  rw [hq.vaults, hbefore] at hafter
  exact absurd hafter (by decide +kernel)

end Quiet

end VaultsSyncer
