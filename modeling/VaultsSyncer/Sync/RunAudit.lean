import VaultsSyncer.Sync.Attempts

/-! What `syncs_run` says about a run of `ExecuteSync` as a whole. A first listing that fails is
    recorded and returned; a backend that is missing is returned without a row, and a second listing
    that fails is neither returned nor explained (`audited_iff`). -/

namespace VaultsSyncer

open GoStd Schemes Schemes.Prog

/-! ### The row of a run -/

theorem recordSyncRun_syncsRun {a : RunAnswers} (ha : a.record.Works) (syncID status : String)
    (result : SyncResult) (errorMessage : String) (w : World) :
    ∃ run : SyncRun, (recordSyncRun a syncID status result errorMessage w).syncsRun =
      w.syncsRun ++ [run] ∧ run.syncID = syncID ∧ run.status = status ∧
      run.errorMessage = errorMessage := by
  rw [recordSyncRun, handle]
  simp only [Stream'.head, Stream'.get_const, Answer.commit_of_works ha]
  exact ⟨_, rfl, rfl, rfl, rfl⟩

theorem recordSyncRun_lost {a : RunAnswers} (ha : ¬a.record.Works) (syncID status : String)
    (result : SyncResult) (errorMessage : String) (w : World) :
    recordSyncRun a syncID status result errorMessage w = w := by
  obtain ⟨err, herr⟩ := Option.ne_none_iff_exists'.mp ha
  rw [recordSyncRun, handle]
  simp only [Stream'.head, Stream'.get_const, Answer.commit, herr]

section Goroutines

variable {e : Engine} {syncCfg : SyncConfig} {a : RunAnswers} {env : String × String → Env} {n : ℕ}
  {pool : Pool.Setup Call Call.Ans Env World n} {pair : Fin n → String × String} {w : World}

/-- The goroutines leave `syncs_run` to the main thread. -/
theorem Goroutines.syncsRun_eq (h : Goroutines e syncCfg a env pool pair)
    {s : Pool.State Call Call.Ans Env World n} (hs : Pool.Reaches pool w s) :
    s.shared.syncsRun = w.syncsRun := by
  have hown : ∀ i, (pool.task i).AllCalls (attemptFootprint syncCfg (pair i)).Within := by
    intro i
    rw [h.task]
    exact within_worker (within_attempt ..)
  refine hs.shared_invariant hown (I := fun u => u.syncsRun = w.syncsRun) ?_ rfl
  intro i op e' u hop hu
  rw [h.handler]
  exact (frame_syncsRun hop e' u).trans hu

/-- Each run comes to its end. -/
theorem Goroutines.exists_executeSync (h : Goroutines e syncCfg a env pool pair) (w : World) :
    ∃ r w', ExecuteSync e syncCfg a env w r w' := by
  obtain ⟨s, hs, hr⟩ := Pool.Reaches.exists_returned h.workers (.init : Pool.Reaches pool w _)
  exact ⟨_, _, h.executeSync hs hr⟩

end Goroutines

/-! ### Complete records -/

/-- A listing that the run makes fails: the first one, or the one before the goroutines start. -/
inductive ListingFails (e : Engine) (syncCfg : SyncConfig) (a : RunAnswers) : Prop
  | listing (hsource : syncCfg.source ∈ e.backends) (h : ¬a.listing.Works)
  | unidirectional (hsource : syncCfg.source ∈ e.backends) (hlist : a.listing.Works)
      (htype : syncCfg.syncType = "unidirectional") (h : ¬a.relisting.Works)
  | bidirectional {targetID : String} (hsource : syncCfg.source ∈ e.backends)
      (hlist : a.listing.Works) (htype : syncCfg.syncType = "bidirectional")
      (hfirst : syncCfg.targets.head? = some targetID) (htarget : targetID ∈ e.backends)
      (h : ¬a.relisting.Works)

/-- The run cannot be made: a backend is missing, or a listing fails. -/
inductive Refused (e : Engine) (syncCfg : SyncConfig) (a : RunAnswers) : Prop
  | noSource (h : syncCfg.source ∉ e.backends)
  | noTarget {targetID : String} (htype : syncCfg.syncType = "bidirectional")
      (hfirst : syncCfg.targets.head? = some targetID) (h : targetID ∉ e.backends)
  | unlisted (h : ListingFails e syncCfg a)

/-- The run returns and adds one row for the sync, and where it cannot be made, it returns an error and
    the row says so. -/
structure RunAudited (e : Engine) (syncCfg : SyncConfig) (a : RunAnswers)
    (env : String × String → Env) (w : World) : Prop where
  returns : ∃ r w', ExecuteSync e syncCfg a env w r w'
  row : ∀ r w', ExecuteSync e syncCfg a env w r w' → ∃ run : SyncRun,
    w'.syncsRun = w.syncsRun ++ [run] ∧ run.syncID = syncCfg.id ∧
    (Refused e syncCfg a → r.isOk = false ∧ run.status = "failed" ∧ run.errorMessage ≠ "")

/-- The source has a backend, the row can be written, and the first listing fails, or there is a target
    to sync with and the second listing works. -/
structure Recordable (e : Engine) (syncCfg : SyncConfig) (a : RunAnswers) : Prop where
  source : syncCfg.source ∈ e.backends
  record : a.record.Works
  listed : a.listing.Works →
    (syncCfg.syncType = "bidirectional" → ∃ t, syncCfg.targets.head? = some t ∧ t ∈ e.backends) ∧
    (syncCfg.syncType = "unidirectional" ∨ syncCfg.syncType = "bidirectional" → a.relisting.Works)

section Audited

variable {e : Engine} {syncCfg : SyncConfig} {a : RunAnswers} {env : String × String → Env} {w : World}

/-- Where the row cannot be written, none is there. -/
theorem ExecuteSync.syncsRun_lost {r : Except GoError Unit} {w' : World} (ha : ¬a.record.Works)
    (h : ExecuteSync e syncCfg a env w r w') : w'.syncsRun = w.syncsRun := by
  cases h with
  | noSource | noTarget => rfl
  | unlisted | otherType => rw [recordSyncRun_lost ha]
  | unidirectional hsource hlist htype hrun =>
    rw [recordSyncRun_lost ha]
    cases hrun with
    | unlisted => rfl
    | returned hrelist hs _ =>
      exact (Goroutines.unidirectional hsource hlist hrelist htype).syncsRun_eq hs
  | bidirectional hsource hlist htype hfirst htarget hrun =>
    rw [recordSyncRun_lost ha]
    cases hrun with
    | unlisted => rfl
    | returned hrelist hs _ =>
      exact (Goroutines.bidirectional hsource hlist hrelist htype hfirst htarget).syncsRun_eq hs

/-- A run that adds no row is not audited. -/
theorem RunAudited.adds (h : RunAudited e syncCfg a env w) {r : Except GoError Unit} {w' : World}
    (hrun : ExecuteSync e syncCfg a env w r w') : w'.syncsRun ≠ w.syncsRun := by
  obtain ⟨run, hrow, -⟩ := h.row r w' hrun
  intro heq
  simp [hrow] at heq

/-- Nor is one that cannot be made and returns no error. -/
theorem RunAudited.fails (h : RunAudited e syncCfg a env w) (href : Refused e syncCfg a)
    {w' : World} : ¬ExecuteSync e syncCfg a env w (.ok ()) w' := by
  intro hrun
  obtain ⟨_, -, -, hrefused⟩ := h.row _ w' hrun
  exact absurd (hrefused href).1 (by simp [Except.isOk, Except.toBool])

theorem RunAudited.recordable (h : RunAudited e syncCfg a env w) : Recordable e syncCfg a := by
  have hsource : syncCfg.source ∈ e.backends := by
    by_contra hno
    exact h.adds (.noSource hno) rfl
  refine ⟨hsource, ?_, fun hlist => ?_⟩
  · by_contra hno
    obtain ⟨r, w', hrun⟩ := h.returns
    exact h.adds hrun (hrun.syncsRun_lost hno)
  have htargets : syncCfg.syncType = "bidirectional" →
      ∃ t, syncCfg.targets.head? = some t ∧ t ∈ e.backends := by
    intro hb
    rcases hfirst : syncCfg.targets.head? with _ | t
    · -- without a target the run panics
      obtain ⟨r, w', hrun⟩ := h.returns
      cases hrun with
      | noSource hno => exact absurd hsource hno
      | unlisted _ hfault => exact absurd (hlist.symm.trans hfault) (by simp)
      | unidirectional _ _ htype => exact absurd (htype.symm.trans hb) (by decide)
      | noTarget _ _ _ hfirst' | bidirectional _ _ _ hfirst' =>
        rw [hfirst] at hfirst'
        cases hfirst'
      | otherType _ _ htype => exact absurd hb htype.2
    · refine ⟨t, rfl, ?_⟩
      by_contra hno
      exact h.adds (.noTarget hsource hlist hb hfirst hno) rfl
  refine ⟨htargets, ?_⟩
  rintro (huni | hbi)
  · by_contra hno
    exact h.fails (.unlisted (.unidirectional hsource hlist huni hno))
      (.unidirectional hsource hlist huni (.unlisted hno))
  · by_contra hno
    obtain ⟨t, hfirst, htarget⟩ := htargets hbi
    exact h.fails (.unlisted (.bidirectional hsource hlist hbi hfirst htarget hno))
      (.bidirectional hsource hlist hbi hfirst htarget (.unlisted hno))

/-- Where a run can be recorded and its first listing works, the run can be made. -/
theorem Recordable.not_refused (h : Recordable e syncCfg a) (hlist : a.listing.Works) :
    ¬Refused e syncCfg a := by
  obtain ⟨htargets, hrelist⟩ := h.listed hlist
  intro href
  cases href with
  | noSource hno => exact hno h.source
  | noTarget htype hfirst hno =>
    obtain ⟨t, ht, htarget⟩ := htargets htype
    obtain rfl := Option.some.inj (hfirst.symm.trans ht)
    exact hno htarget
  | unlisted hfails =>
    cases hfails with
    | listing _ hno => exact hno hlist
    | unidirectional _ _ htype hno => exact hno (hrelist (.inl htype))
    | bidirectional _ _ htype _ _ hno => exact hno (hrelist (.inr htype))

theorem Recordable.returns (h : Recordable e syncCfg a) (env : String × String → Env) (w : World) :
    ∃ r w', ExecuteSync e syncCfg a env w r w' := by
  rcases hfault : a.listing.fault with _ | err
  swap
  · exact ⟨_, _, .unlisted h.source hfault⟩
  obtain ⟨htargets, hrelist⟩ := h.listed hfault
  by_cases huni : syncCfg.syncType = "unidirectional"
  · exact (Goroutines.unidirectional h.source hfault (hrelist (.inl huni)) huni).exists_executeSync w
  by_cases hbi : syncCfg.syncType = "bidirectional"
  · obtain ⟨t, hfirst, htarget⟩ := htargets hbi
    exact (Goroutines.bidirectional h.source hfault (hrelist (.inr hbi)) hbi hfirst
      htarget).exists_executeSync w
  · exact ⟨_, _, .otherType h.source hfault ⟨huni, hbi⟩⟩

theorem Recordable.audited (h : Recordable e syncCfg a) (env : String × String → Env) (w : World) :
    RunAudited e syncCfg a env w := by
  refine ⟨h.returns env w, fun r w' hrun => ?_⟩
  -- a row with the counts of a run, where the run can be made
  have hcounted (hlist : a.listing.Works) (result : SyncResult) (u : World)
      (hu : u.syncsRun = w.syncsRun) : ∃ run : SyncRun,
      (recordSyncRun a syncCfg.id (runStatus result) result "" u).syncsRun = w.syncsRun ++ [run] ∧
      run.syncID = syncCfg.id ∧ (Refused e syncCfg a →
        r.isOk = false ∧ run.status = "failed" ∧ run.errorMessage ≠ "") := by
    obtain ⟨run, hrow, hid, -⟩ := recordSyncRun_syncsRun h.record syncCfg.id (runStatus result) result
      "" u
    exact ⟨run, by rw [hrow, hu], hid, fun href => absurd href (h.not_refused hlist)⟩
  cases hrun with
  | noSource hno => exact absurd h.source hno
  | @unlisted err _ hfault =>
    obtain ⟨run, hrow, hid, hstatus, hmessage⟩ := recordSyncRun_syncsRun h.record syncCfg.id "failed"
      ⟨0, 0⟩ ("failed to list secrets from source: " ++ err.text) w
    refine ⟨run, hrow, hid, fun _ => ⟨rfl, hstatus, ?_⟩⟩
    rw [hmessage]
    simp
  | noTarget _ hlist htype hfirst hno => exact absurd (.noTarget htype hfirst hno) (h.not_refused hlist)
  | otherType _ hlist _ => exact hcounted hlist _ w rfl
  | unidirectional hsource hlist htype hpool =>
    cases hpool with
    | unlisted => exact hcounted hlist _ w rfl
    | returned hrelist hs _ =>
      exact hcounted hlist _ _ ((Goroutines.unidirectional hsource hlist hrelist htype).syncsRun_eq hs)
  | bidirectional hsource hlist htype hfirst htarget hpool =>
    cases hpool with
    | unlisted => exact hcounted hlist _ w rfl
    | returned hrelist hs _ =>
      exact hcounted hlist _ _
        ((Goroutines.bidirectional hsource hlist hrelist htype hfirst htarget).syncsRun_eq hs)

/-- Exactly then the record of the run is complete. -/
theorem audited_iff (e : Engine) (syncCfg : SyncConfig) (a : RunAnswers) (env : String × String → Env)
    (w : World) : RunAudited e syncCfg a env w ↔ Recordable e syncCfg a :=
  ⟨RunAudited.recordable, fun h => h.audited env w⟩

/-- A source without a backend: the run returns an error and adds no row. -/
theorem missing_source_unaudited :
    ¬RunAudited ⟨["b"]⟩ pairSync {} (fun _ => noFaults) (pairWorld none none) := by
  intro h
  obtain ⟨run, hrow, -⟩ := h.row _ _ (.noSource (by decide))
  simp [pairWorld] at hrow

end Audited

end VaultsSyncer
