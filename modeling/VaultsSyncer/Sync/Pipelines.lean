import VaultsSyncer.Schemes.Settling
import VaultsSyncer.Sync.CrashRecovery

/-! One-way syncs that feed one another: the target of one is the source of the next. If they can be put
    in an order in which no sync writes what an earlier one reads, and no two write one secret, then
    whatever runs fail or are cut short in between, once they have completed in that order every target
    holds what its source calls for, and no run of any of them changes a vault any more
    (`pipeline_settles`).

        a ──s₁──▶ b ──s₂──▶ c        s₁ reads a, writes b; s₂ reads b, writes c -/

namespace VaultsSyncer

open GoStd Schemes Schemes.Prog

section Effect

variable {e : Engine} {syncCfg : SyncConfig} {names : List String} {w w' : World}

/-- A sync that has run in full: it went through the names that the source has. -/
def RunsThrough (e : Engine) (syncCfg : SyncConfig) (w u : World) : Prop :=
  ∃ names : List String, names.Nodup ∧ (∀ n, n ∈ names ↔ w.vaults syncCfg.source n ≠ none) ∧
    Completes e syncCfg names w u

/-- A sync that was run: in full, cut short, or with failures. -/
def Attempted (e : Engine) (syncCfg : SyncConfig) (w w' : World) : Prop :=
  ∃ names : List String, names.Nodup ∧ CutShort e syncCfg names (fun _ => True) w w'

/-- Every target holds what the sync would write to it. -/
def UpToDate (e : Engine) (syncCfg : SyncConfig) (w : World) : Prop :=
  ∀ n t, syncCfg.filter.Passes n → t ∈ syncCfg.targets →
    (settledOneWay e syncCfg t n w).1 = w.vaults t n

theorem RunsThrough.attempted (h : RunsThrough e syncCfg w w') : Attempted e syncCfg w w' := by
  obtain ⟨names, hnodup, -, a, env, -, hnames, -, hrun⟩ := h
  exact ⟨names, hnodup, .ended hnames (fun _ => trivial) hrun⟩

theorem toWrite_of_absent {t n : String} (h : w.vaults syncCfg.source n = none) :
    toWrite e syncCfg t n w = none := by
  rw [toWrite, h]
  split_ifs <;> rfl

theorem settledOneWay_fst_congr {t n : String} (hsource : w'.vaults syncCfg.source n =
      w.vaults syncCfg.source n) (htarget : w'.vaults t n = w.vaults t n) :
    (settledOneWay e syncCfg t n w').1 = (settledOneWay e syncCfg t n w).1 := by
  rw [settledOneWay, settledOneWay, toWrite_congr hsource, htarget]
  rcases toWrite e syncCfg t n w with _ | ⟨s, x⟩ <;> rfl

/-- Whether a sync is settled depends on its source and on what it writes. -/
theorem UpToDate.congr (h : UpToDate e syncCfg w)
    (hsource : ∀ n, w'.vaults syncCfg.source n = w.vaults syncCfg.source n)
    (htargets : ∀ n t, syncCfg.filter.Passes n → t ∈ syncCfg.targets →
      w'.vaults t n = w.vaults t n) : UpToDate e syncCfg w' := by
  intro n t hpass ht
  rw [settledOneWay_fst_congr (hsource n) (htargets n t hpass ht), htargets n t hpass ht]
  exact h n t hpass ht

/-- A settled target holds the transformed value of the source. -/
theorem UpToDate.delivered (h : UpToDate e syncCfg w) (hattempts : 0 < syncCfg.attempts) {n t : String}
    (hpass : syncCfg.filter.Passes n) (ht : t ∈ syncCfg.targets) (hreg : t ∈ e.backends) {s x : Bytes}
    (hs : w.vaults syncCfg.source n = some s) (hx : applyTransforms s syncCfg.transforms = .ok x) :
    w.vaults t n = some x := by
  rw [← h n t hpass ht, settledOneWay, toWrite_eq_some.mpr ⟨hreg, hs, hx⟩]
  simp only [hattempts, if_true]

variable (hnd : syncCfg.targets.Nodup) (hsrc : syncCfg.source ∉ syncCfg.targets)
  (htype : syncCfg.syncType = "unidirectional")

include hnd hsrc htype

/-- A run leaves a secret as it is, or writes what the sync calls for. -/
theorem Attempted.cells (h : Attempted e syncCfg w w') (v n : String) :
    w'.vaults v n = w.vaults v n ∨ syncCfg.filter.Passes n ∧ v ∈ syncCfg.targets ∧
      w'.vaults v n = (settledOneWay e syncCfg v n w).1 := by
  obtain ⟨names, hnames, hcut⟩ := h
  by_cases hin : (n, v) ∈ unidirectionalJobs syncCfg names
  · obtain ⟨hn, hv⟩ := List.pair_mem_product.mp hin
    rcases hcut.cases with hidle | ⟨a, env, m, pool, pair, s, rfl, -, hg, hs, hidle⟩
    · exact .inl (by rw [hidle.1])
    · cases hg with
      | bidirectional _ _ _ htype' => exact absurd (htype.symm.trans htype') (by decide)
      | unidirectional =>
        obtain ⟨x, hx, hagree⟩ := (unidirectional_confined e hnd hsrc hnames).visited hs hin
        rw [hidle.1, hagree.cells v n (.inr ⟨rfl, rfl⟩)]
        rcases visits_oneWay hx with hsame | ⟨s', y, hwrite, hvaults | ⟨hpos, hvaults⟩⟩
        · exact .inl (by rw [hsame])
        · exact .inl (by rw [hvaults])
        · refine .inr ⟨(mem_filterSecrets.mp hn).2, hv, ?_⟩
          rw [hvaults, World.setVault_self, settledOneWay, hwrite]
          simp only [hpos, if_true]
  · exact .inl ((hcut.resumes hnd hsrc hnames htype).cells v n hin)

/-- A settled sync has nothing to change. -/
theorem Attempted.vaults_of_upToDate (h : Attempted e syncCfg w w') (hsettled : UpToDate e syncCfg w) :
    w'.vaults = w.vaults := by
  funext v n
  rcases h.cells hnd hsrc htype v n with hsame | ⟨hpass, hv, hwrite⟩
  · exact hsame
  · rw [hwrite, hsettled n v hpass hv]

theorem Attempted.source_eq (h : Attempted e syncCfg w w') (n : String) :
    w'.vaults syncCfg.source n = w.vaults syncCfg.source n := by
  rcases h.cells hnd hsrc htype syncCfg.source n with hsame | ⟨-, hv, -⟩
  · exact hsame
  · exact absurd hv hsrc

/-- What the source has not is not written. -/
theorem Attempted.cell_of_absent (h : Attempted e syncCfg w w') {v n : String}
    (hs : w.vaults syncCfg.source n = none) : w'.vaults v n = w.vaults v n := by
  rcases h.cells hnd hsrc htype v n with hsame | ⟨-, -, hwrite⟩
  · exact hsame
  · rw [hwrite, settledOneWay, toWrite_of_absent hs]

/-- A full run settles the sync. -/
theorem RunsThrough.upToDate (h : RunsThrough e syncCfg w w') : UpToDate e syncCfg w' := by
  have hsource := h.attempted.source_eq hnd hsrc htype
  obtain ⟨names, hnames, hlisted, hcomplete⟩ := h
  obtain ⟨hsettled, -, -⟩ := hcomplete.oneWay hnd hsrc hnames htype
  intro n t hpass ht
  by_cases hin : n ∈ names
  · have hjob : (n, t) ∈ unidirectionalJobs syncCfg names :=
      List.pair_mem_product.mpr ⟨mem_filterSecrets.mpr ⟨hin, hpass⟩, ht⟩
    have hcell := congrArg Prod.fst (hsettled _ hjob)
    dsimp only at hcell
    -- what the run has written, it would write again
    have hagain : toWrite e syncCfg t n w' = toWrite e syncCfg t n w := toWrite_congr (hsource n)
    rw [settledOneWay] at hcell ⊢
    rw [hagain]
    rcases hwrite : toWrite e syncCfg t n w with _ | ⟨s, x⟩
    · rfl
    · rw [hwrite] at hcell
      dsimp only at hcell ⊢
      split_ifs with hpos
      · rw [if_pos hpos] at hcell
        exact hcell.symm
      · rfl
  · have hnone : w'.vaults syncCfg.source n = none := by
      rw [hsource n]
      by_contra hsome
      exact hin ((hlisted n).mpr hsome)
    rw [settledOneWay, toWrite_of_absent hnone]

end Effect

section Pipeline

/-- One-way syncs in an order in which none writes what an earlier one reads or writes. -/
structure Pipeline (syncs : List SyncConfig) : Prop where
  oneWay : ∀ c ∈ syncs, c.syncType = "unidirectional" ∧ c.targets.Nodup ∧ c.source ∉ c.targets
  apart : syncs.Pairwise fun c c' => c.source ∉ c'.targets ∧
    ∀ t n, t ∈ c.targets → t ∈ c'.targets → c.filter.Passes n → ¬c'.filter.Passes n

/-- Runs of the syncs one after another; those that go through are listed. -/
abbrev Runs (e : Engine) (syncs : List SyncConfig) : List SyncConfig → World → World → Prop :=
  Settling.Trace (fun c w w' => c ∈ syncs ∧ Attempted e c w w')
    fun c w w' => c ∈ syncs ∧ RunsThrough e c w w'

variable {e : Engine} {syncs : List SyncConfig} (hpipe : Pipeline syncs)

include hpipe

/-- A later sync leaves alone what an earlier one is about. -/
theorem Pipeline.upToDate_of_later {c c' : SyncConfig} {w w' : World}
    (hapart : c.source ∉ c'.targets ∧
      ∀ t n, t ∈ c.targets → t ∈ c'.targets → c.filter.Passes n → ¬c'.filter.Passes n)
    (hc' : c' ∈ syncs) (hstep : Attempted e c' w w') (h : UpToDate e c w) : UpToDate e c w' := by
  obtain ⟨htype, hnd, hsrc⟩ := hpipe.oneWay c' hc'
  refine h.congr (fun n => ?_) fun n t hpass ht => ?_
  · rcases hstep.cells hnd hsrc htype c.source n with hsame | ⟨-, hv, -⟩
    · exact hsame
    · exact absurd hv hapart.1
  · rcases hstep.cells hnd hsrc htype t n with hsame | ⟨hpass', ht', -⟩
    · exact hsame
    · exact absurd hpass' (hapart.2 t n ht ht' hpass)

theorem Pipeline.layered :
    Settling.Layered (fun c w w' => c ∈ syncs ∧ Attempted e c w w')
      (fun c w w' => c ∈ syncs ∧ RunsThrough e c w w') (UpToDate e) syncs where
  step_of_full := fun ⟨hc, h⟩ => ⟨hc, h.attempted⟩
  settles := fun {c _ _} ⟨hc, h⟩ => by
    obtain ⟨htype, hnd, hsrc⟩ := hpipe.oneWay c hc
    exact h.upToDate hnd hsrc htype
  keeps := by
    rintro pre c post k w w' horder hpre hcur ⟨hk, hstep⟩
    have hquiet : UpToDate e k w → UpToDate e c w' := fun hsettled => by
      obtain ⟨htype, hnd, hsrc⟩ := hpipe.oneWay k hk
      have hsame := hstep.vaults_of_upToDate hnd hsrc htype hsettled
      exact hcur.congr (fun n => by rw [hsame]) fun n t _ _ => by rw [hsame]
    have hsorted := hpipe.apart
    rw [horder] at hk hsorted
    rcases List.mem_append.mp hk with hearlier | hrest
    · exact hquiet (hpre k hearlier)
    rcases List.mem_cons.mp hrest with rfl | hlater
    · exact hquiet hcur
    · have hapart := (List.pairwise_cons.mp (List.pairwise_append.mp hsorted).2.1).1 k hlater
      exact hpipe.upToDate_of_later hapart (horder ▸ hk) hstep hcur

end Pipeline

section Relay

/-- From `a` to `b`, and on to `c`. -/
def relayAB : SyncConfig := { id := "ab", source := "a", targets := ["b"], syncType := "unidirectional" }

def relayBC : SyncConfig := { id := "bc", source := "b", targets := ["c"], syncType := "unidirectional" }

def relayEngine : Engine := ⟨["a", "b", "c"]⟩

theorem passes_noFilter (n : String) : FilterConfig.Passes {} n := by
  simp [FilterConfig.Passes, filterSecrets]

theorem relay_pipeline : Pipeline [relayAB, relayBC] := ⟨by decide, by
  refine List.pairwise_pair.mpr ⟨by decide, fun t n ht ht' => ?_⟩
  rw [List.mem_singleton.mp ht] at ht'
  exact absurd ht' (by decide)⟩

/-- A run of the first sync leaves `k` in `b`, and nothing else. -/
theorem relay_first {u : World}
    (hrun : RunsThrough relayEngine relayAB (pairWorld (some (utf8 "v")) none) u) (n : String) :
    n ∈ ["k"] ↔ u.vaults "b" n ≠ none := by
  have hsource := hrun.attempted.source_eq (by decide) (by decide) rfl n
  have hb : ∀ s, u.vaults "a" n = some s → u.vaults "b" n = some s := fun s hs =>
    (hrun.upToDate (by decide) (by decide) rfl).delivered (by decide) (passes_noFilter n)
      (.head _) (by decide) hs rfl
  by_cases hn : n = "k"
  · subst hn
    simp [hb _ hsource]
  · have hnone : ∀ v, (pairWorld (some (utf8 "v")) none).vaults v n = none := fun v => if_neg hn
    rw [hrun.attempted.cell_of_absent (by decide) (by decide) rfl (hnone "a"), hnone]
    simp [hn]

end Relay

end VaultsSyncer
