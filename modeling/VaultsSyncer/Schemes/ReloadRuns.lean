import VaultsSyncer.Schemes.Reload

/-! What a hot reload guarantees over whole schedules. The configuration and the server that are shown
    belong together outside the two steps that set them (`each_matched_iff`); a server that was
    replaced has jobs left just as far as it had some when it was replaced (`always_noOldJob_iff`);
    and the last reload loads what the store holds in the end (`after_all_finished`). -/

namespace Schemes.Reload

open Prog

variable {Op : Type} {Ans : Op → Type} {ε σ C κ ι : Type} [DecidableEq ι] [DecidableEq κ]
  {S : Setup Op Ans ε σ C κ ι} {s : State Op Ans ε σ C κ ι}

/-! ### Pairs that are read -/

omit [DecidableEq ι] [DecidableEq κ] in
/-- The configuration and the server that are shown belong together, except between the two steps that
    set them. -/
theorem Inv.matched_iff (hs : Inv S s) :
    s.handlerRunner = s.handlerConfig ↔ ∀ i, s.phase i ≠ .configSet := by
  constructor
  · intro hmatch i hp
    have hst := hs.stands_at hp
    exact hst.2.2.1 (hmatch.trans hst.2.1)
  · intro hnone
    by_cases hidle : ∀ i, (s.phase i).replacing = false
    · obtain ⟨hconfig, hrunner, -⟩ := hs.settled hidle
      exact hrunner.trans hconfig.symm
    · obtain ⟨i, hi⟩ := not_forall.mp hidle
      have hst := hs.stands i
      cases hp : s.phase i with
      | writing _ _ | refused | spawned _ | loading _ _ | finished | aborted =>
        exact absurd (by rw [hp]; rfl) hi
      | started | stopped =>
        rw [hp] at hst
        exact hst.2.2.1.trans hst.2.1.symm
      | swapped =>
        rw [hp] at hst
        exact hst.2.1.symm
      | configSet => exact absurd hp (hnone i)
      | runnerSet =>
        rw [hp] at hst
        exact hst.2.2.1.trans hst.2.1.symm

/-- Every pair that a request reads belongs together, exactly if no request reads between the two steps
    of a reload. -/
theorem each_matched_iff (s₀ : σ) (as : List (Action ι κ)) :
    Runs.Each (next S) (fun s a => a = .getState → s.getState.1 = s.getState.2) (init S s₀) as ↔
      Runs.Each (next S) (fun s a => a = .getState → ∀ i, s.phase i ≠ .configSet) (init S s₀) as :=
  (always_inv s₀ as).each_congr fun _ _ hs => imp_congr_right fun _ => hs.matched_iff

/-! ### Jobs of a server that was replaced -/

/-- No job of a server that was replaced is in progress. -/
def State.NoOldJob (s : State Op Ans ε σ C κ ι) : Prop := ∀ r ∈ s.replaced, ∀ k, (r, k) ∉ s.jobs

/-- The server that is about to be replaced has no job in progress. -/
def State.Drained (s : State Op Ans ε σ C κ ι) (a : Action ι κ) : Prop :=
  ∀ i, a = .swap i → s.phase i = .stopped → ∀ k, (s.runner, k) ∉ s.jobs

theorem noOldJob_next_iff (hs : Inv S s) (a : Action ι κ) (h : s.NoOldJob) :
    (next S s a).NoOldJob ↔ s.Drained a := by
  by_cases hswap : ∃ i, a = .swap i ∧ s.phase i = .stopped
  · obtain ⟨i, rfl, hp⟩ := hswap
    simp only [next, step, hp, Option.getD_some, State.NoOldJob, State.Drained, List.mem_cons,
      forall_eq_or_imp]
    constructor
    · rintro ⟨hold, -⟩ j - -
      exact hold
    · intro hold
      exact ⟨hold i rfl hp, h⟩
  · refine iff_of_true ?_ fun i ha hp => absurd ⟨i, ha, hp⟩ hswap
    rcases hstep : step S s a with _ | s'
    · simpa [next, hstep] using h
    have hnext : next S s a = s' := by simp [next, hstep]
    rw [hnext]
    cases step_cases S hstep with
    | swap i hp => exact absurd ⟨i, rfl, hp⟩ hswap
    | fire r k c hc hr hk =>
      intro r' hr' k' hmem
      rcases List.mem_cons.mp hmem with heq | hmem
      · cases heq
        rw [(hs.retired r hr').1] at hr
        cases hr
      · exact h r' hr' k' hmem
    | finish r k hj => exact fun r' hr' k' hmem => h r' hr' k' (List.mem_of_mem_erase hmem)
    | write | answer | lock | load | start | abort | stop | setConfig | setRunner | unlock
    | getState => exact h

/-- A server that was replaced never has a job in progress, exactly if each has none when it is
    replaced. -/
theorem always_noOldJob_iff (s₀ : σ) (as : List (Action ι κ)) :
    Runs.Always (next S) State.NoOldJob (init S s₀) as ↔
      Runs.Each (next S) State.Drained (init S s₀) as := by
  have hstep : ∀ (s : State Op Ans ε σ C κ ι) (a : Action ι κ), Inv S s → True → s.NoOldJob →
      Inv S (next S s a) ∧ ((next S s a).NoOldJob ↔ s.Drained a) := fun s a hs _ h =>
    ⟨inv_next s a hs, noOldJob_next_iff hs a h⟩
  exact Runs.always_iff_each hstep (inv_init S s₀) (fun r hr => by cases hr)
    (Runs.each_of_forall _ fun _ _ _ => trivial)

/-! ### What the last reload loads -/

omit [DecidableEq ι] [DecidableEq κ] in
/-- While a server was started for the current cycle, some server runs. -/
theorem Inv.someone_runs (hs : Inv S s) (hup : s.runner = none → S.up = true) :
    ∃ r, s.running r = true := by
  by_cases hidle : ∀ i, (s.phase i).replacing = false
  · exact ⟨s.runner, ((hs.settled hidle).2.2 s.runner).mpr ⟨rfl, hup⟩⟩
  · obtain ⟨i, hi⟩ := not_forall.mp hidle
    have hst := hs.stands i
    cases hp : s.phase i with
    | writing _ _ | refused | spawned _ | loading _ _ | finished | aborted =>
      exact absurd (by rw [hp]; rfl) hi
    | started =>
      rw [hp] at hst
      exact ⟨some i, (hst.2.2.2 _).mpr (.inl rfl)⟩
    | stopped | swapped | configSet | runnerSet =>
      rw [hp] at hst
      exact ⟨some i, (hst.2.2.2 _).mpr rfl⟩

/-- The configuration of the cycle `r` is what a load returns now. -/
def Recent (S : Setup Op Ans ε σ C κ ι) (s : State Op Ans ε σ C κ ι) (r : Cycle ι) : Prop :=
  ∃ c e, s.config r = some c ∧ (S.load.run S.handler (e, s.shared)).1 = some c

/-- Every reload but `i` has finished. -/
def State.LastLeft (s : State Op Ans ε σ C κ ι) (i : ι) : Prop := ∀ j, j ≠ i → s.phase j = .finished

/-- The reload that is left when all others have finished loads what the store holds from then on:
    nobody writes any more. -/
structure Fresh (R : Op → Prop) (s : State Op Ans ε σ C κ ι) : Prop where
  reads : ∀ i p e, s.phase i = .loading p e → p.AllCalls R
  loads : ∀ i p e, s.phase i = .loading p e → s.LastLeft i →
    ∃ e₀, (p.run S.handler (e, s.shared)).1 = (S.load.run S.handler (e₀, s.shared)).1
  replaces : ∀ i, (s.phase i).replacing = true → s.LastLeft i → Recent S s (some i)
  finishes : (∀ i, s.phase i = .finished) → Recent S s s.runner
  shown : ∀ i, s.phase i = .finished → s.runner ≠ none

variable {R : Op → Prop}

omit [DecidableEq κ] in
/-- A step that takes reload `i` to `x`, short of its end: only `i` can still be the last one left. -/
theorem Fresh.move (hf : Fresh (S := S) R s) {i : ι} {x : Phase Op Ans ε C}
    {s' : State Op Ans ε σ C κ ι} (hphase : s'.phase = (s.move i x).phase) (hx : x ≠ .finished)
    (hrunner : s'.runner ≠ none ∨ s'.runner = s.runner)
    (hreads : ∀ p e, x = .loading p e → p.AllCalls R)
    (hloads : ∀ p e, x = .loading p e → s.LastLeft i →
      ∃ e₀, (p.run S.handler (e, s'.shared)).1 = (S.load.run S.handler (e₀, s'.shared)).1)
    (hreplaces : x.replacing = true → s.LastLeft i → Recent S s' (some i)) :
    Fresh (S := S) R s' := by
  have hi : s'.phase i = x := by rw [hphase, State.move_self]
  have hne : ∀ j, j ≠ i → s'.phase j = s.phase j := fun j hj => by rw [hphase, State.move_of_ne hj]
  have hleft : ∀ j, s'.LastLeft j → j = i := by
    intro j hj
    by_contra hji
    exact hx (hi ▸ hj i (Ne.symm hji))
  have hsame : s'.LastLeft i → s.LastLeft i := fun h j hj => hne j hj ▸ h j hj
  refine ⟨?_, ?_, ?_, fun h => absurd (hi ▸ h i) hx, ?_⟩
  · intro j p e hp
    rcases eq_or_ne j i with rfl | hj
    · exact hreads p e (hi ▸ hp)
    · exact hf.reads j p e (hne j hj ▸ hp)
  · intro j p e hp hlast
    obtain rfl := hleft j hlast
    exact hloads p e (hi ▸ hp) (hsame hlast)
  · intro j hp hlast
    obtain rfl := hleft j hlast
    exact hreplaces (hi ▸ hp) (hsame hlast)
  · intro j hj
    have hji : j ≠ i := fun h => hx (by rw [← hi, ← h, hj])
    rcases hrunner with h | h
    · exact h
    · rw [h]
      exact hf.shown j (hne j hji ▸ hj)

theorem Fresh.step (hR : ∀ op e x, R op → (S.handler op (e, x)).2.2 = x) (hload : S.load.AllCalls R)
    (hs : Inv S s) (hf : Fresh (S := S) R s) {a : Action ι κ} {s' : State Op Ans ε σ C κ ι}
    (h : Step S s a s') : Fresh (S := S) R s' := by
  cases h with
  | write i op k e hp =>
    exact hf.move rfl (by simp) (.inr rfl) (by simp) (by simp) (by simp [Phase.replacing])
  | answer i ok e hp =>
    cases ok
    · exact hf.move (x := .refused) rfl (by simp) (.inr rfl) (by simp) (by simp)
        (by simp [Phase.replacing])
    · exact hf.move (x := .spawned e) rfl (by simp) (.inr rfl) (by simp) (by simp)
        (by simp [Phase.replacing])
  | lock i e hp hl =>
    refine hf.move rfl (by simp) (.inr rfl) ?_ ?_ (by simp [Phase.replacing])
    · rintro p e' ⟨⟩
      exact hload
    · rintro p e' ⟨⟩ -
      exact ⟨e, rfl⟩
  | load i op k e hp =>
    have hcalls := hf.reads i _ e hp
    have hsame := hR op e s.shared hcalls.1
    refine hf.move rfl (by simp) (.inr rfl) ?_ ?_ (by simp [Phase.replacing])
    · rintro p e' ⟨⟩
      exact hcalls.2 _
    · rintro p e' ⟨⟩ hlast
      obtain ⟨e₀, he₀⟩ := hf.loads i _ e hp hlast
      have hafter : ((S.handler op (e, s.shared)).2.1, (S.handler op (e, s.shared)).2.2) =
          (S.handler op (e, s.shared)).2 := rfl
      refine ⟨e₀, ?_⟩
      rw [hsame] at hafter
      simp only [hsame]
      rw [hafter, ← he₀, run_call]
  | start i c e hp hc =>
    refine hf.move rfl (by simp) (.inr rfl) (by simp) (by simp) fun _ hlast => ?_
    obtain ⟨e₀, he₀⟩ := hf.loads i _ e hp hlast
    exact ⟨c, e₀, by simp, he₀.symm⟩
  | abort i r e hp hc =>
    exact hf.move rfl (by simp) (.inr rfl) (by simp) (by simp) (by simp [Phase.replacing])
  | stop i hp =>
    exact hf.move rfl (by simp) (.inr rfl) (by simp) (by simp) fun _ =>
      hf.replaces i (by rw [hp]; rfl)
  | swap i hp =>
    exact hf.move rfl (by simp) (.inl (by simp)) (by simp) (by simp) fun _ =>
      hf.replaces i (by rw [hp]; rfl)
  | setConfig i hp =>
    exact hf.move rfl (by simp) (.inr rfl) (by simp) (by simp) fun _ =>
      hf.replaces i (by rw [hp]; rfl)
  | setRunner i hp =>
    exact hf.move rfl (by simp) (.inr rfl) (by simp) (by simp) fun _ =>
      hf.replaces i (by rw [hp]; rfl)
  | unlock i hp =>
    have hst := hs.stands_at hp
    have hcrit : (s.phase i).critical = true := by rw [hp]; rfl
    -- nobody else is inside the lock
    have hout : ∀ j, ((s.move i .finished).phase j).critical = false := by
      intro j
      rcases eq_or_ne j i with rfl | hne
      · rw [State.move_self]; rfl
      · rw [State.move_of_ne hne]
        exact hs.alone hcrit hne
    refine ⟨?_, ?_, ?_, ?_, ?_⟩
    · intro j p e hj
      have := hout j
      rw [show (s.move i .finished).phase j = .loading p e from hj] at this
      cases this
    · intro j p e hj
      have := hout j
      rw [show (s.move i .finished).phase j = .loading p e from hj] at this
      cases this
    · intro j hj
      have := Phase.replacing_of_not_critical (hout j)
      rw [show ((s.move i .finished).phase j).replacing = true from hj] at this
      cases this
    · intro hall
      have hlast : s.LastLeft i := fun j hj => by
        have := hall j
        rwa [show (s.move i .finished).phase j = _ from State.move_of_ne hj _] at this
      have hrecent := hf.replaces i (by rw [hp]; rfl) hlast
      exact hst.1 ▸ hrecent
    · intro j _
      simp [State.move, hst.1]
  | getState => exact hf
  | fire r k c hc hr hk => exact { hf with }
  | finish r k h => exact { hf with }

omit [DecidableEq ι] [DecidableEq κ] in
theorem fresh_init {s₀ : σ} (hinit : ∃ e, (S.load.run S.handler (e, s₀)).1 = some S.initial) :
    Fresh (S := S) R (init S s₀) where
  reads := fun i p e hp => by cases hp
  loads := fun i p e hp => by cases hp
  replaces := fun i hp => by cases hp
  finishes := fun _ => by
    obtain ⟨e, he⟩ := hinit
    exact ⟨S.initial, e, rfl, he⟩
  shown := fun i hp => by cases hp

/-- The state after a schedule. -/
def after (S : Setup Op Ans ε σ C κ ι) (s₀ : σ) (as : List (Action ι κ)) : State Op Ans ε σ C κ ι :=
  as.foldl (next S) (init S s₀)

theorem inv_after (s₀ : σ) (as : List (Action ι κ)) : Inv S (after S s₀ as) :=
  (always_inv s₀ as).foldl

/-- A load that is made call by call ends as the load made at once. -/
theorem foldl_load {i : ι} {p : Prog Op Ans (Option C)} {e : ε} (h : s.phase i = .loading p e) :
    (List.replicate (p.calls S.handler (e, s.shared)).length (Action.load i)).foldl (next S) s =
      { s.move i (.loading (.ret (p.run S.handler (e, s.shared)).1)
          (p.run S.handler (e, s.shared)).2.1) with
        shared := (p.run S.handler (e, s.shared)).2.2 } := by
  induction p generalizing s e with
  | ret c =>
    have hmove : s.move i (.loading (.ret c) e) = s := by
      rw [← h, State.move, Function.update_eq_self]
    simp only [calls_ret, List.length_nil, List.replicate_zero, List.foldl_nil, run_ret, hmove]
  | call op k ih =>
    rcases hr : S.handler op (e, s.shared) with ⟨a, e', x⟩
    have hnext : next S s (.load i) = { s.move i (.loading (k a) e') with shared := x } := by
      simp only [next, step, h, hr, Option.getD_some]
    have hrest := ih a (s := { s.move i (.loading (k a) e') with shared := x }) (e := e')
      (State.move_self ..)
    rw [calls_call, run_call, hr, List.length_cons, List.replicate_succ, List.foldl_cons, hnext, hrest]
    simp only [State.move, Function.update_idem]

/-- A load that went through, whose server starts, is what is shown at the end of the reload. -/
theorem foldl_replace {i : ι} {c : C} {e : ε} (h : s.phase i = .loading (.ret (some c)) e)
    (hstarts : S.starts c = true) :
    let last := [Action.start i, .stop i, .swap i, .setConfig i, .setRunner i, .unlock i].foldl (next S) s
    last.phase i = .finished ∧ last.config last.handlerConfig = some c ∧ last.shared = s.shared := by
  simp [next, step, h, hstarts, State.move]

section After

variable (hR : ∀ op e x, R op → (S.handler op (e, x)).2.2 = x) (hload : S.load.AllCalls R) {s₀ : σ}
  (hinit : ∃ e, (S.load.run S.handler (e, s₀)).1 = some S.initial) (as : List (Action ι κ))

include hR hload hinit

theorem fresh_after : Fresh (S := S) R (after S s₀ as) := by
  have hboth : Runs.Always (next S) (fun s => Inv S s ∧ Fresh (S := S) R s) (init S s₀) as :=
    Runs.always_of_kept (next_invariant S fun _ _ _ hs h =>
      ⟨inv_step hs.1 h, hs.2.step hR hload hs.1 h⟩) ⟨inv_init S s₀, fresh_init hinit⟩
  exact hboth.foldl.2

/-- When every reload has finished, the configuration that is shown, and the one the current server was
    started with, is what the store holds, and no other server runs. -/
theorem after_all_finished (hall : ∀ i, (after S s₀ as).phase i = .finished) :
    (after S s₀ as).handlerConfig = (after S s₀ as).runner ∧
      (after S s₀ as).handlerRunner = (after S s₀ as).runner ∧
      Recent S (after S s₀ as) (after S s₀ as).runner ∧
      ∀ r, (after S s₀ as).running r = true ↔ (after S s₀ as).Current S r := by
  obtain ⟨hconfig, hrunner, hruns⟩ := (inv_after s₀ as).settled fun i => by rw [hall i]; rfl
  exact ⟨hconfig, hrunner, (fresh_after hR hload hinit as).finishes hall, hruns⟩

/-- From the end of the first reload on some server runs. -/
theorem after_some_finished {i : ι} (hi : (after S s₀ as).phase i = .finished) :
    ∃ r, (after S s₀ as).running r = true :=
  (inv_after s₀ as).someone_runs fun h =>
    absurd h ((fresh_after hR hload hinit as).shown i hi)

end After

end Schemes.Reload
