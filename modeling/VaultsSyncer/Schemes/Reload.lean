import Mathlib.Logic.Function.Basic
import VaultsSyncer.Schemes.Prog
import VaultsSyncer.Schemes.Runs

/-! Hot reload under a lock. Writers change a store, each by a program of its own; a write that
    succeeds spawns a reload. A reload takes the lock, loads a configuration from the store call by
    call, starts a new server with it, stops the old one, and then puts the new one in the place of
    the old, the configuration and the server in two steps, before it unlocks. Where nothing can be
    started it unlocks and changes nothing. Meanwhile servers that run start jobs, jobs end, and
    requests read the pair of configuration and server.

        writing ──▶ spawned ──lock──▶ loading ──start──▶ started ──stop──▶ stopped ──swap──▶ swapped
        ──setConfig──▶ configSet ──setRunner──▶ runnerSet ──unlock──▶ finished -/

namespace Schemes.Reload

open Prog

variable {Op : Type} {Ans : Op → Type} {ε σ C κ ι : Type}

/-- Where a configuration, and the server started with it, come from: one of the reloads, or the start
    of the process. -/
abbrev Cycle (ι : Type) := Option ι

/-- Where a writer and its reload are. -/
inductive Phase (Op : Type) (Ans : Op → Type) (ε C : Type) where
  | writing (p : Prog Op Ans Bool) (e : ε)
  | refused
  | spawned (e : ε)
  | loading (p : Prog Op Ans (Option C)) (e : ε)
  | started
  | stopped
  | swapped
  | configSet
  | runnerSet
  | finished
  | aborted

/-- Between the start of the new server and the unlock. -/
def Phase.replacing : Phase Op Ans ε C → Bool
  | .started | .stopped | .swapped | .configSet | .runnerSet => true
  | _ => false

/-- Between the lock and the unlock. -/
def Phase.critical : Phase Op Ans ε C → Bool
  | .loading _ _ => true
  | p => p.replacing

/-- Nothing of this reload has been started yet. -/
def Phase.early : Phase Op Ans ε C → Bool
  | .writing _ _ | .refused | .spawned _ | .loading _ _ | .aborted => true
  | _ => false

/-- At the end of a reload that went through. -/
def Phase.isFinished : Phase Op Ans ε C → Bool
  | .finished => true
  | _ => false

theorem Phase.isFinished_iff {p : Phase Op Ans ε C} : p.isFinished = true ↔ p = .finished := by
  cases p <;> simp [isFinished]

/-- The store programs, what can be started, what a server started with a configuration may run, the
    configuration at the start of the process and whether a server was started with it. -/
structure Setup (Op : Type) (Ans : Op → Type) (ε σ C κ ι : Type) where
  handler : Handler Op Ans (ε × σ)
  write : ι → Prog Op Ans Bool
  env : ι → ε
  load : Prog Op Ans (Option C)
  starts : C → Bool
  scheduled : C → κ → Bool
  initial : C
  up : Bool

structure State (Op : Type) (Ans : Op → Type) (ε σ C κ ι : Type) where
  phase : ι → Phase Op Ans ε C
  shared : σ
  lock : Option ι
  config : Cycle ι → Option C
  running : Cycle ι → Bool
  runner : Cycle ι
  replaced : List (Cycle ι)
  handlerConfig : Cycle ι
  handlerRunner : Cycle ι
  jobs : List (Cycle ι × κ)

inductive Action (ι κ : Type) where
  | write (i : ι)
  | answer (i : ι)
  | lock (i : ι)
  | load (i : ι)
  | start (i : ι)
  | stop (i : ι)
  | swap (i : ι)
  | setConfig (i : ι)
  | setRunner (i : ι)
  | unlock (i : ι)
  | getState
  | fire (r : Cycle ι) (k : κ)
  | finish (r : Cycle ι) (k : κ)

variable (S : Setup Op Ans ε σ C κ ι)

/-- The process has started on the store `s₀`, and no write has begun. -/
def init (s₀ : σ) : State Op Ans ε σ C κ ι where
  phase := fun i => .writing (S.write i) (S.env i)
  shared := s₀
  lock := none
  config := fun r => if r = none then some S.initial else none
  running := fun r => decide (r = none) && S.up
  runner := none
  replaced := []
  handlerConfig := none
  handlerRunner := none
  jobs := []

/-- The pair that a request reads. -/
def State.getState (s : State Op Ans ε σ C κ ι) : Cycle ι × Cycle ι :=
  (s.handlerRunner, s.handlerConfig)

/-! ### Who runs, and who is shown -/

/-- The server that is current, unless it is one that was never started. -/
def State.Current (s : State Op Ans ε σ C κ ι) (r : Cycle ι) : Prop :=
  r = s.runner ∧ (r = none → S.up = true)

/-- What reload `i` has done when it is at a phase of its replacing. -/
def Stands (s : State Op Ans ε σ C κ ι) (i : ι) : Phase Op Ans ε C → Prop
  | .started => s.runner ≠ some i ∧ s.handlerConfig = s.runner ∧ s.handlerRunner = s.runner ∧
      ∀ r, s.running r = true ↔ r = some i ∨ s.Current S r
  | .stopped => s.runner ≠ some i ∧ s.handlerConfig = s.runner ∧ s.handlerRunner = s.runner ∧
      ∀ r, s.running r = true ↔ r = some i
  | .swapped => s.runner = some i ∧ s.handlerConfig = s.handlerRunner ∧ s.handlerRunner ≠ some i ∧
      ∀ r, s.running r = true ↔ r = some i
  | .configSet => s.runner = some i ∧ s.handlerConfig = some i ∧ s.handlerRunner ≠ some i ∧
      ∀ r, s.running r = true ↔ r = some i
  | .runnerSet => s.runner = some i ∧ s.handlerConfig = some i ∧ s.handlerRunner = some i ∧
      ∀ r, s.running r = true ↔ r = some i
  | _ => True

/-- What holds in every state: the lock excludes, a reload that has started nothing is not shown
    anywhere, and between two reloads just the current server runs and is shown. -/
structure Inv (s : State Op Ans ε σ C κ ι) : Prop where
  lock_iff : ∀ i, s.lock = some i ↔ (s.phase i).critical = true
  unseen : ∀ i, (s.phase i).early = true → s.running (some i) = false ∧ some i ∉ s.replaced ∧
    s.runner ≠ some i ∧ s.handlerConfig ≠ some i ∧ s.handlerRunner ≠ some i
  stands : ∀ i, Stands S s i (s.phase i)
  settled : (∀ i, (s.phase i).replacing = false) → s.handlerConfig = s.runner ∧
    s.handlerRunner = s.runner ∧ ∀ r, s.running r = true ↔ s.Current S r
  retired : ∀ r ∈ s.replaced, s.running r = false ∧ r ≠ s.runner

theorem inv_init (s₀ : σ) : Inv S (init S s₀) where
  lock_iff := fun i => by simp [init, Phase.critical, Phase.replacing]
  unseen := fun i _ => by simp [init]
  stands := fun i => trivial
  settled := fun _ => by simp [init, State.Current]
  retired := fun r hr => by simp [init] at hr

theorem Phase.replacing_of_not_critical {p : Phase Op Ans ε C} (h : p.critical = false) :
    p.replacing = false := by
  cases p <;> simp_all [critical, replacing]

variable {S} {s : State Op Ans ε σ C κ ι}

theorem stands_of_not_replacing {p : Phase Op Ans ε C} (i : ι) (h : p.replacing = false) :
    Stands S s i p := by
  cases p with
  | started | stopped | swapped | configSet | runnerSet => cases h
  | writing _ _ | refused | spawned _ | loading _ _ | finished | aborted => trivial

/-- Where the phase of a reload is known, so is where it stands. -/
theorem Inv.stands_at (hs : Inv S s) {i : ι} {p : Phase Op Ans ε C} (hp : s.phase i = p) :
    Stands S s i p := hp ▸ hs.stands i

/-- While one reload has the lock, the others are outside it. -/
theorem Inv.alone (hs : Inv S s) {i j : ι} (hi : (s.phase i).critical = true) (hj : j ≠ i) :
    (s.phase j).critical = false := by
  by_contra hcrit
  rw [Bool.not_eq_false] at hcrit
  have hlock := (hs.lock_iff i).mpr hi
  rw [(hs.lock_iff j).mpr hcrit, Option.some.injEq] at hlock
  exact hj hlock

/-- Between its lock and its start, a reload finds the server that is current running and shown. -/
theorem Inv.settled_of_loading (hs : Inv S s) {i : ι} {p : Prog Op Ans (Option C)} {e : ε}
    (hp : s.phase i = .loading p e) : s.handlerConfig = s.runner ∧ s.handlerRunner = s.runner ∧
      ∀ r, s.running r = true ↔ s.Current S r := by
  refine hs.settled fun j => ?_
  rcases eq_or_ne j i with rfl | hne
  · rw [hp]; rfl
  · exact Phase.replacing_of_not_critical (hs.alone (by rw [hp]; rfl) hne)

/-! ### Moves -/

variable [DecidableEq ι]

/-- Reload `i` goes on to the phase `x`. -/
def State.move (s : State Op Ans ε σ C κ ι) (i : ι) (x : Phase Op Ans ε C) :
    State Op Ans ε σ C κ ι :=
  { s with phase := Function.update s.phase i x }

@[simp] theorem State.move_self (i : ι) (x : Phase Op Ans ε C) : (s.move i x).phase i = x := by
  simp [move]

theorem State.move_of_ne {i j : ι} (h : j ≠ i) (x : Phase Op Ans ε C) :
    (s.move i x).phase j = s.phase j := by simp [move, h]

theorem Phase.not_replacing_of_early {p : Phase Op Ans ε C} (h : p.early = true) :
    p.replacing = false := by
  cases p <;> simp_all [early, replacing]

/-- A step of reload `i` before it replaces anything: what is shown and what runs stays. -/
theorem Inv.before (hs : Inv S s) {i : ι} {x : Phase Op Ans ε C} (hfrom : (s.phase i).early = true)
    (hto : x.early = true) (shared : σ) {lock : Option ι}
    (hlock : ∀ j, lock = some j ↔ ((s.move i x).phase j).critical = true) :
    Inv S { s.move i x with shared := shared, lock := lock } where
  lock_iff := hlock
  unseen := by
    intro j hj
    rcases eq_or_ne j i with rfl | hne
    · exact hs.unseen j hfrom
    · exact hs.unseen j ((congrArg Phase.early (State.move_of_ne hne x)).symm.trans hj)
  stands := by
    intro j
    rcases eq_or_ne j i with rfl | hne
    · refine stands_of_not_replacing j ?_
      simpa using Phase.not_replacing_of_early hto
    · have hj := hs.stands j
      rwa [← State.move_of_ne hne x] at hj
  settled := by
    intro hall
    refine hs.settled fun j => ?_
    rcases eq_or_ne j i with rfl | hne
    · exact Phase.not_replacing_of_early hfrom
    · exact (congrArg Phase.replacing (State.move_of_ne hne x)).symm.trans (hall j)
  retired := hs.retired

/-- A step of the reload that has the lock, from its start on. -/
theorem Inv.replace (hs : Inv S s) {i : ι} {x : Phase Op Ans ε C} {s' : State Op Ans ε σ C κ ι}
    (hcrit : (s.phase i).critical = true) (hphase : s'.phase = (s.move i x).phase)
    (hlate : x.early = false) (hlock : s'.lock = if x.replacing then some i else none)
    (hunseen : ∀ j, j ≠ i → (s.phase j).early = true → s'.running (some j) = false ∧
      some j ∉ s'.replaced ∧ s'.runner ≠ some j ∧ s'.handlerConfig ≠ some j ∧
      s'.handlerRunner ≠ some j)
    (hstands : Stands S s' i x)
    (hsettled : x.replacing = false → s'.handlerConfig = s'.runner ∧
      s'.handlerRunner = s'.runner ∧ ∀ r, s'.running r = true ↔ s'.Current S r)
    (hretired : ∀ r ∈ s'.replaced, s'.running r = false ∧ r ≠ s'.runner) : Inv S s' where
  lock_iff := by
    intro j
    rw [hphase, hlock]
    rcases eq_or_ne j i with rfl | hne
    · rw [State.move_self]
      cases x <;> simp_all [Phase.early, Phase.critical, Phase.replacing]
    · have hout := hs.alone hcrit hne
      rw [State.move_of_ne hne, hout]
      split <;> simp [Ne.symm hne]
  unseen := by
    intro j hj
    rw [hphase] at hj
    rcases eq_or_ne j i with rfl | hne
    · rw [State.move_self, hlate] at hj
      cases hj
    · exact hunseen j hne (by rwa [State.move_of_ne hne] at hj)
  stands := by
    intro j
    rw [hphase]
    rcases eq_or_ne j i with rfl | hne
    · rwa [State.move_self]
    · rw [State.move_of_ne hne]
      exact stands_of_not_replacing j (Phase.replacing_of_not_critical (hs.alone hcrit hne))
  settled := by
    intro hall
    refine hsettled ?_
    have hi := hall i
    rwa [hphase, State.move_self] at hi
  retired := hretired

/-! ### Steps -/

variable [DecidableEq κ] (S)

/-- One step, `none` where it is not enabled. -/
def step (s : State Op Ans ε σ C κ ι) : Action ι κ → Option (State Op Ans ε σ C κ ι)
  | .write i =>
    match s.phase i with
    | .writing (.call op k) e =>
      let r := S.handler op (e, s.shared)
      some { s.move i (.writing (k r.1) r.2.1) with shared := r.2.2 }
    | _ => none
  | .answer i =>
    match s.phase i with
    | .writing (.ret ok) e => some (s.move i (if ok then .spawned e else .refused))
    | _ => none
  | .lock i =>
    match s.phase i with
    | .spawned e => 
      if s.lock = none then some { s.move i (.loading S.load e) with lock := some i } else none
    | _ => none
  | .load i =>
    match s.phase i with
    | .loading (.call op k) e =>
      let r := S.handler op (e, s.shared)
      some { s.move i (.loading (k r.1) r.2.1) with shared := r.2.2 }
    | _ => none
  | .start i =>
    match s.phase i with
    | .loading (.ret (some c)) _ =>
      if S.starts c then
        some { s.move i .started with config := Function.update s.config (some i) (some c)
                                      running := Function.update s.running (some i) true }
      else some { s.move i .aborted with lock := none }
    | .loading (.ret none) _ => some { s.move i .aborted with lock := none }
    | _ => none
  | .stop i =>
    match s.phase i with
    | .started =>
      some { s.move i .stopped with running := Function.update s.running s.runner false }
    | _ => none
  | .swap i =>
    match s.phase i with
    | .stopped =>
      some { s.move i .swapped with runner := some i, replaced := s.runner :: s.replaced }
    | _ => none
  | .setConfig i =>
    match s.phase i with
    | .swapped => some { s.move i .configSet with handlerConfig := some i }
    | _ => none
  | .setRunner i =>
    match s.phase i with
    | .configSet => some { s.move i .runnerSet with handlerRunner := some i }
    | _ => none
  | .unlock i =>
    match s.phase i with
    | .runnerSet => some { s.move i .finished with lock := none }
    | _ => none
  | .getState => some s
  | .fire r k =>
    match s.config r with
    | some c =>
      if s.running r && S.scheduled c k then some { s with jobs := (r, k) :: s.jobs } else none
    | none => none
  | .finish r k =>
    if (r, k) ∈ s.jobs then some { s with jobs := s.jobs.erase (r, k) } else none

/-- What a step does, case by case. -/
inductive Step (s : State Op Ans ε σ C κ ι) : Action ι κ → State Op Ans ε σ C κ ι → Prop
  | write (i : ι) (op : Op) (k : Ans op → Prog Op Ans Bool) (e : ε)
      (hp : s.phase i = .writing (.call op k) e) :
      Step s (.write i) { s.move i (.writing (k (S.handler op (e, s.shared)).1)
          (S.handler op (e, s.shared)).2.1) with shared := (S.handler op (e, s.shared)).2.2 }
  | answer (i : ι) (ok : Bool) (e : ε) (hp : s.phase i = .writing (.ret ok) e) :
      Step s (.answer i) (s.move i (if ok then .spawned e else .refused))
  | lock (i : ι) (e : ε) (hp : s.phase i = .spawned e) (hl : s.lock = none) :
      Step s (.lock i) { s.move i (.loading S.load e) with lock := some i }
  | load (i : ι) (op : Op) (k : Ans op → Prog Op Ans (Option C)) (e : ε)
      (hp : s.phase i = .loading (.call op k) e) :
      Step s (.load i) { s.move i (.loading (k (S.handler op (e, s.shared)).1)
          (S.handler op (e, s.shared)).2.1) with shared := (S.handler op (e, s.shared)).2.2 }
  | start (i : ι) (c : C) (e : ε) (hp : s.phase i = .loading (.ret (some c)) e)
      (hc : S.starts c = true) :
      Step s (.start i) { s.move i .started with
          config := Function.update s.config (some i) (some c)
          running := Function.update s.running (some i) true }
  | abort (i : ι) (r : Option C) (e : ε) (hp : s.phase i = .loading (.ret r) e)
      (hc : ∀ c, r = some c → S.starts c = false) :
      Step s (.start i) { s.move i .aborted with lock := none }
  | stop (i : ι) (hp : s.phase i = .started) :
      Step s (.stop i) { s.move i .stopped with running := Function.update s.running s.runner false }
  | swap (i : ι) (hp : s.phase i = .stopped) :
      Step s (.swap i) { s.move i .swapped with runner := some i, replaced := s.runner :: s.replaced }
  | setConfig (i : ι) (hp : s.phase i = .swapped) :
      Step s (.setConfig i) { s.move i .configSet with handlerConfig := some i }
  | setRunner (i : ι) (hp : s.phase i = .configSet) :
      Step s (.setRunner i) { s.move i .runnerSet with handlerRunner := some i }
  | unlock (i : ι) (hp : s.phase i = .runnerSet) :
      Step s (.unlock i) { s.move i .finished with lock := none }
  | getState : Step s .getState s
  | fire (r : Cycle ι) (k : κ) (c : C) (hc : s.config r = some c) (hr : s.running r = true)
      (hk : S.scheduled c k = true) : Step s (.fire r k) { s with jobs := (r, k) :: s.jobs }
  | finish (r : Cycle ι) (k : κ) (h : (r, k) ∈ s.jobs) :
      Step s (.finish r k) { s with jobs := s.jobs.erase (r, k) }

theorem step_cases {s s' : State Op Ans ε σ C κ ι} {a : Action ι κ} (h : step S s a = some s') :
    Step S s a s' := by
  cases a with
  | write i =>
    simp only [step] at h
    split at h
    · rename_i op k e hp; cases h; exact .write i op k e hp
    · cases h
  | answer i =>
    simp only [step] at h
    split at h
    · rename_i ok e hp; cases h; exact .answer i ok e hp
    · cases h
  | lock i =>
    simp only [step] at h
    split at h
    · rename_i e hp
      split at h
      · rename_i hl; cases h; exact .lock i e hp hl
      · cases h
    · cases h
  | load i =>
    simp only [step] at h
    split at h
    · rename_i op k e hp; cases h; exact .load i op k e hp
    · cases h
  | start i =>
    simp only [step] at h
    split at h
    · rename_i c e hp
      split at h
      · rename_i hc; cases h; exact .start i c e hp hc
      · rename_i hc
        cases h
        exact .abort i _ e hp fun c' hc' => by cases hc'; simpa using hc
    · rename_i e hp
      cases h
      exact .abort i _ e hp fun c' hc' => by cases hc'
    · cases h
  | stop i =>
    simp only [step] at h
    split at h
    · rename_i hp; cases h; exact .stop i hp
    · cases h
  | swap i =>
    simp only [step] at h
    split at h
    · rename_i hp; cases h; exact .swap i hp
    · cases h
  | setConfig i =>
    simp only [step] at h
    split at h
    · rename_i hp; cases h; exact .setConfig i hp
    · cases h
  | setRunner i =>
    simp only [step] at h
    split at h
    · rename_i hp; cases h; exact .setRunner i hp
    · cases h
  | unlock i =>
    simp only [step] at h
    split at h
    · rename_i hp; cases h; exact .unlock i hp
    · cases h
  | getState => cases h; exact .getState
  | fire r k =>
    simp only [step] at h
    split at h
    · rename_i c hc
      split at h
      · rename_i hr
        cases h
        rw [Bool.and_eq_true] at hr
        exact .fire r k c hc hr.1 hr.2
      · cases h
    · cases h
  | finish r k =>
    simp only [step] at h
    split at h
    · rename_i hj; cases h; exact .finish r k hj
    · cases h

/-- The state after an action of a schedule; an action that is not enabled changes nothing. -/
def next (s : State Op Ans ε σ C κ ι) (a : Action ι κ) : State Op Ans ε σ C κ ι :=
  (step S s a).getD s

/-- What every step keeps, the next state of a schedule keeps. -/
theorem next_invariant {I : State Op Ans ε σ C κ ι → Prop}
    (hI : ∀ s a s', I s → Step S s a s' → I s') (s : State Op Ans ε σ C κ ι) (a : Action ι κ)
    (hs : I s) : I (next S s a) := by
  rcases hstep : step S s a with _ | s'
  · simpa [next, hstep] using hs
  · simpa [next, hstep] using hI s a s' hs (step_cases S hstep)

/-! ### The invariant -/

variable {S}

theorem inv_step (hs : Inv S s) {a : Action ι κ} {s' : State Op Ans ε σ C κ ι}
    (h : Step S s a s') : Inv S s' := by
  -- a step that neither takes nor gives back the lock
  have hkeep : ∀ (i : ι) (x : Phase Op Ans ε C), x.critical = (s.phase i).critical →
      ∀ j, s.lock = some j ↔ ((s.move i x).phase j).critical = true := by
    intro i x hx j
    rcases eq_or_ne j i with rfl | hne
    · rw [State.move_self, hx, hs.lock_iff]
    · rw [State.move_of_ne hne, hs.lock_iff]
  cases h with
  | write i op k e hp =>
    exact hs.before (by rw [hp]; rfl) rfl _ (hkeep i _ (by rw [hp]; rfl))
  | answer i ok e hp =>
    cases ok
    · exact hs.before (by rw [hp]; rfl) rfl s.shared (hkeep i .refused (by rw [hp]; rfl))
    · exact hs.before (by rw [hp]; rfl) rfl s.shared (hkeep i (.spawned e) (by rw [hp]; rfl))
  | lock i e hp hl =>
    refine hs.before (by rw [hp]; rfl) rfl s.shared fun j => ?_
    have hfree : (s.phase j).critical = false := by
      by_contra hcrit
      rw [Bool.not_eq_false, ← hs.lock_iff, hl] at hcrit
      cases hcrit
    rcases eq_or_ne j i with rfl | hne
    · simp [Phase.critical]
    · simp [State.move_of_ne hne, hfree, Ne.symm hne]
  | load i op k e hp =>
    exact hs.before (by rw [hp]; rfl) rfl _ (hkeep i _ (by rw [hp]; rfl))
  | abort i r e hp hc =>
    refine hs.before (by rw [hp]; rfl) rfl s.shared fun j => ?_
    rcases eq_or_ne j i with rfl | hne
    · simp [Phase.critical, Phase.replacing]
    · simp [State.move_of_ne hne, hs.alone (i := i) (by rw [hp]; rfl) hne]
  | start i c e hp hc =>
    obtain ⟨hconfig, hrunner, hruns⟩ := hs.settled_of_loading hp
    obtain ⟨hoff, hnew, hcurrent, -⟩ := hs.unseen i (by rw [hp]; rfl)
    refine hs.replace (by rw [hp]; rfl) rfl rfl ((hs.lock_iff i).mpr (by rw [hp]; rfl)) ?_
      ⟨hcurrent, hconfig, hrunner, ?_⟩ (fun h => by cases h) ?_
    · intro j hne hj
      have hother : some j ≠ some i := fun h => hne (Option.some.inj h)
      simpa [State.move, hother] using hs.unseen j hj
    · intro r
      rcases eq_or_ne r (some i) with rfl | hr
      · simp
      · simpa [State.move, State.Current, hr] using hruns r
    · intro r hr
      have hne : r ≠ some i := fun h => hnew (h ▸ hr)
      simpa [State.move, hne] using hs.retired r hr
  | stop i hp =>
    obtain ⟨hcurrent, hconfig, hrunner, hruns⟩ := hs.stands_at hp
    refine hs.replace (by rw [hp]; rfl) rfl rfl ((hs.lock_iff i).mpr (by rw [hp]; rfl)) ?_
      ⟨hcurrent, hconfig, hrunner, ?_⟩ (fun h => by cases h) ?_
    · intro j hne hj
      have hunseen := hs.unseen j hj
      simpa [State.move, Ne.symm hunseen.2.2.1] using hunseen
    · intro r
      rcases eq_or_ne r s.runner with rfl | hr
      · simp [hcurrent]
      · simpa [State.move, State.Current, hr] using hruns r
    · intro r hr
      have hret := hs.retired r hr
      simpa [State.move, hret.2] using hret
  | swap i hp =>
    obtain ⟨hcurrent, hconfig, hrunner, hruns⟩ := hs.stands_at hp
    refine hs.replace (by rw [hp]; rfl) rfl rfl ((hs.lock_iff i).mpr (by rw [hp]; rfl)) ?_
      ⟨rfl, hconfig.trans hrunner.symm, fun h => hcurrent (hrunner ▸ h), hruns⟩
      (fun h => by cases h) ?_
    · intro j hne hj
      obtain ⟨hoff, hnew, hcur, hc, hr⟩ := hs.unseen j hj
      exact ⟨hoff, by simpa [Ne.symm hcur] using hnew, by simpa using Ne.symm hne, hc, hr⟩
    · intro r hr
      have hoff : ∀ r, r ≠ some i → s.running r = false := by
        intro r hne
        by_contra h
        exact hne ((hruns r).mp (by simpa using h))
      rcases List.mem_cons.mp hr with rfl | hr
      · exact ⟨hoff _ hcurrent, hcurrent⟩
      · have hret := hs.retired r hr
        have hne : r ≠ some i := by
          rintro rfl
          simp [(hruns (some i)).mpr rfl] at hret
        exact ⟨hret.1, hne⟩
  | setConfig i hp =>
    obtain ⟨hcurrent, hconfig, hrunner, hruns⟩ := hs.stands_at hp
    refine hs.replace (by rw [hp]; rfl) rfl rfl ((hs.lock_iff i).mpr (by rw [hp]; rfl)) ?_
      ⟨hcurrent, rfl, hrunner, hruns⟩ (fun h => by cases h) hs.retired
    intro j hne hj
    obtain ⟨hoff, hnew, hcur, hc, hr⟩ := hs.unseen j hj
    exact ⟨hoff, hnew, hcur, by simpa using Ne.symm hne, hr⟩
  | setRunner i hp =>
    obtain ⟨hcurrent, hconfig, hrunner, hruns⟩ := hs.stands_at hp
    refine hs.replace (by rw [hp]; rfl) rfl rfl ((hs.lock_iff i).mpr (by rw [hp]; rfl)) ?_
      ⟨hcurrent, hconfig, rfl, hruns⟩ (fun h => by cases h) hs.retired
    intro j hne hj
    obtain ⟨hoff, hnew, hcur, hc, hr⟩ := hs.unseen j hj
    exact ⟨hoff, hnew, hcur, hc, by simpa using Ne.symm hne⟩
  | unlock i hp =>
    obtain ⟨hcurrent, hconfig, hrunner, hruns⟩ := hs.stands_at hp
    refine hs.replace (by rw [hp]; rfl) rfl rfl rfl (fun j _ hj => hs.unseen j hj) trivial
      (fun _ => ⟨hconfig.trans hcurrent.symm, hrunner.trans hcurrent.symm, fun r => ?_⟩) hs.retired
    refine (hruns r).trans ⟨fun h => ⟨h.trans hcurrent.symm, ?_⟩, fun h => h.1.trans hcurrent⟩
    rintro rfl
    cases h
  | getState => exact hs
  | fire r k c hc hr hk => exact { hs with }
  | finish r k h => exact { hs with }

theorem inv_next (s : State Op Ans ε σ C κ ι) (a : Action ι κ) (hs : Inv S s) : Inv S (next S s a) :=
  next_invariant S (fun _ _ _ hs h => inv_step hs h) s a hs

theorem always_inv (s₀ : σ) (as : List (Action ι κ)) : Runs.Always (next S) (Inv S) (init S s₀) as :=
  Runs.always_of_kept inv_next (inv_init S s₀)

end Schemes.Reload
