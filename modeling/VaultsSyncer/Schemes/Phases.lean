import VaultsSyncer.Schemes.Threads

/-! Threads as small machines. Of the calls of a program most may be *silent*: they leave the shared
    state alone. What is left are the few calls that count, and a program that is between two of them is
    in a *phase*. When every call that counts makes one step of a machine on phases (`Refines`), the
    threads and the machine reach the same (`Refines.run`, `Refines.threads`), so that what any schedule
    can do is read off the machine.

        step i p y        what thread `i` does next in its phase, none where it is done
        Settles h G p e   after some silent calls, `G` holds of the program
        Alone step i      one thread from a phase to its end, with nothing in between -/

namespace Schemes.Phases

open Prog

variable {Op : Type} {Ans : Op → Type} {ε σ α ι φ τ ω : Type}

/-! ### The machine -/

structure State (ι φ τ : Type) where
  phase : ι → φ
  shared : τ

/-- Thread `i` has come to another phase. -/
def State.set [DecidableEq ι] (t : State ι φ τ) (i : ι) (p : φ) (y : τ) : State ι φ τ :=
  ⟨Function.update t.phase i p, y⟩

section Set

variable [DecidableEq ι] (t : State ι φ τ) (i : ι) (p : φ) (y : τ)

@[simp] theorem State.set_phase_self : (t.set i p y).phase i = p := Function.update_self ..

@[simp] theorem State.set_phase_of_ne {j : ι} (h : j ≠ i) : (t.set i p y).phase j = t.phase j :=
  Function.update_of_ne h ..

@[simp] theorem State.set_shared : (t.set i p y).shared = y := rfl

end Set

/-- The states of the machine that some schedule leads to. -/
inductive Run [DecidableEq ι] (step : ι → φ → τ → Option (φ × τ)) (t₀ : State ι φ τ) :
    State ι φ τ → Prop
  | refl : Run step t₀ t₀
  | step {t i φ' y'} : Run step t₀ t → step i (t.phase i) t.shared = some (φ', y') →
      Run step t₀ (t.set i φ' y')

/-- One thread from a phase to another, with nothing in between. -/
inductive Alone (step : ι → φ → τ → Option (φ × τ)) (i : ι) : φ → τ → φ → τ → Prop
  | refl {p y} : Alone step i p y p y
  | step {p y p' y' p'' y''} : step i p y = some (p', y') → Alone step i p' y' p'' y'' →
      Alone step i p y p'' y''

/-- From a phase without a step, nothing happens. -/
theorem Alone.of_stays {step : ι → φ → τ → Option (φ × τ)} {i : ι} {p p' : φ} {y y' : τ}
    (h : Alone step i p y p' y') (hstays : ∀ y, step i p y = none) : p' = p ∧ y' = y := by
  cases h with
  | refl => exact ⟨rfl, rfl⟩
  | step hstep _ =>
    rw [hstays] at hstep
    cases hstep

section Machine

variable [DecidableEq ι] {step : ι → φ → τ → Option (φ × τ)}

/-- Thread `i` makes its next step. -/
theorem Run.next {t₀ t : State ι φ τ} (h : Run step t₀ t) {i : ι} {p : φ} (hp : t.phase i = p) (p' : φ)
    (y : τ) (hstep : step i p t.shared = some (p', y)) : Run step t₀ (t.set i p' y) :=
  h.step (hp ▸ hstep)

theorem Run.trans {t₀ t t' : State ι φ τ} (h : Run step t₀ t) (h' : Run step t t') :
    Run step t₀ t' := by
  induction h' with
  | refl => exact h
  | step _ hstep ih => exact ih.step hstep

theorem Run.invariant {t₀ t : State ι φ τ} {I : State ι φ τ → Prop} (h : Run step t₀ t) (h0 : I t₀)
    (hI : ∀ t i φ' y', I t → step i (t.phase i) t.shared = some (φ', y') →
      I (t.set i φ' y')) : I t := by
  induction h with
  | refl => exact h0
  | step _ hstep ih => exact hI _ _ _ _ ih hstep

/-- A phase without a step stays. -/
theorem Run.phase_stays {t₀ t : State ι φ τ} (h : Run step t₀ t) {i : ι}
    (hdone : ∀ y, step i (t₀.phase i) y = none) : t.phase i = t₀.phase i := by
  induction h with
  | refl => rfl
  | @step t j φ' y' _ hstep ih =>
    have hne : i ≠ j := by
      rintro rfl
      rw [ih, hdone] at hstep
      cases hstep
    rw [State.set_phase_of_ne _ _ _ _ hne, ih]

theorem Run.alone {t₀ : State ι φ τ} {i : ι} {p : φ} {y : τ} {p' : φ} {y' : τ}
    (h : Alone step i p y p' y') : ∀ {t : State ι φ τ}, Run step t₀ t → t.phase i = p → t.shared = y →
      Run step t₀ (t.set i p' y') := by
  induction h with
  | refl =>
    rintro ⟨phase, shared⟩ ht rfl rfl
    simpa [State.set] using ht
  | step hstep _ ih =>
    rintro ⟨phase, shared⟩ ht rfl rfl
    simpa [State.set] using ih (ht.step hstep) (State.set_phase_self ..) rfl

/-- Where every phase is without a step, nothing happens. -/
theorem Run.eq_of_stays {t₀ t : State ι φ τ} (h : Run step t₀ t)
    (hdone : ∀ i y, step i (t₀.phase i) y = none) : t = t₀ := by
  induction h with
  | refl => rfl
  | step _ hstep ih =>
    rw [ih, hdone] at hstep
    cases hstep

/-- Threads that run alone, one after another; `J` holds of the shared state in between. -/
theorem Run.alone_each {t₀ t : State ι φ τ} (ht : Run step t₀ t) {J : τ → Prop} {Q : ι → φ → Prop}
    (h0 : J t.shared) (T : Finset ι)
    (hT : ∀ i ∈ T, ∀ y, J y → ∃ p' y', Alone step i (t.phase i) y p' y' ∧ J y' ∧ Q i p') :
    ∃ t', Run step t₀ t' ∧ J t'.shared ∧ (∀ i ∈ T, Q i (t'.phase i)) ∧
      ∀ i ∉ T, t'.phase i = t.phase i := by
  induction T using Finset.induction_on with
  | empty => exact ⟨t, ht, h0, by simp, by simp⟩
  | insert i T hi ih =>
    obtain ⟨t', ht', hJ, hdone, hrest⟩ := ih fun j hj => hT j (Finset.mem_insert_of_mem hj)
    obtain ⟨p', y', halone, hJ', hQ⟩ := hT i (Finset.mem_insert_self i T) _ hJ
    refine ⟨t'.set i p' y', Run.alone halone ht' (hrest i hi) rfl, hJ', ?_, ?_⟩
    · intro j hj
      rcases eq_or_ne j i with rfl | hji
      · simpa using hQ
      · simpa [hji] using hdone j (Finset.mem_of_mem_insert_of_ne hj hji)
    · intro j hj
      rw [Finset.mem_insert, not_or] at hj
      simpa [hj.1] using hrest j hj.2

end Machine

/-! ### Threads in phases -/

/-- The answer of the call does not depend on the shared state, which it leaves alone. -/
def Silent (h : Handler Op Ans (ε × σ)) (op : Op) : Prop := ∀ e, ∃ r e', ∀ x, h op (e, x) = (r, e', x)

/-- `G` holds of the program once it has made some silent calls. -/
inductive Settles (h : Handler Op Ans (ε × σ)) (G : Prog Op Ans α → ε → Prop) :
    Prog Op Ans α → ε → Prop
  | here {p e} : G p e → Settles h G p e
  | skip {op k e r e'} : (∀ x, h op (e, x) = (r, e', x)) → Settles h G (k r) e' →
      Settles h G (.call op k) e

section Settles

variable {h : Handler Op Ans (ε × σ)} {G : Prog Op Ans α → ε → Prop}

/-- A silent program on the way is passed over. -/
theorem Settles.bind {β : Type} {p : Prog Op Ans β} {f : β → Prog Op Ans α}
    (hp : p.AllCalls (Silent h)) {e : ε} (x : σ)
    (hf : Settles h G (f (p.run h (e, x)).1) (p.run h (e, x)).2.1) : Settles h G (p >>= f) e := by
  induction p generalizing e with
  | ret b => exact hf
  | call op k ih =>
    obtain ⟨r, e', hop⟩ := hp.1 e
    rw [run_call, hop] at hf
    exact .skip hop (ih r (hp.2 r) hf)

end Settles

/-- The threads with the programs that `G` gives to each phase do what the machine does: a call that
    counts is one step, and who has returned is done. -/
structure Refines (h : Handler Op Ans (ε × σ)) (step : ι → φ → τ → Option (φ × τ))
    (done : φ → Option ω) (G : ι → φ → Prog Op Ans α → ε → Prop) (R : σ → τ → Prop)
    (V : ι → α → ω → Prop) : Prop where
  call : ∀ {i p op k e x y}, G i p (.call op k) e → R x y → ∃ p' y', step i p y = some (p', y') ∧
    Settles h (G i p') (k (h op (e, x)).1) (h op (e, x)).2.1 ∧ R (h op (e, x)).2.2 y'
  ret : ∀ {i p a e}, G i p (.ret a) e → ∃ o, done p = some o ∧ V i a o
  stays : ∀ {i p o}, done p = some o → ∀ y, step i p y = none

section Refines

variable {h : Handler Op Ans (ε × σ)} {step : ι → φ → τ → Option (φ × τ)} {done : φ → Option ω}
  {G : ι → φ → Prog Op Ans α → ε → Prop} {R : σ → τ → Prop} {V : ι → α → ω → Prop}

/-- Each thread is on its way through its phase. -/
structure Matches (h : Handler Op Ans (ε × σ)) (G : ι → φ → Prog Op Ans α → ε → Prop)
    (R : σ → τ → Prop) (s : Threads.State Op Ans ε σ α ι) (t : State ι φ τ) : Prop where
  settles : ∀ i, Settles h (G i (t.phase i)) (s.prog i) (s.env i)
  shared : R s.shared t.shared

variable {s₀ s : Threads.State Op Ans ε σ α ι} {t₀ t : State ι φ τ}

/-- What a thread has returned is what its phase says. -/
theorem Refines.returned (href : Refines h step done G R V) (hm : Matches h G R s t) {i : ι} {a : α}
    (hp : s.prog i = .ret a) : ∃ o, done (t.phase i) = some o ∧ V i a o := by
  have hi := hm.settles i
  rw [hp] at hi
  rcases hi with hG | _
  exact href.ret hG

/-- A program that is run alone makes the steps of its thread. -/
theorem Refines.alone (href : Refines h step done G R V) {i : ι} {p : Prog Op Ans α} :
    ∀ {f : φ} {e : ε} {x : σ} {y : τ}, Settles h (G i f) p e → R x y →
      ∃ f' y' o, Alone step i f y f' y' ∧ done f' = some o ∧ V i (p.run h (e, x)).1 o ∧
        R (p.run h (e, x)).2.2 y' := by
  induction p with
  | ret a =>
    intro f e x y hs hR
    rcases hs with hG | _
    obtain ⟨o, hdone, hV⟩ := href.ret hG
    exact ⟨f, y, o, .refl, hdone, hV, hR⟩
  | call op k ih =>
    intro f e x y hs hR
    rcases hs with hG | ⟨hop, hk⟩
    · obtain ⟨f', y', hmove, hsettles, hR'⟩ := href.call hG hR
      obtain ⟨f'', y'', o, halone, hdone, hV, hR''⟩ := ih _ hsettles hR'
      exact ⟨f'', y'', o, .step hmove halone, hdone, hV, hR''⟩
    · rw [run_call, hop]
      exact ih _ hk hR

variable [DecidableEq ι]

/-- A step of one thread is a step of the machine, or none. -/
theorem Refines.move (href : Refines h step done G R V) (hm : Matches h G R s t) {i : ι}
    {s' : Threads.State Op Ans ε σ α ι} (hstep : Threads.step h s i = some s') :
    Matches h G R s' t ∨ ∃ p' y', step i (t.phase i) t.shared = some (p', y') ∧
      Matches h G R s' (t.set i p' y') := by
  obtain ⟨op, k, hp, rfl⟩ := Threads.step_eq_some hstep
  have hi := hm.settles i
  rw [hp] at hi
  rcases hi with hG | ⟨hop, hk⟩
  · obtain ⟨p', y', hmove, hsettles, hR⟩ := href.call hG hm.shared
    refine .inr ⟨p', y', hmove, fun j => ?_, hR⟩
    rcases eq_or_ne j i with rfl | hji
    · simpa [Threads.State.after, perform] using hsettles
    · simpa [Threads.State.after, hji] using hm.settles j
  · refine .inl ⟨fun j => ?_, ?_⟩
    · rcases eq_or_ne j i with rfl | hji
      · simpa [Threads.State.after, perform, hop] using hk
      · simpa [Threads.State.after, hji] using hm.settles j
    · simpa [Threads.State.after, perform, hop] using hm.shared

/-- What the threads reach, the machine does. -/
theorem Refines.run (href : Refines h step done G R V) (hm : Matches h G R s₀ t₀)
    (hs : Threads.Reaches h s₀ s) : ∃ t, Run step t₀ t ∧ Matches h G R s t := by
  induction hs with
  | refl => exact ⟨t₀, .refl, hm⟩
  | step _ hstep ih =>
    obtain ⟨t, ht, hm'⟩ := ih
    rcases href.move hm' hstep with hsame | ⟨p', y', hmove, hnext⟩
    · exact ⟨t, ht, hsame⟩
    · exact ⟨_, ht.step hmove, hnext⟩

/-- A thread can come to its next call that counts, and make it. -/
theorem Refines.advance (href : Refines h step done G R V) {i : ι} {p' : φ} {y' : τ} :
    ∀ {p : Prog Op Ans α} {s : Threads.State Op Ans ε σ α ι}, Threads.Reaches h s₀ s → s.prog i = p →
      Matches h G R s t → step i (t.phase i) t.shared = some (p', y') →
      ∃ s', Threads.Reaches h s₀ s' ∧ Matches h G R s' (t.set i p' y') := by
  intro p
  induction p with
  | ret a =>
    intro s _ hp hm hmove
    have hi := hm.settles i
    rw [hp] at hi
    rcases hi with hG | _
    obtain ⟨o, hdone, -⟩ := href.ret hG
    rw [href.stays hdone] at hmove
    cases hmove
  | call op k ih =>
    intro s hs hp hm hmove
    have hstep : Threads.step h s i = some (s.after h i (perform op) k) := by
      simp only [Threads.step, hp]
    rcases href.move hm hstep with hsame | ⟨p'', y'', hmove', hnext⟩
    · exact ih (h op (s.env i, s.shared)).1 (hs.step hstep) (by simp [Threads.State.after, perform])
        hsame hmove
    · rw [hmove', Option.some.injEq, Prod.mk.injEq] at hmove
      obtain ⟨rfl, rfl⟩ := hmove
      exact ⟨_, hs.step hstep, hnext⟩

/-- What the machine reaches, the threads do. -/
theorem Refines.threads (href : Refines h step done G R V) (hm : Matches h G R s₀ t₀)
    (ht : Run step t₀ t) : ∃ s, Threads.Reaches h s₀ s ∧ Matches h G R s t := by
  induction ht with
  | refl => exact ⟨s₀, .refl, hm⟩
  | step _ hmove ih =>
    obtain ⟨s, hs, hm'⟩ := ih
    exact href.advance hs rfl hm' hmove

/-- From where the machine is, the threads can all run to their ends; who is done stays so. -/
theorem Refines.finish [Fintype ι] (href : Refines h step done G R V) (hm : Matches h G R s₀ t₀)
    (ht : Run step t₀ t) : ∃ s t', Threads.Reaches h s₀ s ∧ s.Finished ∧ Run step t t' ∧
      Matches h G R s t' := by
  obtain ⟨s, hs, hm'⟩ := href.threads hm ht
  obtain ⟨s', hs', hfinished⟩ := Threads.exists_finished (h := h) s
  obtain ⟨t', ht', hm''⟩ := href.run hm' hs'
  exact ⟨s', t', hs.trans hs', hfinished, ht', hm''⟩

end Refines

end Schemes.Phases
