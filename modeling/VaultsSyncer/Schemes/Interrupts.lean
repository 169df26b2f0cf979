import VaultsSyncer.Schemes.Isolation
import VaultsSyncer.Schemes.Rely

/-! Programs cut short. A run passes through the states between its calls (`Visits`), and whoever stops
    it leaves one of them behind. In a pool of tasks with regions of their own, what is left behind at
    any moment is, region by region, a state that the run of the task alone passes through
    (`Pool.Reaches.visited`).

        run of task i      x₀ ──▶ x₁ ──▶ x₂ ──▶ … ──▶ xₘ
        pool, cut short    some xₖ in each region -/

namespace Schemes

namespace Prog

variable {Op : Type} {Ans : Op → Type} {α β σ : Type} (h : Handler Op Ans σ)

/-- The run of a program from `s` passes through `x`. -/
def Visits : Prog Op Ans α → σ → σ → Prop
  | ret _, s, x => x = s
  | call op k, s, x => x = s ∨ Visits (k (h op s).1) (h op s).2 x

variable {h}

@[simp] theorem visits_ret {a : α} {s x : σ} : (ret a : Prog Op Ans α).Visits h s x ↔ x = s := Iff.rfl

@[simp] theorem visits_call {op : Op} {k : Ans op → Prog Op Ans α} {s x : σ} :
    (call op k).Visits h s x ↔ x = s ∨ (k (h op s).1).Visits h (h op s).2 x := Iff.rfl

theorem Visits.first (p : Prog Op Ans α) (s : σ) : p.Visits h s s := by
  cases p with
  | ret a => rfl
  | call op k => exact .inl rfl

theorem Visits.last (p : Prog Op Ans α) (s : σ) : p.Visits h s (p.run h s).2 := by
  induction p generalizing s with
  | ret a => rfl
  | call op k ih => exact .inr (ih _ _)

/-- A sequence passes through the states of its first part, and then through those of its second. -/
theorem visits_bind {p : Prog Op Ans α} {f : α → Prog Op Ans β} {s x : σ} :
    (p >>= f).Visits h s x ↔
      p.Visits h s x ∨ (f (p.run h s).1).Visits h (p.run h s).2 x := by
  induction p generalizing s with
  | ret a =>
    refine ⟨.inr, ?_⟩
    rintro (rfl | hx)
    · exact .first _ _
    · exact hx
  | call op k ih =>
    rw [call_bind, visits_call, ih, visits_call, run_call, or_assoc]

/-- Computing with the value at the end passes through nothing new. -/
theorem visits_map {p : Prog Op Ans α} {f : α → β} {s x : σ} :
    (p >>= fun a => (pure (f a) : Prog Op Ans β)).Visits h s x ↔ p.Visits h s x := by
  rw [visits_bind]
  refine ⟨?_, .inl⟩
  rintro (hx | hx)
  · exact hx
  · exact (show x = _ from hx) ▸ .last p s

/-- What the calls of a program keep holds wherever it is cut short. -/
theorem AllCalls.visited {P : Op → Prop} {I : σ → Prop} {p : Prog Op Ans α} (hp : p.AllCalls P)
    (hI : ∀ op s, P op → I s → I (h op s).2) {s x : σ} (hs : I s) (hx : p.Visits h s x) : I x := by
  induction p generalizing s with
  | ret a => exact (show x = s from hx) ▸ hs
  | call op k ih =>
    rcases hx with rfl | hx
    · exact hs
    · exact ih _ (hp.2 _) (hI op s hp.1 hs) hx

end Prog

namespace Pool

open Prog

variable {Op : Type} {Ans : Op → Type} {ε σ : Type} {n : ℕ} {S : Setup Op Ans ε σ n}
  {own : Fin n → Op → Prop} {R : Fin n → σ → σ → Prop} {O : Op → Op → Prop}
  {A : ∀ op op', Ans op → Ans op' → Prop} {E : ε → ε → Prop} {job : Fin n → Prog Op Ans Bool × ε}

/-- The job of task `i` alone, from `u`, passes through a state that looks like `s` in its region. -/
def Visited (S : Setup Op Ans ε σ n) (R : Fin n → σ → σ → Prop)
    (job : Fin n → Prog Op Ans Bool × ε) (i : Fin n) (u s : σ) : Prop :=
  ∃ x, (job i).1.Visits S.handler ((job i).2, u) x ∧ R i s x.2

/-- Where task `i` stands on the way of its job; the job still has to pass through what the
    counterpart of the task passes through. -/
def OnTheWay (S : Setup Op Ans ε σ n) (own : Fin n → Op → Prop) (R : Fin n → σ → σ → Prop)
    (O : Op → Op → Prop) (A : ∀ op op', Ans op → Ans op' → Prop) (E : ε → ε → Prop)
    (job : Fin n → Prog Op Ans Bool × ε) (i : Fin n) (u s : σ) : Phase Op Ans ε → Prop
  | .idle | .started => R i s u
  | .running p e => p.AllCalls (own i) ∧ ∃ q e' v, Sim O A Eq p q ∧ E e e' ∧ R i s v ∧
      ∀ x, q.Visits S.handler (e', v) x → (job i).1.Visits S.handler ((job i).2, u) x
  | .sent _ | .released _ | .finished _ => Visited S R job i u s

variable {i : Fin n} {u s s' : σ} {ph : Phase Op Ans ε}

theorem OnTheWay.visited (h : OnTheWay S own R O A E job i u s ph) : Visited S R job i u s := by
  cases ph with
  | idle | started => exact ⟨_, .first _ _, h⟩
  | running p e =>
    obtain ⟨-, q, e', v, -, -, hr, hq⟩ := h
    exact ⟨_, hq _ (.first _ _), hr⟩
  | sent | released | finished => exact h

theorem OnTheWay.frame (hiso : Isolated S own R O A E job) (h : OnTheWay S own R O A E job i u s ph)
    (hs : R i s' s) : OnTheWay S own R O A E job i u s' ph := by
  have htrans : ∀ {v}, R i s v → R i s' v := (hiso.regions.equiv i).trans hs
  cases ph with
  | idle | started => exact htrans h
  | running p e =>
    obtain ⟨hown, q, e', v, hsim, he, hr, hq⟩ := h
    exact ⟨hown, q, e', v, hsim, he, htrans hr, hq⟩
  | sent | released | finished =>
    obtain ⟨x, hx, hr⟩ := h
    exact ⟨x, hx, htrans hr⟩

theorem OnTheWay.exec (hiso : Isolated S own R O A E job) {op : Op} {k : Ans op → Prog Op Ans Bool}
    {e : ε} (h : OnTheWay S own R O A E job i u s (.running (.call op k) e)) :
    OnTheWay S own R O A E job i u (S.handler op (e, s)).2.2
      (.running (k (S.handler op (e, s)).1) (S.handler op (e, s)).2.1) := by
  obtain ⟨hown, q, e', v, hsim, he, hr, hq⟩ := h
  cases hsim with
  | @call _ op' _ k' ho hk =>
    obtain ⟨ha, he', hr'⟩ := hiso.respects i op op' (e, s) (e', v) hown.1 ho ⟨he, hr⟩
    exact ⟨hown.2 _, k' (S.handler op' (e', v)).1, _, _, hk _ _ ha, he', hr', fun x hx =>
      hq x (.inr hx)⟩

theorem OnTheWay.passes (hiso : Isolated S own R O A E job) {ph' : Phase Op Ans ε}
    (h : OnTheWay S own R O A E job i u s ph) (hp : Phase.Passes S i ph ph') :
    OnTheWay S own R O A E job i u s ph' := by
  cases hp with
  | acquire => exact ⟨hiso.owns i, _, _, u, hiso.sim i, hiso.envs i, h, fun x hx => hx⟩
  | stays | launch | release | done => exact h

theorem Reaches.onTheWay (hiso : Isolated S own R O A E job) {s₀ : σ} {u : Fin n → σ}
    (hu : ∀ i, R i s₀ (u i)) {s : State Op Ans ε σ n} (hs : Reaches S s₀ s) (i : Fin n) :
    OnTheWay S own R O A E job i (u i) s.shared (s.phase i) := by
  induction hs generalizing i with
  | init => exact hu i
  | @step s s' a hs hstep ih =>
    by_cases ha : ∃ j, a = .exec j ∨ a = .send j
    · obtain ⟨j, ha⟩ := ha
      rcases step_running ha hstep with ⟨op, k, e, rfl, hj, rfl⟩ | ⟨ok, e, rfl, hj, rfl⟩
      · have hway := ih j
        rw [hj] at hway
        -- the task that makes the call is followed, the others see none of it
        rcases eq_or_ne i j with rfl | hne
        · simpa using hway.exec hiso
        · simpa [hne] using (ih i).frame hiso (hiso.regions.frame i j op e _ hne hway.1.1)
      · rcases eq_or_ne i j with rfl | hne
        · simp only [Function.update_self]
          exact (ih i).visited
        · simpa [hne] using ih i
    · obtain ⟨hshared, hpasses⟩ := step_passes hs.inv (not_exists.mp ha) hstep
      rw [hshared]
      exact (ih i).passes hiso (hpasses i)

/-- A pool that is cut short leaves, in the region of each task, what its job alone leaves when it is
    cut short somewhere. -/
theorem Reaches.visited (hiso : Isolated S own R O A E job) {s₀ : σ} {u : Fin n → σ}
    (hu : ∀ i, R i s₀ (u i)) {s : State Op Ans ε σ n} (hs : Reaches S s₀ s) (i : Fin n) :
    Visited S R job i (u i) s.shared := (hs.onTheWay hiso hu i).visited

end Pool

end Schemes
