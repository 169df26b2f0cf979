import VaultsSyncer.Schemes.Threads

/-! Two systems of threads in lockstep. Where the programs of two systems make related calls, and related
    calls in related states are answered alike, every schedule of the one is a schedule of the other, and
    at the end of it the same threads are done, with related values.

        s₀ ──i──▶ s₁ ──j──▶ s₂ ── ⋯
         ∼        ∼         ∼
        t₀ ──i──▶ t₁ ──j──▶ t₂ ── ⋯ -/

namespace Schemes

variable {Op : Type} {Ans : Op → Type} {ε σ τ α β ι : Type}

namespace Prog

variable {O : Op → Op → Prop} {A : ∀ op op', Ans op → Ans op' → Prop} {V : α → β → Prop}

theorem Sim.mono {W : α → β → Prop} {p : Prog Op Ans α} {q : Prog Op Ans β} (hpq : Sim O A V p q)
    (hVW : ∀ a b, V a b → W a b) : Sim O A W p q := by
  induction hpq with
  | ret hv => exact .ret (hVW _ _ hv)
  | call ho _ ih => exact .call ho ih

/-- In step, and each returns what it can. -/
theorem Sim.and_returns {P : α → Prop} {Q : β → Prop} {p : Prog Op Ans α} {q : Prog Op Ans β}
    (hpq : Sim O A V p q) (hp : p.Returns (fun _ _ => True) P) (hq : q.Returns (fun _ _ => True) Q) :
    Sim O A (fun a b => V a b ∧ P a ∧ Q b) p q := by
  induction hpq with
  | ret hv => exact .ret ⟨hv, hp, hq⟩
  | call ho _ ih => exact .call ho fun r r' hr => ih r r' hr (hp r trivial) (hq r' trivial)

/-- A program is in step with itself where the answers to its calls are the same. -/
theorem AllCalls.sim_self {p : Prog Op Ans α}
    (hp : p.AllCalls fun op => O op op ∧ ∀ r r', A op op r r' → r = r') : Sim O A (· = ·) p p := by
  induction p with
  | ret a => exact .ret rfl
  | call op k ih =>
    refine .call hp.1.1 fun r r' hr => ?_
    obtain rfl := hp.1.2 r r' hr
    exact ih r (hp.2 r)

end Prog

namespace Threads

open Prog

variable [DecidableEq ι] (O : Op → Op → Prop) (A : ∀ op op', Ans op → Ans op' → Prop)
  (V : α → β → Prop) (S : σ → τ → Prop)

/-- Thread by thread the programs are in step, in the same environments, and the shared states are
    related. -/
structure Mirrors (s : State Op Ans ε σ α ι) (t : State Op Ans ε τ β ι) : Prop where
  prog : ∀ i, Sim O A V (s.prog i) (t.prog i)
  env : s.env = t.env
  shared : S s.shared t.shared

variable {O A V S} {h : Handler Op Ans (ε × σ)} {h' : Handler Op Ans (ε × τ)}
  {s s' : State Op Ans ε σ α ι} {t : State Op Ans ε τ β ι}

/-- A step of the one is a step of the other. -/
theorem Mirrors.step (hst : Mirrors O A V S s t)
    (hS : Respects h h' (fun _ => True) O A fun x y => x.1 = y.1 ∧ S x.2 y.2) {i : ι}
    (hstep : Threads.step h s i = some s') :
    ∃ t', Threads.step h' t i = some t' ∧ Mirrors O A V S s' t' := by
  obtain ⟨op, k, hp, rfl⟩ := step_eq_some hstep
  have hsim := hst.prog i
  rw [hp] at hsim
  rcases hq : t.prog i with b | ⟨op', k'⟩
  · rw [hq] at hsim
    cases hsim
  rw [hq] at hsim
  cases hsim with
  | call hop hk =>
    obtain ⟨hans, henv, hshared⟩ := hS op op' (s.env i, s.shared) (t.env i, t.shared) trivial hop
      ⟨congrFun hst.env i, hst.shared⟩
    refine ⟨t.after h' i (perform op') k', by simp only [Threads.step, hq], ?_, ?_, hshared⟩
    · intro j
      rcases eq_or_ne j i with rfl | hji
      · rw [State.after_prog, State.after_prog]
        exact hk _ _ hans
      · rw [State.after_prog_of_ne _ _ _ _ _ hji, State.after_prog_of_ne _ _ _ _ _ hji]
        exact hst.prog j
    · funext j
      rcases eq_or_ne j i with rfl | hji
      · rw [State.after_env, State.after_env]
        exact henv
      · rw [State.after_env_of_ne _ _ _ _ _ hji, State.after_env_of_ne _ _ _ _ _ hji, hst.env]

/-- A schedule of the one is a schedule of the other. -/
theorem Mirrors.follow (hst : Mirrors O A V S s t)
    (hS : Respects h h' (fun _ => True) O A fun x y => x.1 = y.1 ∧ S x.2 y.2) {is : List ι}
    (hfollow : Threads.follow h s is = some s') :
    ∃ t', Threads.follow h' t is = some t' ∧ Mirrors O A V S s' t' := by
  induction is generalizing s t with
  | nil =>
    obtain rfl := Option.some.inj hfollow
    exact ⟨t, rfl, hst⟩
  | cons i is ih =>
    obtain ⟨s₁, hstep, hfollow⟩ := Option.bind_eq_some_iff.mp hfollow
    obtain ⟨t₁, hstep', hst₁⟩ := hst.step hS hstep
    obtain ⟨t', hfollow', hst'⟩ := ih hst₁ hfollow
    exact ⟨t', by rw [Threads.follow, hstep', Option.bind_some, hfollow'], hst'⟩

omit [DecidableEq ι] in
/-- Where related values are the same, a thread that is done in the one is done in the other. -/
theorem Mirrors.done_iff {t : State Op Ans ε τ α ι} (hst : Mirrors O A (· = ·) S s t) {i : ι} {a : α} :
    s.prog i = .ret a ↔ t.prog i = .ret a := by
  have hsim := hst.prog i
  generalize s.prog i = p at hsim
  generalize t.prog i = q at hsim
  cases hsim with
  | ret hv => rw [hv]
  | call _ _ => exact iff_of_false (by rintro ⟨⟩) (by rintro ⟨⟩)

end Threads

end Schemes
