import VaultsSyncer.Schemes.Threads

/-! What a thread knows. Every answer a thread has had was given at some moment of the run, so what the
    answer says of the shared state was so at that moment, whatever the others have done since. A
    program is `Grounded` if each of its calls is one that the moments so far allow; then so is every
    call of a thread with that program, in every interleaving.

        thread i      call₁ ─▶ m₁      call₂ ─▶ m₂      call₃, as {m₁, m₂} allow
        the others         ⋯      ⋯         ⋯       ⋯ -/

namespace Schemes

variable {Op : Type} {Ans : Op → Type} {ε σ α β ι : Type}

/-- A call, and in what surroundings it was answered. -/
structure Moment (Op ε σ : Type) where
  op : Op
  env : ε
  state : σ

namespace Prog

variable (h : Handler Op Ans (ε × σ)) (N : Set (Moment Op ε σ) → Op → Prop)

/-- With these moments seen, each call is allowed by what has been seen by then, and the value returned
    is as `Q` says. -/
def Grounded (Q : α → Set (Moment Op ε σ) → Prop) :
    Prog Op Ans α → Set (Moment Op ε σ) → Prop
  | ret a, seen => Q a seen
  | call op k, seen => N seen op ∧ ∀ e x, (k (h op (e, x)).1).Grounded Q (insert ⟨op, e, x⟩ seen)

variable {h N} {Q : α → Set (Moment Op ε σ) → Prop} {seen : Set (Moment Op ε σ)}

theorem Grounded.mono {Q' : α → Set (Moment Op ε σ) → Prop} {p : Prog Op Ans α}
    (hp : p.Grounded h N Q seen) (hQ : ∀ a seen, Q a seen → Q' a seen) : p.Grounded h N Q' seen := by
  induction p generalizing seen with
  | ret a => exact hQ a seen hp
  | call op k ih => exact ⟨hp.1, fun e x => ih _ (hp.2 e x)⟩

theorem Grounded.bind {Q : β → Set (Moment Op ε σ) → Prop} {p : Prog Op Ans α} {f : α → Prog Op Ans β}
    (hp : p.Grounded h N (fun a seen => (f a).Grounded h N Q seen) seen) :
    (p >>= f).Grounded h N Q seen := by
  induction p generalizing seen with
  | ret a => exact hp
  | call op k ih => exact ⟨hp.1, fun e x => ih _ (hp.2 e x)⟩

/-- A program all of whose calls are allowed from the start. -/
theorem AllCalls.grounded {p : Prog Op Ans α} {K : Set (Moment Op ε σ)}
    (hp : p.AllCalls fun op => ∀ seen, K ⊆ seen → N seen op) (hK : K ⊆ seen) :
    p.Grounded h N (fun _ seen => K ⊆ seen) seen := by
  induction p generalizing seen with
  | ret a => exact hK
  | call op k ih =>
    exact ⟨hp.1 seen hK, fun e x => ih _ (hp.2 _) (hK.trans (Set.subset_insert _ _))⟩

/-- The calls that come next may depend on what the program can return. -/
theorem AllCalls.bind_returns {P : Op → Prop} {V : α → Prop} {p : Prog Op Ans α} {f : α → Prog Op Ans β}
    (hp : p.AllCalls P) (hv : p.Returns (fun _ _ => True) V) (hf : ∀ a, V a → (f a).AllCalls P) :
    (p >>= f).AllCalls P := by
  induction p with
  | ret a => exact hf a hv
  | call op k ih => exact ⟨hp.1, fun r => ih r (hp.2 r) (hv r trivial)⟩

/-- One call, and what its answer tells. -/
theorem grounded_call {op : Op} {k : Ans op → Prog Op Ans α} (hop : N seen op)
    (hk : ∀ e x, (k (h op (e, x)).1).Grounded h N Q (insert ⟨op, e, x⟩ seen)) :
    (call op k).Grounded h N Q seen := ⟨hop, hk⟩

end Prog

namespace Threads

variable [DecidableEq ι] {h : Handler Op Ans (ε × σ)} {N : Set (Moment Op ε σ) → Op → Prop}
  {Q : α → Set (Moment Op ε σ) → Prop}

/-- The shared state was `x` at some moment between `s₀` and `s`, and thread `i` made this call. -/
def Between (h : Handler Op Ans (ε × σ)) (s₀ s : State Op Ans ε σ α ι) (i : ι) (m : Moment Op ε σ) :
    Prop :=
  ∃ t, Reaches h s₀ t ∧ Reaches h t s ∧ (∃ k, t.prog i = .call m.op k) ∧ t.env i = m.env ∧
    t.shared = m.state

theorem Between.step {s₀ s s' : State Op Ans ε σ α ι} {i j : ι} {m : Moment Op ε σ}
    (hm : Between h s₀ s i m) (hstep : Threads.step h s j = some s') : Between h s₀ s' i m := by
  obtain ⟨t, ht, hts, hcall⟩ := hm
  exact ⟨t, ht, hts.step hstep, hcall⟩

/-- What a thread has seen has been, and what it goes on to do is allowed by it. -/
theorem Reaches.grounded {s₀ s : State Op Ans ε σ α ι} (hs : Reaches h s₀ s) {i : ι}
    (h0 : (s₀.prog i).Grounded h N Q ∅) :
    ∃ seen, (∀ m ∈ seen, Between h s₀ s i m) ∧ (s.prog i).Grounded h N Q seen := by
  induction hs with
  | refl => exact ⟨∅, fun m hm => absurd hm (Set.notMem_empty m), h0⟩
  | @step t s' j ht hstep ih =>
    obtain ⟨seen, hseen, hgrounded⟩ := ih
    have hkept : ∀ m ∈ seen, Between h s₀ s' i m := fun m hm => (hseen m hm).step hstep
    have hreached : Reaches h t s' := Reaches.refl.step hstep
    obtain ⟨op, k, hp, rfl⟩ := step_eq_some hstep
    rcases eq_or_ne j i with rfl | hji
    · rw [hp] at hgrounded
      refine ⟨insert ⟨op, t.env j, t.shared⟩ seen, ?_, ?_⟩
      · rintro m (rfl | hm)
        · exact ⟨t, ht, hreached, ⟨k, hp⟩, rfl, rfl⟩
        · exact hkept m hm
      · rw [State.after_prog]
        exact hgrounded.2 _ _
    · rw [State.after_prog_of_ne _ _ _ _ _ hji.symm]
      exact ⟨seen, hkept, hgrounded⟩

/-- A thread that is done makes no more calls. -/
theorem Reaches.prog_ret {s₀ s : State Op Ans ε σ α ι} (hs : Reaches h s₀ s) {i : ι} {a : α}
    (h0 : s₀.prog i = .ret a) : s.prog i = .ret a := by
  refine hs.invariant (I := fun s => s.prog i = .ret a) h0 ?_
  intro t s' j ht hstep
  obtain ⟨op, k, hp, rfl⟩ := step_eq_some hstep
  have hji : i ≠ j := by
    rintro rfl
    rw [hp] at ht
    cases ht
  rwa [State.after_prog_of_ne _ _ _ _ _ hji]

/-- What the calls that are still to come keep, as far as their threads know, holds from here on. -/
theorem Reaches.grounded_invariant {N : ι → Set (Moment Op ε σ) → Op → Prop}
    {Q : ι → α → Set (Moment Op ε σ) → Prop} {s₀ s₁ s₂ : State Op Ans ε σ α ι}
    (h₁ : Reaches h s₀ s₁) (h₂ : Reaches h s₁ s₂) (hprog : ∀ j, (s₀.prog j).Grounded h (N j) (Q j) ∅)
    {I : σ → Prop} (h0 : I s₁.shared)
    (hI : ∀ j s seen op, (∀ a, s₁.prog j ≠ .ret a) → (∀ m ∈ seen, Between h s₀ s j m) →
      N j seen op → I s.shared → I (h op (s.env j, s.shared)).2.2) : I s₂.shared := by
  induction h₂ with
  | refl => exact h0
  | @step t s' j ht hstep ih =>
    obtain ⟨seen, hseen, hgrounded⟩ := (h₁.trans ht).grounded (hprog j)
    obtain ⟨op, k, hp, rfl⟩ := step_eq_some hstep
    rw [hp] at hgrounded
    refine hI j t seen op (fun a ha => ?_) hseen hgrounded.1 ih
    have hdone := ht.prog_ret ha
    rw [hp] at hdone
    cases hdone

/-- What every call keeps of the surroundings of its thread. -/
theorem Reaches.env_invariant {s₀ s : State Op Ans ε σ α ι} (hs : Reaches h s₀ s) {E : ε → Prop}
    (hE : ∀ op e x, E e → E (h op (e, x)).2.1) {i : ι} (h0 : E (s₀.env i)) : E (s.env i) := by
  refine hs.invariant (I := fun s => E (s.env i)) h0 ?_
  intro t s' j ht hstep
  obtain ⟨op, k, hp, rfl⟩ := step_eq_some hstep
  rcases eq_or_ne j i with rfl | hji
  · rw [State.after_env]
    exact hE op _ _ ht
  · rwa [State.after_env_of_ne _ _ _ _ _ hji.symm]

end Threads

end Schemes
