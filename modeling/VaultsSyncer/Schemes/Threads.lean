import Mathlib.Data.Fintype.Basic
import VaultsSyncer.Schemes.Prog

/-! Threads side by side, one call at a time. Each thread has a program and an environment of its own,
    the state is shared; the scheduler lets any thread that is not done make its next call. There is
    no lock, so between two calls of one thread the others may do anything.

        Reaches h s₀ s        some schedule leads from `s₀` to `s`
        Reaches.invariant     what every call keeps holds in every state reached
        Reaches.advance       one thread alone may run a part of its program to the end
        Reaches.advance_each  so may each of them, one after another -/

namespace Schemes.Threads

open Prog

variable {Op : Type} {Ans : Op → Type} {ε σ α β ι : Type} [DecidableEq ι]

structure State (Op : Type) (Ans : Op → Type) (ε σ α ι : Type) where
  prog : ι → Prog Op Ans α
  env : ι → ε
  shared : σ

/-- Every thread is done. -/
def State.Finished (s : State Op Ans ε σ α ι) : Prop := ∀ i, ∃ a, s.prog i = .ret a

/-- Thread `i` has run `p` and goes on with what its value selects. -/
def State.after (h : Handler Op Ans (ε × σ)) (s : State Op Ans ε σ α ι) (i : ι)
    (p : Prog Op Ans β) (f : β → Prog Op Ans α) : State Op Ans ε σ α ι where
  prog := Function.update s.prog i (f (p.run h (s.env i, s.shared)).1)
  env := Function.update s.env i (p.run h (s.env i, s.shared)).2.1
  shared := (p.run h (s.env i, s.shared)).2.2

variable (h : Handler Op Ans (ε × σ))

section After

variable (s : State Op Ans ε σ α ι) (i : ι) (p : Prog Op Ans β) (f : β → Prog Op Ans α)

@[simp] theorem State.after_shared :
    (s.after h i p f).shared = (p.run h (s.env i, s.shared)).2.2 := rfl

@[simp] theorem State.after_prog :
    (s.after h i p f).prog i = f (p.run h (s.env i, s.shared)).1 := by simp [after]

@[simp] theorem State.after_env : (s.after h i p f).env i = (p.run h (s.env i, s.shared)).2.1 := by
  simp [after]

theorem State.after_prog_of_ne {j : ι} (hj : j ≠ i) : (s.after h i p f).prog j = s.prog j := by
  simp [after, hj]

theorem State.after_env_of_ne {j : ι} (hj : j ≠ i) : (s.after h i p f).env j = s.env j := by
  simp [after, hj]

end After

/-- The next call of thread `i`, `none` where it is done. -/
def step (s : State Op Ans ε σ α ι) (i : ι) : Option (State Op Ans ε σ α ι) :=
  match s.prog i with
  | .ret _ => none
  | .call op k => some (s.after h i (perform op) k)

/-- The states some schedule leads to. -/
inductive Reaches (s₀ : State Op Ans ε σ α ι) : State Op Ans ε σ α ι → Prop
  | refl : Reaches s₀ s₀
  | step {s s' i} : Reaches s₀ s → step h s i = some s' → Reaches s₀ s'

/-- Follow a given schedule. -/
def follow (s : State Op Ans ε σ α ι) : List ι → Option (State Op Ans ε σ α ι)
  | [] => some s
  | i :: is => (step h s i).bind fun s' => follow s' is

variable {h}

theorem step_eq_some {s s' : State Op Ans ε σ α ι} {i : ι} (hstep : step h s i = some s') :
    ∃ op k, s.prog i = .call op k ∧ s' = s.after h i (perform op) k := by
  rcases hp : s.prog i with a | ⟨op, k⟩
  · simp [step, hp] at hstep
  · simp only [step, hp, Option.some.injEq] at hstep
    exact ⟨op, k, rfl, hstep.symm⟩

theorem Reaches.trans {s₀ s s' : State Op Ans ε σ α ι} (hs : Reaches h s₀ s) (hs' : Reaches h s s') :
    Reaches h s₀ s' := by
  induction hs' with
  | refl => exact hs
  | step _ hstep ih => exact ih.step hstep

theorem Reaches.follow {s₀ : State Op Ans ε σ α ι} : ∀ {is : List ι} {s s' : State Op Ans ε σ α ι},
    Reaches h s₀ s → follow h s is = some s' → Reaches h s₀ s'
  | [], s, s', hs, hf => by simpa [Threads.follow] using (Option.some.inj hf) ▸ hs
  | i :: is, s, s', hs, hf => by
      obtain ⟨t, ht, hf'⟩ := Option.bind_eq_some_iff.mp hf
      exact (hs.step ht).follow hf'

/-- What a schedule is seen to lead to is reached. -/
theorem exists_of_follow {s₀ : State Op Ans ε σ α ι} (is : List ι) {γ : Type}
    (f : State Op Ans ε σ α ι → γ) {c : γ} (hf : (Threads.follow h s₀ is).map f = some c) :
    ∃ s, Reaches h s₀ s ∧ f s = c := by
  obtain ⟨s, hs, hc⟩ := Option.map_eq_some_iff.mp hf
  exact ⟨s, Reaches.refl.follow hs, hc⟩

/-! ### Invariants -/

theorem Reaches.invariant {s₀ s : State Op Ans ε σ α ι} {I : State Op Ans ε σ α ι → Prop}
    (hs : Reaches h s₀ s) (h0 : I s₀) (hI : ∀ s s' i, I s → Threads.step h s i = some s' → I s') :
    I s := by
  induction hs with
  | refl => exact h0
  | step _ hstep ih => exact hI _ _ _ ih hstep

/-- The calls a thread still has to make are among those it had to make. -/
theorem Reaches.allCalls {s₀ s : State Op Ans ε σ α ι} {P : ι → Op → Prop} (hs : Reaches h s₀ s)
    (h0 : ∀ i, (s₀.prog i).AllCalls (P i)) : ∀ i, (s.prog i).AllCalls (P i) := by
  refine hs.invariant (I := fun s => ∀ i, (s.prog i).AllCalls (P i)) h0 ?_
  intro s s' j hall hstep i
  obtain ⟨op, k, hp, rfl⟩ := step_eq_some hstep
  rcases eq_or_ne i j with rfl | hij
  · have hcall := hall i
    rw [hp] at hcall
    simpa [State.after] using hcall.2 _
  · simpa [State.after, hij] using hall i

/-- A property of the shared state that every call the threads may make keeps. -/
theorem Reaches.shared_invariant {s₀ s : State Op Ans ε σ α ι} {P : ι → Op → Prop} {I : σ → Prop}
    (hs : Reaches h s₀ s) (hP : ∀ i, (s₀.prog i).AllCalls (P i)) (h0 : I s₀.shared)
    (hI : ∀ i op e x, P i op → I x → I (h op (e, x)).2.2) : I s.shared := by
  have hboth := hs.invariant
    (I := fun s => I s.shared ∧ ∀ i, (s.prog i).AllCalls (P i)) ⟨h0, hP⟩ ?_
  · exact hboth.1
  intro s s' j hall hstep
  have hcalls := (Reaches.refl.step hstep).allCalls hall.2
  obtain ⟨op, k, hp, rfl⟩ := step_eq_some hstep
  have hcall := hall.2 j
  rw [hp] at hcall
  exact ⟨hI j op (s.env j) s.shared hcall.1 hall.1, hcalls⟩

/-! ### One thread alone -/

/-- A thread may run the first part of its program with nothing in between. -/
theorem Reaches.advance {s₀ : State Op Ans ε σ α ι} {i : ι} {f : β → Prog Op Ans α} :
    ∀ {p : Prog Op Ans β} {s : State Op Ans ε σ α ι}, Reaches h s₀ s → s.prog i = p >>= f →
      Reaches h s₀ (s.after h i p f) := by
  intro p
  induction p with
  | ret a =>
    intro s hs hp
    have hsame : s.after h i (Prog.ret a) f = s := by
      rw [ret_bind] at hp
      rcases s with ⟨prog, env, shared⟩
      simp only [State.after, run_ret, State.mk.injEq, Function.update_eq_self_iff, and_true]
      exact hp.symm
    rw [hsame]
    exact hs
  | call op k ih =>
    intro s hs hp
    have hstep : Threads.step h s i = some (s.after h i (perform op) fun r => k r >>= f) := by
      rw [call_bind] at hp
      simp only [Threads.step, hp]
    have hnext := ih (h op (s.env i, s.shared)).1 (hs.step hstep) (by simp [State.after, perform])
    simpa [State.after, perform] using hnext

/-- Where that leaves the thread, the others and the shared state. -/
theorem Reaches.exists_after {s₀ s : State Op Ans ε σ α ι} (hs : Reaches h s₀ s) {i : ι}
    {p : Prog Op Ans β} {f : β → Prog Op Ans α} (hp : s.prog i = p >>= f) {b : β} {e : ε} {x : σ}
    (hrun : p.run h (s.env i, s.shared) = (b, e, x)) :
    ∃ s', Reaches h s₀ s' ∧ s'.prog i = f b ∧ s'.env i = e ∧ s'.shared = x ∧
      ∀ j, j ≠ i → s'.prog j = s.prog j ∧ s'.env j = s.env j := by
  refine ⟨_, hs.advance hp, ?_, ?_, ?_, ?_⟩
  · rw [State.after_prog, hrun]
  · rw [State.after_env, hrun]
  · rw [State.after_shared, hrun]
  · intro j hj
    exact ⟨State.after_prog_of_ne h s i p f hj, State.after_env_of_ne h s i p f hj⟩

/-! ### One thread after another -/

section Each

variable {s₀ s : State Op Ans ε σ α ι} {p : ι → Prog Op Ans β} {f : ι → β → Prog Op Ans α}
  {K : ι → β → ε → Prop} {J : Finset ι → σ → Prop}

/-- The threads of `T` run their first parts one after another; `J T` is what holds of the shared
    state once those of `T` have, `K i` of what thread `i` is left with. -/
theorem Reaches.advance_finset (hs : Reaches h s₀ s) (hp : ∀ i, s.prog i = p i >>= f i)
    (h0 : J ∅ s.shared)
    (hJ : ∀ i T x, i ∉ T → J T x → J (insert i T) ((p i).run h (s.env i, x)).2.2 ∧
      K i ((p i).run h (s.env i, x)).1 ((p i).run h (s.env i, x)).2.1) (T : Finset ι) :
    ∃ s', Reaches h s₀ s' ∧ J T s'.shared ∧
      (∀ i ∈ T, ∃ b, K i b (s'.env i) ∧ s'.prog i = f i b) ∧
      ∀ i ∉ T, s'.prog i = s.prog i ∧ s'.env i = s.env i := by
  induction T using Finset.induction_on with
  | empty => exact ⟨s, hs, h0, by simp, by simp⟩
  | insert i T hi ih =>
    obtain ⟨t, ht, hJt, hdone, hrest⟩ := ih
    obtain ⟨hti, hei⟩ := hrest i hi
    obtain ⟨hJ', hK⟩ := hJ i T t.shared hi hJt
    rw [← hei] at hJ' hK
    refine ⟨t.after h i (p i) (f i), ht.advance (hti.trans (hp i)), by simpa using hJ', ?_, ?_⟩
    · intro j hj
      rcases eq_or_ne j i with rfl | hji
      · exact ⟨_, by simpa using hK, State.after_prog ..⟩
      · rw [State.after_prog_of_ne _ _ _ _ _ hji, State.after_env_of_ne _ _ _ _ _ hji]
        exact hdone j (Finset.mem_of_mem_insert_of_ne hj hji)
    · intro j hj
      rw [Finset.mem_insert, not_or] at hj
      rw [State.after_prog_of_ne _ _ _ _ _ hj.1, State.after_env_of_ne _ _ _ _ _ hj.1]
      exact hrest j hj.2

theorem Reaches.advance_each [Fintype ι] (hs : Reaches h s₀ s) (hp : ∀ i, s.prog i = p i >>= f i)
    (h0 : J ∅ s.shared)
    (hJ : ∀ i T x, i ∉ T → J T x → J (insert i T) ((p i).run h (s.env i, x)).2.2 ∧
      K i ((p i).run h (s.env i, x)).1 ((p i).run h (s.env i, x)).2.1) :
    ∃ s', Reaches h s₀ s' ∧ J Finset.univ s'.shared ∧
      ∀ i, ∃ b, K i b (s'.env i) ∧ s'.prog i = f i b := by
  obtain ⟨s', hs', hJ', hdone, -⟩ := hs.advance_finset hp h0 hJ Finset.univ
  exact ⟨s', hs', hJ', fun i => hdone i (Finset.mem_univ i)⟩

end Each

/-- All threads can run to their ends. -/
theorem exists_finished [Fintype ι] (s : State Op Ans ε σ α ι) :
    ∃ s', Reaches h s s' ∧ s'.Finished := by
  obtain ⟨s', hs', -, hdone⟩ := (Reaches.refl : Reaches h s s).advance_each
    (p := s.prog) (f := fun _ => Prog.ret) (K := fun _ _ _ => True) (J := fun _ _ => True)
    (fun i => (bind_ret _).symm) trivial fun _ _ _ _ _ => ⟨trivial, trivial⟩
  refine ⟨s', hs', fun i => ?_⟩
  obtain ⟨a, -, ha⟩ := hdone i
  exact ⟨a, ha⟩

end Schemes.Threads
