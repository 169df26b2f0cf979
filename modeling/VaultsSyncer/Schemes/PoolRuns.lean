import Mathlib.Logic.Hydra
import VaultsSyncer.Schemes.PoolProtocol

/-! Runs of a bounded pool exist. Each step takes one task further (`Phase.Next`) or leaves the tasks
    alone and takes the main thread further, so no schedule goes on for ever, and with at least one
    token every state that is reached leads to one in which the main thread has returned. -/

namespace Schemes.Pool

open Prog Relation

variable {Op : Type} {Ans : Op → Type} {ε σ : Type} {n : ℕ}

/-! ### Termination -/

/-- The first phase comes right after the second one. -/
inductive Phase.Next : Phase Op Ans ε → Phase Op Ans ε → Prop
  | launch : Next .started .idle
  | acquire (p : Prog Op Ans Bool) (e : ε) : Next (.running p e) .started
  | exec (op : Op) (k : Ans op → Prog Op Ans Bool) (r : Ans op) (e e' : ε) :
      Next (.running (k r) e') (.running (.call op k) e)
  | send (ok : Bool) (e : ε) : Next (.sent ok) (.running (.ret ok) e)
  | release (ok : Bool) : Next (.released ok) (.sent ok)
  | done (ok : Bool) : Next (.finished ok) (.released ok)

theorem Phase.acc_sent (ok : Bool) : Acc Phase.Next (.sent ok : Phase Op Ans ε) := by
  have hfinished : Acc Phase.Next (.finished ok : Phase Op Ans ε) := ⟨_, by rintro x ⟨⟩⟩
  have hreleased : Acc Phase.Next (.released ok : Phase Op Ans ε) := ⟨_, by rintro x ⟨⟩; exact hfinished⟩
  exact ⟨_, by rintro x ⟨⟩; exact hreleased⟩

theorem Phase.acc_running (p : Prog Op Ans Bool) (e : ε) : Acc Phase.Next (.running p e) := by
  induction p generalizing e with
  | ret ok => exact ⟨_, by rintro x ⟨⟩; exact acc_sent ok⟩
  | call op k ih => exact ⟨_, by rintro x ⟨⟩; exact ih _ _⟩

/-- Every task comes to its end. -/
theorem Phase.next_wf : WellFounded (Phase.Next : Phase Op Ans ε → Phase Op Ans ε → Prop) := by
  have hstarted : Acc Phase.Next (.started : Phase Op Ans ε) :=
    ⟨_, by rintro x ⟨⟩; exact acc_running _ _⟩
  have hreleased (ok : Bool) : Acc Phase.Next (.released ok : Phase Op Ans ε) :=
    (acc_sent ok).inv (.release ok)
  refine ⟨fun ph => ?_⟩
  cases ph with
  | idle => exact ⟨_, by rintro x ⟨⟩; exact hstarted⟩
  | started => exact hstarted
  | running p e => exact acc_running p e
  | sent ok => exact acc_sent ok
  | released ok => exact hreleased ok
  | finished ok => exact (hreleased ok).inv (.done ok)

/-- How much the main thread and the closer have left to do. -/
def State.chores (s : State Op Ans ε σ n) : ℕ :=
  (match s.closer with | .absent => 2 | .waiting => 1 | .closed => 0) + s.results.length +
    if s.returned then 0 else 1

/-- What is left to do: the phases of the tasks, then the chores. -/
def State.left (s : State Op Ans ε σ n) : Multiset (Phase Op Ans ε) × ℕ :=
  (Finset.univ.val.map s.phase, s.chores)

def Less : Multiset (Phase Op Ans ε) × ℕ → Multiset (Phase Op Ans ε) × ℕ → Prop :=
  Prod.Lex (CutExpand Phase.Next) (· < ·)

theorem less_wf : WellFounded
    (Less : Multiset (Phase Op Ans ε) × ℕ → Multiset (Phase Op Ans ε) × ℕ → Prop) :=
  WellFounded.prod_lex Phase.next_wf.cutExpand Nat.lt_wfRel.wf

/-- One task moves on. -/
theorem cutExpand_update (ph : Fin n → Phase Op Ans ε) (i : Fin n) {x : Phase Op Ans ε}
    (h : x.Next (ph i)) : CutExpand Phase.Next (Finset.univ.val.map (Function.update ph i x))
      (Finset.univ.val.map ph) := by
  have hsplit (f : Fin n → Phase Op Ans ε) : (Finset.univ.val.map f : Multiset _) =
      {f i} + (Finset.univ.erase i).val.map f := by
    rw [Multiset.singleton_add, ← Multiset.map_cons,
      ← Finset.insert_val_of_notMem (Finset.notMem_erase i _), Finset.insert_erase (Finset.mem_univ i)]
  have hothers : (Finset.univ.erase i).val.map (Function.update ph i x) =
      (Finset.univ.erase i).val.map ph := by
    refine Multiset.map_congr rfl fun j hj => ?_
    have hne : j ≠ i := (Finset.mem_erase.mp (Finset.mem_val.mp hj)).1
    rw [Function.update_of_ne hne]
  rw [hsplit, hsplit ph, hothers, Function.update_self]
  exact cutExpand_single_add h _

variable {S : Setup Op Ans ε σ n} {s₀ : σ}

/-- No schedule goes on for ever. -/
theorem Step.less {s s' : State Op Ans ε σ n} (hinv : Inv s) (h : Step S s s') :
    Less s'.left s.left := by
  cases h with
  | launch hl =>
    have hidle : s.phase ⟨s.launched, hl⟩ = .idle := (hinv.idle_iff _).mpr (le_refl _)
    exact .left _ _ (cutExpand_update _ _ (hidle ▸ .launch))
  | acquire i hp _ _ => exact .left _ _ (cutExpand_update _ i (hp ▸ .acquire _ _))
  | exec i op k e hp => exact .left _ _ (cutExpand_update _ i (hp ▸ .exec op k _ e _))
  | send i ok e hp _ _ => exact .left _ _ (cutExpand_update _ i (hp ▸ .send ok e))
  | release i ok hp _ => exact .left _ _ (cutExpand_update _ i (hp ▸ .release ok))
  | done i ok hp => exact .left _ _ (cutExpand_update _ i (hp ▸ .done ok))
  | spawnCloser _ hc =>
    refine .right _ ?_
    simp only [State.chores, hc]
    omega
  | close hc _ =>
    refine .right _ ?_
    simp only [State.chores, hc]
    omega
  | receive ok rest hr _ _ =>
    refine .right _ ?_
    simp only [State.chores, hr, List.length_cons]
    omega
  | finish _ _ hn =>
    refine .right _ ?_
    simp only [State.chores, hn]
    simp

/-! ### Existence -/

/-- With at least one token, every state that is reached leads to one where the main thread has
    returned. -/
theorem Reaches.exists_returned (hworkers : 1 ≤ S.workers) {s : State Op Ans ε σ n}
    (hs : Reaches S s₀ s) : ∃ s', Reaches S s₀ s' ∧ s'.returned = true := by
  induction hm : s.left using less_wf.induction generalizing s with
  | _ m ih =>
    subst hm
    by_cases hret : s.returned = true
    · exact ⟨s, hs, hret⟩
    · obtain ⟨a, s', hstep⟩ := hs.progress hworkers (by simpa using hret)
      exact ih _ (Step.less hs.inv (step_cases S hstep)) (hs.step hstep) rfl

/-- The first `m` tasks have been launched, and nothing else has happened. -/
theorem exists_launched (S : Setup Op Ans ε σ n) (s₀ : σ) {m : ℕ} (hm : m ≤ n) :
    ∃ s, Reaches S s₀ s ∧ s.launched = m ∧ (∀ i : Fin n, ↑i < m → s.phase i = .started) ∧
      s.tokens = 0 ∧ s.tokensClosed = false ∧ s.shared = s₀ := by
  induction m with
  | zero => exact ⟨init s₀, .init, rfl, fun _ h => absurd h (Nat.not_lt_zero _), rfl, rfl, rfl⟩
  | succ m ih =>
    obtain ⟨s, hs, hl, hstarted, htokens, hopen, hshared⟩ := ih (Nat.le_of_succ_le hm)
    have hlt : s.launched < n := by omega
    have hstep : Pool.step S s .launch = some { s with
        phase := Function.update s.phase ⟨s.launched, hlt⟩ .started
        launched := s.launched + 1
        waitGroup := s.waitGroup + 1 } := dif_pos hlt
    refine ⟨_, hs.step hstep, by simp [hl], ?_, htokens, hopen, hshared⟩
    intro i hi
    rcases eq_or_ne i ⟨s.launched, hlt⟩ with rfl | hne
    · simp
    · have hlt' : (i : ℕ) < m := by
        have : (i : ℕ) ≠ s.launched := fun h => hne (Fin.ext h)
        omega
      simpa [hne] using hstarted i hlt'

/-- With at least one token, any task may be the first to run. -/
theorem exists_running (hworkers : 1 ≤ S.workers) (s₀ : σ) (i : Fin n) : ∃ s, Reaches S s₀ s ∧
    s.phase i = .running (S.task i) (S.env i) ∧ s.shared = s₀ := by
  obtain ⟨s, hs, -, hstarted, htokens, hopen, hshared⟩ := exists_launched S s₀ (le_refl n)
  have hp := hstarted i i.isLt
  have hfree : s.tokens < S.workers ∧ s.tokensClosed = false := ⟨by omega, hopen⟩
  have hstep : Pool.step S s (.acquire i) = some { s with
      phase := Function.update s.phase i (.running (S.task i) (S.env i))
      tokens := s.tokens + 1 } := by
    simp only [Pool.step, hp]
    exact if_pos hfree
  exact ⟨_, hs.step hstep, by simp, hshared⟩

/-- A running task may make its next call. -/
theorem Reaches.exec {s : State Op Ans ε σ n} (hs : Reaches S s₀ s) {i : Fin n} {op : Op}
    {k : Ans op → Prog Op Ans Bool} {e : ε} (hp : s.phase i = .running (.call op k) e) :
    ∃ s', Reaches S s₀ s' ∧ s'.phase i = .running (k (S.handler op (e, s.shared)).1)
        (S.handler op (e, s.shared)).2.1 ∧ s'.shared = (S.handler op (e, s.shared)).2.2 := by
  have hstep : Pool.step S s (.exec i) = some { s with
      phase := Function.update s.phase i (.running (k (S.handler op (e, s.shared)).1)
        (S.handler op (e, s.shared)).2.1)
      shared := (S.handler op (e, s.shared)).2.2 } := by
    simp only [Pool.step, hp]
  exact ⟨_, hs.step hstep, by simp, rfl⟩

end Schemes.Pool
