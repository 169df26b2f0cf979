import Mathlib.Algebra.BigOperators.Fin
import VaultsSyncer.Schemes.Prog

/-! A bounded pool of threads, as message passing over two channels. The main thread starts `n`
    tasks one after another, then a closer, then collects results. A task takes a token from a
    buffered channel of capacity `workers`, runs its program one call at a time against the shared
    state, sends its Boolean result, gives the token back and signs off from the wait group. The
    closer closes the result channel once the wait group is empty; the collector counts what it
    receives until that channel is closed and drained, and then closes the token channel.

        idle ──launch──▶ started ──acquire──▶ running ──exec*, send──▶ sent ──release──▶ released
                                                                        released ──done──▶ finished -/

namespace Schemes.Pool

open Prog

variable {Op : Type} {Ans : Op → Type} {ε σ : Type} {n : ℕ}

/-- Where a task is; while it runs it carries the rest of its program and its own environment. -/
inductive Phase (Op : Type) (Ans : Op → Type) (ε : Type) where
  | idle
  | started
  | running (p : Prog Op Ans Bool) (e : ε)
  | sent (ok : Bool)
  | released (ok : Bool)
  | finished (ok : Bool)

inductive Closer where | absent | waiting | closed
  deriving DecidableEq

/-- What the main thread is given: the tasks, their environments and the number of tokens. -/
structure Setup (Op : Type) (Ans : Op → Type) (ε σ : Type) (n : ℕ) where
  handler : Handler Op Ans (ε × σ)
  task : Fin n → Prog Op Ans Bool
  env : Fin n → ε
  workers : ℕ

structure State (Op : Type) (Ans : Op → Type) (ε σ : Type) (n : ℕ) where
  phase : Fin n → Phase Op Ans ε
  launched : ℕ
  tokens : ℕ
  tokensClosed : Bool
  results : List Bool
  resultsClosed : Bool
  waitGroup : ℕ
  closer : Closer
  success : ℕ
  failure : ℕ
  returned : Bool
  shared : σ

/-- Nothing started yet. -/
def init (s₀ : σ) : State Op Ans ε σ n where
  phase := fun _ => .idle
  launched := 0
  tokens := 0
  tokensClosed := false
  results := []
  resultsClosed := false
  waitGroup := 0
  closer := .absent
  success := 0
  failure := 0
  returned := false
  shared := s₀

/-- The atomic steps of the pool; the scheduler picks any enabled one. -/
inductive Action (n : ℕ) where
  | launch
  | spawnCloser
  | acquire (i : Fin n)
  | exec (i : Fin n)
  | send (i : Fin n)
  | release (i : Fin n)
  | done (i : Fin n)
  | close
  | receive
  | finish

variable (S : Setup Op Ans ε σ n)

/-- One step, `none` where it is not enabled. A send on a closed channel is never enabled. -/
def step (s : State Op Ans ε σ n) : Action n → Option (State Op Ans ε σ n)
  | .launch =>
    if hl : s.launched < n then
      some { s with phase := Function.update s.phase ⟨s.launched, hl⟩ .started
                    launched := s.launched + 1
                    waitGroup := s.waitGroup + 1 }
    else none
  | .spawnCloser =>
    if s.launched = n ∧ s.closer = .absent then some { s with closer := .waiting } else none
  | .acquire i =>
    match s.phase i with
    | .started =>
      if s.tokens < S.workers ∧ s.tokensClosed = false then
        some { s with phase := Function.update s.phase i (.running (S.task i) (S.env i))
                      tokens := s.tokens + 1 }
      else none
    | _ => none
  | .exec i =>
    match s.phase i with
    | .running (.call op k) e =>
      let r := S.handler op (e, s.shared)
      some { s with phase := Function.update s.phase i (.running (k r.1) r.2.1)
                    shared := r.2.2 }
    | _ => none
  | .send i =>
    match s.phase i with
    | .running (.ret ok) _ =>
      if s.results.length < n ∧ s.resultsClosed = false then
        some { s with phase := Function.update s.phase i (.sent ok)
                      results := s.results ++ [ok] }
      else none
    | _ => none
  | .release i =>
    match s.phase i with
    | .sent ok =>
      if 0 < s.tokens then
        some { s with phase := Function.update s.phase i (.released ok)
                      tokens := s.tokens - 1 }
      else none
    | _ => none
  | .done i =>
    match s.phase i with
    | .released ok =>
      some { s with phase := Function.update s.phase i (.finished ok)
                    waitGroup := s.waitGroup - 1 }
    | _ => none
  | .close =>
    if s.closer = .waiting ∧ s.waitGroup = 0 then
      some { s with closer := .closed, resultsClosed := true }
    else none
  | .receive =>
    match s.results with
    | [] => none
    | ok :: rest =>
      if s.closer ≠ .absent ∧ s.returned = false then
        some { s with results := rest
                      success := if ok then s.success + 1 else s.success
                      failure := if ok then s.failure else s.failure + 1 }
      else none
  | .finish =>
    if s.results = [] ∧ s.resultsClosed = true ∧ s.returned = false then
      some { s with returned := true, tokensClosed := true }
    else none

/-- The states some schedule leads to from `init s₀`. -/
inductive Reaches (s₀ : σ) : State Op Ans ε σ n → Prop
  | init : Reaches s₀ (init s₀)
  | step {s s' a} : Reaches s₀ s → step S s a = some s' → Reaches s₀ s'

/-- Follow a given schedule. -/
def follow (s : State Op Ans ε σ n) : List (Action n) → Option (State Op Ans ε σ n)
  | [] => some s
  | a :: as => (step S s a).bind fun s' => follow s' as

theorem Reaches.follow {s₀ : σ} : ∀ {as : List (Action n)} {s s' : State Op Ans ε σ n},
    Reaches S s₀ s → follow S s as = some s' → Reaches S s₀ s'
  | [], s, s', hs, hf => by simpa [Pool.follow] using (Option.some.inj hf) ▸ hs
  | a :: as, s, s', hs, hf => by
      obtain ⟨t, ht, hf'⟩ := Option.bind_eq_some_iff.mp hf
      exact (hs.step ht).follow hf'

/-- What a schedule is seen to lead to is reached. -/
theorem exists_of_follow (s₀ : σ) (as : List (Action n)) {β : Type} (f : State Op Ans ε σ n → β)
    {b : β} (h : (follow S (init s₀) as).map f = some b) : ∃ s, Reaches S s₀ s ∧ f s = b := by
  obtain ⟨s, hs, hf⟩ := Option.map_eq_some_iff.mp h
  exact ⟨s, Reaches.init.follow S hs, hf⟩

/-- Task `i` from its token to its end, with nothing in between. -/
def serve (i : Fin n) (calls : ℕ) : List (Action n) :=
  .acquire i :: List.replicate calls (.exec i) ++ [.send i, .release i, .done i]

/-- What a step does, case by case. -/
inductive Step (s : State Op Ans ε σ n) : State Op Ans ε σ n → Prop
  | launch (hl : s.launched < n) :
      Step s { s with phase := Function.update s.phase ⟨s.launched, hl⟩ .started
                      launched := s.launched + 1
                      waitGroup := s.waitGroup + 1 }
  | spawnCloser (hl : s.launched = n) (hc : s.closer = .absent) :
      Step s { s with closer := .waiting }
  | acquire (i : Fin n) (hp : s.phase i = .started) (ht : s.tokens < S.workers)
      (hc : s.tokensClosed = false) :
      Step s { s with phase := Function.update s.phase i (.running (S.task i) (S.env i))
                      tokens := s.tokens + 1 }
  | exec (i : Fin n) (op : Op) (k : Ans op → Prog Op Ans Bool) (e : ε)
      (hp : s.phase i = .running (.call op k) e) :
      Step s { s with phase := Function.update s.phase i
                        (.running (k (S.handler op (e, s.shared)).1)
                          (S.handler op (e, s.shared)).2.1)
                      shared := (S.handler op (e, s.shared)).2.2 }
  | send (i : Fin n) (ok : Bool) (e : ε) (hp : s.phase i = .running (.ret ok) e)
      (hr : s.results.length < n) (hc : s.resultsClosed = false) :
      Step s { s with phase := Function.update s.phase i (.sent ok)
                      results := s.results ++ [ok] }
  | release (i : Fin n) (ok : Bool) (hp : s.phase i = .sent ok) (ht : 0 < s.tokens) :
      Step s { s with phase := Function.update s.phase i (.released ok)
                      tokens := s.tokens - 1 }
  | done (i : Fin n) (ok : Bool) (hp : s.phase i = .released ok) :
      Step s { s with phase := Function.update s.phase i (.finished ok)
                      waitGroup := s.waitGroup - 1 }
  | close (hc : s.closer = .waiting) (hw : s.waitGroup = 0) :
      Step s { s with closer := .closed, resultsClosed := true }
  | receive (ok : Bool) (rest : List Bool) (hr : s.results = ok :: rest)
      (hc : s.closer ≠ .absent) (hn : s.returned = false) :
      Step s { s with results := rest
                      success := if ok then s.success + 1 else s.success
                      failure := if ok then s.failure else s.failure + 1 }
  | finish (hr : s.results = []) (hc : s.resultsClosed = true) (hn : s.returned = false) :
      Step s { s with returned := true, tokensClosed := true }

theorem step_cases {s s' : State Op Ans ε σ n} {a : Action n} (h : step S s a = some s') :
    Step S s s' := by
  cases a with
  | launch =>
    simp only [step] at h
    split at h
    · cases h; exact .launch ‹_›
    · cases h
  | spawnCloser =>
    simp only [step] at h
    split at h
    · rename_i hc; cases h; exact .spawnCloser hc.1 hc.2
    · cases h
  | acquire i =>
    simp only [step] at h
    split at h
    · rename_i hp
      split at h
      · rename_i hc; cases h; exact .acquire i hp hc.1 hc.2
      · cases h
    · cases h
  | exec i =>
    simp only [step] at h
    split at h
    · rename_i op k e hp; cases h; exact .exec i op k e hp
    · cases h
  | send i =>
    simp only [step] at h
    split at h
    · rename_i ok e hp
      split at h
      · rename_i hc; cases h; exact .send i ok e hp hc.1 hc.2
      · cases h
    · cases h
  | release i =>
    simp only [step] at h
    split at h
    · rename_i ok hp
      split at h
      · rename_i ht; cases h; exact .release i ok hp ht
      · cases h
    · cases h
  | done i =>
    simp only [step] at h
    split at h
    · rename_i ok hp; cases h; exact .done i ok hp
    · cases h
  | close =>
    simp only [step] at h
    split at h
    · rename_i hc; cases h; exact .close hc.1 hc.2
    · cases h
  | receive =>
    simp only [step] at h
    split at h
    · cases h
    · rename_i ok rest hr
      split at h
      · rename_i hc; cases h; exact .receive ok rest hr hc.1 hc.2
      · cases h
  | finish =>
    simp only [step] at h
    split at h
    · rename_i hc; cases h; exact .finish hc.1 hc.2.1 hc.2.2
    · cases h

/-- An invariant of the first state kept by every step holds in every state reached. -/
theorem Reaches.invariant {s₀ : σ} {I : State Op Ans ε σ n → Prop} (h0 : I (Pool.init s₀))
    (hI : ∀ s s', I s → Step S s s' → I s') {s : State Op Ans ε σ n} (h : Reaches S s₀ s) :
    I s := by
  induction h with
  | init => exact h0
  | step _ hs ih => exact hI _ _ ih (step_cases S hs)

/-! ### Accounting: who still runs, and what has been counted -/

/-- Started and not signed off yet. -/
def Phase.pending : Phase Op Ans ε → ℕ
  | .idle => 0
  | .started => 1
  | .running _ _ => 1
  | .sent _ => 1
  | .released _ => 1
  | .finished _ => 0

/-- Has sent the result `b`. -/
def Phase.voted (b : Bool) : Phase Op Ans ε → ℕ
  | .sent ok => if ok = b then 1 else 0
  | .released ok => if ok = b then 1 else 0
  | .finished ok => if ok = b then 1 else 0
  | _ => 0

/-- Moving one task changes a sum over the tasks by that task's share. -/
theorem sum_update (f : Phase Op Ans ε → ℕ) (ph : Fin n → Phase Op Ans ε) (i : Fin n)
    (x : Phase Op Ans ε) :
    (∑ j, f (Function.update ph i x j)) + f (ph i) = (∑ j, f (ph j)) + f x := by
  have hup : ∀ j, f (Function.update ph i x j) = Function.update (fun k => f (ph k)) i (f x) j := by
    intro j
    rcases eq_or_ne j i with rfl | hj
    · simp
    · simp [hj]
  have hsplit := Finset.add_sum_erase Finset.univ (fun k => f (ph k)) (Finset.mem_univ i)
  simp only [hup]
  rw [Finset.sum_update_of_mem (Finset.mem_univ i), Finset.sdiff_singleton_eq_erase, ← hsplit]
  omega

/-- What holds in every state of the pool. -/
structure Inv (s : State Op Ans ε σ n) : Prop where
  launched_le : s.launched ≤ n
  idle_iff : ∀ i : Fin n, s.phase i = .idle ↔ s.launched ≤ i
  waitGroup_eq : s.waitGroup = ∑ i, (s.phase i).pending
  closer_last : s.closer ≠ .absent → s.launched = n
  closed_idle : s.closer = .closed → ∀ i, (s.phase i).pending = 0
  results_closed : s.resultsClosed = true → s.closer = .closed
  successes : s.success + s.results.count true = ∑ i, (s.phase i).voted true
  failures : s.failure + s.results.count false = ∑ i, (s.phase i).voted false
  drained : s.returned = true → s.results = [] ∧ s.resultsClosed = true

theorem inv_init (s₀ : σ) : Inv (init s₀ : State Op Ans ε σ n) where
  launched_le := Nat.zero_le n
  idle_iff := fun i => by simp [init]
  waitGroup_eq := by simp [init, Phase.pending]
  closer_last := fun h => absurd rfl h
  closed_idle := fun h => by simp [init] at h
  results_closed := fun h => by simp [init] at h
  successes := by simp [init, Phase.voted]
  failures := by simp [init, Phase.voted]
  drained := fun h => by simp [init] at h

/-- A task that has been launched stays launched. -/
theorem Inv.idle_iff_update {s : State Op Ans ε σ n} (hs : Inv s) {i : Fin n} {x : Phase Op Ans ε}
    (hidle : s.phase i ≠ .idle) (hx : x ≠ .idle) (j : Fin n) :
    Function.update s.phase i x j = .idle ↔ s.launched ≤ j := by
  rcases eq_or_ne j i with rfl | hj
  · simpa [hx] using (not_congr (hs.idle_iff j)).mp hidle
  · simpa [hj] using hs.idle_iff j

/-- A task that moves on without signing off: nobody else is affected. -/
theorem Inv.move {s : State Op Ans ε σ n} (hs : Inv s) (i : Fin n) (x : Phase Op Ans ε)
    (hidle : s.phase i ≠ .idle) (hx : x ≠ .idle) (hone : (s.phase i).pending = 1)
    (hpend : x.pending = (s.phase i).pending) (hvote : ∀ b, x.voted b = (s.phase i).voted b)
    (tokens : ℕ) (shared : σ) :
    Inv { s with phase := Function.update s.phase i x, tokens := tokens, shared := shared } where
  launched_le := hs.launched_le
  idle_iff := hs.idle_iff_update hidle hx
  waitGroup_eq := by
    have hsum := sum_update Phase.pending s.phase i x
    have := hs.waitGroup_eq
    simp only at hsum ⊢; omega
  closer_last := hs.closer_last
  closed_idle := fun hc => absurd (hs.closed_idle hc i) (by omega)
  results_closed := hs.results_closed
  successes := by
    have hsum := sum_update (Phase.voted true) s.phase i x
    rw [hvote true] at hsum
    have := hs.successes
    simp only at hsum ⊢; omega
  failures := by
    have hsum := sum_update (Phase.voted false) s.phase i x
    rw [hvote false] at hsum
    have := hs.failures
    simp only at hsum ⊢; omega
  drained := hs.drained

theorem inv_step {s s' : State Op Ans ε σ n} (hs : Inv s) (h : Step S s s') : Inv s' := by
  cases h with
  | launch hl =>
    have hidle : s.phase ⟨s.launched, hl⟩ = .idle := (hs.idle_iff _).mpr (le_refl _)
    have hsum := fun f => sum_update f s.phase ⟨s.launched, hl⟩ .started
    simp only [hidle] at hsum
    refine { hs with launched_le := hl, idle_iff := ?_, waitGroup_eq := ?_, closer_last := ?_,
                     closed_idle := ?_, successes := ?_, failures := ?_ }
    · intro j
      rcases eq_or_ne j ⟨s.launched, hl⟩ with rfl | hj
      · simp
      · have hne : (j : ℕ) ≠ s.launched := fun h => hj (Fin.ext h)
        simp only [Function.update_of_ne hj, hs.idle_iff j]
        omega
    · have := hsum Phase.pending
      have := hs.waitGroup_eq
      simp only [Phase.pending] at *; omega
    · intro hc; have := hs.closer_last hc; simp only at *; omega
    · intro hc; have := hs.closer_last (by rw [hc]; decide); omega
    · have := hsum (Phase.voted true)
      have := hs.successes
      simp only [Phase.voted] at *; omega
    · have := hsum (Phase.voted false)
      have := hs.failures
      simp only [Phase.voted] at *; omega
  | spawnCloser hl hc =>
    refine { hs with closer_last := fun _ => hl, closed_idle := ?_, results_closed := ?_ }
    · intro h; cases h
    · intro h; have := hs.results_closed h; simp [hc] at this
  | acquire i hp ht hc =>
    exact hs.move i _ (by simp [hp]) (by simp) (by simp [hp, Phase.pending])
      (by simp [hp, Phase.pending]) (by simp [hp, Phase.voted]) _ _
  | exec i op k e hp =>
    exact hs.move i _ (by simp [hp]) (by simp) (by simp [hp, Phase.pending])
      (by simp [hp, Phase.pending]) (by simp [hp, Phase.voted]) _ _
  | send i ok e hp hr hc =>
    have hsum := fun f => sum_update f s.phase i (.sent ok)
    simp only [hp] at hsum
    refine { hs with idle_iff := hs.idle_iff_update (by simp [hp]) (by simp), waitGroup_eq := ?_
                     closed_idle := ?_, successes := ?_, failures := ?_, drained := ?_ }
    · have := hsum Phase.pending
      have := hs.waitGroup_eq
      simp only [Phase.pending] at *; omega
    · intro hc; have := hs.closed_idle hc i; simp [hp, Phase.pending] at this
    · have := hsum (Phase.voted true)
      have := hs.successes
      simp only [Phase.voted, List.count_append, List.count_singleton] at *
      cases ok <;> simp at * <;> omega
    · have := hsum (Phase.voted false)
      have := hs.failures
      simp only [Phase.voted, List.count_append, List.count_singleton] at *
      cases ok <;> simp at * <;> omega
    · intro hret; simp [(hs.drained hret).2] at hc
  | release i ok hp ht =>
    exact hs.move i _ (by simp [hp]) (by simp) (by simp [hp, Phase.pending])
      (by simp [hp, Phase.pending]) (by simp [hp, Phase.voted]) _ _
  | done i ok hp =>
    have hsum := fun f => sum_update f s.phase i (.finished ok)
    simp only [hp] at hsum
    refine { hs with idle_iff := hs.idle_iff_update (by simp [hp]) (by simp), waitGroup_eq := ?_
                     closed_idle := ?_, successes := ?_, failures := ?_ }
    · have := hsum Phase.pending
      have := hs.waitGroup_eq
      simp only [Phase.pending] at *; omega
    · intro hc; have := hs.closed_idle hc i; simp [hp, Phase.pending] at this
    · have := hsum (Phase.voted true)
      have := hs.successes
      simp only [Phase.voted] at *; omega
    · have := hsum (Phase.voted false)
      have := hs.failures
      simp only [Phase.voted] at *; omega
  | close hc hw =>
    -- an empty wait group means that every task has signed off
    refine { hs with closer_last := fun _ => hs.closer_last (by rw [hc]; decide)
                     closed_idle := fun _ i => ?_, results_closed := fun _ => rfl
                     drained := fun hret => ⟨(hs.drained hret).1, rfl⟩ }
    have hsum := hs.waitGroup_eq
    rw [hw] at hsum
    exact (Finset.sum_eq_zero_iff.mp hsum.symm) i (Finset.mem_univ i)
  | receive ok rest hr hc hn =>
    have h1 := hs.successes
    have h2 := hs.failures
    rw [hr] at h1 h2
    refine { hs with successes := ?_, failures := ?_, drained := ?_ }
    · cases ok <;> simp at * <;> omega
    · cases ok <;> simp at * <;> omega
    · intro hret; simp [hn] at hret
  | finish hr hc hn =>
    exact { hs with drained := fun _ => ⟨hr, hc⟩ }

theorem Reaches.inv {s₀ : σ} {s : State Op Ans ε σ n} (h : Reaches S s₀ s) : Inv s :=
  h.invariant S (inv_init s₀) fun _ _ hs hst => inv_step S hs hst

/-- When the main thread returns, every task has finished. -/
theorem Inv.all_finished {s : State Op Ans ε σ n} (hs : Inv s) (hr : s.returned = true)
    (i : Fin n) : ∃ ok, s.phase i = .finished ok := by
  have hclosed := hs.results_closed (hs.drained hr).2
  have hlast := hs.closer_last (by rw [hclosed]; decide)
  have hpend := hs.closed_idle hclosed i
  cases hp : s.phase i with
  | idle => have := (hs.idle_iff i).mp hp; have := i.isLt; omega
  | finished ok => exact ⟨ok, rfl⟩
  | started | running _ _ | sent _ | released _ => simp [hp, Phase.pending] at hpend

/-- When the main thread returns, it has counted each task once, under the result it sent. -/
theorem Inv.counted {s : State Op Ans ε σ n} (hs : Inv s) (hr : s.returned = true) :
    s.success = ∑ i, (s.phase i).voted true ∧ s.failure = ∑ i, (s.phase i).voted false ∧
      s.success + s.failure = n := by
  have h1 := hs.successes
  have h2 := hs.failures
  rw [(hs.drained hr).1] at h1 h2
  simp only [List.count_nil, add_zero] at h1 h2
  refine ⟨h1, h2, ?_⟩
  rw [h1, h2, ← Finset.sum_add_distrib]
  have hone : ∀ i, (s.phase i).voted true + (s.phase i).voted false = 1 := by
    intro i
    obtain ⟨ok, hok⟩ := hs.all_finished hr i
    cases ok <;> simp [hok, Phase.voted]
  simp [hone]

end Schemes.Pool
