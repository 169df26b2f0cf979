import Mathlib.Algebra.Order.BigOperators.Group.Finset
import Mathlib.Data.Bool.Count
import VaultsSyncer.Schemes.Pool

/-! The protocol of a bounded pool, over every schedule. A task holds a token from its acquire to its
    release, so the tokens taken are the tasks that hold one, and never more than there are. No task
    sends on a channel that has been closed, the result channel is never full when a task sends, and
    with at least one token some step is always enabled until the main thread returns. What a
    schedule has done for a task is read off its phase: the phases come in one order (`Phase.rank`)
    and each move is made once. -/

namespace Schemes.Pool

open Prog

variable {Op : Type} {Ans : Op → Type} {ε σ : Type} {n : ℕ}

deriving instance DecidableEq for Action

/-- Between its acquire and its release. -/
def Phase.holding : Phase Op Ans ε → ℕ
  | .running _ _ => 1
  | .sent _ => 1
  | _ => 0

@[simp] theorem Phase.holding_idle : (idle : Phase Op Ans ε).holding = 0 := rfl

@[simp] theorem Phase.holding_started : (started : Phase Op Ans ε).holding = 0 := rfl

@[simp] theorem Phase.holding_running (p : Prog Op Ans Bool) (e : ε) :
    (running p e).holding = 1 := rfl

@[simp] theorem Phase.holding_sent (ok : Bool) : (sent ok : Phase Op Ans ε).holding = 1 := rfl

@[simp] theorem Phase.holding_released (ok : Bool) :
    (released ok : Phase Op Ans ε).holding = 0 := rfl

@[simp] theorem Phase.holding_finished (ok : Bool) :
    (finished ok : Phase Op Ans ε).holding = 0 := rfl

/-- The result a task has sent. -/
def Phase.outcome : Phase Op Ans ε → Option Bool
  | .sent ok => some ok
  | .released ok => some ok
  | .finished ok => some ok
  | _ => none

/-- How far a task has come. -/
def Phase.rank : Phase Op Ans ε → ℕ
  | .idle => 0
  | .started => 1
  | .running _ _ => 2
  | .sent _ => 3
  | .released _ => 4
  | .finished _ => 5

/-- The task that an action takes to a new rank, and that rank. -/
def Action.move : Action n → Option (Fin n × ℕ)
  | .acquire i => some (i, 2)
  | .send i => some (i, 3)
  | .release i => some (i, 4)
  | .done i => some (i, 5)
  | _ => none

theorem Action.move_injective {a b : Action n} {m : Fin n × ℕ} (ha : a.move = some m)
    (hb : b.move = some m) : a = b := by
  cases a <;> cases b <;> simp_all [Action.move] <;> grind

variable (S : Setup Op Ans ε σ n)

/-- How many tasks are between their acquire and their release. -/
def State.holders (s : State Op Ans ε σ n) : ℕ := ∑ i, (s.phase i).holding

/-- Under the schedule `as`, the program of task `i` returned `ok` and the task sent that. -/
def Returned (s₀ : σ) (as : List (Action n)) (i : Fin n) (ok : Bool) : Prop :=
  ∃ pre post t e, as = pre ++ .send i :: post ∧ follow S (init s₀) pre = some t ∧
    t.phase i = .running (.ret ok) e

/-- Some step is enabled. -/
def CanStep (s : State Op Ans ε σ n) : Prop := ∃ a s', step S s a = some s'

/-! ### Schedules from their end -/

theorem follow_append (as bs : List (Action n)) (s : State Op Ans ε σ n) :
    follow S s (as ++ bs) = (follow S s as).bind fun t => follow S t bs := by
  induction as generalizing s with
  | nil => rfl
  | cons a as ih =>
    simp only [List.cons_append, follow, Option.bind_assoc]
    congr 1
    funext t
    exact ih t

/-- What holds of the empty schedule and is kept by one more action holds of every schedule and the
    state it leads to. -/
theorem follow_invariant {s₀ : σ} {I : List (Action n) → State Op Ans ε σ n → Prop}
    (h0 : I [] (init s₀))
    (hI : ∀ as s a s', follow S (init s₀) as = some s → I as s → step S s a = some s' →
      I (as ++ [a]) s') :
    ∀ {as : List (Action n)} {s : State Op Ans ε σ n}, follow S (init s₀) as = some s → I as s := by
  intro as
  induction as using List.reverseRecOn with
  | nil =>
    intro s hs
    cases hs
    exact h0
  | append_singleton as a ih =>
    intro s hs
    rw [follow_append] at hs
    obtain ⟨t, ht, hstep⟩ := Option.bind_eq_some_iff.mp hs
    have hstep : step S t a = some s := by simpa [follow] using hstep
    exact hI as t a s ht (ih ht) hstep

/-! ### Tokens -/

/-- The tokens taken, and which channels are closed. -/
structure Tokens (s : State Op Ans ε σ n) : Prop where
  taken : s.tokens = s.holders
  bounded : s.tokens ≤ S.workers
  closed_iff : s.tokensClosed = s.returned
  results_closed : s.closer = .closed → s.resultsClosed = true

theorem tokens_init (s₀ : σ) : Tokens S (init s₀) where
  taken := by simp [init, State.holders, Phase.holding]
  bounded := Nat.zero_le _
  closed_iff := rfl
  results_closed := fun h => by cases h

variable {S}

theorem Tokens.step {s s' : State Op Ans ε σ n} (hinv : Inv s) (hs : Tokens S s)
    (h : Step S s s') : Tokens S s' := by
  have htaken := hs.taken
  have hbound := hs.bounded
  -- a step that moves task `i` changes the number of holders by that task's share
  have hmove := fun i x => sum_update Phase.holding s.phase i x
  simp only [State.holders] at htaken
  cases h with
  | launch hl =>
    have hidle : s.phase ⟨s.launched, hl⟩ = .idle := (hinv.idle_iff _).mpr (le_refl _)
    have hsum := hmove ⟨s.launched, hl⟩ .started
    rw [hidle] at hsum
    exact { hs with taken := htaken.trans hsum.symm }
  | spawnCloser hl hc => exact { hs with results_closed := fun h => by cases h }
  | acquire i hp ht hc =>
    have hsum := hmove i (.running (S.task i) (S.env i))
    simp only [hp, Phase.holding_started, Phase.holding_running] at hsum
    refine { hs with taken := ?_, bounded := ht }
    simp only [State.holders]; omega
  | exec i op k e hp =>
    have hsum := hmove i (.running (k (S.handler op (e, s.shared)).1) (S.handler op (e, s.shared)).2.1)
    simp only [hp, Phase.holding_running] at hsum
    refine { hs with taken := ?_ }
    simp only [State.holders]; omega
  | send i ok e hp hr hc =>
    have hsum := hmove i (.sent ok)
    simp only [hp, Phase.holding_running, Phase.holding_sent] at hsum
    refine { hs with taken := ?_ }
    simp only [State.holders]; omega
  | release i ok hp ht =>
    have hsum := hmove i (.released ok)
    simp only [hp, Phase.holding_sent, Phase.holding_released] at hsum
    refine { hs with taken := ?_, bounded := ?_ }
    · simp only [State.holders]; omega
    · simp only; omega
  | done i ok hp =>
    have hsum := hmove i (.finished ok)
    simp only [hp, Phase.holding_released, Phase.holding_finished] at hsum
    refine { hs with taken := ?_ }
    simp only [State.holders]; omega
  | close hc hw => exact { hs with results_closed := fun _ => rfl }
  | receive ok rest hr hc hn => exact { hs with }
  | finish hr hc hn => exact { hs with closed_iff := rfl }

theorem Reaches.tokens {s₀ : σ} {s : State Op Ans ε σ n} (h : Reaches S s₀ s) : Tokens S s := by
  induction h with
  | init => exact tokens_init S s₀
  | step hr hs ih => exact ih.step hr.inv (step_cases S hs)

/-! ### Channels -/

/-- A task that is about to acquire finds the token channel open: the main thread is still there. -/
theorem Reaches.tokens_open {s₀ : σ} {s : State Op Ans ε σ n} (h : Reaches S s₀ s) {i : Fin n}
    (hp : s.phase i = .started) : s.tokensClosed = false := by
  by_contra hclosed
  rw [Bool.not_eq_false, h.tokens.closed_iff] at hclosed
  obtain ⟨ok, hok⟩ := h.inv.all_finished hclosed i
  simp [hok] at hp

/-- A task that is about to send its result finds the result channel open, since it has not signed
    off, and with room, since the channel has a place for each task. -/
theorem Reaches.results_open {s₀ : σ} {s : State Op Ans ε σ n} (h : Reaches S s₀ s) {i : Fin n}
    {p : Prog Op Ans Bool} {e : ε} (hp : s.phase i = .running p e) :
    s.resultsClosed = false ∧ s.results.length < n := by
  constructor
  · by_contra hclosed
    rw [Bool.not_eq_false] at hclosed
    have hpend := h.inv.closed_idle (h.inv.results_closed hclosed) i
    simp [hp, Phase.pending] at hpend
  · have hsucc := h.inv.successes
    have hfail := h.inv.failures
    have hvotes : ∑ j, ((s.phase j).voted true + (s.phase j).voted false) < ∑ _j : Fin n, 1 := by
      refine Finset.sum_lt_sum (fun j _ => ?_)
        ⟨i, Finset.mem_univ i, by simp [hp, Phase.voted]⟩
      cases s.phase j with
      | idle | started | running _ _ => simp [Phase.voted]
      | sent ok | released ok | finished ok => cases ok <;> simp [Phase.voted]
    rw [Finset.sum_add_distrib] at hvotes
    have hlen := List.count_true_add_count_false s.results
    simp only [Finset.sum_const, Finset.card_univ, Fintype.card_fin, smul_eq_mul, mul_one] at hvotes
    omega

/-! ### Progress -/

/-- A task that holds a token can move: it makes its next call, sends its result or releases. -/
theorem Reaches.holder_moves {s₀ : σ} {s : State Op Ans ε σ n} (h : Reaches S s₀ s) {i : Fin n}
    (hi : 0 < (s.phase i).holding) : CanStep S s := by
  cases hp : s.phase i with
  | idle | started | released _ | finished _ => simp [hp] at hi
  | running p e =>
    cases p with
    | call op k => exact ⟨.exec i, _, by simp [Pool.step, hp]; rfl⟩
    | ret ok =>
      obtain ⟨hopen, hroom⟩ := h.results_open hp
      exact ⟨.send i, _, by simp [Pool.step, hp, hopen, hroom]; rfl⟩
  | sent ok =>
    have htoken : 0 < s.tokens := by
      rw [h.tokens.taken]
      exact Finset.sum_pos' (fun _ _ => Nat.zero_le _) ⟨i, Finset.mem_univ i, hi⟩
    exact ⟨.release i, _, by simp [Pool.step, hp, htoken]; rfl⟩

/-- While some task has not signed off, a step is enabled: if no task holds a token then all tokens
    are free, so a task that waits for one can take it. -/
theorem Reaches.pending_moves {s₀ : σ} {s : State Op Ans ε σ n} (h : Reaches S s₀ s)
    (hworkers : 1 ≤ S.workers) {i : Fin n} (hi : (s.phase i).pending ≠ 0) :
    CanStep S s := by
  by_cases hhold : ∃ j, 0 < (s.phase j).holding
  · obtain ⟨j, hj⟩ := hhold
    exact h.holder_moves hj
  · have hnone : ∀ j, (s.phase j).holding = 0 := by simpa using hhold
    have hfree : s.tokens < S.workers := by
      rw [h.tokens.taken, State.holders]
      simp only [hnone, Finset.sum_const_zero]
      omega
    cases hp : s.phase i with
    | idle | finished _ => simp [hp, Phase.pending] at hi
    | started =>
      have hopen := h.tokens_open hp
      exact ⟨.acquire i, _, by simp [Pool.step, hp, hfree, hopen]; rfl⟩
    | running _ _ | sent _ => have := hnone i; simp [hp] at this
    | released ok => exact ⟨.done i, _, by simp [Pool.step, hp]; rfl⟩

/-- With at least one token, only the states in which the main thread has returned are final. -/
theorem Reaches.progress {s₀ : σ} {s : State Op Ans ε σ n} (h : Reaches S s₀ s)
    (hworkers : 1 ≤ S.workers) (hret : s.returned = false) : CanStep S s := by
  rcases Nat.lt_or_ge s.launched n with hl | hl
  · exact ⟨.launch, _, by simp [Pool.step, hl]; rfl⟩
  have hlaunched : s.launched = n := le_antisymm h.inv.launched_le hl
  by_cases habsent : s.closer = .absent
  · exact ⟨.spawnCloser, _, by simp [Pool.step, hlaunched, habsent]; rfl⟩
  cases hres : s.results with
  | cons ok rest => exact ⟨.receive, _, by simp [Pool.step, hres, habsent, hret]; rfl⟩
  | nil =>
    cases hc : s.closer with
    | absent => exact absurd hc habsent
    | closed =>
      have hclosed := h.tokens.results_closed hc
      exact ⟨.finish, _, by simp [Pool.step, hres, hclosed, hret]; rfl⟩
    | waiting =>
      by_cases hwait : s.waitGroup = 0
      · exact ⟨.close, _, by simp [Pool.step, hc, hwait]; rfl⟩
      · rw [h.inv.waitGroup_eq] at hwait
        obtain ⟨i, -, hi⟩ := Finset.exists_ne_zero_of_sum_ne_zero hwait
        exact h.pending_moves hworkers hi

/-! ### What a schedule has done -/

/-- What an action makes of the phases. -/
inductive Moves (S : Setup Op Ans ε σ n) (s : State Op Ans ε σ n) :
    Action n → (Fin n → Phase Op Ans ε) → Prop
  | launch (hl : s.launched < n) :
      Moves S s .launch (Function.update s.phase ⟨s.launched, hl⟩ .started)
  | acquire {i : Fin n} (hp : s.phase i = .started) :
      Moves S s (.acquire i) (Function.update s.phase i (.running (S.task i) (S.env i)))
  | exec {i : Fin n} {p : Prog Op Ans Bool} {e : ε} (hp : s.phase i = .running p e)
      (p' : Prog Op Ans Bool) (e' : ε) :
      Moves S s (.exec i) (Function.update s.phase i (.running p' e'))
  | send {i : Fin n} {ok : Bool} {e : ε} (hp : s.phase i = .running (.ret ok) e) :
      Moves S s (.send i) (Function.update s.phase i (.sent ok))
  | release {i : Fin n} {ok : Bool} (hp : s.phase i = .sent ok) :
      Moves S s (.release i) (Function.update s.phase i (.released ok))
  | done {i : Fin n} {ok : Bool} (hp : s.phase i = .released ok) :
      Moves S s (.done i) (Function.update s.phase i (.finished ok))
  | spawnCloser : Moves S s .spawnCloser s.phase
  | close : Moves S s .close s.phase
  | receive : Moves S s .receive s.phase
  | finish : Moves S s .finish s.phase

theorem moves_of_step {s s' : State Op Ans ε σ n} {a : Action n} (h : step S s a = some s') :
    Moves S s a s'.phase := by
  cases a with
  | launch =>
    simp only [step] at h
    split at h
    · cases h; exact .launch _
    · cases h
  | exec i =>
    simp only [step] at h
    split at h
    · rename_i hp; cases h; exact .exec hp _ _
    · cases h
  | done i =>
    simp only [step] at h
    split at h
    · rename_i hp; cases h; exact .done hp
    · cases h
  | acquire i =>
    simp only [step] at h
    split at h
    · rename_i hp
      split at h
      · cases h; exact .acquire hp
      · cases h
    · cases h
  | send i =>
    simp only [step] at h
    split at h
    · rename_i hp
      split at h
      · cases h; exact .send hp
      · cases h
    · cases h
  | release i =>
    simp only [step] at h
    split at h
    · rename_i hp
      split at h
      · cases h; exact .release hp
      · cases h
    · cases h
  | spawnCloser | close | finish =>
    simp only [step] at h
    split at h
    · cases h; constructor
    · cases h
  | receive =>
    simp only [step] at h
    split at h
    · cases h
    · split at h
      · cases h; exact .receive
      · cases h

/-- An action with a move takes its task one rank further, to the rank of the move. -/
theorem step_move {s s' : State Op Ans ε σ n} {a : Action n} (h : step S s a = some s') {j : Fin n}
    {r : ℕ} (ha : a.move = some (j, r)) :
    (s.phase j).rank + 1 = r ∧ ∃ x, s'.phase = Function.update s.phase j x ∧ x.rank = r := by
  have hmoves := moves_of_step h
  generalize s'.phase = phase at hmoves ⊢
  cases hmoves with
  | acquire hp => cases ha; exact ⟨by rw [hp]; rfl, _, rfl, rfl⟩
  | send hp => cases ha; exact ⟨by rw [hp]; rfl, _, rfl, rfl⟩
  | release hp => cases ha; exact ⟨by rw [hp]; rfl, _, rfl, rfl⟩
  | done hp => cases ha; exact ⟨by rw [hp]; rfl, _, rfl, rfl⟩
  | _ => cases ha

/-- An action without a move leaves every rank, but that a launch starts one task. -/
theorem step_stay {s s' : State Op Ans ε σ n} (hinv : Inv s) {a : Action n}
    (h : step S s a = some s') (ha : a.move = none) (i : Fin n) :
    (s'.phase i).rank = (s.phase i).rank ∨ (s.phase i).rank = 0 ∧ (s'.phase i).rank = 1 := by
  have hmoves := moves_of_step h
  generalize s'.phase = phase at hmoves ⊢
  cases hmoves with
  | launch hl =>
    have hidle : s.phase ⟨s.launched, hl⟩ = .idle := (hinv.idle_iff _).mpr (le_refl _)
    rcases eq_or_ne i ⟨s.launched, hl⟩ with rfl | hi
    · right; simp [hidle, Phase.rank]
    · left; simp [hi]
  | @exec j p e hp =>
    left
    rcases eq_or_ne i j with rfl | hi
    · simp [hp, Phase.rank]
    · simp [hi]
  | acquire | send | release | done => cases ha
  | spawnCloser | close | receive | finish => exact .inl rfl

/-- A schedule has made exactly the moves that the ranks show, each of them once. -/
theorem count_move {s₀ : σ} {as : List (Action n)} {s : State Op Ans ε σ n}
    (hs : follow S (init s₀) as = some s) :
    ∀ a i r, a.move = some (i, r) → as.count a = if r ≤ (s.phase i).rank then 1 else 0 := by
  refine follow_invariant S (I := fun as s => ∀ a i r, a.move = some (i, r) →
    as.count a = if r ≤ (s.phase i).rank then 1 else 0) ?_ ?_ hs
  · intro a i r ha
    have hr : ¬r ≤ (Phase.idle : Phase Op Ans ε).rank := by
      cases a <;> simp [Action.move] at ha <;> simp [← ha.2, Phase.rank]
    simp [init, hr]
  · intro as s b s' hfollow ih hstep a i r ha
    have hinv : Inv s := (Reaches.init.follow S hfollow).inv
    rw [List.count_append, List.count_singleton, ih a i r ha]
    cases hb : b.move with
    | none =>
      have hne : b ≠ a := by rintro rfl; simp [ha] at hb
      have hstay := step_stay hinv hstep hb i
      have hr : 2 ≤ r := by cases a <;> simp [Action.move] at ha <;> omega
      have hsame : r ≤ (s'.phase i).rank ↔ r ≤ (s.phase i).rank := by omega
      simp [hne, hsame]
    | some m =>
      obtain ⟨j, r'⟩ := m
      obtain ⟨hrank, x, hphase, hx⟩ := step_move hstep hb
      rw [hphase]
      rcases eq_or_ne i j with rfl | hij
      · rcases eq_or_ne b a with rfl | hne
        · obtain rfl : r' = r := by simpa [hb] using ha
          simp [hx]
          omega
        · -- another move of the same task has another rank
          have hr : r ≠ r' := fun h => hne (Action.move_injective (h ▸ hb) ha)
          have hsame : r ≤ x.rank ↔ r ≤ (s.phase i).rank := by omega
          simp [hne, hsame]
      · have hne : b ≠ a := by rintro rfl; simp [ha] at hb; exact hij hb.1
        simp [hne, hij]

theorem Returned.snoc {s₀ : σ} {as : List (Action n)} {i : Fin n} {ok : Bool}
    (h : Returned S s₀ as i ok) (a : Action n) : Returned S s₀ (as ++ [a]) i ok := by
  obtain ⟨pre, post, t, e, rfl, hpre, ht⟩ := h
  exact ⟨pre, post ++ [a], t, e, by simp, hpre, ht⟩

/-- The result a task has sent is what its program returned. -/
theorem returned_of_outcome {s₀ : σ} {as : List (Action n)} {s : State Op Ans ε σ n}
    (hs : follow S (init s₀) as = some s) :
    ∀ i ok, (s.phase i).outcome = some ok → Returned S s₀ as i ok := by
  refine follow_invariant S (I := fun as s => ∀ i ok, (s.phase i).outcome = some ok →
    Returned S s₀ as i ok) ?_ ?_ hs
  · intro i ok h
    cases h
  · intro as s a s' hfollow ih hstep i ok hok
    have hmoves := moves_of_step hstep
    generalize s'.phase = phase at hmoves hok
    -- a task `j` whose new phase `x` has an outcome only where that is known
    have hupdate : ∀ (j : Fin n) (x : Phase Op Ans ε),
        (∀ ok', x.outcome = some ok' → Returned S s₀ (as ++ [a]) j ok') →
        phase = Function.update s.phase j x → Returned S s₀ (as ++ [a]) i ok := by
      intro j x hx hphase
      rw [hphase] at hok
      rcases eq_or_ne i j with rfl | hij
      · exact hx ok (by simpa using hok)
      · exact (ih i ok (by simpa [hij] using hok)).snoc a
    cases hmoves with
    | launch | acquire | exec => exact hupdate _ _ (fun ok' h => by cases h) rfl
    | send hp =>
      refine hupdate _ _ (fun ok' h => ?_) rfl
      cases h
      exact ⟨as, [], s, _, rfl, hfollow, hp⟩
    | release hp | done hp =>
      exact hupdate _ _ (fun ok' h => (ih _ ok' (by rw [hp]; exact h)).snoc _) rfl
    | spawnCloser | close | receive | finish => exact (ih i ok hok).snoc _

/-! ### The protocol -/

/-- What every schedule `as` keeps to. A send is a step only while its channel is open; the two `open`
    fields say that no task ever meets a closed one. -/
structure Protocol (S : Setup Op Ans ε σ n) (s₀ : σ) (as : List (Action n))
    (s : State Op Ans ε σ n) : Prop where
  bounded : s.holders ≤ S.workers
  acquires_open : ∀ i, s.phase i = .started → s.tokensClosed = false
  sends_open : ∀ i ok e, s.phase i = .running (.ret ok) e →
    s.resultsClosed = false ∧ s.results.length < n
  progress : s.returned = false → CanStep S s
  processed : s.returned = true → ∀ i, (∃ ok, s.phase i = .finished ok ∧ Returned S s₀ as i ok) ∧
    as.count (.acquire i) = 1 ∧ as.count (.send i) = 1 ∧ as.count (.release i) = 1 ∧
    as.count (.done i) = 1
  released : s.returned = true → s.tokens = 0 ∧ s.holders = 0
  counted : s.returned = true → s.success + s.failure = n ∧
    s.success = (Finset.univ.filter fun i => (s.phase i).outcome = some true).card

theorem follow_protocol (hworkers : 1 ≤ S.workers) {s₀ : σ} {as : List (Action n)}
    {s : State Op Ans ε σ n} (hs : follow S (init s₀) as = some s) : Protocol S s₀ as s := by
  have hreach : Reaches S s₀ s := Reaches.init.follow S hs
  have htokens := hreach.tokens
  refine ⟨htokens.taken ▸ htokens.bounded, fun _ hp => hreach.tokens_open hp,
    fun _ _ _ hp => hreach.results_open hp, hreach.progress hworkers, ?_, ?_, ?_⟩
  · intro hret i
    obtain ⟨ok, hok⟩ := hreach.inv.all_finished hret i
    have honce : ∀ a r, a.move = some (i, r) → r ≤ 5 → as.count a = 1 := by
      intro a r ha hr
      rw [count_move hs a i r ha, hok]
      exact if_pos hr
    exact ⟨⟨ok, hok, returned_of_outcome hs i ok (by rw [hok]; rfl)⟩, honce _ 2 rfl (by decide),
      honce _ 3 rfl (by decide), honce _ 4 rfl (by decide), honce _ 5 rfl (by decide)⟩
  · intro hret
    have hzero : s.holders = 0 := by
      refine Finset.sum_eq_zero fun i _ => ?_
      obtain ⟨ok, hok⟩ := hreach.inv.all_finished hret i
      rw [hok]
      rfl
    exact ⟨htokens.taken.trans hzero, hzero⟩
  · intro hret
    obtain ⟨hsucc, -, htotal⟩ := hreach.inv.counted hret
    refine ⟨htotal, ?_⟩
    rw [hsucc, Finset.card_filter]
    refine Finset.sum_congr rfl fun i _ => ?_
    obtain ⟨ok, hok⟩ := hreach.inv.all_finished hret i
    cases ok <;> simp [hok, Phase.voted, Phase.outcome]

end Schemes.Pool
