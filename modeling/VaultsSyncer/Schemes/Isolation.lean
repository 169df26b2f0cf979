import VaultsSyncer.Schemes.Pool

/-! Tasks of a pool that own disjoint parts of the shared state. Whatever the scheduler does, each
    task returns what it returns when it runs alone, and leaves its part of the state as its solo
    run does; so the pool ends in the state of running the tasks one after another. The solo run may
    be of a related program in a related environment (`Sim`), which is how readings that are allowed
    to differ between the two runs, such as a clock, are set aside. -/

namespace Schemes.Pool

open Prog

variable {Op : Type} {Ans : Op → Type} {ε σ : Type} {n : ℕ}

/-- `R i` compares two states on the part of task `i`; a call owned by another task keeps it. -/
structure Regions (h : Handler Op Ans (ε × σ)) (own : Fin n → Op → Prop)
    (R : Fin n → σ → σ → Prop) : Prop where
  equiv : ∀ i, Equivalence (R i)
  frame : ∀ i j op e s, i ≠ j → own j op → R i (h op (e, s)).2.2 s

/-- The tasks of `S` stay in their regions, and each is matched by the job `job i` run alone. -/
structure Isolated (S : Setup Op Ans ε σ n) (own : Fin n → Op → Prop) (R : Fin n → σ → σ → Prop)
    (O : Op → Op → Prop) (A : ∀ op op', Ans op → Ans op' → Prop) (E : ε → ε → Prop)
    (job : Fin n → Prog Op Ans Bool × ε) : Prop where
  regions : Regions S.handler own R
  owns : ∀ i, (S.task i).AllCalls (own i)
  jobOwns : ∀ i, (job i).1.AllCalls (own i)
  respects : ∀ i, Respects S.handler S.handler (own i) O A fun x y => E x.1 y.1 ∧ R i x.2 y.2
  sim : ∀ i, Sim O A Eq (S.task i) (job i).1
  envs : ∀ i, E (S.env i) (job i).2

variable {S : Setup Op Ans ε σ n} {own : Fin n → Op → Prop} {R : Fin n → σ → σ → Prop}
  {O : Op → Op → Prop} {A : ∀ op op', Ans op → Ans op' → Prop} {E : ε → ε → Prop}
  {job : Fin n → Prog Op Ans Bool × ε}

/-- The run of job `i` alone from the state `u`. -/
def solo (S : Setup Op Ans ε σ n) (job : Fin n → Prog Op Ans Bool × ε) (i : Fin n) (u : σ) :
    Bool × ε × σ :=
  (job i).1.run S.handler ((job i).2, u)

/-- Where task `i` stands against its solo run from `u i`: a running task has a counterpart `q`
    that stands at the same point of the solo run. -/
def Tracks (S : Setup Op Ans ε σ n) (own : Fin n → Op → Prop) (R : Fin n → σ → σ → Prop)
    (O : Op → Op → Prop) (A : ∀ op op', Ans op → Ans op' → Prop) (E : ε → ε → Prop)
    (job : Fin n → Prog Op Ans Bool × ε) (u : Fin n → σ) (s : σ) (i : Fin n) :
    Phase Op Ans ε → Prop
  | .idle => R i s (u i)
  | .started => R i s (u i)
  | .running p e => p.AllCalls (own i) ∧ ∃ q e' v, Sim O A Eq p q ∧ E e e' ∧ R i s v ∧
      q.run S.handler (e', v) = solo S job i (u i)
  | .sent ok => ok = (solo S job i (u i)).1 ∧ R i s (solo S job i (u i)).2.2
  | .released ok => ok = (solo S job i (u i)).1 ∧ R i s (solo S job i (u i)).2.2
  | .finished ok => ok = (solo S job i (u i)).1 ∧ R i s (solo S job i (u i)).2.2

/-- What happens outside the region of a task does not move it. -/
theorem Tracks.frame (hiso : Isolated S own R O A E job) {u : Fin n → σ} {s s' : σ} {i : Fin n}
    {ph : Phase Op Ans ε} (ht : Tracks S own R O A E job u s i ph) (hs : R i s' s) :
    Tracks S own R O A E job u s' i ph := by
  have htrans : ∀ {v}, R i s v → R i s' v := (hiso.regions.equiv i).trans hs
  cases ph with
  | idle => exact htrans ht
  | started => exact htrans ht
  | running p e =>
    obtain ⟨hown, q, e', v, hsim, he, hr, hq⟩ := ht
    exact ⟨hown, q, e', v, hsim, he, htrans hr, hq⟩
  | sent ok => exact ⟨ht.1, htrans ht.2⟩
  | released ok => exact ⟨ht.1, htrans ht.2⟩
  | finished ok => exact ⟨ht.1, htrans ht.2⟩

/-- One call of task `i` is one call of its counterpart. -/
theorem Tracks.exec (hiso : Isolated S own R O A E job) {u : Fin n → σ} {s : σ} {i : Fin n}
    {op : Op} {k : Ans op → Prog Op Ans Bool} {e : ε}
    (ht : Tracks S own R O A E job u s i (.running (.call op k) e)) :
    Tracks S own R O A E job u (S.handler op (e, s)).2.2 i
      (.running (k (S.handler op (e, s)).1) (S.handler op (e, s)).2.1) := by
  obtain ⟨hown, q, e', v, hsim, he, hr, hq⟩ := ht
  cases hsim with
  | @call _ op' _ k' ho hk =>
    obtain ⟨ha, he', hr'⟩ := hiso.respects i op op' (e, s) (e', v) hown.1 ho ⟨he, hr⟩
    exact ⟨hown.2 _, k' (S.handler op' (e', v)).1, _, _, hk _ _ ha, he', hr', hq⟩

theorem Tracks.returned {u : Fin n → σ} {s : σ} {i : Fin n} {ok : Bool} {e : ε}
    (ht : Tracks S own R O A E job u s i (.running (.ret ok) e)) :
    ok = (solo S job i (u i)).1 ∧ R i s (solo S job i (u i)).2.2 := by
  obtain ⟨-, q, e', v, hsim, -, hr, hq⟩ := ht
  cases hsim with
  | ret hv => rw [← hq]; exact ⟨hv, hr⟩

theorem tracks_step (hiso : Isolated S own R O A E job) {u : Fin n → σ}
    {s s' : State Op Ans ε σ n} (hinv : Inv s)
    (hs : ∀ i, Tracks S own R O A E job u s.shared i (s.phase i)) (h : Step S s s') (j : Fin n) :
    Tracks S own R O A E job u s'.shared j (s'.phase j) := by
  -- a step that moves task `i` alone is checked at `i`
  have hmove : ∀ (i : Fin n) (x : Phase Op Ans ε), Tracks S own R O A E job u s.shared i x →
      Tracks S own R O A E job u s.shared j (Function.update s.phase i x j) := by
    intro i x hx
    rcases eq_or_ne j i with rfl | hj
    · simpa using hx
    · simpa [hj] using hs j
  cases h with
  | launch hl =>
    refine hmove _ _ ?_
    have hst := hs ⟨s.launched, hl⟩
    rw [(hinv.idle_iff ⟨s.launched, hl⟩).mpr (le_refl _)] at hst
    exact hst
  | spawnCloser _ _ => exact hs j
  | acquire i hp _ _ =>
    refine hmove i _ ?_
    have hst := hs i
    rw [hp] at hst
    exact ⟨hiso.owns i, (job i).1, (job i).2, u i, hiso.sim i, hiso.envs i, hst, rfl⟩
  | exec i op k e hp =>
    have hst := hs i
    rw [hp] at hst
    rcases eq_or_ne j i with rfl | hj
    · simpa using hst.exec hiso
    · have hown : own i op := hst.1.1
      simpa [hj] using (hs j).frame hiso (hiso.regions.frame j i op e s.shared hj hown)
  | send i ok e hp _ _ =>
    refine hmove i _ ?_
    have hst := hs i
    rw [hp] at hst
    exact hst.returned
  | release i ok hp _ =>
    refine hmove i _ ?_
    have hst := hs i
    rw [hp] at hst
    exact hst
  | done i ok hp =>
    refine hmove i _ ?_
    have hst := hs i
    rw [hp] at hst
    exact hst
  | close _ _ => exact hs j
  | receive _ _ _ _ _ => exact hs j
  | finish _ _ _ => exact hs j

/-- Every task of every reachable state stands where its solo run stands. -/
theorem Reaches.tracks (hiso : Isolated S own R O A E job) {s₀ : σ} {u : Fin n → σ}
    (hu : ∀ i, R i s₀ (u i)) {s : State Op Ans ε σ n} (h : Reaches S s₀ s) (i : Fin n) :
    Tracks S own R O A E job u s.shared i (s.phase i) := by
  have hboth := h.invariant S
    (I := fun s => Inv s ∧ ∀ i, Tracks S own R O A E job u s.shared i (s.phase i))
    ⟨inv_init s₀, hu⟩
    fun _ _ hs hst => ⟨inv_step S hs.1 hst, tracks_step hiso hs.1 hs.2 hst⟩
  exact hboth.2 i

/-- A task that has finished returned the result of its solo run, and its part of the shared state
    is as the solo run left it. -/
theorem Reaches.finished (hiso : Isolated S own R O A E job) {s₀ : σ} {u : Fin n → σ}
    (hu : ∀ i, R i s₀ (u i)) {s : State Op Ans ε σ n} (h : Reaches S s₀ s) {i : Fin n} {ok : Bool}
    (hp : s.phase i = .finished ok) :
    ok = (solo S job i (u i)).1 ∧ R i s.shared (solo S job i (u i)).2.2 := by
  have ht := h.tracks hiso hu i
  rw [hp] at ht
  exact ht

/-- A property of the shared state kept by every call the tasks may make holds throughout. -/
theorem Reaches.shared_invariant (hown : ∀ i, (S.task i).AllCalls (own i)) {I : σ → Prop}
    (hI : ∀ i op e s, own i op → I s → I (S.handler op (e, s)).2.2) {s₀ : σ} (h0 : I s₀)
    {s : State Op Ans ε σ n} (h : Reaches S s₀ s) : I s.shared := by
  have hall : I s.shared ∧ ∀ i p e, s.phase i = .running p e → p.AllCalls (own i) := by
    refine h.invariant S (I := fun s => I s.shared ∧ ∀ i p e, s.phase i = .running p e →
      p.AllCalls (own i)) ⟨h0, fun i p e hp => by cases hp⟩ ?_
    intro s s' hs hst
    have hmove : ∀ (i : Fin n) (x : Phase Op Ans ε),
        (∀ p e, x = .running p e → p.AllCalls (own i)) → ∀ j p e,
        Function.update s.phase i x j = .running p e → p.AllCalls (own j) := by
      intro i x hx j p e hp
      rcases eq_or_ne j i with rfl | hj
      · exact hx p e (by simpa using hp)
      · exact hs.2 j p e (by simpa [hj] using hp)
    cases hst with
    | acquire i _ _ _ =>
      exact ⟨hs.1, hmove i _ fun p e hp => by cases hp; exact hown i⟩
    | exec i op k e hp =>
      have hcall := hs.2 i _ e hp
      exact ⟨hI i op e s.shared hcall.1 hs.1, hmove i _ fun p e hp => by cases hp; exact hcall.2 _⟩
    | launch _ | send _ _ _ _ _ _ | release _ _ _ _ | done _ _ _ =>
      exact ⟨hs.1, hmove _ _ fun p e hp => by cases hp⟩
    | spawnCloser _ _ | close _ _ | receive _ _ _ _ _ | finish _ _ _ => exact hs
  exact hall.1

/-! ### One task after another -/

/-- Run jobs one after another, each in its own environment. -/
def sequentially (h : Handler Op Ans (ε × σ)) (jobs : List (Prog Op Ans Bool × ε)) (s : σ) : σ :=
  jobs.foldl (fun s j => (j.1.run h (j.2, s)).2.2) s

/-- Jobs of other tasks do not touch the part of task `i`. -/
theorem sequentially_frame {h : Handler Op Ans (ε × σ)} (hreg : Regions h own R) (i : Fin n) :
    ∀ (is : List (Fin n)), i ∉ is → (∀ j, (job j).1.AllCalls (own j)) → ∀ s,
      R i (sequentially h (is.map job) s) s
  | [], _, _, s => (hreg.equiv i).refl s
  | j :: is, hi, hown, s => by
      have hij : i ≠ j := fun h => hi (h ▸ List.mem_cons_self)
      have hhead : R i ((job j).1.run h ((job j).2, s)).2.2 s :=
        (hown j).run_preserves h (I := fun x => R i x.2 s)
          (fun op x hop hx => (hreg.equiv i).trans (hreg.frame i j op x.1 x.2 hij hop) hx)
          ((hreg.equiv i).refl s)
      have htail := sequentially_frame hreg i is (fun h => hi (List.mem_cons_of_mem _ h)) hown
        ((job j).1.run h ((job j).2, s)).2.2
      exact (hreg.equiv i).trans htail hhead

/-- Running the tasks one after another in any order without repetition leaves the part of each
    as its solo run from the first state does. -/
theorem sequentially_solo (hiso : Isolated S own R O A E job) (is : List (Fin n)) (hnd : is.Nodup)
    (i : Fin n) (hi : i ∈ is) (s₀ : σ) :
    ∃ u, R i s₀ u ∧
      R i (sequentially S.handler (is.map job) s₀) (solo S job i u).2.2 := by
  obtain ⟨pre, post, rfl⟩ := List.append_of_mem hi
  have hpre : i ∉ pre := fun h => (List.nodup_append.mp hnd).2.2 i h i List.mem_cons_self rfl
  have hpost : i ∉ post := (List.nodup_cons.mp (List.nodup_append.mp hnd).2.1).1
  refine ⟨sequentially S.handler (pre.map job) s₀, (hiso.regions.equiv i).symm
    (sequentially_frame hiso.regions i pre hpre hiso.jobOwns s₀), ?_⟩
  have hsplit : sequentially S.handler ((pre ++ i :: post).map job) s₀ =
      sequentially S.handler (post.map job)
        (solo S job i (sequentially S.handler (pre.map job) s₀)).2.2 := by
    simp only [sequentially, List.map_append, List.map_cons, List.foldl_append, List.foldl_cons,
      solo]
  rw [hsplit]
  exact sequentially_frame hiso.regions i post hpost hiso.jobOwns _

/-- The pool ends, part by part, as the jobs run one after another do. -/
theorem Reaches.eq_sequentially (hiso : Isolated S own R O A E job) {s₀ : σ}
    {s : State Op Ans ε σ n} (h : Reaches S s₀ s) {i : Fin n} {ok : Bool}
    (hp : s.phase i = .finished ok) :
    R i s.shared (sequentially S.handler ((List.finRange n).map job) s₀) := by
  -- every task is compared with its solo run from the state the sequential run gives it
  choose u hu hseq using fun i => sequentially_solo hiso (List.finRange n) (List.nodup_finRange n) i
    (List.mem_finRange i) s₀
  exact (hiso.regions.equiv i).trans (h.finished hiso hu hp).2 ((hiso.regions.equiv i).symm (hseq i))

end Schemes.Pool
