import Mathlib.Data.List.Iterate
import Mathlib.Data.Rat.Floor
import VaultsSyncer.Config.Loader
import VaultsSyncer.Sync.Retries

/-! How long `withRetry` sleeps, and under which policy. The cap is put on the backoff after it was
    multiplied, so the first delay is not capped:

        sleep initial        min (initial * m) max        min (… * m) max        …

    The product is a float64 made an int again, and the backoff is made a Duration in nanoseconds. Either
    can overflow an int64, and then the delay is anything (`delays_bounded_iff`). -/

namespace VaultsSyncer

open GoStd Schemes Schemes.Prog

variable {σ : Type} {outOfRange : Option Float64 → ℤ}

/-! ### Delays -/

def Call.delay : Call → Option ℤ
  | .sleep ns => some ns
  | _ => none

/-- The delays of a retry in nanoseconds, in order, without those of the operation itself. -/
def delays (policy : RetryPolicy) (fn : Sync (Except GoError Unit)) (h : Handler Call Call.Ans σ)
    (s : σ) (outOfRange : Option Float64 → ℤ := Float64.amd64) : List ℤ :=
  ((withRetry policy (setSecret "" "" []) outOfRange).calls (loggingOutcomes fn h) (s, [])).filterMap
    Call.delay

/-- The delays of a loop that starts with this backoff. -/
def backoffDelays (outOfRange : Option Float64 → ℤ) (policy : RetryPolicy) (backoff : ℤ) (n : ℕ) : List ℤ :=
  (List.iterate (nextBackoff outOfRange policy) backoff n).map milliseconds

/-- An attempt that fails: the loop sleeps, if it goes on. -/
theorem delays_retryLoop_error {policy : RetryPolicy} {fn : Sync (Except GoError Unit)}
    {h : Handler Call Call.Ans σ} {s s' : σ} {err : GoError} (hrun : fn.run h s = (.error err, s'))
    (left : ℕ) (attempt backoff : ℤ) (lastErr : Option GoError) (log : List (Except GoError Unit)) :
    ((retryLoop policy (setSecret "" "" []) (left + 1) attempt backoff lastErr outOfRange).calls
        (loggingOutcomes fn h) (s, log)).filterMap Call.delay =
      if attempt < policy.maxRetries then
        milliseconds backoff :: ((retryLoop policy (setSecret "" "" []) left (attempt + 1)
            (nextBackoff outOfRange policy backoff) (some err) outOfRange).calls (loggingOutcomes fn h)
          ((h (.sleep (milliseconds backoff)) s').2, log ++ [.error err])).filterMap Call.delay
      else ((retryLoop policy (setSecret "" "" []) left (attempt + 1) backoff (some err) outOfRange).calls
          (loggingOutcomes fn h) (s', log ++ [.error err])).filterMap Call.delay := by
  have hcall : (setSecret "" "" []).run (loggingOutcomes fn h) (s, log) =
      (.error err, s', log ++ [.error err]) := by
    change ((fn.run h s).1, (fn.run h s).2, log ++ [(fn.run h s).1]) = _
    rw [hrun]
  have hnone : ((setSecret "" "" []).calls (loggingOutcomes fn h) (s, log)).filterMap Call.delay = [] :=
    rfl
  rw [retryLoop, calls_bind, List.filterMap_append, hcall, hnone, List.nil_append]
  dsimp only
  split_ifs
  · rw [calls_bind, List.filterMap_append]
    rfl
  · rfl

/-- The loop sleeps for the backoff, the next one, and so on, at most once for each retry. -/
theorem delays_retryLoop (policy : RetryPolicy) (fn : Sync (Except GoError Unit))
    (h : Handler Call Call.Ans σ) (left : ℕ) (attempt backoff : ℤ) (lastErr : Option GoError)
    (x : σ × List (Except GoError Unit)) :
    ∃ n ≤ (policy.maxRetries - attempt).toNat,
      ((retryLoop policy (setSecret "" "" []) left attempt backoff lastErr outOfRange).calls
        (loggingOutcomes fn h) x).filterMap Call.delay = backoffDelays outOfRange policy backoff n := by
  induction left generalizing attempt backoff lastErr x with
  | zero => exact ⟨0, Nat.zero_le _, rfl⟩
  | succ left ih =>
    obtain ⟨s, log⟩ := x
    rcases hrun : fn.run h s with ⟨⟨err⟩ | ⟨⟩, s'⟩
    · rw [delays_retryLoop_error hrun]
      split_ifs with hat
      · obtain ⟨n, hle, hn⟩ := ih (attempt + 1) (nextBackoff outOfRange policy backoff) (some err)
          ((h (.sleep (milliseconds backoff)) s').2, log ++ [.error err])
        refine ⟨n + 1, by omega, ?_⟩
        rw [hn]
        rfl
      · obtain ⟨n, hle, hn⟩ := ih (attempt + 1) backoff (some err) (s', log ++ [.error err])
        exact ⟨n, by omega, hn⟩
    · refine ⟨0, Nat.zero_le _, ?_⟩
      have hcall : (setSecret "" "" []).run (loggingOutcomes fn h) (s, log) =
          (.ok (), s', log ++ [.ok ()]) := by
        change ((fn.run h s).1, (fn.run h s).2, log ++ [(fn.run h s).1]) = _
        rw [hrun]
      rw [retryLoop, calls_bind, List.filterMap_append, hcall]
      rfl

theorem delays_eq (policy : RetryPolicy) (fn : Sync (Except GoError Unit))
    (h : Handler Call Call.Ans σ) (s : σ) : ∃ n ≤ policy.maxRetries.toNat,
      delays policy fn h s outOfRange = backoffDelays outOfRange policy policy.initialBackoff n := by
  obtain ⟨n, hle, hn⟩ := @delays_retryLoop σ outOfRange policy fn h (attempts policy) 0
    policy.initialBackoff none (s, [])
  exact ⟨n, by rwa [sub_zero] at hle, hn⟩

/-- An operation that always fails is slept for once for each retry. -/
theorem delays_of_failing (policy : RetryPolicy) (err : GoError) (h : Handler Call Call.Ans σ) (s : σ) :
    delays policy (.ret (.error err)) h s outOfRange =
      backoffDelays outOfRange policy policy.initialBackoff policy.maxRetries.toNat := by
  have hloop : ∀ (n : ℕ) (attempt backoff : ℤ) (lastErr : Option GoError)
      (x : σ × List (Except GoError Unit)), attempt + n = policy.maxRetries →
      ((retryLoop policy (setSecret "" "" []) (n + 1) attempt backoff lastErr outOfRange).calls
        (loggingOutcomes (.ret (.error err)) h) x).filterMap Call.delay =
          backoffDelays outOfRange policy backoff n := by
    intro n
    induction n with
    | zero =>
      rintro attempt backoff lastErr ⟨s, log⟩ hn
      rw [delays_retryLoop_error rfl, if_neg (by omega)]
      rfl
    | succ n ih =>
      rintro attempt backoff lastErr ⟨s, log⟩ hn
      rw [delays_retryLoop_error rfl, if_pos (by omega), ih _ _ _ _ (by omega)]
      rfl
  rcases lt_or_ge policy.maxRetries 0 with hneg | hpos
  · have hattempts : attempts policy = 0 := by
      rw [attempts]
      omega
    have hnone : policy.maxRetries.toNat = 0 := by omega
    rw [delays, withRetry, hattempts, hnone]
    rfl
  · have hattempts : attempts policy = policy.maxRetries.toNat + 1 := by
      rw [attempts]
      omega
    rw [delays, withRetry, hattempts]
    exact hloop _ _ _ _ _ (by omega)

/-! ### Backoffs -/

/-- Of `n` backoffs from this one on, each is an int64 of nanoseconds, and the product of each that is not
    the last is an int64: nothing overflows. -/
structure RetryPolicy.Fits (policy : RetryPolicy) (outOfRange : Option Float64 → ℤ) (backoff : ℤ) (n : ℕ) :
    Prop where
  duration : ∀ k < n, (nextBackoff outOfRange policy)^[k] backoff * 10 ^ 6 < 2 ^ 63
  product : ∀ k, k + 1 < n →
    ∃ p ∈ policy.product ((nextBackoff outOfRange policy)^[k] backoff), p.trunc < 2 ^ 63

theorem milliseconds_eq {backoff : ℤ} (hpos : 0 < backoff) (hfits : backoff * 10 ^ 6 < 2 ^ 63) :
    milliseconds backoff = backoff * 10 ^ 6 := by
  rw [milliseconds, wrap64]
  omega

/-- The product with a multiplier of at least one is no less than the backoff. -/
theorem le_trunc_product {policy : RetryPolicy} (hmult : 1 ≤ policy.multiplier) {backoff : ℤ}
    (hpos : 0 < backoff) (hfits : backoff * 10 ^ 6 < 2 ^ 63) {p : Float64}
    (hp : policy.product backoff = some p) : backoff ≤ p.trunc := by
  obtain ⟨m, rfl⟩ := Int.eq_ofNat_of_zero_le hpos.le
  have hm : m ≤ 2 ^ 53 := by omega
  have hbackoff : Codec.nearest ((m : ℤ) : ℚ) = some (Float64.exactly false m hm) := by
    have hsign : ¬(m : ℚ) < 0 := not_lt.mpr (Nat.cast_nonneg m)
    rw [Int.cast_natCast, Codec.nearest, abs_of_nonneg (Nat.cast_nonneg m), decide_eq_false hsign,
      Float64.ofRat_natCast false hm]
  rw [RetryPolicy.product, hbackoff, Option.bind_eq_bind, Option.bind_some] at hp
  rcases hg : Codec.nearest policy.multiplier with _ | g
  · rw [hg] at hp
    cases hp
  · rw [hg, Option.bind_some] at hp
    have hsign : ¬policy.multiplier < 0 := by linarith
    have hg' := hg
    rw [Codec.nearest, abs_of_nonneg (not_lt.mp hsign), decide_eq_false hsign] at hg'
    obtain ⟨hneg, habs⟩ := Float64.le_abs_of_ofRat hg' (m := 1) (by norm_num) (by exact_mod_cast hmult)
    exact Float64.le_trunc_mul hm hneg (by exact_mod_cast habs) hp

/-- A backoff within the cap grows, and stays within it, where its product does not overflow. -/
theorem nextBackoff_bounds {policy : RetryPolicy} (hmult : 1 ≤ policy.multiplier) {backoff : ℤ}
    (hpos : 0 < backoff) (hcap : backoff ≤ policy.maxBackoff) (hfits : backoff * 10 ^ 6 < 2 ^ 63)
    {p : Float64} (hp : policy.product backoff = some p) (hrange : p.trunc < 2 ^ 63) :
    backoff ≤ nextBackoff outOfRange policy backoff ∧
      nextBackoff outOfRange policy backoff ≤ policy.maxBackoff := by
  have hle := le_trunc_product hmult hpos hfits hp
  have hint : Float64.toInt64 outOfRange (policy.product backoff) = p.trunc := by
    rw [hp, Float64.toInt64, if_pos ⟨by omega, hrange⟩]
  rw [nextBackoff, hint]
  split_ifs with h
  · exact ⟨hcap, le_rfl⟩
  · exact ⟨hle, not_lt.mp h⟩

theorem RetryPolicy.Fits.next {policy : RetryPolicy} {backoff : ℤ} {n : ℕ}
    (h : policy.Fits outOfRange backoff (n + 1)) :
    policy.Fits outOfRange (nextBackoff outOfRange policy backoff) n where
  duration := fun k hk => h.duration (k + 1) (by omega)
  product := fun k hk => h.product (k + 1) (by omega)

/-- Where nothing overflows, delays that start within the cap stay there and grow. -/
theorem backoffDelays_of_fits {policy : RetryPolicy} (hmult : 1 ≤ policy.multiplier) {n : ℕ} {backoff : ℤ}
    (hpos : 0 < backoff) (hcap : backoff ≤ policy.maxBackoff) (hfits : policy.Fits outOfRange backoff n) :
    (∀ d ∈ backoffDelays outOfRange policy backoff n,
        backoff * 10 ^ 6 ≤ d ∧ d ≤ policy.maxBackoff * 10 ^ 6) ∧
      (backoffDelays outOfRange policy backoff n).Pairwise (· ≤ ·) := by
  induction n generalizing backoff with
  | zero => exact ⟨fun d hd => absurd hd List.not_mem_nil, .nil⟩
  | succ n ih =>
    have hduration := hfits.duration 0 (Nat.succ_pos n)
    have hfirst := milliseconds_eq hpos hduration
    have hlist : backoffDelays outOfRange policy backoff (n + 1) =
        backoff * 10 ^ 6 :: backoffDelays outOfRange policy (nextBackoff outOfRange policy backoff) n := by
      rw [← hfirst]
      rfl
    rw [hlist, List.forall_mem_cons, List.pairwise_cons]
    rcases Nat.eq_zero_or_pos n with rfl | hn
    · exact ⟨⟨⟨le_rfl, by omega⟩, fun d hd => absurd hd List.not_mem_nil⟩,
        fun d hd => absurd hd List.not_mem_nil, .nil⟩
    · obtain ⟨p, hp, hrange⟩ := hfits.product 0 (by omega)
      obtain ⟨hgrows, hcap'⟩ :=
        @nextBackoff_bounds outOfRange _ hmult _ hpos hcap hduration _ hp hrange
      obtain ⟨hbounds, hsorted⟩ := ih (hpos.trans_le hgrows) hcap' hfits.next
      have hle : ∀ d ∈ backoffDelays outOfRange policy (nextBackoff outOfRange policy backoff) n,
          backoff * 10 ^ 6 ≤ d := fun d hd => le_trans (by omega) (hbounds d hd).1
      exact ⟨⟨⟨le_rfl, by omega⟩, fun d hd => ⟨hle d hd, (hbounds d hd).2⟩⟩, hle, hsorted⟩

/-- On amd64 a product that overflows is followed by a delay of nothing. -/
theorem milliseconds_nextBackoff {policy : RetryPolicy} {backoff : ℤ} (hcap : 0 < policy.maxBackoff)
    (hover : ¬∃ p ∈ policy.product backoff, p.trunc < 2 ^ 63) :
    milliseconds (nextBackoff Float64.amd64 policy backoff) = 0 := by
  have hint : Float64.toInt64 Float64.amd64 (policy.product backoff) = -2 ^ 63 := by
    rcases hp : policy.product backoff with _ | p
    · rfl
    · have hrange : ¬(-2 ^ 63 ≤ p.trunc ∧ p.trunc < 2 ^ 63) := fun h => hover ⟨p, hp, h.2⟩
      rw [Float64.toInt64, if_neg hrange]
      rfl
  rw [nextBackoff, hint, if_neg (by omega)]
  decide

/-- So delays that grow are without an overflow. -/
theorem fits_of_backoffDelays {policy : RetryPolicy} (hmult : 1 ≤ policy.multiplier)
    (hmax : policy.maxBackoff * 10 ^ 6 < 2 ^ 63) {n : ℕ} {backoff : ℤ} (hpos : 0 < backoff)
    (hcap : backoff ≤ policy.maxBackoff)
    (hsorted : (backoffDelays Float64.amd64 policy backoff n).Pairwise (· ≤ ·)) :
    policy.Fits Float64.amd64 backoff n := by
  induction n generalizing backoff with
  | zero => exact ⟨fun k hk => by omega, fun k hk => by omega⟩
  | succ n ih =>
    have hfits : backoff * 10 ^ 6 < 2 ^ 63 := by omega
    rcases Nat.eq_zero_or_pos n with rfl | hn
    · refine ⟨fun k hk => ?_, fun k hk => by omega⟩
      obtain rfl : k = 0 := by omega
      exact hfits
    · obtain ⟨m, rfl⟩ := Nat.exists_eq_succ_of_ne_zero hn.ne'
      have hlist : backoffDelays Float64.amd64 policy backoff (m + 1 + 1) = milliseconds backoff ::
          backoffDelays Float64.amd64 policy (nextBackoff Float64.amd64 policy backoff) (m + 1) := rfl
      rw [hlist, List.pairwise_cons] at hsorted
      have hproduct : ∃ p ∈ policy.product backoff, p.trunc < 2 ^ 63 := by
        by_contra hover
        have hzero := milliseconds_nextBackoff (hpos.trans_le hcap) hover
        have hle := hsorted.1 _ List.mem_cons_self
        rw [hzero, milliseconds_eq hpos hfits] at hle
        omega
      obtain ⟨p, hp, hrange⟩ := hproduct
      obtain ⟨hgrows, hcap'⟩ :=
        @nextBackoff_bounds Float64.amd64 _ hmult _ hpos hcap hfits _ hp hrange
      have hrest := ih (hpos.trans_le hgrows) hcap' hsorted.2
      refine ⟨fun k hk => ?_, fun k hk => ?_⟩
      · rcases k with _ | k
        · exact hfits
        · exact hrest.duration k (by omega)
      · rcases k with _ | k
        · exact ⟨p, hp, hrange⟩
        · exact hrest.product k (by omega)

/-- All delays of a retry are within the cap and none is shorter than the one before it. -/
def RetryPolicy.Bounded (policy : RetryPolicy) (outOfRange : Option Float64 → ℤ) : Prop :=
  ∀ (σ : Type) (fn : Sync (Except GoError Unit)) (h : Handler Call Call.Ans σ) (s : σ),
    (∀ d ∈ delays policy fn h s outOfRange, d ≤ policy.maxBackoff * 10 ^ 6) ∧
      (delays policy fn h s outOfRange).Pairwise (· ≤ ·)

/-- The delays are bounded where the initial backoff is within the cap and nothing overflows, on any
    machine. On amd64 they are bounded only then, as long as the two backoffs that the policy names are
    int64s of nanoseconds. -/
theorem delays_bounded_iff {policy : RetryPolicy} (hretries : 1 ≤ policy.maxRetries)
    (hinitial : 0 < policy.initialBackoff) (hmult : 1 ≤ policy.multiplier) :
    (∀ outOfRange, policy.initialBackoff ≤ policy.maxBackoff →
      policy.Fits outOfRange policy.initialBackoff policy.maxRetries.toNat →
        policy.Bounded outOfRange) ∧
    (policy.initialBackoff * 10 ^ 6 < 2 ^ 63 → policy.maxBackoff * 10 ^ 6 < 2 ^ 63 →
      (policy.Bounded Float64.amd64 ↔ policy.initialBackoff ≤ policy.maxBackoff ∧
        policy.Fits Float64.amd64 policy.initialBackoff policy.maxRetries.toNat)) := by
  have henough : ∀ outOfRange, policy.initialBackoff ≤ policy.maxBackoff →
      policy.Fits outOfRange policy.initialBackoff policy.maxRetries.toNat →
        policy.Bounded outOfRange := by
    intro outOfRange hcap hfits σ fn h s
    obtain ⟨n, hn, hdelays⟩ := @delays_eq σ outOfRange policy fn h s
    have hfits' : policy.Fits outOfRange policy.initialBackoff n :=
      ⟨fun k hk => hfits.duration k (by omega), fun k hk => hfits.product k (by omega)⟩
    obtain ⟨hbounds, hsorted⟩ := backoffDelays_of_fits hmult hinitial hcap hfits'
    rw [hdelays]
    exact ⟨fun d hd => (hbounds d hd).2, hsorted⟩
  refine ⟨henough, fun hfirst hmax => ⟨fun hbounded => ?_, fun h => henough _ h.1 h.2⟩⟩
  let start : Env × World := (Stream'.const {}, { vaults := fun _ _ => none })
  obtain ⟨hle, hsorted⟩ := hbounded _ (.ret (.error (.new "failed"))) handle start
  rw [delays_of_failing] at hle hsorted
  have hmem : milliseconds policy.initialBackoff ∈
      backoffDelays Float64.amd64 policy policy.initialBackoff policy.maxRetries.toNat := by
    obtain ⟨n, hn⟩ : ∃ n, policy.maxRetries.toNat = n + 1 :=
      Nat.exists_eq_succ_of_ne_zero (by omega)
    rw [hn]
    exact List.mem_cons_self
  have hcap : policy.initialBackoff ≤ policy.maxBackoff := by
    have hfirst' := hle _ hmem
    rw [milliseconds_eq hinitial hfirst] at hfirst'
    omega
  exact ⟨hcap, fits_of_backoffDelays hmult hmax hinitial hcap hsorted⟩

/-- Two retries, and less than the first delay for a cap. -/
def lowCap : RetryPolicy := { maxRetries := 2, initialBackoff := 1000, maxBackoff := 10, multiplier := 2 }

theorem delays_bounded_iff_raised :
    RetryPolicy.Bounded { lowCap with maxBackoff := 60000 } Float64.amd64 := by
  have hiff := @delays_bounded_iff { lowCap with maxBackoff := 60000 } (by decide) (by decide)
    (by decide +kernel)
  refine hiff.1 Float64.amd64 (by decide) ⟨?_, ?_⟩
  · decide +kernel
  · intro k hk
    obtain rfl : k = 0 := Nat.lt_one_iff.mp (Nat.lt_of_succ_lt_succ hk)
    decide +kernel

/-- The first delay is a hundred times the cap, and the second is shorter. -/
theorem first_delay_not_capped :
    let start : Env × World :=
      (Stream'.const { fault := some (.new "timeout") }, { vaults := fun _ _ => none })
    delays lowCap (setSecret "b" "k" [1]) handle start = [10 ^ 9, 10 ^ 7] ∧
      ¬((∀ d ∈ delays lowCap (setSecret "b" "k" [1]) handle start, d ≤ lowCap.maxBackoff * 10 ^ 6) ∧
        (delays lowCap (setSecret "b" "k" [1]) handle start).Pairwise (· ≤ ·)) := by
  intro start
  have hdelays : delays lowCap (setSecret "b" "k" [1]) handle start = [10 ^ 9, 10 ^ 7] := by
    decide +kernel
  rw [hdelays]
  exact ⟨rfl, by decide⟩

/-- A product that is no int64: on amd64 the loop stops sleeping. -/
example : backoffDelays Float64.amd64
    { maxRetries := 3, initialBackoff := 1, maxBackoff := 10, multiplier := 10 ^ 300 } 1 3 =
      [10 ^ 6, 0, 0] := by
  decide +kernel

/-! ### Policies that are set in part -/

/-- The policy that the documentation promises for the fields set in `p`: those fields, and the default
    of every other. -/
structure RetryPolicy.Completes (p q : RetryPolicy) : Prop where
  maxRetries : q.maxRetries = if p.maxRetries = 0 then 3 else p.maxRetries
  initialBackoff : q.initialBackoff = if p.initialBackoff = 0 then 1000 else p.initialBackoff
  maxBackoff : q.maxBackoff = if p.maxBackoff = 0 then 60000 else p.maxBackoff
  multiplier : q.multiplier = if p.multiplier = 0 then 2 else p.multiplier

/-- No field of the policy is negative. -/
structure RetryPolicy.Nonneg (p : RetryPolicy) : Prop where
  maxRetries : 0 ≤ p.maxRetries
  initialBackoff : 0 ≤ p.initialBackoff
  maxBackoff : 0 ≤ p.maxBackoff
  multiplier : 0 ≤ p.multiplier

theorem RetryPolicy.Completes.unique {p q r : RetryPolicy} (hq : p.Completes q) (hr : p.Completes r) :
    q = r := by
  cases q
  cases r
  rw [RetryPolicy.mk.injEq]
  exact ⟨hq.maxRetries.trans hr.maxRetries.symm, hq.initialBackoff.trans hr.initialBackoff.symm,
    hq.maxBackoff.trans hr.maxBackoff.symm, hq.multiplier.trans hr.multiplier.symm⟩

/-- A sync from the YAML file runs with the policy that is promised. -/
theorem completes_applySyncDefaults {s : SyncConfig} (h : s.retryPolicy.Nonneg) :
    s.retryPolicy.Completes (effectiveRetryPolicy (applySyncDefaults s).retryPolicy) := by
  have hset : (applySyncDefaults s).retryPolicy.maxRetries > 0 := by
    have hnonneg := h.maxRetries
    simp only [applySyncDefaults]
    split_ifs with hzero
    · decide
    · omega
  rw [effectiveRetryPolicy, if_pos (.inl hset)]
  exact ⟨rfl, rfl, rfl, rfl⟩

/-- All fields are set; or neither of the two that `effectiveRetryPolicy` looks at, and the others at most
    to their defaults. -/
def RetryPolicy.SetAlike (p : RetryPolicy) : Prop :=
  (p.maxRetries ≠ 0 ∧ p.initialBackoff ≠ 0 ∧ p.maxBackoff ≠ 0 ∧ p.multiplier ≠ 0) ∨
    (p.maxRetries = 0 ∧ p.initialBackoff = 0 ∧ (p.maxBackoff = 0 ∨ p.maxBackoff = 60000) ∧
      (p.multiplier = 0 ∨ p.multiplier = 2))

section Fields

variable {α : Type} [Zero α] [DecidableEq α] {x d : α}

/-- A field is completed by itself where it is set. -/
theorem eq_completed_iff (hd : d ≠ 0) : x = (if x = 0 then d else x) ↔ x ≠ 0 := by
  by_cases hx : x = 0
  · rw [if_pos hx, hx]
    exact iff_of_false (Ne.symm hd) (not_not.mpr rfl)
  · rw [if_neg hx]
    exact iff_of_true rfl hx

/-- A field is completed by its default where it is not set, or set to that. -/
theorem default_eq_completed_iff : d = (if x = 0 then d else x) ↔ x = 0 ∨ x = d := by
  by_cases hx : x = 0
  · rw [if_pos hx]
    exact iff_of_true rfl (.inl hx)
  · rw [if_neg hx, or_iff_right hx, eq_comm]

end Fields

theorem completes_iff {p q : RetryPolicy} : p.Completes q ↔
    q.maxRetries = (if p.maxRetries = 0 then 3 else p.maxRetries) ∧
      q.initialBackoff = (if p.initialBackoff = 0 then 1000 else p.initialBackoff) ∧
      q.maxBackoff = (if p.maxBackoff = 0 then 60000 else p.maxBackoff) ∧
      q.multiplier = if p.multiplier = 0 then 2 else p.multiplier :=
  ⟨fun ⟨h1, h2, h3, h4⟩ => ⟨h1, h2, h3, h4⟩, fun ⟨h1, h2, h3, h4⟩ => ⟨h1, h2, h3, h4⟩⟩

theorem completes_effectiveRetryPolicy_iff {p : RetryPolicy} (h : p.Nonneg) :
    p.Completes (effectiveRetryPolicy p) ↔ p.SetAlike := by
  obtain ⟨hretries, hinitial, -, -⟩ := h
  rw [effectiveRetryPolicy, completes_iff, RetryPolicy.SetAlike]
  by_cases hset : p.maxRetries > 0 ∨ p.initialBackoff > 0
  · have hnot : ¬(p.maxRetries = 0 ∧ p.initialBackoff = 0) := by omega
    rw [if_pos hset, eq_completed_iff (d := 3) (by decide), eq_completed_iff (d := 1000) (by decide),
      eq_completed_iff (d := 60000) (by decide), eq_completed_iff (d := 2) (by decide),
      or_iff_left fun h => hnot ⟨h.1, h.2.1⟩]
  · obtain ⟨hzero, hzero'⟩ : p.maxRetries = 0 ∧ p.initialBackoff = 0 := by omega
    rw [if_neg hset]
    simp only [default_eq_completed_iff, hzero, hzero', if_true, true_and, ne_eq, not_true_eq_false,
      false_and, false_or]

/-- The policy in force for a sync of the API is the one for the same sync of the YAML file, and both are
    the one that is promised, exactly where all fields are set or only defaults are left out. -/
theorem retry_policies_alike_iff {s : SyncConfig} (h : s.retryPolicy.Nonneg) :
    (effectiveRetryPolicy s.retryPolicy = effectiveRetryPolicy (applySyncDefaults s).retryPolicy ∧
      s.retryPolicy.Completes (effectiveRetryPolicy s.retryPolicy)) ↔ s.retryPolicy.SetAlike := by
  rw [← completes_effectiveRetryPolicy_iff h]
  exact and_iff_right_of_imp fun hp => hp.unique (completes_applySyncDefaults h)

theorem retry_policies_alike_full :
    let s : SyncConfig :=
      { id := "s", source := "a", targets := ["b"]
        retryPolicy := { maxRetries := 5, initialBackoff := 500, maxBackoff := 5000, multiplier := 2 } }
    effectiveRetryPolicy s.retryPolicy = effectiveRetryPolicy (applySyncDefaults s).retryPolicy ∧
      s.retryPolicy.Completes (effectiveRetryPolicy s.retryPolicy) := by
  intro s
  have hnonneg : s.retryPolicy.Nonneg := ⟨by decide, by decide, by decide, by decide +kernel⟩
  exact (retry_policies_alike_iff hnonneg).mpr (.inl ⟨by decide, by decide, by decide, by decide +kernel⟩)

/-- Five retries and nothing else: by the API they follow each other at once, by the YAML file with the
    delays that are promised. -/
theorem retries_alone_differ :
    let s : SyncConfig := { id := "s", source := "a", targets := ["b"], retryPolicy := { maxRetries := 5 } }
    effectiveRetryPolicy s.retryPolicy = { maxRetries := 5 } ∧
      effectiveRetryPolicy (applySyncDefaults s).retryPolicy =
        { maxRetries := 5, initialBackoff := 1000, maxBackoff := 60000, multiplier := 2 } ∧
      effectiveRetryPolicy s.retryPolicy ≠ effectiveRetryPolicy (applySyncDefaults s).retryPolicy := by
  intro s
  have hapi : effectiveRetryPolicy s.retryPolicy = { maxRetries := 5 } := rfl
  have hyaml : effectiveRetryPolicy (applySyncDefaults s).retryPolicy =
      { maxRetries := 5, initialBackoff := 1000, maxBackoff := 60000, multiplier := 2 } := by
    simp [s, applySyncDefaults, effectiveRetryPolicy]
  refine ⟨hapi, hyaml, fun h => ?_⟩
  have hinitial := congrArg RetryPolicy.initialBackoff (hapi.symm.trans (h.trans hyaml))
  exact absurd hinitial (by decide)

end VaultsSyncer
