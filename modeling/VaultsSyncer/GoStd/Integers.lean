import VaultsSyncer.GoStd.Float64

/-! Integers as float64s and as int64s: a float64 has every integer up to 2^53, and there differences are
    those of the integers (`trunc_sub`), and a product with a factor of at least one does not fall below
    the other factor (`le_trunc_mul`); an int64 wraps around, downwards for what is too large
    (`wrap64_le`). -/

namespace GoStd

/-- The int64 that an overflow leaves. -/
def wrap64 (x : ℤ) : ℤ := (x + 2 ^ 63) % 2 ^ 64 - 2 ^ 63

theorem wrap64_lt (x : ℤ) : wrap64 x < 2 ^ 63 := by
  rw [wrap64]
  omega

theorem wrap64_le {x : ℤ} (h : -2 ^ 63 ≤ x) : wrap64 x ≤ x := by
  rw [wrap64]
  omega

namespace Float64

/-- Sign and magnitude. -/
def val (f : Float64) : ℚ := if f.neg then -f.abs else f.abs

/-- `f - g`, rounded; `none` when it is out of range. -/
def sub (f g : Float64) : Option Float64 :=
  if f.val < g.val then ofRat true (g.val - f.val) else ofRat false (f.val - g.val)

/-- `f * g`, rounded; `none` when it is out of range. -/
def mul (f g : Float64) : Option Float64 := ofRat (f.neg != g.neg) (f.abs * g.abs)

/-- The integer part. -/
def trunc (f : Float64) : ℤ := if f.neg then -⌊f.abs⌋₊ else ⌊f.abs⌋₊

/-- `int64(f)`; what it is when the integer part is no int64 is left to the machine. -/
def toInt64 (outOfRange : Option Float64 → ℤ) (f : Option Float64) : ℤ :=
  match f with
  | some g => if -2 ^ 63 ≤ g.trunc ∧ g.trunc < 2 ^ 63 then g.trunc else outOfRange f
  | none => outOfRange f

/-- What amd64 makes of a float64 that is no int64; arm64 takes the int64 next to it. -/
def amd64 (_ : Option Float64) : ℤ := -2 ^ 63

theorem log2_mul_pow_le {m a : ℕ} (e : ℕ) (h : m ≤ 2 ^ a) : (m * 2 ^ e).log2 ≤ a + e := by
  rcases Nat.eq_zero_or_pos m with rfl | hpos
  · rw [Nat.zero_mul, Nat.log2_zero]
    omega
  · refine Nat.le_of_lt_succ ((Nat.log2_lt (by positivity)).mpr ?_)
    calc m * 2 ^ e ≤ 2 ^ a * 2 ^ e := Nat.mul_le_mul_right _ h
      _ = 2 ^ (a + e) := (pow_add 2 a e).symm
      _ < 2 ^ (a + e + 1) := Nat.pow_lt_pow_right (by decide) (Nat.lt_succ_self _)

/-- An integer up to 2^53 as it is. -/
def exactly (neg : Bool) (m : ℕ) (h : m ≤ 2 ^ 53) : Float64 where
  neg := neg
  units := m * 2 ^ 1074
  kept := quantum_dvd_mul_pow h
  finite := (log2_mul_pow_le 1074 h).trans_lt (by decide)

theorem abs_exactly (neg : Bool) {m : ℕ} (h : m ≤ 2 ^ 53) : (exactly neg m h).abs = m := by
  have hpow : (2 : ℚ) ^ 1074 ≠ 0 := pow_ne_zero _ two_ne_zero
  rw [abs, exactly, Nat.cast_mul, Nat.cast_pow, Nat.cast_ofNat, mul_div_assoc, div_self hpow, mul_one]

theorem trunc_exactly (neg : Bool) {m : ℕ} (h : m ≤ 2 ^ 53) :
    (exactly neg m h).trunc = if neg then -(m : ℤ) else m := by
  rw [trunc, abs_exactly, Nat.floor_natCast, exactly]

/-- Read from text, an integer up to 2^53 is itself. -/
theorem ofRat_natCast (neg : Bool) {m : ℕ} (h : m ≤ 2 ^ 53) : ofRat neg m = some (exactly neg m h) := by
  have hread := ofRat_abs (exactly neg m h)
  rwa [abs_exactly] at hread

/-- Differences of integers up to 2^53 are exact. -/
theorem trunc_sub {f g : Float64} {m k : ℕ} (hm : m ≤ 2 ^ 53) (hk : k ≤ 2 ^ 53) (hf : f.val = m)
    (hg : g.val = k) : ∃ d, f.sub g = some d ∧ d.trunc = m - k := by
  rw [sub, hf, hg]
  split_ifs with hlt
  · have hle : m ≤ k := by exact_mod_cast hlt.le
    have hread := ofRat_natCast true (show k - m ≤ 2 ^ 53 by omega)
    rw [Nat.cast_sub hle] at hread
    refine ⟨_, hread, ?_⟩
    rw [trunc_exactly, if_pos rfl]
    omega
  · have hle : k ≤ m := by exact_mod_cast not_lt.mp hlt
    have hread := ofRat_natCast false (show m - k ≤ 2 ^ 53 by omega)
    rw [Nat.cast_sub hle] at hread
    refine ⟨_, hread, ?_⟩
    rw [trunc_exactly, if_neg Bool.false_ne_true]
    omega

/-! ### Products -/

theorem floor_le_roundHalfEven (q : ℚ) : ⌊q⌋₊ ≤ roundHalfEven q := by
  rw [roundHalfEven]
  split <;> omega

/-- Rounding does not go below a number that keeps 53 bits. -/
theorem le_roundUnits {u : ℕ} {q : ℚ} (hu : quantum u ∣ u) (h : (u : ℚ) ≤ q) : u ≤ roundUnits q := by
  have hfloor : u ≤ ⌊q⌋₊ := Nat.le_floor h
  have hround : ⌊q⌋₊ / quantum ⌊q⌋₊ ≤ roundHalfEven (q / quantum ⌊q⌋₊) := by
    rw [← Nat.floor_div_natCast]
    exact floor_le_roundHalfEven _
  have hmul : ⌊q⌋₊ / quantum ⌊q⌋₊ * quantum ⌊q⌋₊ ≤ roundUnits q := Nat.mul_le_mul_right _ hround
  -- the quantum divides `u`, or the power of two below `⌊q⌋₊`, which is above `u`
  suffices hsuff : ∃ t, u ≤ t ∧ t ≤ ⌊q⌋₊ ∧ quantum ⌊q⌋₊ ∣ t by
    obtain ⟨t, hut, htq, hdvd⟩ := hsuff
    calc u ≤ t := hut
      _ = t / quantum ⌊q⌋₊ * quantum ⌊q⌋₊ := (Nat.div_mul_cancel hdvd).symm
      _ ≤ ⌊q⌋₊ / quantum ⌊q⌋₊ * quantum ⌊q⌋₊ := Nat.mul_le_mul_right _ (Nat.div_le_div_right htq)
      _ ≤ roundUnits q := hmul
  by_cases hdvd : quantum ⌊q⌋₊ ∣ u
  · exact ⟨u, le_rfl, hfloor, hdvd⟩
  · have hlog : u.log2 < ⌊q⌋₊.log2 := by
      by_contra hle
      refine hdvd (Dvd.dvd.trans ?_ hu)
      exact Nat.pow_dvd_pow 2 (by omega)
    have hne : ⌊q⌋₊ ≠ 0 := by
      intro hzero
      rw [hzero, Nat.log2_zero] at hlog
      exact Nat.not_lt_zero _ hlog
    refine ⟨2 ^ ⌊q⌋₊.log2, ?_, Nat.log2_self_le hne, Nat.pow_dvd_pow 2 (by omega)⟩
    rcases Nat.eq_zero_or_pos u with rfl | hpos
    · exact Nat.zero_le _
    · exact ((Nat.log2_lt hpos.ne').mp hlog).le

/-- A magnitude that is at least `m` is rounded to one that is. -/
theorem le_abs_of_ofRat {neg : Bool} {q : ℚ} {f : Float64} (h : ofRat neg q = some f) {m : ℕ}
    (hm : m ≤ 2 ^ 53) (hq : (m : ℚ) ≤ q) : f.neg = neg ∧ (m : ℚ) ≤ f.abs := by
  rw [ofRat] at h
  split_ifs at h with hfinite
  obtain rfl := Option.some.inj h
  refine ⟨rfl, ?_⟩
  have hunits : m * 2 ^ 1074 ≤ roundUnits (q * 2 ^ 1074) := by
    refine le_roundUnits (quantum_dvd_mul_pow hm) ?_
    rw [Nat.cast_mul, Nat.cast_pow, Nat.cast_ofNat]
    exact mul_le_mul_of_nonneg_right hq (by positivity)
  rw [abs, le_div_iff₀ (by positivity)]
  exact_mod_cast hunits

/-- A product with a factor of at least one is no less than the other factor. -/
theorem le_trunc_mul {m : ℕ} (hm : m ≤ 2 ^ 53) {g p : Float64} (hneg : g.neg = false) (hg : 1 ≤ g.abs)
    (h : (exactly false m hm).mul g = some p) : (m : ℤ) ≤ p.trunc := by
  rw [mul, abs_exactly, hneg] at h
  obtain ⟨hp, habs⟩ := le_abs_of_ofRat h hm (le_mul_of_one_le_right (Nat.cast_nonneg _) hg)
  have hpos : p.neg = false := hp
  rw [trunc, if_neg (by simp [hpos])]
  exact_mod_cast Nat.le_floor habs

end Float64

end GoStd
