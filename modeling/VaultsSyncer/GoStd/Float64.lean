import Mathlib.Algebra.Order.Floor.Semifield
import Mathlib.Data.Nat.Cast.Field
import Mathlib.Data.Rat.Floor
import Mathlib.Tactic.Ring
import Mathlib.Tactic.FieldSimp
import Mathlib.Tactic.Positivity
import Mathlib.Tactic.Linarith

/-! Go's `float64`, as far as decimal text can reach it: the finite ones. A magnitude is a number of
    units of 2^-1074 (the least subnormal) with at most 53 significant bits, and `ofRat` rounds a
    decimal to the nearest of them, ties to even.

        ofRat neg q       strconv.ParseFloat: `none` when the magnitude is out of range
        ofRat_abs         the exact value of a float64 rounds to itself
        shortest f        the shortest decimal that reads back as `f`, the nearest among those

    `ofRat_shortest` is the point: what `shortest` gives reads back as the float it came from. -/

namespace GoStd

/-- The distance between neighbours around `u` units: 53 bits are kept. -/
def quantum (u : ℕ) : ℕ := 2 ^ (u.log2 - 52)

theorem quantum_pos (u : ℕ) : 0 < quantum u := Nat.two_pow_pos _

/-- A finite `float64`: its sign and its magnitude in units of 2^-1074. -/
structure Float64 where
  neg : Bool
  units : ℕ
  kept : quantum units ∣ units
  finite : units.log2 < 2098
  deriving DecidableEq

/-- The nearest natural number, ties to the even one. -/
def roundHalfEven (q : ℚ) : ℕ :=
  if q - ⌊q⌋₊ < 1 / 2 ∨ (q - ⌊q⌋₊ = 1 / 2 ∧ ⌊q⌋₊ % 2 = 0) then ⌊q⌋₊ else ⌊q⌋₊ + 1

/-- The nearest magnitude that keeps 53 bits. -/
def roundUnits (q : ℚ) : ℕ := roundHalfEven (q / quantum ⌊q⌋₊) * quantum ⌊q⌋₊

theorem roundHalfEven_natCast (n : ℕ) : roundHalfEven n = n := by
  simp [roundHalfEven]

theorem roundHalfEven_le (q : ℚ) : roundHalfEven q ≤ ⌊q⌋₊ + 1 := by
  rw [roundHalfEven]; split <;> omega

/-- 53 bits times a power of two keep 53 bits. -/
theorem quantum_dvd_mul_pow {m e : ℕ} (hm : m ≤ 2 ^ 53) : quantum (m * 2 ^ e) ∣ m * 2 ^ e := by
  rcases Nat.eq_zero_or_pos m with rfl | hpos
  · simp
  rcases Nat.lt_or_eq_of_le hm with hlt | rfl
  · have hbits : (m * 2 ^ e).log2 < 53 + e := by
      rw [Nat.log2_lt (by positivity), pow_add]
      exact Nat.mul_lt_mul_of_pos_right hlt (by positivity)
    exact Dvd.dvd.mul_left (Nat.pow_dvd_pow 2 (by omega)) m
  · rw [← pow_add, quantum, Nat.log2_two_pow]
    exact Nat.pow_dvd_pow 2 (by omega)

theorem quantum_dvd_roundUnits (q : ℚ) : quantum (roundUnits q) ∣ roundUnits q := by
  refine quantum_dvd_mul_pow ?_
  -- the part above the quantum is below 2^53, so rounding it up reaches 2^53 at most
  have hlog : ⌊q⌋₊ < quantum ⌊q⌋₊ * 2 ^ 53 := by
    calc ⌊q⌋₊ < 2 ^ (⌊q⌋₊.log2 + 1) := Nat.lt_log2_self
      _ ≤ 2 ^ (⌊q⌋₊.log2 - 52 + 53) := Nat.pow_le_pow_right (by decide) (by omega)
      _ = quantum ⌊q⌋₊ * 2 ^ 53 := pow_add _ _ _
  have hlt : ⌊q / quantum ⌊q⌋₊⌋₊ < 2 ^ 53 := by
    rw [Nat.floor_div_natCast]
    exact Nat.div_lt_of_lt_mul hlog
  have hround := roundHalfEven_le (q / quantum ⌊q⌋₊)
  omega

theorem roundUnits_natCast {u : ℕ} (h : quantum u ∣ u) : roundUnits u = u := by
  rw [roundUnits, Nat.floor_natCast, ← Nat.cast_div h (by exact_mod_cast (quantum_pos u).ne'),
    roundHalfEven_natCast, Nat.div_mul_cancel h]

namespace Float64

/-- The magnitude as a number. -/
def abs (f : Float64) : ℚ := f.units / 2 ^ 1074

/-- `strconv.ParseFloat` of a decimal with this sign and this magnitude: `none` when it is out of
    range. -/
def ofRat (neg : Bool) (q : ℚ) : Option Float64 :=
  if h : (roundUnits (q * 2 ^ 1074)).log2 < 2098 then
    some ⟨neg, roundUnits (q * 2 ^ 1074), quantum_dvd_roundUnits _, h⟩
  else none

/-- The number 1. -/
def one : Float64 := ⟨false, 2 ^ 1074, by decide +kernel, by decide +kernel⟩

theorem abs_one : one.abs = 1 := by
  change ((2 ^ 1074 : ℕ) : ℚ) / 2 ^ 1074 = 1
  rw [Nat.cast_pow, Nat.cast_ofNat, div_self (pow_ne_zero _ two_ne_zero)]

/-- A float64 reads back from its exact value. -/
theorem ofRat_abs (f : Float64) : ofRat f.neg f.abs = some f := by
  have hu : f.abs * 2 ^ 1074 = (f.units : ℚ) := by rw [abs]; field_simp
  have hr : roundUnits (f.abs * 2 ^ 1074) = f.units := by rw [hu, roundUnits_natCast f.kept]
  simp only [ofRat, hr, f.finite, ↓reduceDIte]

end Float64

/-! ### The shortest decimal -/

/-- A decimal number `mant` * 10^`exp`. -/
structure Decimal where
  mant : ℕ
  exp : ℤ
  deriving DecidableEq

namespace Decimal

def value (d : Decimal) : ℚ := d.mant * 10 ^ d.exp

/-- The same number with up to `n` trailing zeros moved into the exponent. -/
def trim : ℕ → Decimal → Decimal
  | 0, d => d
  | n + 1, d => if d.mant ≠ 0 ∧ d.mant % 10 = 0 then trim n ⟨d.mant / 10, d.exp + 1⟩ else d

theorem value_trim (n : ℕ) (d : Decimal) : (trim n d).value = d.value := by
  induction n generalizing d with
  | zero => rfl
  | succ n ih =>
    rw [trim]
    split
    · rename_i h
      rw [ih]
      have hm : (d.mant : ℚ) = (d.mant / 10 : ℕ) * 10 := by
        exact_mod_cast (Nat.div_mul_cancel (Nat.dvd_of_mod_eq_zero h.2)).symm
      simp only [value]
      rw [hm, zpow_add_one₀ (by norm_num)]
      ring
    · rfl

end Decimal

namespace Float64

/-- The exponent of the leading decimal digit, of a magnitude of 10^-400 at least. -/
def leadingExp (q : ℚ) : ℤ := (Nat.toDigits 10 ⌊q * 10 ^ 400⌋₊).length - 401

/-- The decimals of `n` digits around a magnitude, the nearest first. -/
def around (q : ℚ) (n : ℕ) : List Decimal :=
  let e := leadingExp q + 1 - n
  let scaled := q / 10 ^ e
  [⟨roundHalfEven scaled, e⟩, ⟨⌊scaled⌋₊, e⟩, ⟨⌊scaled⌋₊ + 1, e⟩]

/-- The magnitude written out: units of 2^-1074 are 5^1074 units of 10^-1074. -/
def exact (f : Float64) : Decimal := ⟨f.units * 5 ^ 1074, -1074⟩

/-- The decimal of fewest digits that reads back as `f`, and of those the nearest; 17 digits always
    do. -/
def shortest (f : Float64) : Decimal :=
  if f.units = 0 then ⟨0, 0⟩
  else
    let found := ((List.range' 1 17).flatMap (around f.abs)).find? fun d =>
      ofRat f.neg d.value = some f
    (found.getD f.exact).trim 400

theorem mul_five_pow_div (u : ℚ) (n : ℕ) : u * 5 ^ n * (10 ^ n)⁻¹ = u / 2 ^ n := by
  have h10 : (10 : ℚ) ^ n = 5 ^ n * 2 ^ n := by rw [← mul_pow]; norm_num
  rw [h10]
  field_simp

theorem value_exact (f : Float64) : f.exact.value = f.abs := by
  rw [Decimal.value, exact, abs, show (-1074 : ℤ) = -((1074 : ℕ) : ℤ) from rfl, zpow_neg,
    zpow_natCast, Nat.cast_mul, Nat.cast_pow]
  exact mul_five_pow_div _ _

/-- The shortest decimal of a float64 reads back as that float64. -/
theorem ofRat_shortest (f : Float64) : ofRat f.neg f.shortest.value = some f := by
  rw [shortest]
  split
  · rename_i h
    have habs : f.abs = 0 := by rw [abs, h]; simp
    have hread := ofRat_abs f
    rw [habs] at hread
    simpa [Decimal.value] using hread
  · simp only [Decimal.value_trim]
    rcases hfind : List.find? _ _ with _ | d
    · rw [Option.getD_none, value_exact]; exact ofRat_abs f
    · have hd := List.find?_some hfind
      simpa using hd

end Float64

end GoStd
