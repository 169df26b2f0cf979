import VaultsSyncer.GoStd.Integers
import VaultsSyncer.GoStd.Number

/-! Integers as text. The shortest decimal of a float64 that is an integer below 2^53 is that integer, with
    trailing zeros moved into the exponent (`shortest_exactly`): what is tried before it is an integer too,
    and no two integers there share a float64. So `%v` prints its digits below 10^6, and an exponent from
    there on (`formatV_eq_iff`):

        999999     999999
        1000000    1e+06
        1234567    1.234567e+06 -/

namespace GoStd

/-! ### Digits -/

theorem toDigits_mul_ten {n : ℕ} (hn : 0 < n) : Nat.toDigits 10 (n * 10) = Nat.toDigits 10 n ++ ['0'] := by
  rw [Nat.toDigits_of_base_le (by decide) (by omega), Nat.mul_div_cancel n (by decide), Nat.mul_mod_left]
  rfl

theorem length_toDigits_mul_pow {n : ℕ} (hn : 0 < n) (k : ℕ) :
    (Nat.toDigits 10 (n * 10 ^ k)).length = (Nat.toDigits 10 n).length + k := by
  induction k with
  | zero => simp
  | succ k ih =>
    have hpos : 0 < n * 10 ^ k := Nat.mul_pos hn (Nat.pow_pos (by decide))
    rw [Nat.pow_succ, ← Nat.mul_assoc, toDigits_mul_ten hpos, List.length_append, ih]
    rfl

theorem floor_mul_pow (n k : ℕ) : ⌊(n : ℚ) * 10 ^ k⌋₊ = n * 10 ^ k := by
  have hcast : (n : ℚ) * 10 ^ k = (n * 10 ^ k : ℕ) := by push_cast; rfl
  rw [hcast, Nat.floor_natCast]

/-- The magnitude of an integer that is given by sign and magnitude. -/
theorem eq_natAbs_of_signed {neg : Bool} {q : ℚ} {n : ℤ} (hq : 0 ≤ q) (h : (if neg then -q else q) = n) :
    q = n.natAbs := by
  have hnat : (n.natAbs : ℚ) = |(n : ℚ)| := by rw [Nat.cast_natAbs, Int.cast_abs]
  rw [hnat, ← h]
  split
  · rw [abs_neg, abs_of_nonneg hq]
  · rw [abs_of_nonneg hq]

/-! ### Rounding -/

theorem floor_le_roundHalfEven (q : ℚ) : ⌊q⌋₊ ≤ roundHalfEven q := by
  rw [roundHalfEven]
  split <;> omega

/-- Nothing is rounded below a power of two. -/
theorem two_pow_le_roundUnits {k : ℕ} {q : ℚ} (h : 2 ^ k ≤ ⌊q⌋₊) : 2 ^ k ≤ roundUnits q := by
  have hne : ⌊q⌋₊ ≠ 0 := by
    have hpos : 0 < 2 ^ k := Nat.two_pow_pos k
    omega
  have hlog : k ≤ ⌊q⌋₊.log2 := (Nat.le_log2 hne).mpr h
  have hdvd : quantum ⌊q⌋₊ ∣ 2 ^ ⌊q⌋₊.log2 := Nat.pow_dvd_pow 2 (Nat.sub_le ..)
  calc 2 ^ k ≤ 2 ^ ⌊q⌋₊.log2 := Nat.pow_le_pow_right (by decide) hlog
    _ = 2 ^ ⌊q⌋₊.log2 / quantum ⌊q⌋₊ * quantum ⌊q⌋₊ := (Nat.div_mul_cancel hdvd).symm
    _ ≤ ⌊q⌋₊ / quantum ⌊q⌋₊ * quantum ⌊q⌋₊ :=
      Nat.mul_le_mul_right _ (Nat.div_le_div_right (Nat.log2_self_le hne))
    _ = ⌊q / quantum ⌊q⌋₊⌋₊ * quantum ⌊q⌋₊ := by rw [Nat.floor_div_natCast]
    _ ≤ roundUnits q := Nat.mul_le_mul_right _ (floor_le_roundHalfEven _)

namespace Float64

theorem units_of_ofRat {neg : Bool} {q : ℚ} {f : Float64} (h : ofRat neg q = some f) :
    f.units = roundUnits (q * 2 ^ 1074) := by
  rw [ofRat] at h
  split at h
  · rw [← Option.some.inj h]
  · cases h

theorem units_exactly (neg : Bool) {m : ℕ} (h : m ≤ 2 ^ 53) : (exactly neg m h).units = m * 2 ^ 1074 := rfl

/-- The integers below 2^53 do not share their float64 with another integer. -/
theorem eq_of_ofRat_natCast {neg : Bool} {m k : ℕ} (hm : m < 2 ^ 53)
    (h : ofRat neg k = some (exactly neg m hm.le)) : k = m := by
  rcases Nat.lt_or_ge (2 ^ 53) k with hlarge | hsmall
  · -- from 2^53 on the units are 2^53 units of 1 at least
    have hunits := units_of_ofRat h
    rw [units_exactly] at hunits
    have hcast : (k : ℚ) * 2 ^ 1074 = (k * 2 ^ 1074 : ℕ) := by
      rw [Nat.cast_mul, Nat.cast_pow, Nat.cast_ofNat]
    have hround : 2 ^ (53 + 1074) ≤ roundUnits ((k : ℚ) * 2 ^ 1074) := by
      refine two_pow_le_roundUnits ?_
      rw [hcast, Nat.floor_natCast, pow_add]
      exact Nat.mul_le_mul_right _ hlarge.le
    rw [← hunits, pow_add] at hround
    have hle : 2 ^ 53 ≤ m := le_of_mul_le_mul_right hround (by positivity)
    omega
  · rw [ofRat_natCast neg hsmall, Option.some.injEq] at h
    have habs := congrArg abs h
    rw [abs_exactly, abs_exactly] at habs
    exact_mod_cast habs

/-! ### The shortest decimal -/

theorem leadingExp_natCast {m : ℕ} (hm : 0 < m) :
    leadingExp m = (Nat.toDigits 10 m).length - 1 := by
  rw [leadingExp, floor_mul_pow, length_toDigits_mul_pow hm]
  push_cast
  omega

theorem exp_of_mem_around {q : ℚ} {n : ℕ} {d : Decimal} (h : d ∈ around q n) :
    d.exp = leadingExp q + 1 - n := by
  simp only [around, List.mem_cons, List.not_mem_nil, or_false] at h
  rcases h with rfl | rfl | rfl <;> rfl

theorem value_of_exp {d : Decimal} {e : ℕ} (h : d.exp = e) : d.value = (d.mant * 10 ^ e : ℕ) := by
  rw [Decimal.value, h, zpow_natCast]
  push_cast
  rfl

theorem exp_le_trim (n : ℕ) (d : Decimal) : d.exp ≤ (d.trim n).exp := by
  induction n generalizing d with
  | zero => exact le_refl _
  | succ n ih =>
    rw [Decimal.trim]
    split
    · exact (Int.le_add_one (le_refl _)).trans (ih _)
    · exact le_refl _

/-- With all its digits an integer is among the decimals that are tried. -/
theorem mem_around_natCast {m : ℕ} (hm : 0 < m) :
    (⟨m, 0⟩ : Decimal) ∈ around m (Nat.toDigits 10 m).length := by
  have hexp : leadingExp m + 1 - ((Nat.toDigits 10 m).length : ℤ) = 0 := by
    rw [leadingExp_natCast hm]
    omega
  simp only [around, hexp, zpow_zero, div_one, roundHalfEven_natCast]
  exact List.mem_cons_self

/-- What is found for an integer is that integer, to a power of ten. -/
theorem found_exactly (neg : Bool) {m : ℕ} (hm : 0 < m) (h : m < 2 ^ 53) : ∃ (d : Decimal) (e : ℕ),
    (((List.range' 1 17).flatMap (around m)).find? fun d =>
      ofRat neg d.value = some (exactly neg m h.le)) = some d ∧ d.exp = e ∧ d.mant * 10 ^ e = m := by
  set digits := (Nat.toDigits 10 m).length with hdigits
  have hlength : digits ≤ 16 := (Nat.length_toDigits_le_iff (by decide) (by decide)).mpr (by omega)
  have hpos : 1 ≤ digits := Nat.length_toDigits_pos
  -- the integer itself is among the decimals of at most its own number of digits
  have hsplit : List.range' 1 17 = List.range' 1 digits ++ List.range' (1 + digits) (17 - digits) := by
    rw [List.range'_append_1, Nat.add_sub_cancel' (by omega)]
  have hmem : (⟨m, 0⟩ : Decimal) ∈ (List.range' 1 digits).flatMap (around m) :=
    List.mem_flatMap.mpr ⟨digits, List.mem_range'_1.mpr ⟨hpos, by omega⟩, mem_around_natCast hm⟩
  have hself : ofRat neg (Decimal.value ⟨m, 0⟩) = some (exactly neg m h.le) := by
    rw [value_of_exp (e := 0) rfl, pow_zero, mul_one]
    exact ofRat_natCast neg h.le
  rw [hsplit, List.flatMap_append, List.find?_append]
  rcases hfind : ((List.range' 1 digits).flatMap (around m)).find? fun d =>
      ofRat neg d.value = some (exactly neg m h.le) with _ | d
  · have hnone := List.find?_eq_none.mp hfind _ hmem
    simp [hself] at hnone
  · obtain ⟨n, hn, hd⟩ := List.mem_flatMap.mp (List.mem_of_find?_eq_some hfind)
    obtain ⟨e, he⟩ : ∃ e : ℕ, d.exp = e := by
      refine Int.eq_ofNat_of_zero_le ?_
      rw [List.mem_range'_1] at hn
      rw [exp_of_mem_around hd, leadingExp_natCast hm]
      omega
    have hread : ofRat neg d.value = some (exactly neg m h.le) := by
      simpa using List.find?_some hfind
    rw [value_of_exp he] at hread
    exact ⟨d, e, by rw [hfind, Option.some_or], he, eq_of_ofRat_natCast h hread⟩

theorem shortest_exactly (neg : Bool) {m : ℕ} (hm : 0 < m) (h : m < 2 ^ 53) :
    ∃ e : ℕ, (exactly neg m h.le).shortest.exp = e ∧ (exactly neg m h.le).shortest.mant * 10 ^ e = m := by
  have hunits : (exactly neg m h.le).units ≠ 0 := by
    rw [units_exactly]
    positivity
  obtain ⟨d, e, hfound, he, hd⟩ := found_exactly neg hm h
  have hshortest : (exactly neg m h.le).shortest = d.trim 400 := by
    have hneg : (exactly neg m h.le).neg = neg := rfl
    rw [shortest, if_neg hunits, abs_exactly]
    simp only [hneg, hfound, Option.getD_some]
  obtain ⟨e', he'⟩ : ∃ e' : ℕ, (d.trim 400).exp = e' := by
    refine Int.eq_ofNat_of_zero_le ?_
    have htrim := exp_le_trim 400 d
    omega
  refine ⟨e', by rw [hshortest, he'], ?_⟩
  have hvalue := Decimal.value_trim 400 d
  rw [value_of_exp he', value_of_exp he, Nat.cast_inj, hd] at hvalue
  rw [hshortest, hvalue]

theorem firstExp_exactly (neg : Bool) {m : ℕ} (hm : 0 < m) (h : m < 2 ^ 53) :
    (exactly neg m h.le).firstExp = (Nat.toDigits 10 m).length - 1 := by
  obtain ⟨e, he, hd⟩ := shortest_exactly neg hm h
  have hmant : 0 < (exactly neg m h.le).shortest.mant := by
    refine Nat.pos_of_ne_zero fun hzero => ?_
    rw [hzero, Nat.zero_mul] at hd
    omega
  have hlength := length_toDigits_mul_pow hmant e
  rw [hd] at hlength
  rw [firstExp, digitCount, he, hlength]
  push_cast
  omega

theorem plain_exactly (neg : Bool) {m : ℕ} (hm : 0 < m) (h : m < 2 ^ 53) :
    (exactly neg m h.le).plain = ⟨neg, m, 0, 0⟩ := by
  obtain ⟨e, he, hd⟩ := shortest_exactly neg hm h
  have hneg : ¬(e : ℤ) < 0 := by omega
  simp only [plain, he, hneg, if_false, Int.natAbs_natCast, hd]
  rfl

/-! ### What is printed -/

/-- The sign in front of the digits. -/
def signed (neg : Bool) (m : ℕ) : List Char := (if neg then ['-'] else []) ++ Nat.toDigits 10 m

theorem text_natural (neg : Bool) (m : ℕ) : (Number.mk neg m 0 0).text = signed neg m := by
  have hpad : padded 1 m = Nat.toDigits 10 m := by
    have hlength : 1 ≤ (Nat.toDigits 10 m).length := Nat.length_toDigits_pos
    rw [padded, Nat.sub_eq_zero_of_le hlength]
    rfl
  simp [Number.text, hpad, expText, signed]

theorem formatV_zero (neg : Bool) : (exactly neg 0 (by decide)).formatV = signed neg 0 := by
  have hunits : (exactly neg 0 (by decide)).units = 0 := by rw [units_exactly, Nat.zero_mul]
  have hshortest : (exactly neg 0 (by decide)).shortest = ⟨0, 0⟩ := by rw [shortest, if_pos hunits]
  have hplain : (exactly neg 0 (by decide)).plain = ⟨neg, 0, 0, 0⟩ := by
    rw [plain, hshortest]
    rfl
  have hexp : (exactly neg 0 (by decide)).firstExp = 0 := by
    rw [firstExp, digitCount, hshortest]
    rfl
  rw [formatV, hexp, if_neg (by decide), hplain, text_natural]

/-- Below 10^6 the digits are printed. -/
theorem formatV_of_lt (neg : Bool) {m : ℕ} (hm : m < 10 ^ 6) (h : m < 2 ^ 53) :
    (exactly neg m h.le).formatV = signed neg m := by
  rcases Nat.eq_zero_or_pos m with rfl | hpos
  · exact formatV_zero neg
  have hlength : (Nat.toDigits 10 m).length ≤ 6 :=
    (Nat.length_toDigits_le_iff (by decide) (by decide)).mpr hm
  rw [formatV, firstExp_exactly neg hpos h, if_neg (by omega), plain_exactly neg hpos h, text_natural]

/-- From 10^6 on there is an exponent. -/
theorem formatV_of_ge (neg : Bool) {m : ℕ} (hm : 10 ^ 6 ≤ m) (h : m < 2 ^ 53) :
    'e' ∈ (exactly neg m h.le).formatV := by
  have hlength : ¬(Nat.toDigits 10 m).length ≤ 6 := by
    rw [Nat.length_toDigits_le_iff (by decide) (by decide)]
    omega
  rw [formatV, firstExp_exactly neg (by omega) h, if_pos (by omega)]
  exact List.mem_append_right _ List.mem_cons_self

theorem not_mem_signed (neg : Bool) (m : ℕ) : 'e' ∉ signed neg m := by
  intro h
  rcases List.mem_append.mp h with h | h
  · cases neg <;> simp at h
  · exact absurd (isDigit_toDigits m _ h) (by decide)

theorem head?_signed (neg : Bool) (m : ℕ) : (signed neg m).head? = some '-' ↔ neg = true := by
  cases neg with
  | true => simp [signed]
  | false =>
    refine iff_of_false (fun h => ?_) Bool.false_ne_true
    exact absurd (isDigit_toDigits m _ (List.mem_of_mem_head? h)) (by decide)

theorem signed_left_inj {a b : Bool} {m : ℕ} : signed a m = signed b m ↔ a = b := by
  refine ⟨fun h => Bool.eq_iff_iff.mpr ?_, fun h => by rw [h]⟩
  rw [← head?_signed a m, h, head?_signed]

theorem toList_toString_int (n : ℤ) : (toString n).toList = signed (decide (n < 0)) n.natAbs := by
  cases n with
  | ofNat m => simp [signed, toString, Int.repr]
  | negSucc m => simp [signed, toString, Int.repr]

/-! ### From the value -/

theorem abs_nonneg (f : Float64) : 0 ≤ f.abs := by
  rw [abs]
  positivity

theorem abs_of_val {f : Float64} {n : ℤ} (hval : f.val = n) : f.abs = n.natAbs :=
  eq_natAbs_of_signed f.abs_nonneg hval

theorem eq_exactly_of_val {f : Float64} {n : ℤ} (hval : f.val = n) (h : n.natAbs ≤ 2 ^ 53) :
    f = exactly f.neg n.natAbs h := by
  have hread := ofRat_abs f
  rw [abs_of_val hval, ofRat_natCast f.neg h] at hread
  exact (Option.some.inj hread).symm

/-- The sign is that of the value, except that 0 has two. -/
theorem neg_eq_iff {f : Float64} {n : ℤ} (hval : f.val = n) :
    f.neg = decide (n < 0) ↔ ¬(f.neg = true ∧ n = 0) := by
  have hnonneg := f.abs_nonneg
  rw [val] at hval
  rcases hneg : f.neg with _ | _
  · rw [hneg, if_neg Bool.false_ne_true] at hval
    have hn : 0 ≤ n := by exact_mod_cast hval ▸ hnonneg
    simp [hn]
  · rw [hneg, if_pos rfl] at hval
    have hn : n ≤ 0 := by
      have hcast : (n : ℚ) ≤ 0 := by linarith
      exact_mod_cast hcast
    simp only [true_and, eq_comm (a := true), decide_eq_true_eq]
    omega

/-- The digits of an integer are printed exactly below 10^6; -0 is printed with its sign. -/
theorem formatV_eq_iff {f : Float64} {n : ℤ} (hval : f.val = n) (hn : n.natAbs < 2 ^ 53) :
    String.ofList f.formatV = toString n ↔ n.natAbs < 10 ^ 6 ∧ ¬(f.neg = true ∧ n = 0) := by
  have hlist : String.ofList f.formatV = toString n ↔
      f.formatV = signed (decide (n < 0)) n.natAbs := by
    rw [← toList_toString_int, ← String.toList_inj, String.toList_ofList]
  have hf := congrArg formatV (eq_exactly_of_val hval hn.le)
  rw [hlist, ← neg_eq_iff hval]
  rcases Nat.lt_or_ge n.natAbs (10 ^ 6) with hlt | hge
  · rw [hf, formatV_of_lt f.neg hlt hn, signed_left_inj]
    exact ⟨fun h => ⟨hlt, h⟩, fun h => h.2⟩
  · refine iff_of_false (fun h => ?_) (fun h => absurd h.1 (by omega))
    have he := formatV_of_ge f.neg hge hn
    rw [← hf, h] at he
    exact not_mem_signed _ _ he

end Float64

namespace Number

/-- The number a literal stands for. -/
def value (num : Number) : ℚ := if num.neg then -num.abs else num.abs

theorem abs_nonneg (num : Number) : 0 ≤ num.abs :=
  mul_nonneg (Nat.cast_nonneg _) (zpow_nonneg (by norm_num) _)

theorem value_natural (neg : Bool) (m : ℕ) : (mk neg m 0 0).value = if neg then -(m : ℚ) else m := by
  simp [value, abs]

theorem abs_of_value {num : Number} {n : ℤ} (hvalue : num.value = n) : num.abs = n.natAbs :=
  eq_natAbs_of_signed num.abs_nonneg hvalue

/-- The literal of an integer up to 2^53 is read as that integer. -/
theorem float_of_value {num : Number} {n : ℤ} (hvalue : num.value = n) (hn : n.natAbs ≤ 2 ^ 53) :
    num.float = some (Float64.exactly num.neg n.natAbs hn) := by
  rw [float, abs_of_value hvalue, Float64.ofRat_natCast num.neg hn]

theorem val_of_float {num : Number} {n : ℤ} (hvalue : num.value = n) (hn : n.natAbs ≤ 2 ^ 53)
    {f : Float64} (hf : num.float = some f) : f.val = n ∧ f.neg = num.neg := by
  rw [float_of_value hvalue hn] at hf
  obtain rfl := Option.some.inj hf
  refine ⟨?_, rfl⟩
  rw [Float64.val, Float64.abs_exactly, ← abs_of_value hvalue, ← hvalue]
  rfl

end Number

end GoStd
