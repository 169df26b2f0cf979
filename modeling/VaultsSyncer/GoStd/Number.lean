import Mathlib.Data.List.Basic
import VaultsSyncer.GoStd.Float64

/-! Numbers as text. A `Number` is a JSON number literal with the details that carry no meaning left
    out (`e` or `E`, a plus sign, leading zeros of the exponent): a mantissa, how many of its digits
    stand after the point, and an exponent. Every `Number` is a literal, and reading what is written
    gives it back (`readNumber_text`).

        12.50e-3          ⟨false, 1250, 2, -3⟩
        float n           the float64 the literal stands for, if it is in range
        f.literal         how encoding/json writes a float64
        f.formatV         how fmt prints a float64 with %v -/

namespace GoStd

/-- A JSON number: `mant` with its last `scale` digits after the point, times 10^`exp`. -/
structure Number where
  neg : Bool
  mant : ℕ
  scale : ℕ
  exp : ℤ
  deriving DecidableEq

/-- The decimal digits of a number, with leading zeros up to a width. -/
def padded (w n : ℕ) : List Char :=
  List.replicate (w - (Nat.toDigits 10 n).length) '0' ++ Nat.toDigits 10 n

/-- The exponent part; none is written for 0. -/
def expText (e : ℤ) : List Char :=
  if e = 0 then [] else 'e' :: (if e < 0 then '-' else '+') :: Nat.toDigits 10 e.natAbs

def Number.text (n : Number) : List Char :=
  let ds := padded (n.scale + 1) n.mant
  let point := ds.length - n.scale
  (if n.neg then ['-'] else []) ++ (ds.take point ++
    ((if n.scale = 0 then [] else '.' :: ds.drop point) ++ expText n.exp))

/-- The exponent part of a literal, up to its end. -/
def readExp : List Char → Option ℤ
  | [] => some 0
  | c :: r =>
    let ds := if r.head? = some '-' ∨ r.head? = some '+' then r.tail else r
    if (c = 'e' ∨ c = 'E') ∧ ds ≠ [] ∧ ds.all Char.isDigit then
      some (if r.head? = some '-' then -(Nat.ofDigitChars 10 ds 0 : ℤ) else Nat.ofDigitChars 10 ds 0)
    else none

/-- The fraction part of a literal, and what follows it. -/
def readFrac : List Char → Option (List Char × List Char)
  | [] => some ([], [])
  | c :: r =>
    if c = '.' then
      if r.takeWhile Char.isDigit = [] then none
      else some (r.takeWhile Char.isDigit, r.dropWhile Char.isDigit)
    else some ([], c :: r)

/-- A number literal, all of it. -/
def readNumber (cs : List Char) : Option Number :=
  let neg : Bool := cs.head? = some '-'
  let body := if neg then cs.tail else cs
  let int := body.takeWhile Char.isDigit
  if int = [] ∨ (int.head? = some '0' ∧ int.length ≠ 1) then none
  else do
    let (frac, rest) ← readFrac (body.dropWhile Char.isDigit)
    let exp ← readExp rest
    some ⟨neg, Nat.ofDigitChars 10 (int ++ frac) 0, frac.length, exp⟩

/-! ### Digits -/

theorem isDigit_toDigits (n : ℕ) : ∀ c ∈ Nat.toDigits 10 n, c.isDigit = true :=
  fun _ hc => Nat.isDigit_of_mem_toDigits (by decide) (by decide) hc

theorem isDigit_padded (w n : ℕ) : ∀ c ∈ padded w n, c.isDigit = true := by
  intro c hc
  rcases List.mem_append.mp hc with hc | hc
  · rw [List.eq_of_mem_replicate hc]; decide
  · exact isDigit_toDigits n c hc

theorem ofDigitChars_padded (w n : ℕ) : Nat.ofDigitChars 10 (padded w n) 0 = n := by
  rw [padded, Nat.ofDigitChars_append, Nat.ofDigitChars_replicate_zero, Nat.mul_zero,
    Nat.ofDigitChars_ten_toDigits]

theorem length_padded (w n : ℕ) : (padded w n).length = max w (Nat.toDigits 10 n).length := by
  rw [padded, List.length_append, List.length_replicate]; omega

/-- Only 0 starts with the digit 0. -/
theorem head?_toDigits (n : ℕ) : (Nat.toDigits 10 n).head? = some '0' → n = 0 := by
  induction n using Nat.strong_induction_on with
  | _ n ih =>
    rcases Nat.lt_or_ge n 10 with hlt | hge
    · rw [Nat.toDigits_of_lt_base hlt]
      simp
    · rw [Nat.toDigits_of_base_le (by decide) hge, List.head?_append_of_ne_nil _ (by simp)]
      intro h
      have := ih (n / 10) (by omega) h
      omega

theorem digit_ne {c d : Char} (hc : c.isDigit = true) (hd : d.isDigit = false) : c ≠ d := by
  rintro rfl
  rw [hc] at hd
  contradiction

/-- The digits in front of something that does not start with a digit. -/
theorem takeWhile_digits {ds r : List Char} (hds : ∀ c ∈ ds, c.isDigit = true)
    (hr : r.takeWhile Char.isDigit = []) : (ds ++ r).takeWhile Char.isDigit = ds := by
  rw [List.takeWhile_append_of_pos hds, hr, List.append_nil]

theorem dropWhile_digits {ds r : List Char} (hds : ∀ c ∈ ds, c.isDigit = true)
    (hr : r.takeWhile Char.isDigit = []) : (ds ++ r).dropWhile Char.isDigit = r := by
  rw [List.dropWhile_append_of_pos hds]
  rcases r with _ | ⟨c, r⟩
  · rfl
  · rw [List.takeWhile_cons] at hr
    split at hr
    · contradiction
    · rename_i hc
      rw [List.dropWhile_cons_of_neg hc]

/-! ### Reading what was written -/

theorem readExp_expText (e : ℤ) : readExp (expText e) = some e := by
  rw [expText]
  split
  · rename_i h; rw [h]; rfl
  · have hall : (Nat.toDigits 10 e.natAbs).all Char.isDigit = true :=
      List.all_eq_true.mpr (isDigit_toDigits _)
    rcases Int.lt_or_le e 0 with hneg | hpos
    · simp [readExp, hneg, hall, abs_of_neg hneg]
    · simp [readExp, Int.not_lt.mpr hpos, hall, abs_of_nonneg hpos]

theorem takeWhile_expText (e : ℤ) : (expText e).takeWhile Char.isDigit = [] := by
  rw [expText]
  split
  · rfl
  · rw [List.takeWhile_cons_of_neg (by decide)]

theorem readFrac_expText (e : ℤ) : readFrac (expText e) = some ([], expText e) := by
  rw [expText]
  split
  · rfl
  · simp [readFrac]

theorem readFrac_text {frac : List Char} (hne : frac ≠ []) (hd : ∀ c ∈ frac, c.isDigit = true)
    (e : ℤ) : readFrac ('.' :: frac ++ expText e) = some (frac, expText e) := by
  simp only [List.cons_append, readFrac, ↓reduceIte, takeWhile_digits hd (takeWhile_expText e),
    dropWhile_digits hd (takeWhile_expText e), hne]

/-- The integer part of a literal has no leading zero. -/
theorem noLeadingZero (n : Number) {int frac : List Char}
    (h : int ++ frac = padded (n.scale + 1) n.mant) (hf : frac.length = n.scale)
    (h0 : int.head? = some '0') : int.length = 1 := by
  have hlen := congrArg List.length h
  rw [List.length_append, hf, length_padded] at hlen
  rcases Nat.lt_or_ge (n.scale + 1) (Nat.toDigits 10 n.mant).length with hlt | hge
  · -- nothing is padded, so the first digit is that of the mantissa
    have hne : int ≠ [] := by rintro rfl; contradiction
    have hpad : padded (n.scale + 1) n.mant = Nat.toDigits 10 n.mant := by
      rw [padded, Nat.sub_eq_zero_of_le hlt.le, List.replicate_zero, List.nil_append]
    rw [← @List.head?_append_of_ne_nil _ int frac hne, h, hpad] at h0
    rw [head?_toDigits _ h0, Nat.toDigits_zero] at hlt
    simp at hlt
  · omega

/-- The parts of a literal, put together and read. -/
theorem readNumber_parts (n : Number) {int frac : List Char}
    (h : int ++ frac = padded (n.scale + 1) n.mant) (hf : frac.length = n.scale) :
    readNumber ((if n.neg then ['-'] else []) ++ (int ++
      ((if n.scale = 0 then [] else '.' :: frac) ++ expText n.exp))) = some n := by
  have hdigits : ∀ c ∈ int ++ frac, c.isDigit = true := h ▸ isDigit_padded _ _
  have hint : ∀ c ∈ int, c.isDigit = true := fun c hc => hdigits c (List.mem_append_left _ hc)
  have hfrac : ∀ c ∈ frac, c.isDigit = true := fun c hc => hdigits c (List.mem_append_right _ hc)
  have hlen := congrArg List.length h
  rw [List.length_append, hf, length_padded] at hlen
  have hne : int ≠ [] := by rintro rfl; simp at hlen; omega
  have hzero : ¬(int.head? = some '0' ∧ int.length ≠ 1) :=
    fun h0 => h0.2 (noLeadingZero n h hf h0.1)
  set tail := (if n.scale = 0 then [] else '.' :: frac) ++ expText n.exp with htail
  have hstop : tail.takeWhile Char.isDigit = [] := by
    rw [htail]
    split
    · exact takeWhile_expText n.exp
    · rw [List.cons_append, List.takeWhile_cons_of_neg (by decide)]
  have hread : readFrac tail = some (frac, expText n.exp) := by
    rw [htail]
    split
    · rename_i h0
      rw [h0, List.length_eq_zero_iff] at hf
      rw [hf]
      exact readFrac_expText n.exp
    · rename_i h0
      exact readFrac_text (by rintro rfl; exact h0 hf.symm) hfrac n.exp
  have hminus : ¬(int ++ tail).head? = some '-' := by
    rw [List.head?_append_of_ne_nil _ hne]
    intro hc
    exact digit_ne (hint _ (List.mem_of_mem_head? hc)) (by decide) rfl
  have hbody : ∀ cs : List Char, (cs = '-' :: (int ++ tail) ∧ n.neg = true ∨
      cs = int ++ tail ∧ n.neg = false) → readNumber cs = some n := by
    rintro cs (⟨rfl, hneg⟩ | ⟨rfl, hneg⟩)
    · simp only [readNumber, List.head?_cons, decide_true, ↓reduceIte, List.tail_cons,
        takeWhile_digits hint hstop, dropWhile_digits hint hstop, hne, hzero, or_self, hread]
      simp [readExp_expText, h, ofDigitChars_padded, hf, ← hneg]
    · simp only [readNumber, hminus, decide_false, Bool.false_eq_true, ↓reduceIte,
        takeWhile_digits hint hstop, dropWhile_digits hint hstop, hne, hzero, or_self, hread]
      simp [readExp_expText, h, ofDigitChars_padded, hf, ← hneg]
  cases hneg : n.neg
  · exact hbody _ (.inr ⟨by simp, hneg⟩)
  · exact hbody _ (.inl ⟨by simp, hneg⟩)

/-- Every number reads back from its text. -/
theorem readNumber_text (n : Number) : readNumber n.text = some n := by
  have hlen : n.scale ≤ (padded (n.scale + 1) n.mant).length := by rw [length_padded]; omega
  exact readNumber_parts n (List.take_append_drop _ _) (by rw [List.length_drop]; omega)

/-! ### The characters of a literal -/

/-- A character that may stand in a number literal. -/
def isNumberChar (c : Char) : Bool := c.isDigit || c ∈ ['-', '+', '.', 'e', 'E']

theorem isNumberChar_expText (e : ℤ) : ∀ c ∈ expText e, isNumberChar c = true := by
  rw [expText]
  split
  · simp
  · rintro c hc
    rcases List.mem_cons.mp hc with rfl | hc
    · decide
    rcases List.mem_cons.mp hc with rfl | hc
    · split <;> decide
    · rw [isNumberChar, isDigit_toDigits _ c hc, Bool.true_or]

theorem isNumberChar_text (n : Number) : ∀ c ∈ n.text, isNumberChar c = true := by
  have hpad : ∀ c ∈ padded (n.scale + 1) n.mant, isNumberChar c = true := by
    intro c hc
    rw [isNumberChar, isDigit_padded _ _ c hc, Bool.true_or]
  intro c hc
  rw [Number.text] at hc
  simp only [List.mem_append] at hc
  rcases hc with hc | hc | hc | hc
  · split at hc
    · rw [List.mem_singleton.mp hc]; decide
    · contradiction
  · exact hpad c (List.mem_of_mem_take hc)
  · split at hc
    · contradiction
    · rcases List.mem_cons.mp hc with rfl | hc
      · decide
      · exact hpad c (List.mem_of_mem_drop hc)
  · exact isNumberChar_expText n.exp c hc

/-- A literal starts with a minus sign or a digit. -/
theorem text_eq_cons (n : Number) : ∃ c r, n.text = c :: r ∧ (c = '-' ∨ c.isDigit = true) := by
  rcases hneg : n.neg with _ | _
  · obtain ⟨rest, hrest⟩ : ∃ rest, n.text = (padded (n.scale + 1) n.mant).take
        ((padded (n.scale + 1) n.mant).length - n.scale) ++ rest :=
      ⟨_, by simp only [Number.text, hneg]; rfl⟩
    have hlen : n.scale < (padded (n.scale + 1) n.mant).length := by rw [length_padded]; omega
    rcases hp : padded (n.scale + 1) n.mant with _ | ⟨c, r⟩
    · rw [hp] at hlen; simp at hlen
    · rw [hp] at hrest hlen
      rw [show (c :: r).length - n.scale = (r.length - n.scale) + 1 by simp at hlen ⊢; omega,
        List.take_succ_cons, List.cons_append] at hrest
      exact ⟨c, _, hrest, .inr (isDigit_padded (n.scale + 1) n.mant c (by rw [hp]; simp))⟩
  · exact ⟨'-', _, by simp only [Number.text, hneg]; rfl, .inl rfl⟩

/-! ### Floats as literals -/

namespace Number

/-- The magnitude a literal stands for. -/
def abs (n : Number) : ℚ := n.mant * 10 ^ (n.exp - n.scale)

/-- The float64 a literal stands for; `none` when it is out of range. -/
def float (n : Number) : Option Float64 := Float64.ofRat n.neg n.abs

end Number

namespace Float64

/-- The number of digits of the shortest decimal. -/
def digitCount (f : Float64) : ℕ := (Nat.toDigits 10 f.shortest.mant).length

/-- The exponent of its first digit. -/
def firstExp (f : Float64) : ℤ := f.digitCount - 1 + f.shortest.exp

/-- The format 'f': no exponent. -/
def plain (f : Float64) : Number :=
  let d := f.shortest
  if d.exp < 0 then ⟨f.neg, d.mant, d.exp.natAbs, 0⟩
  else ⟨f.neg, d.mant * 10 ^ d.exp.natAbs, 0, 0⟩

/-- How encoding/json writes a float64: with an exponent below 1e-6 and from 1e21 on. -/
def literal (f : Float64) : Number :=
  if f.units ≠ 0 ∧ (f.units < roundUnits (1 / 10 ^ 6 * 2 ^ 1074) ∨
      roundUnits (10 ^ 21 * 2 ^ 1074) ≤ f.units) then
    ⟨f.neg, f.shortest.mant, f.digitCount - 1, f.firstExp⟩
  else f.plain

/-- How fmt prints a float64 with `%v`: with an exponent of two digits at least below 1e-4 and from
    1e+06 on. -/
def formatV (f : Float64) : List Char :=
  if f.firstExp < -4 ∨ 6 ≤ f.firstExp then
    (Number.mk f.neg f.shortest.mant (f.digitCount - 1) 0).text ++
      'e' :: (if f.firstExp < 0 then '-' else '+') :: padded 2 f.firstExp.natAbs
  else f.plain.text

theorem abs_plain (f : Float64) : f.plain.abs = f.shortest.value := by
  simp only [plain]
  split
  · rename_i h
    rw [Number.abs, Decimal.value, show (0 : ℤ) - (f.shortest.exp.natAbs : ℤ) = f.shortest.exp by omega]
  · rename_i h
    rw [Number.abs, Decimal.value, Nat.cast_mul, Nat.cast_pow,
      ← zpow_natCast, show (f.shortest.exp.natAbs : ℤ) = f.shortest.exp by omega]
    simp

theorem abs_literal (f : Float64) : f.literal.abs = f.shortest.value := by
  rw [literal]
  split
  · have hpos : 1 ≤ f.digitCount := Nat.length_toDigits_pos
    rw [Number.abs, Decimal.value]
    simp only [firstExp]
    rw [Nat.cast_sub hpos, show (f.digitCount : ℤ) - 1 + f.shortest.exp - ((f.digitCount : ℤ) - (1 : ℕ)) =
      f.shortest.exp by push_cast; ring]
  · exact abs_plain f

theorem neg_literal (f : Float64) : f.literal.neg = f.neg := by
  rw [literal, plain]
  split
  · rfl
  · split <;> rfl

/-- A float64 reads back from the literal encoding/json writes for it. -/
theorem float_literal (f : Float64) : f.literal.float = some f := by
  rw [Number.float, neg_literal, abs_literal, ofRat_shortest]

end Float64

end GoStd
