import Mathlib.Algebra.Group.Int.Defs
import Mathlib.Data.List.DropRight
import VaultsSyncer.GoStd.Text

/-! The functions of package `strings`, and `url.PathEscape`, on valid UTF-8: a string is looked at as
    its characters. -/

namespace GoStd

/-- `unicode.IsSpace`. -/
def isUnicodeSpace (c : Char) : Bool :=
  c = '\t' || c = '\n' || c = '\x0b' || c = '\x0c' || c = '\r' || c = ' ' || c = '\u0085' ||
    c = '\u00a0' || c = '\u1680' || ('\u2000' ≤ c && c ≤ '\u200a') || c = '\u2028' ||
    c = '\u2029' || c = '\u202f' || c = '\u205f' || c = '\u3000'

/-- `strings.TrimSpace`. -/
def trimSpace (s : String) : String :=
  String.ofList ((s.toList.dropWhile isUnicodeSpace).rdropWhile isUnicodeSpace)

/-- `strings.HasPrefix`. -/
def hasPrefix (s pre : String) : Bool := pre.toList.isPrefixOf s.toList

/-- What `TrimSpace` leaves in front of the first character that is no space. -/
theorem eq_append_of_hasPrefix_trimSpace {s : String} {c : Char}
    (h : hasPrefix (trimSpace s) (String.singleton c) = true) :
    ∃ w r, s.toList = w ++ c :: r ∧ ∀ d ∈ w, isUnicodeSpace d = true := by
  obtain ⟨r, hr⟩ : ∃ r, s.toList.dropWhile isUnicodeSpace = c :: r := by
    rw [hasPrefix, trimSpace, List.isPrefixOf_iff_prefix, String.toList_ofList] at h
    obtain ⟨t, ht⟩ := h.trans (List.rdropWhile_prefix isUnicodeSpace _)
    exact ⟨t, by rw [← ht]; simp⟩
  refine ⟨s.toList.takeWhile isUnicodeSpace, r, ?_, fun d hd => List.mem_takeWhile_imp hd⟩
  rw [← hr, List.takeWhile_append_dropWhile]

/-- `strings.HasSuffix`. -/
def hasSuffix (s suf : String) : Bool := suf.toList.isSuffixOf s.toList

/-- `strings.TrimSuffix`. -/
def trimSuffix (s suf : String) : String :=
  if hasSuffix s suf then String.ofList (s.toList.take (s.toList.length - suf.toList.length)) else s

/-- The first occurrence of `old` replaced, if there is one. -/
def replaceFirst (old new : List Char) : List Char → Option (List Char)
  | [] => if old = [] then some new else none
  | c :: cs =>
    if old.isPrefixOf (c :: cs) then some (new ++ (c :: cs).drop old.length)
    else (replaceFirst old new cs).map (c :: ·)

/-- `strings.Contains`. -/
def contains (s sub : String) : Bool := (replaceFirst sub.toList [] s.toList).isSome

/-- `strings.Replace(s, old, new, 1)`. -/
def replaceOne (s old new : String) : String :=
  ((replaceFirst old.toList new.toList s.toList).map String.ofList).getD s

/-- Every occurrence of a non-empty `old` replaced, from the left; `skip` characters of the last one
    are still to be passed over. -/
def replaceFrom (old new : List Char) (skip : ℕ) : List Char → List Char
  | [] => []
  | c :: cs =>
    match skip with
    | skip + 1 => replaceFrom old new skip cs
    | 0 =>
      if old.isPrefixOf (c :: cs) then new ++ replaceFrom old new (old.length - 1) cs
      else c :: replaceFrom old new 0 cs

/-- `strings.ReplaceAll` for a non-empty `old`. -/
def replaceAll (s old new : String) : String :=
  String.ofList (replaceFrom old.toList new.toList 0 s.toList)

/-- `strings.Split(s, sep)` for a separator of one character. -/
def split (s : String) (sep : Char) : List String := (s.toList.splitOn sep).map String.ofList

section

variable {α : Type} [DecidableEq α] {sep : α} {s : List α}

/-- `strings.Cut`: a text up to the first `sep`, and what comes after it when it is found. -/
def cut (sep : α) (s : List α) : List α × Option (List α) :=
  (s.takeWhile (· ≠ sep), (s.dropWhile (· ≠ sep)).tail?)

theorem cut_of_notMem (h : sep ∉ s) : cut sep s = (s, none) := by
  have hall : ∀ c ∈ s, decide (c ≠ sep) = true := fun c hc => decide_eq_true fun heq => h (heq ▸ hc)
  rw [cut, List.takeWhile_eq_self_iff.mpr hall, List.dropWhile_eq_nil_iff.mpr hall]
  rfl

theorem cut_append (h : sep ∉ s) (rest : List α) : cut sep (s ++ sep :: rest) = (s, some rest) := by
  have hall : ∀ c ∈ s, decide (c ≠ sep) = true := fun c hc => decide_eq_true fun heq => h (heq ▸ hc)
  rw [cut, List.takeWhile_append_of_pos hall, List.dropWhile_append_of_pos hall]
  simp

/-- The part before the separator does not have it. -/
theorem notMem_cut (sep : α) (s : List α) : sep ∉ (cut sep s).1 := by
  intro hmem
  have hne := List.mem_takeWhile_imp hmem
  simp at hne

end

/-- One character of `strings.ToLower`, for comparing with ASCII: the two characters beyond ASCII
    that have an ASCII lower case are known, the others stand for themselves. -/
def lowerChar (c : Char) : Char :=
  if c = '\u0130' then 'i' else if c = '\u212a' then 'k' else c.toLower

/-- `strings.ToLower`, for comparing with ASCII. -/
def toLower (s : String) : String := String.ofList (s.toList.map lowerChar)

/-- One character of `strings.ToUpper`, for ASCII results. -/
def upperChar (c : Char) : Char :=
  if c = '\u0131' then 'I' else if c = '\u017f' then 'S' else c.toUpper

/-- `strings.ToUpper`, for ASCII results. -/
def toUpper (s : String) : String := String.ofList (s.toList.map upperChar)

/-- `strconv.ParseInt(s, 10, 64)`: `none` when it returns an error. -/
def parseInt64 (s : String) : Option ℤ :=
  let neg : Bool := s.toList.head? = some '-'
  let digits := if neg ∨ s.toList.head? = some '+' then s.toList.tail else s.toList
  if digits = [] ∨ ¬digits.all Char.isDigit then none
  else
    let v : ℤ := if neg then -(Nat.ofDigitChars 10 digits 0 : ℤ) else Nat.ofDigitChars 10 digits 0
    if -2 ^ 63 ≤ v ∧ v < 2 ^ 63 then some v else none

/-- One character of `%q`; beyond ASCII every character is taken for a printable one. -/
def quoteChar (c : Char) : List Char :=
  if c = '"' ∨ c = '\\' then ['\\', c]
  else if c = '\x07' then ['\\', 'a']
  else if c = '\x08' then ['\\', 'b']
  else if c = '\x0c' then ['\\', 'f']
  else if c = '\n' then ['\\', 'n']
  else if c = '\r' then ['\\', 'r']
  else if c = '\t' then ['\\', 't']
  else if c = '\x0b' then ['\\', 'v']
  else if c.toNat < 32 ∨ c.toNat = 127 then
    ['\\', 'x', hexDigit (c.toNat / 16), hexDigit (c.toNat % 16)]
  else [c]

/-- `strconv.Quote`, for texts that are printable beyond ASCII (it escapes U+00A0, say). -/
def goQuote (s : String) : String := String.ofList ('"' :: s.toList.flatMap quoteChar ++ ['"'])

/-- One digit of an escaped byte. -/
def upperHexDigit (n : ℕ) : Char := if n < 10 then Char.ofNat (48 + n) else Char.ofNat (55 + n)

/-- The characters that may stand in a path segment as they are. -/
def isSegmentChar (c : Char) : Bool :=
  c.isAlphanum || c ∈ ['-', '_', '.', '~', '$', '&', '+', '=', ':', '@']

/-- `url.PathEscape`. -/
def pathEscape (s : String) : String :=
  String.ofList <| (utf8 s).flatMap fun b =>
    let c := Char.ofNat b.toNat
    if b.toNat < 128 ∧ isSegmentChar c then [c]
    else ['%', upperHexDigit (b.toNat / 16), upperHexDigit (b.toNat % 16)]

end GoStd
