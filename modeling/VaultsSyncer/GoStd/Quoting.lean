import Mathlib.Data.List.Basic
import VaultsSyncer.GoStd.Text

/-! String literals of JSON. `escape` is what encoding/json writes between the quotes (with `<`, `>`,
    `&`, U+2028 and U+2029 escaped as well), `unquote` is what it reads there: a surrogate pair is one
    character, a lone surrogate becomes U+FFFD. `unquote_escape`: a string reads back from what is
    written for it. -/

namespace GoStd

/-- `\\u00XX` and the like. -/
def unicodeEscape (n : ℕ) : List Char :=
  ['\\', 'u', hexDigit (n / 4096 % 16), hexDigit (n / 256 % 16), hexDigit (n / 16 % 16), hexDigit (n % 16)]

/-- One character of a string literal, with HTML characters escaped. -/
def escapeChar (c : Char) : List Char :=
  if c = '"' then ['\\', '"']
  else if c = '\\' then ['\\', '\\']
  else if c = '\x08' then ['\\', 'b']
  else if c = '\x0c' then ['\\', 'f']
  else if c = '\n' then ['\\', 'n']
  else if c = '\r' then ['\\', 'r']
  else if c = '\t' then ['\\', 't']
  else if c.toNat < 32 ∨ c = '<' ∨ c = '>' ∨ c = '&' ∨ c = '\u2028' ∨ c = '\u2029' then
    unicodeEscape c.toNat
  else [c]

def escape (s : List Char) : List Char := s.flatMap escapeChar

/-- The value of a hexadecimal digit. -/
def hexValue (c : Char) : Option ℕ :=
  if '0' ≤ c ∧ c ≤ '9' then some (c.toNat - 48)
  else if 'a' ≤ c ∧ c ≤ 'f' then some (c.toNat - 87)
  else if 'A' ≤ c ∧ c ≤ 'F' then some (c.toNat - 55)
  else none

/-- The four digits of a `\\u` escape. -/
def hex4 (a b c d : Char) : Option ℕ := do
  let a ← hexValue a
  let b ← hexValue b
  let c ← hexValue c
  let d ← hexValue d
  some (4096 * a + 256 * b + 16 * c + d)

/-- The escapes of one letter. -/
def simpleEscape (c : Char) : Option Char :=
  if c = '"' ∨ c = '\\' ∨ c = '/' then some c
  else if c = 'b' then some '\x08'
  else if c = 'f' then some '\x0c'
  else if c = 'n' then some '\n'
  else if c = 'r' then some '\r'
  else if c = 't' then some '\t'
  else none

/-- A character of a literal, or the UTF-16 code unit of a `\\u` escape. -/
inductive Piece where
  | char (c : Char)
  | unit (n : ℕ)

/-- The pieces between the quotes; control characters do not stand there. -/
def pieces : List Char → Option (List Piece)
  | [] => some []
  | c :: r =>
    if c = '\\' then
      match r with
      | 'u' :: h₁ :: h₂ :: h₃ :: h₄ :: r => do
        let n ← hex4 h₁ h₂ h₃ h₄
        let ps ← pieces r
        some (.unit n :: ps)
      | e :: r => do
        let c ← simpleEscape e
        let ps ← pieces r
        some (.char c :: ps)
      | [] => none
    else if c.toNat < 32 then none
    else (pieces r).map (.char c :: ·)

/-- Surrogate pairs put together; a surrogate without its partner is replaced. -/
def assemble : List Piece → List Char
  | [] => []
  | .char c :: r => c :: assemble r
  | .unit hi :: r =>
    if 0xD800 ≤ hi ∧ hi < 0xE000 then
      match r with
      | .unit lo :: r' =>
        if hi < 0xDC00 ∧ 0xDC00 ≤ lo ∧ lo < 0xE000 then
          Char.ofNat (0x10000 + (hi - 0xD800) * 0x400 + (lo - 0xDC00)) :: assemble r'
        else '\uFFFD' :: assemble (.unit lo :: r')
      | r => '\uFFFD' :: assemble r
    else Char.ofNat hi :: assemble r

/-- The string a literal stands for. -/
def unquote (raw : List Char) : Option (List Char) := (pieces raw).map assemble

/-! ### Reading what was written -/

theorem hexValue_hexDigit : ∀ n < 16, hexValue (hexDigit n) = some n := by decide

theorem hex4_hexDigit {n : ℕ} (h : n < 65536) :
    hex4 (hexDigit (n / 4096 % 16)) (hexDigit (n / 256 % 16)) (hexDigit (n / 16 % 16))
      (hexDigit (n % 16)) = some n := by
  simp only [hex4, hexValue_hexDigit _ (Nat.mod_lt _ (by decide : 0 < 16)), Option.bind_eq_bind,
    Option.bind_some, Option.some.injEq]
  omega

/-- The three ways a character is written: with a one-letter escape, with `\\u`, or as it is. -/
theorem escapeChar_cases (c : Char) :
    (∃ e, e ≠ 'u' ∧ simpleEscape e = some c ∧ escapeChar c = ['\\', e]) ∨
    (c.toNat < 0xD800 ∧ escapeChar c = unicodeEscape c.toNat) ∨
    (c ≠ '"' ∧ c ≠ '\\' ∧ 32 ≤ c.toNat ∧ escapeChar c = [c]) := by
  by_cases h₁ : c = '"'
  · exact .inl ⟨'"', by subst h₁; decide⟩
  by_cases h₂ : c = '\\'
  · exact .inl ⟨'\\', by subst h₂; decide⟩
  by_cases h₃ : c = '\x08'
  · exact .inl ⟨'b', by subst h₃; decide⟩
  by_cases h₄ : c = '\x0c'
  · exact .inl ⟨'f', by subst h₄; decide⟩
  by_cases h₅ : c = '\n'
  · exact .inl ⟨'n', by subst h₅; decide⟩
  by_cases h₆ : c = '\r'
  · exact .inl ⟨'r', by subst h₆; decide⟩
  by_cases h₇ : c = '\t'
  · exact .inl ⟨'t', by subst h₇; decide⟩
  refine .inr ?_
  simp only [escapeChar, h₁, h₂, h₃, h₄, h₅, h₆, h₇, ↓reduceIte]
  split
  · rename_i h
    refine .inl ⟨?_, rfl⟩
    rcases h with h | rfl | rfl | rfl | rfl | rfl
    · omega
    all_goals decide
  · rename_i h
    exact .inr ⟨h₁, h₂, by omega, rfl⟩

theorem pieces_simple {e c : Char} (hu : e ≠ 'u') (he : simpleEscape e = some c) (r : List Char) :
    pieces ('\\' :: e :: r) = (pieces r).map (.char c :: ·) := by
  rw [pieces.eq_def]
  simp only [↓reduceIte]
  split
  · simp_all
  · rename_i e' r' _ heq
    obtain ⟨rfl, rfl⟩ := List.cons.inj heq
    rw [he]
    cases pieces r <;> rfl
  · contradiction

theorem pieces_unicode {n : ℕ} (hn : n < 65536) (r : List Char) :
    pieces (unicodeEscape n ++ r) = (pieces r).map (.unit n :: ·) := by
  simp only [unicodeEscape, List.cons_append, List.nil_append]
  rw [pieces, if_pos rfl, hex4_hexDigit hn]
  cases pieces r <;> rfl

theorem pieces_plain {c : Char} (hc : c ≠ '\\') (h32 : 32 ≤ c.toNat) (r : List Char) :
    pieces (c :: r) = (pieces r).map (.char c :: ·) := by
  rw [pieces.eq_def]
  simp only [hc, ↓reduceIte, show ¬c.toNat < 32 by omega]

theorem unquote_escapeChar (c : Char) (r : List Char) :
    unquote (escapeChar c ++ r) = (unquote r).map (c :: ·) := by
  rcases escapeChar_cases c with ⟨e, hu, he, hc⟩ | ⟨hlow, hc⟩ | ⟨-, hslash, h32, hc⟩
  · rw [hc, unquote, unquote, List.cons_append, List.cons_append, List.nil_append,
      pieces_simple hu he]
    cases pieces r <;> rfl
  · rw [hc, unquote, unquote, pieces_unicode (by omega)]
    cases pieces r with
    | none => rfl
    | some ps =>
      -- a code unit below the surrogates is the character itself
      have hlone : ¬(0xD800 ≤ c.toNat ∧ c.toNat < 0xE000) := by omega
      rw [Option.map_some, Option.map_some, assemble.eq_def]
      simp only [hlone, ↓reduceIte, Char.ofNat_toNat, Option.map_some]
  · rw [hc, unquote, unquote, List.cons_append, List.nil_append, pieces_plain hslash h32]
    cases pieces r <;> rfl

/-- A string reads back from what is written between the quotes. -/
theorem unquote_escape (s : List Char) : unquote (escape s) = some s := by
  induction s with
  | nil => rfl
  | cons c s ih =>
    rw [escape, List.flatMap_cons, unquote_escapeChar]
    rw [escape] at ih
    rw [ih, Option.map_some]

end GoStd
