import Mathlib.Data.List.Basic

/-! Go strings and errors. Secret values are byte strings (a transform may leave bytes that are not
    UTF-8), so they are lists of bytes; names, identifiers and messages are `String`s, looked at
    through their UTF-8 bytes where the program slices them. -/

namespace GoStd

/-- A Go string as its bytes. -/
abbrev Bytes := List UInt8

/-- `[]byte(s)`. -/
def utf8 (s : String) : Bytes := s.toUTF8.data.toList

/-- `len` of a string: its bytes. -/
def byteLength (s : String) : ℕ := (utf8 s).length

theorem utf8_injective : Function.Injective utf8 := by
  intro s t h
  have hdata : s.toByteArray.data = t.toByteArray.data := Array.toList_inj.mp h
  exact String.toByteArray_inj.mp (ByteArray.ext hdata)

/-- The bytes of a text are read as the text. -/
theorem fromUTF8_utf8 (s : String) : String.fromUTF8? ⟨(utf8 s).toArray⟩ = some s := by
  have hbytes : (⟨(utf8 s).toArray⟩ : ByteArray) = s.toByteArray := rfl
  rw [hbytes, String.fromUTF8?, dif_pos s.isValidUTF8]
  rfl

theorem utf8_eq_flatMap (s : String) : utf8 s = s.toList.flatMap String.utf8EncodeChar := by
  simp [utf8, ← String.utf8Encode_toList, List.utf8Encode]

/-- The bytes of a character: the first one is marked as such, and no other is. -/
theorem utf8EncodeChar_eq_cons (c : Char) : ∃ b bs, String.utf8EncodeChar c = b :: bs ∧
    b.IsUTF8FirstByte ∧ ∀ b' ∈ bs, ¬b'.IsUTF8FirstByte := by
  have hfirst (i : ℕ) (hi : i < (String.utf8EncodeChar c).length) :
      (String.utf8EncodeChar c)[i].IsUTF8FirstByte ↔ i = 0 :=
    UInt8.isUTF8FirstByte_getElem_utf8EncodeChar
  rcases hc : String.utf8EncodeChar c with _ | ⟨b, bs⟩
  · exact absurd hc String.utf8EncodeChar_ne_nil
  simp only [hc] at hfirst
  refine ⟨b, bs, rfl, (hfirst 0 (by simp)).mpr rfl, fun b' hb' => ?_⟩
  obtain ⟨i, hi, rfl⟩ := List.getElem_of_mem hb'
  exact (hfirst (i + 1) (Nat.succ_lt_succ hi)).not.mpr (Nat.succ_ne_zero i)

theorem flatMap_utf8_injective {p l : List Char}
    (h : p.flatMap String.utf8EncodeChar = l.flatMap String.utf8EncodeChar) : p = l := by
  rw [← String.toList_ofList (l := p), ← String.toList_ofList (l := l), ← utf8_eq_flatMap,
    ← utf8_eq_flatMap] at h
  exact String.ofList_injective (utf8_injective h)

/-- The end of the bytes of a string is the bytes of its end: no character begins inside another. -/
theorem isSuffix_of_flatMap {p l : List Char}
    (h : p.flatMap String.utf8EncodeChar <:+ l.flatMap String.utf8EncodeChar) : p <:+ l := by
  rcases p with _ | ⟨c, p⟩
  · exact List.nil_suffix
  obtain ⟨b, bs, hc, hb, -⟩ := utf8EncodeChar_eq_cons c
  induction l with
  | nil =>
    rw [List.flatMap_cons, hc, List.flatMap_nil, List.suffix_nil] at h
    cases h
  | cons d l ih =>
    obtain ⟨xs, hxs⟩ := h
    rw [List.flatMap_cons (x := d)] at hxs
    rcases List.append_eq_append_iff.mp hxs with ⟨as, hd, hp⟩ | ⟨bs, -, hl⟩
    · -- the end begins inside the bytes of `d`: with the first of them, or behind the last
      rw [List.flatMap_cons, hc] at hp
      rcases xs with _ | ⟨x, xs⟩
      · rw [List.nil_append, ← List.flatMap_cons] at hxs
        exact flatMap_utf8_injective hxs ▸ List.suffix_rfl
      rcases as with _ | ⟨a, as⟩
      · rw [List.nil_append, ← hc, ← List.flatMap_cons] at hp
        rw [flatMap_utf8_injective hp]
        exact List.suffix_cons d l
      obtain ⟨y, ys, hd', -, hys⟩ := utf8EncodeChar_eq_cons d
      obtain ⟨-, rfl⟩ := List.cons.inj (hd'.symm.trans hd)
      obtain ⟨rfl, -⟩ := List.cons.inj hp
      exact absurd hb (hys b (by simp))
    · exact (ih ⟨bs, hl.symm⟩).trans (List.suffix_cons d l)

theorem utf8_prefix_iff {s t : String} : utf8 s <+: utf8 t ↔ s.toList <+: t.toList := by
  constructor
  · rintro ⟨bs, hbs⟩
    refine List.isPrefix_of_utf8Encode_append_eq_utf8Encode bs.toByteArray ?_
    rw [String.utf8Encode_toList, String.utf8Encode_toList]
    refine ByteArray.ext (Array.toList_inj.mp ?_)
    simpa [utf8] using hbs
  · rintro ⟨u, hu⟩
    rw [utf8_eq_flatMap, utf8_eq_flatMap, ← hu, List.flatMap_append]
    exact List.prefix_append _ _

theorem utf8_suffix_iff {s t : String} : utf8 s <:+ utf8 t ↔ s.toList <:+ t.toList := by
  rw [utf8_eq_flatMap, utf8_eq_flatMap]
  constructor
  · exact isSuffix_of_flatMap
  · rintro ⟨u, hu⟩
    rw [← hu, List.flatMap_append]
    exact List.suffix_append _ _

/-! ### Errors and hexadecimal numbers -/

/-- An `error`: a plain one, or one that wraps another with `%w` at the end of its format. -/
inductive GoError where
  | new (text : String)
  | wrap (pre : String) (inner : GoError)
  deriving DecidableEq, Repr

/-- `err.Error()`. -/
def GoError.text : GoError → String
  | .new t => t
  | .wrap pre inner => pre ++ inner.text

/-- `fmt.Errorf(pre + "%w", err)` for an `err` that may be nil. -/
def wrapNilable (pre : String) : Option GoError → GoError
  | some err => .wrap pre err
  | none => .new (pre ++ "%!w(<nil>)")

/-- One hexadecimal digit, as `%x` prints it. -/
def hexDigit (n : Nat) : Char :=
  if n < 10 then Char.ofNat (48 + n) else Char.ofNat (87 + n)

/-- `fmt.Sprintf("%x", b)` for a byte slice. -/
def hexString (b : Bytes) : String :=
  String.ofList (b.flatMap fun x => [hexDigit (x.toNat / 16), hexDigit (x.toNat % 16)])

end GoStd
