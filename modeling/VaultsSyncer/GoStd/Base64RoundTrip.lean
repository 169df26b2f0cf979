import VaultsSyncer.GoStd.Base64

/-! Base64 read back. A quantum of four characters is three bytes, and at the end padding stands for what
    is missing; so the decoder returns what was encoded (`decode_encode`), in the URL alphabet as well
    (`urlDecode_urlEncode`). -/

namespace GoStd.Base64

theorem value_char : ∀ v < 64, value (char v) = some v := by decide

theorem toUInt8_eq {n : ℕ} {a : UInt8} (h : n % 256 = a.toNat) : n.toUInt8 = a := by
  apply UInt8.toNat.inj
  simpa [Nat.toUInt8] using h

/-- Four characters are three bytes. -/
theorem decodeFrom_quantum {x y z w : ℕ} (hx : x < 64) (hy : y < 64) (hz : z < 64) (hw : w < 64)
    (si : ℕ) (out r : Bytes) :
    decodeFrom si [] out (char x :: char y :: char z :: char w :: r) =
      decodeFrom (si + 4) [] (out ++ [((x * 262144 + y * 4096 + z * 64 + w) / 65536).toUInt8,
        ((x * 262144 + y * 4096 + z * 64 + w) / 256).toUInt8,
        (x * 262144 + y * 4096 + z * 64 + w).toUInt8]) r := by
  simp only [decodeFrom, value_char _ hx, value_char _ hy, value_char _ hz, value_char _ hw,
    List.nil_append, List.cons_append]

/-- Two characters and the padding are one byte. -/
theorem decodeFrom_one {x y : ℕ} (hx : x < 64) (hy : y < 64) (si : ℕ) (out : Bytes) :
    decodeFrom si [] out [char x, char y, 61, 61] =
      .ok (out ++ [((x * 262144 + y * 4096) / 65536).toUInt8]) := by
  have hpad : value 61 = none := by decide
  simp only [decodeFrom, value_char _ hx, value_char _ hy, hpad, List.nil_append, List.cons_append]
  simp [isNewline, skipNewlines, endOfText]

/-- Three characters and the padding are two bytes. -/
theorem decodeFrom_two {x y z : ℕ} (hx : x < 64) (hy : y < 64) (hz : z < 64) (si : ℕ) (out : Bytes) :
    decodeFrom si [] out [char x, char y, char z, 61] =
      .ok (out ++ [((x * 262144 + y * 4096 + z * 64) / 65536).toUInt8,
        ((x * 262144 + y * 4096 + z * 64) / 256).toUInt8]) := by
  have hpad : value 61 = none := by decide
  simp only [decodeFrom, value_char _ hx, value_char _ hy, value_char _ hz, hpad, List.nil_append,
    List.cons_append]
  simp [isNewline, skipNewlines, endOfText]

theorem decodeFrom_encode (b : Bytes) (si : ℕ) (out : Bytes) :
    decodeFrom si [] out (encode b) = .ok (out ++ b) := by
  induction b using encode.induct generalizing si out with
  | case1 => simp [encode, decodeFrom]
  | case2 a =>
    have ha := a.toNat_lt
    rw [encode, decodeFrom_one (by omega) (by omega), toUInt8_eq (a := a) (by omega)]
  | case3 a b =>
    have ha := a.toNat_lt
    have hb := b.toNat_lt
    rw [encode, decodeFrom_two (by omega) (by omega) (by omega), toUInt8_eq (a := a) (by omega),
      toUInt8_eq (a := b) (by omega)]
  | case4 a b c r ih =>
    have ha := a.toNat_lt
    have hb := b.toNat_lt
    have hc := c.toNat_lt
    rw [encode, decodeFrom_quantum (by omega) (by omega) (by omega) (by omega), ih,
      toUInt8_eq (a := a) (by omega), toUInt8_eq (a := b) (by omega), toUInt8_eq (a := c) (by omega)]
    simp

/-- What is encoded is decoded. -/
theorem decode_encode (b : Bytes) : decode (encode b) = .ok b := by
  rw [decode, decodeFrom_encode]
  rfl

/-- Characters of the alphabet, and padding. -/
theorem mem_encode {b : Bytes} {c : UInt8} (h : c ∈ encode b) : (∃ v < 64, c = char v) ∨ c = 61 := by
  induction b using encode.induct with
  | case1 => simp [encode] at h
  | case2 a =>
    have ha := a.toNat_lt
    simp only [encode, List.mem_cons, List.not_mem_nil, or_false] at h
    rcases h with h | h | h | h
    · exact .inl ⟨_, by omega, h⟩
    · exact .inl ⟨_, by omega, h⟩
    · exact .inr h
    · exact .inr h
  | case3 a b =>
    have ha := a.toNat_lt
    have hb := b.toNat_lt
    simp only [encode, List.mem_cons, List.not_mem_nil, or_false] at h
    rcases h with h | h | h | h
    · exact .inl ⟨_, by omega, h⟩
    · exact .inl ⟨_, by omega, h⟩
    · exact .inl ⟨_, by omega, h⟩
    · exact .inr h
  | case4 a b c r ih =>
    have ha := a.toNat_lt
    have hb := b.toNat_lt
    have hc := c.toNat_lt
    simp only [encode, List.mem_cons] at h
    rcases h with h | h | h | h | h
    · exact .inl ⟨_, by omega, h⟩
    · exact .inl ⟨_, by omega, h⟩
    · exact .inl ⟨_, by omega, h⟩
    · exact .inl ⟨_, by omega, h⟩
    · exact ih h

theorem urlDecode_urlEncode (b : Bytes) : urlDecode (urlEncode b) = .ok b := by
  have hchar : ∀ v < 64, (fun c : UInt8 => if c = 45 then 43 else if c = 95 then 47
      else if c = 43 ∨ c = 47 then 42 else c) (if char v = 43 then 45 else if char v = 47 then 95
      else char v) = char v := by decide
  rw [urlDecode, urlEncode, List.map_map, ← decode_encode b]
  congr 1
  refine (List.map_congr_left fun c hc => ?_).trans (List.map_id _)
  rcases mem_encode hc with ⟨v, hv, rfl⟩ | rfl
  · exact hchar v hv
  · decide

/-! ### As a text -/

theorem encode_ascii {b : Bytes} {c : UInt8} (h : c ∈ encode b) : c < 128 := by
  have hchar : ∀ v < 64, char v < 128 := by decide
  rcases mem_encode h with ⟨v, hv, rfl⟩ | rfl
  · exact hchar v hv
  · decide

theorem urlEncode_ascii {b : Bytes} {c : UInt8} (h : c ∈ urlEncode b) : c < 128 := by
  obtain ⟨c', hc', rfl⟩ := List.mem_map.mp h
  have hlt := encode_ascii hc'
  split_ifs
  · decide
  · decide
  · exact hlt

theorem encode_ne_nil {b : Bytes} (h : b ≠ []) : encode b ≠ [] := by
  induction b using encode.induct with
  | case1 => exact absurd rfl h
  | _ => simp [encode]

end GoStd.Base64
