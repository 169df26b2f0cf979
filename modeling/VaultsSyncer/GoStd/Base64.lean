import VaultsSyncer.GoStd.Text

/-! `base64.StdEncoding` of `encoding/base64`: the padded standard alphabet. The decoder skips
    carriage returns and line feeds anywhere, wants the padding, does not check that the bits
    under the padding are zero, and reports the offset of the first illegal byte. -/

namespace GoStd.Base64

/-- The character of a six-bit value. -/
def char (v : Nat) : UInt8 :=
  if v < 26 then (65 + v).toUInt8
  else if v < 52 then (71 + v).toUInt8
  else if v < 62 then (v - 4).toUInt8
  else if v = 62 then 43 else 47

/-- The six-bit value of a character of the alphabet. -/
def value (c : UInt8) : Option Nat :=
  if 65 ≤ c ∧ c ≤ 90 then some (c.toNat - 65)
  else if 97 ≤ c ∧ c ≤ 122 then some (c.toNat - 71)
  else if 48 ≤ c ∧ c ≤ 57 then some (c.toNat + 4)
  else if c = 43 then some 62
  else if c = 47 then some 63
  else none

/-- `StdEncoding.EncodeToString`. -/
def encode : Bytes → Bytes
  | [] => []
  | [a] =>
    let v := a.toNat * 65536
    [char (v / 262144), char (v / 4096 % 64), 61, 61]
  | [a, b] =>
    let v := a.toNat * 65536 + b.toNat * 256
    [char (v / 262144), char (v / 4096 % 64), char (v / 64 % 64), 61]
  | a :: b :: c :: r =>
    let v := a.toNat * 65536 + b.toNat * 256 + c.toNat
    char (v / 262144) :: char (v / 4096 % 64) :: char (v / 64 % 64) :: char (v % 64) :: encode r

def isNewline (c : UInt8) : Bool := c = 10 || c = 13

/-- What remains after line breaks, with its offset. -/
def skipNewlines (si : Nat) : Bytes → Nat × Bytes
  | [] => (si, [])
  | c :: r => if isNewline c then skipNewlines (si + 1) r else (si, c :: r)

/-- The end of the text after the last padding character: nothing but line breaks. -/
def endOfText (si : Nat) (r out : Bytes) : Except Nat Bytes :=
  match skipNewlines si r with
  | (_, []) => .ok out
  | (sj, _ :: _) => .error sj

/-- `StdEncoding.Decode` from offset `si` with the sextets `q` of the open quantum; an error is the
    offset in a `CorruptInputError`. -/
def decodeFrom (si : Nat) (q : List Nat) (out : Bytes) : Bytes → Except Nat Bytes
  | [] => if q = [] then .ok out else .error (si - q.length)
  | c :: r =>
    match value c with
    | some v =>
      match q with
      | [x, y, z] =>
        let w := x * 262144 + y * 4096 + z * 64 + v
        decodeFrom (si + 1) [] (out ++ [(w / 65536).toUInt8, (w / 256).toUInt8, w.toUInt8]) r
      | _ => decodeFrom (si + 1) (q ++ [v]) out r
    | none =>
      if isNewline c then decodeFrom (si + 1) q out r
      else if c ≠ 61 then .error si
      else
        match q with
        | [x, y] =>
          -- two padding characters are due, the first is read
          match skipNewlines (si + 1) r with
          | (sj, []) => .error sj
          | (sj, d :: r') =>
            if d ≠ 61 then .error (sj - 1)
            else endOfText (sj + 1) r' (out ++ [((x * 262144 + y * 4096) / 65536).toUInt8])
        | [x, y, z] =>
          let w := x * 262144 + y * 4096 + z * 64
          endOfText (si + 1) r (out ++ [(w / 65536).toUInt8, (w / 256).toUInt8])
        | _ => .error si

/-- `StdEncoding.DecodeString`. -/
def decode (s : Bytes) : Except GoError Bytes :=
  match decodeFrom 0 [] [] s with
  | .ok out => .ok out
  | .error off => .error (.new ("illegal base64 data at input byte " ++ toString off))

/-- `URLEncoding.EncodeToString`: a dash and an underscore for the plus sign and the slash. -/
def urlEncode (b : Bytes) : Bytes :=
  (encode b).map fun c => if c = 43 then 45 else if c = 47 then 95 else c

/-- `URLEncoding.DecodeString`; what is not in its alphabet becomes an asterisk, which is in neither. -/
def urlDecode (s : Bytes) : Except GoError Bytes :=
  decode (s.map fun c =>
    if c = 45 then 43 else if c = 95 then 47 else if c = 43 ∨ c = 47 then 42 else c)

example : decode (encode (utf8 "s3cret")) = .ok (utf8 "s3cret") := by decide +kernel

end GoStd.Base64
