import VaultsSyncer.GoStd.Text

/-! `crypto/sha256`: the SHA-256 digest of a byte string (FIPS 180-4). The message is padded to
    blocks of 64 bytes; each block is expanded to 64 words and folded into the eight chaining
    words. -/

namespace GoStd.Sha256

/-- The round constants. -/
def roundConstants : List UInt32 := [
  0x428a2f98, 0x71374491, 0xb5c0fbcf, 0xe9b5dba5, 0x3956c25b, 0x59f111f1, 0x923f82a4, 0xab1c5ed5,
  0xd807aa98, 0x12835b01, 0x243185be, 0x550c7dc3, 0x72be5d74, 0x80deb1fe, 0x9bdc06a7, 0xc19bf174,
  0xe49b69c1, 0xefbe4786, 0x0fc19dc6, 0x240ca1cc, 0x2de92c6f, 0x4a7484aa, 0x5cb0a9dc, 0x76f988da,
  0x983e5152, 0xa831c66d, 0xb00327c8, 0xbf597fc7, 0xc6e00bf3, 0xd5a79147, 0x06ca6351, 0x14292967,
  0x27b70a85, 0x2e1b2138, 0x4d2c6dfc, 0x53380d13, 0x650a7354, 0x766a0abb, 0x81c2c92e, 0x92722c85,
  0xa2bfe8a1, 0xa81a664b, 0xc24b8b70, 0xc76c51a3, 0xd192e819, 0xd6990624, 0xf40e3585, 0x106aa070,
  0x19a4c116, 0x1e376c08, 0x2748774c, 0x34b0bcb5, 0x391c0cb3, 0x4ed8aa4a, 0x5b9cca4f, 0x682e6ff3,
  0x748f82ee, 0x78a5636f, 0x84c87814, 0x8cc70208, 0x90befffa, 0xa4506ceb, 0xbef9a3f7, 0xc67178f2]

def rotr (x n : UInt32) : UInt32 := (x >>> n) ||| (x <<< (32 - n))

/-- The eight chaining words. -/
structure Chain where
  (a b c d e f g h : UInt32)

def start : Chain :=
  ⟨0x6a09e667, 0xbb67ae85, 0x3c6ef372, 0xa54ff53a, 0x510e527f, 0x9b05688c, 0x1f83d9ab, 0x5be0cd19⟩

/-- One round; `kw` is the round constant plus the message word. -/
def round (s : Chain) (kw : UInt32) : Chain :=
  let s1 := rotr s.e 6 ^^^ rotr s.e 11 ^^^ rotr s.e 25
  let ch := (s.e &&& s.f) ^^^ (~~~s.e &&& s.g)
  let t1 := s.h + s1 + ch + kw
  let s0 := rotr s.a 2 ^^^ rotr s.a 13 ^^^ rotr s.a 22
  let maj := (s.a &&& s.b) ^^^ (s.a &&& s.c) ^^^ (s.b &&& s.c)
  ⟨t1 + (s0 + maj), s.a, s.b, s.c, s.d + t1, s.e, s.f, s.g⟩

def Chain.add (s t : Chain) : Chain :=
  ⟨s.a + t.a, s.b + t.b, s.c + t.c, s.d + t.d, s.e + t.e, s.f + t.f, s.g + t.g, s.h + t.h⟩

/-- Extend the message schedule by `n` words, newest word first. -/
def expand : Nat → List UInt32 → List UInt32
  | 0, w => w
  | n + 1, w =>
    let w15 := w.getD 14 0
    let w2 := w.getD 1 0
    let s0 := rotr w15 7 ^^^ rotr w15 18 ^^^ (w15 >>> 3)
    let s1 := rotr w2 17 ^^^ rotr w2 19 ^^^ (w2 >>> 10)
    expand n ((w.getD 15 0 + s0 + w.getD 6 0 + s1) :: w)

/-- Big-endian words. -/
def words : Bytes → List UInt32
  | a :: b :: c :: d :: r =>
    ((a.toUInt32 <<< 24) ||| (b.toUInt32 <<< 16) ||| (c.toUInt32 <<< 8) ||| d.toUInt32) :: words r
  | _ => []

def wordBytes (w : UInt32) : Bytes :=
  [(w >>> 24).toUInt8, (w >>> 16).toUInt8, (w >>> 8).toUInt8, w.toUInt8]

def block (s : Chain) (m : Bytes) : Chain :=
  let w := (expand 48 (words m).reverse).reverse
  s.add ((List.zipWith (· + ·) roundConstants w).foldl round s)

/-- A one bit, zeros, and the bit length in 64 bits, up to a multiple of 64 bytes. -/
def pad (m : Bytes) : Bytes :=
  m ++ (0x80 : UInt8) :: List.replicate ((119 - m.length % 64) % 64) 0 ++
    (List.range 8).map fun i => ((m.length * 8) >>> (8 * (7 - i))).toUInt8

def blocks : Nat → Chain → Bytes → Chain
  | 0, s, _ => s
  | n + 1, s, m => blocks n (block s (m.take 64)) (m.drop 64)

/-- `sha256.Sum256`. -/
def sum256 (m : Bytes) : Bytes :=
  let p := pad m
  let s := blocks (p.length / 64) start p
  [s.a, s.b, s.c, s.d, s.e, s.f, s.g, s.h].flatMap wordBytes

/-- The digest of `abc`. -/
example : hexString (sum256 (utf8 "abc")) =
    "ba7816bf8f01cfea414140de5dae2223b00361a396177a9cb410ff61f20015ad" := by decide +kernel

end GoStd.Sha256
