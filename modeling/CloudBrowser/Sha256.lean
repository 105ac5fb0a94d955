import Mathlib.Tactic.Common
import Mathlib.Algebra.Group.Nat.Defs

/-! The hash function SHA-256 and the keyed hash HMAC over it. -/
namespace Sha256

abbrev Bytes := List UInt8

/-- The eight working words. -/
structure Words where
  a : UInt32
  b : UInt32
  c : UInt32
  d : UInt32
  e : UInt32
  f : UInt32
  g : UInt32
  h : UInt32
  deriving DecidableEq

def initial : Words :=
  ⟨0x6a09e667,0xbb67ae85,0x3c6ef372,0xa54ff53a,0x510e527f,0x9b05688c,0x1f83d9ab,0x5be0cd19⟩

def constants : List UInt32 :=
  [0x428a2f98,0x71374491,0xb5c0fbcf,0xe9b5dba5,0x3956c25b,0x59f111f1,0x923f82a4,0xab1c5ed5,
    0xd807aa98,0x12835b01,0x243185be,0x550c7dc3,0x72be5d74,0x80deb1fe,0x9bdc06a7,0xc19bf174,
    0xe49b69c1,0xefbe4786,0x0fc19dc6,0x240ca1cc,0x2de92c6f,0x4a7484aa,0x5cb0a9dc,0x76f988da,
    0x983e5152,0xa831c66d,0xb00327c8,0xbf597fc7,0xc6e00bf3,0xd5a79147,0x06ca6351,0x14292967,
    0x27b70a85,0x2e1b2138,0x4d2c6dfc,0x53380d13,0x650a7354,0x766a0abb,0x81c2c92e,0x92722c85,
    0xa2bfe8a1,0xa81a664b,0xc24b8b70,0xc76c51a3,0xd192e819,0xd6990624,0xf40e3585,0x106aa070,
    0x19a4c116,0x1e376c08,0x2748774c,0x34b0bcb5,0x391c0cb3,0x4ed8aa4a,0x5b9cca4f,0x682e6ff3,
    0x748f82ee,0x78a5636f,0x84c87814,0x8cc70208,0x90befffa,0xa4506ceb,0xbef9a3f7,0xc67178f2]

def rotate (n x : UInt32) : UInt32 := x >>> n ||| x <<< (32-n)

/-- The words of the schedule after the first sixteen, from the last sixteen before them. -/
def extend : ℕ → List UInt32 → List UInt32
  | n+1, w0::w1::window =>
    let w9 := window.getD 7 0
    let w14 := window.getD 12 0
    let low := rotate 7 w1 ^^^ rotate 18 w1 ^^^ w1 >>> 3
    let high := rotate 17 w14 ^^^ rotate 19 w14 ^^^ w14 >>> 10
    w0 :: extend n (w1 :: window ++ [w0+low+w9+high])
  | _, window => window

/-- One round with its constant and its word added up. -/
def round (s : Words) (kw : UInt32) : Words :=
  let choice := (s.e &&& s.f) ^^^ (~~~s.e &&& s.g)
  let majority := (s.a &&& s.b) ^^^ (s.a &&& s.c) ^^^ (s.b &&& s.c)
  let t1 := s.h+(rotate 6 s.e ^^^ rotate 11 s.e ^^^ rotate 25 s.e)+choice+kw
  let t2 := (rotate 2 s.a ^^^ rotate 13 s.a ^^^ rotate 22 s.a)+majority
  ⟨t1+t2,s.a,s.b,s.c,s.d+t1,s.e,s.f,s.g⟩

def compress (s : Words) (block : List UInt32) : Words :=
  let t := (List.zipWith (·+·) constants (extend 48 block)).foldl round s
  ⟨s.a+t.a,s.b+t.b,s.c+t.c,s.d+t.d,s.e+t.e,s.f+t.f,s.g+t.g,s.h+t.h⟩

def bigEndian (w : UInt32) : Bytes :=
  [(w >>> 24).toUInt8,(w >>> 16).toUInt8,(w >>> 8).toUInt8,w.toUInt8]

def words : Bytes → List UInt32
  | a::b::c::d::bytes =>
    (a.toUInt32 <<< 24 ||| b.toUInt32 <<< 16 ||| c.toUInt32 <<< 8 ||| d.toUInt32) :: words bytes
  | _ => []

/-- A one bit, zeros up to eight bytes before the end of a block, and the length in bits. -/
def pad (message : Bytes) : Bytes :=
  message ++ 0x80 :: List.replicate ((119-message.length%64)%64) 0 ++
    bigEndian (UInt32.ofNat (message.length*8/2^32)) ++ bigEndian (UInt32.ofNat (message.length*8))

def compressAll : ℕ → List UInt32 → Words → Words
  | n+1, text, s => compressAll n (text.drop 16) (compress s (text.take 16))
  | 0, _, s => s

def Words.bytes (s : Words) : Bytes :=
  [s.a,s.b,s.c,s.d,s.e,s.f,s.g,s.h].flatMap bigEndian

/-- `hashlib.sha256(message).digest()`. -/
def digest (message : Bytes) : Bytes :=
  let padded := pad message
  (compressAll (padded.length/64) (words padded) initial).bytes

theorem length_bytes (s : Words) : s.bytes.length = 32 := rfl

theorem length_digest (message : Bytes) : (digest message).length = 32 := rfl

/-- `hmac.new(key, message, hashlib.sha256).digest()`. -/
def hmac (key message : Bytes) : Bytes :=
  let short := if 64 < key.length then digest key else key
  let block := short ++ List.replicate (64-short.length) 0
  digest (block.map (· ^^^ 0x5c) ++ digest (block.map (· ^^^ 0x36) ++ message))

theorem length_hmac (key message : Bytes) : (hmac key message).length = 32 := rfl

/-- The digest of the three bytes `abc`. -/
example : digest [0x61,0x62,0x63] =
    [0xba,0x78,0x16,0xbf,0x8f,0x01,0xcf,0xea,0x41,0x41,0x40,0xde,0x5d,0xae,0x22,0x23,
      0xb0,0x03,0x61,0xa3,0x96,0x17,0x7a,0x9c,0xb4,0x10,0xff,0x61,0xf2,0x00,0x15,0xad] := by
  decide +kernel

end Sha256
