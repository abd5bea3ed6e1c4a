import SorobanMlDsa.ByteSlice
import SorobanMlDsa.PrefixCode

/-! SHA-256 on byte lists, with words as natural numbers below `2 ^ 32` so that a
digest is evaluated by the kernel. Runs on fixed inputs use it; results about an
arbitrary hash function do not. -/
namespace Sha256

open ByteSlice PrefixCode

def wordMod : ℕ := 2^32

def add (x y : ℕ) : ℕ := (x+y) % wordMod

def rotr (x n : ℕ) : ℕ := (x >>> n) ||| ((x <<< (32-n)) % wordMod)

structure Chain where
  a : ℕ
  b : ℕ
  c : ℕ
  d : ℕ
  e : ℕ
  f : ℕ
  g : ℕ
  h : ℕ

def start : Chain :=
  ⟨0x6a09e667,0xbb67ae85,0x3c6ef372,0xa54ff53a,0x510e527f,0x9b05688c,0x1f83d9ab,0x5be0cd19⟩

def roundConstants : List ℕ := [
  0x428a2f98,0x71374491,0xb5c0fbcf,0xe9b5dba5,0x3956c25b,0x59f111f1,0x923f82a4,0xab1c5ed5,
  0xd807aa98,0x12835b01,0x243185be,0x550c7dc3,0x72be5d74,0x80deb1fe,0x9bdc06a7,0xc19bf174,
  0xe49b69c1,0xefbe4786,0x0fc19dc6,0x240ca1cc,0x2de92c6f,0x4a7484aa,0x5cb0a9dc,0x76f988da,
  0x983e5152,0xa831c66d,0xb00327c8,0xbf597fc7,0xc6e00bf3,0xd5a79147,0x06ca6351,0x14292967,
  0x27b70a85,0x2e1b2138,0x4d2c6dfc,0x53380d13,0x650a7354,0x766a0abb,0x81c2c92e,0x92722c85,
  0xa2bfe8a1,0xa81a664b,0xc24b8b70,0xc76c51a3,0xd192e819,0xd6990624,0xf40e3585,0x106aa070,
  0x19a4c116,0x1e376c08,0x2748774c,0x34b0bcb5,0x391c0cb3,0x4ed8aa4a,0x5b9cca4f,0x682e6ff3,
  0x748f82ee,0x78a5636f,0x84c87814,0x8cc70208,0x90befffa,0xa4506ceb,0xbef9a3f7,0xc67178f2]

def round (s : Chain) (k w : ℕ) : Chain :=
  let s1 := (rotr s.e 6 ^^^ rotr s.e 11) ^^^ rotr s.e 25
  let ch := (s.e &&& s.f) ^^^ ((4294967295 ^^^ s.e) &&& s.g)
  let t := (s.h+s1+ch+k+w) % wordMod
  let s0 := (rotr s.a 2 ^^^ rotr s.a 13) ^^^ rotr s.a 22
  let maj := ((s.a &&& s.b) ^^^ (s.a &&& s.c)) ^^^ (s.b &&& s.c)
  ⟨add t (add s0 maj),s.a,s.b,s.c,add s.d t,s.e,s.f,s.g⟩

/-- The next word of the message schedule, from the last sixteen. -/
def nextWord (w : List ℕ) : ℕ :=
  let x := w.getD 1 0
  let y := w.getD 14 0
  let s0 := (rotr x 7 ^^^ rotr x 18) ^^^ (x >>> 3)
  let s1 := (rotr y 17 ^^^ rotr y 19) ^^^ (y >>> 10)
  (w.getD 0 0+s0+w.getD 9 0+s1) % wordMod

/-- The rounds keep a sliding window of sixteen schedule words. -/
def rounds : List ℕ → Chain → List ℕ → Chain
  | [], s, _ => s
  | k::ks, s, w => rounds ks (round s k (w.getD 0 0)) (w.tail ++ [nextWord w])

def compress (s : Chain) (block : List ℕ) : Chain :=
  let t := rounds roundConstants s block
  ⟨add s.a t.a,add s.b t.b,add s.c t.c,add s.d t.d,add s.e t.e,add s.f t.f,add s.g t.g,add s.h t.h⟩

def words : Bytes → List ℕ
  | a::b::c::d::r => (((a.toNat*256+b.toNat)*256+c.toNat)*256+d.toNat)::words r
  | _ => []

def blocks : ℕ → List ℕ → List (List ℕ)
  | 0, _ => []
  | n+1, w => w.take 16::blocks n (w.drop 16)

/-- The message, a one bit, zeros up to the last eight bytes of a block, and the
bit length. -/
def padded (m : Bytes) : Bytes :=
  m ++ 0x80::(List.replicate ((119 - m.length % 64) % 64) 0 ++ bigEndian 8 (8*m.length))

def digest (m : Bytes) : Arr 32 :=
  let w := words (padded m)
  let s := (blocks (w.length/16) w).foldl compress start
  ⟨[s.a,s.b,s.c,s.d,s.e,s.f,s.g,s.h].flatMap (bigEndian 4),by simp⟩

end Sha256
