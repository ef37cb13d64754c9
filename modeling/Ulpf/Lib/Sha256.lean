import Mathlib.Data.List.Basic
import Mathlib.Tactic

namespace sha256

/-- The first 32 bits of the fractional parts of the square roots of the first
    eight primes. -/
def initialState : List UInt32 :=
  [0x6a09e667, 0xbb67ae85, 0x3c6ef372, 0xa54ff53a, 0x510e527f, 0x9b05688c, 0x1f83d9ab, 0x5be0cd19]

/-- The first 32 bits of the fractional parts of the cube roots of the first
    sixty-four primes. -/
def roundConstants : List UInt32 :=
  [0x428a2f98, 0x71374491, 0xb5c0fbcf, 0xe9b5dba5, 0x3956c25b, 0x59f111f1, 0x923f82a4, 0xab1c5ed5,
   0xd807aa98, 0x12835b01, 0x243185be, 0x550c7dc3, 0x72be5d74, 0x80deb1fe, 0x9bdc06a7, 0xc19bf174,
   0xe49b69c1, 0xefbe4786, 0x0fc19dc6, 0x240ca1cc, 0x2de92c6f, 0x4a7484aa, 0x5cb0a9dc, 0x76f988da,
   0x983e5152, 0xa831c66d, 0xb00327c8, 0xbf597fc7, 0xc6e00bf3, 0xd5a79147, 0x06ca6351, 0x14292967,
   0x27b70a85, 0x2e1b2138, 0x4d2c6dfc, 0x53380d13, 0x650a7354, 0x766a0abb, 0x81c2c92e, 0x92722c85,
   0xa2bfe8a1, 0xa81a664b, 0xc24b8b70, 0xc76c51a3, 0xd192e819, 0xd6990624, 0xf40e3585, 0x106aa070,
   0x19a4c116, 0x1e376c08, 0x2748774c, 0x34b0bcb5, 0x391c0cb3, 0x4ed8aa4a, 0x5b9cca4f, 0x682e6ff3,
   0x748f82ee, 0x78a5636f, 0x84c87814, 0x8cc70208, 0x90befffa, 0xa4506ceb, 0xbef9a3f7, 0xc67178f2]

def rotateRight (x : UInt32) (n : UInt32) : UInt32 := (x >>> n) ||| (x <<< (32 - n))

/-- The padded message: a set bit, zeros up to 56 modulo 64, and the bit length
    as a big-endian 64-bit number. -/
def pad (message : List UInt8) : List UInt8 :=
  let zeros := (119 - message.length % 64) % 64
  let bits := 8 * message.length
  message ++ 0x80 :: List.replicate zeros 0 ++
    (List.range 8).map fun i => UInt8.ofNat (bits / 256 ^ (7 - i))

def bigEndian : List UInt8 → List UInt32
  | a :: b :: c :: d :: rest =>
    ((a.toUInt32 <<< 24) ||| (b.toUInt32 <<< 16) ||| (c.toUInt32 <<< 8) ||| d.toUInt32) ::
      bigEndian rest
  | _ => []

/-- Extend the message schedule by `fuel` words. The window holds the last
    sixteen words, the oldest first. -/
def schedule : Nat → List UInt32 → List UInt32
  | 0, window => window
  | fuel + 1, window =>
    let w15 := window.getD 1 0
    let w2 := window.getD 14 0
    let s0 := rotateRight w15 7 ^^^ rotateRight w15 18 ^^^ (w15 >>> 3)
    let s1 := rotateRight w2 17 ^^^ rotateRight w2 19 ^^^ (w2 >>> 10)
    window.headD 0 :: schedule fuel (window.tail ++ [window.headD 0 + s0 + window.getD 9 0 + s1])

/-- One round on the working variables `a … h`. -/
def round (state : List UInt32) (kw : UInt32 × UInt32) : List UInt32 :=
  match state with
  | [a, b, c, d, e, f, g, h] =>
    let s1 := rotateRight e 6 ^^^ rotateRight e 11 ^^^ rotateRight e 25
    let ch := (e &&& f) ^^^ (~~~e &&& g)
    let t1 := h + s1 + ch + kw.1 + kw.2
    let s0 := rotateRight a 2 ^^^ rotateRight a 13 ^^^ rotateRight a 22
    let maj := (a &&& b) ^^^ (a &&& c) ^^^ (b &&& c)
    [t1 + (s0 + maj), a, b, c, d + t1, e, f, g]
  | other => other

def compress (state : List UInt32) (block : List UInt8) : List UInt32 :=
  let rounds := (roundConstants.zip (schedule 48 (bigEndian block))).foldl round state
  state.zipWith (· + ·) rounds

def compressAll : Nat → List UInt32 → List UInt8 → List UInt32
  | 0, state, _ => state
  | blocks + 1, state, bytes => compressAll blocks (compress state (bytes.take 64)) (bytes.drop 64)

def word (w : UInt32) : List UInt8 :=
  [(w >>> 24).toUInt8, (w >>> 16).toUInt8, (w >>> 8).toUInt8, w.toUInt8]

/-- The SHA-256 digest of a message. -/
def digest (message : List UInt8) : List UInt8 :=
  let padded := pad message
  (compressAll (padded.length / 64) initialState padded).flatMap word

theorem length_round (state : List UInt32) (kw : UInt32 × UInt32) :
    (round state kw).length = state.length := by
  unfold round
  split <;> simp

theorem length_compress (state : List UInt32) (block : List UInt8) :
    (compress state block).length = state.length := by
  have hrounds : ∀ (kws : List (UInt32 × UInt32)) (s : List UInt32),
      (kws.foldl round s).length = s.length := by
    intro kws
    induction kws with
    | nil => intro s; rfl
    | cons kw kws ih => intro s; rw [List.foldl_cons, ih, length_round]
  simp [compress, hrounds]

theorem length_compressAll (blocks : Nat) (state : List UInt32) (bytes : List UInt8) :
    (compressAll blocks state bytes).length = state.length := by
  induction blocks generalizing state bytes with
  | zero => rfl
  | succ blocks ih => rw [compressAll, ih, length_compress]

@[simp] theorem length_digest (message : List UInt8) : (digest message).length = 32 := by
  simp [digest, List.length_flatMap, word, length_compressAll, initialState]

end sha256
