import Sqrl.Bytes

/-!
The SHA-2 family of hash functions. Its members differ in the word, the rotations and the constants,
which are the first bits of the fractional parts of roots of the first primes.
-/
namespace Sqrl.Sha2

structure State (w : Nat) where
  a : BitVec w
  b : BitVec w
  c : BitVec w
  d : BitVec w
  e : BitVec w
  f : BitVec w
  g : BitVec w
  h : BitVec w

/-- What a member of the family fixes. -/
structure Variant (w : Nat) where
  /-- The state before the first block, from square roots. -/
  initial : State w
  /-- One constant for each round, from cube roots. -/
  constants : List (BitVec w)
  /-- Rotations of `a` and of `e` in a round. -/
  large : Nat × Nat × Nat
  largeE : Nat × Nat × Nat
  /-- Two rotations and a shift of earlier words in the schedule. -/
  small : Nat × Nat × Nat
  smallLate : Nat × Nat × Nat

variable {w : Nat}

def rotations (r : Nat × Nat × Nat) (x : BitVec w) : BitVec w :=
  x.rotateRight r.1 ^^^ x.rotateRight r.2.1 ^^^ x.rotateRight r.2.2

def rotationsAndShift (r : Nat × Nat × Nat) (x : BitVec w) : BitVec w :=
  x.rotateRight r.1 ^^^ x.rotateRight r.2.1 ^^^ x >>> r.2.2

def State.words (s : State w) : List (BitVec w) := [s.a, s.b, s.c, s.d, s.e, s.f, s.g, s.h]

def State.add (s t : State w) : State w :=
  ⟨s.a + t.a, s.b + t.b, s.c + t.c, s.d + t.d, s.e + t.e, s.f + t.f, s.g + t.g, s.h + t.h⟩

def round (v : Variant w) (s : State w) (k x : BitVec w) : State w :=
  let choice := (s.e &&& s.f) ^^^ (~~~s.e &&& s.g)
  let majority := (s.a &&& s.b) ^^^ (s.a &&& s.c) ^^^ (s.b &&& s.c)
  let t := s.h + rotations v.largeE s.e + choice + k + x
  ⟨t + rotations v.large s.a + majority, s.a, s.b, s.c, s.d + t, s.e, s.f, s.g⟩

/-- The schedule, last word first, with `n` more words. -/
def extend (v : Variant w) : (n : Nat) → List (BitVec w) → List (BitVec w)
  | 0, words => words
  | n + 1, words =>
    let word (i : Nat) : BitVec w := words.getD i 0
    extend v n
      ((rotationsAndShift v.smallLate (word 1) + word 6 + rotationsAndShift v.small (word 14) +
        word 15) :: words)

def rounds (v : Variant w) : State w → List (BitVec w) → List (BitVec w) → State w
  | s, k :: ks, x :: xs => rounds v (round v s k x) ks xs
  | s, _, _ => s

/-- The state after a block of sixteen words, given last first. -/
def compress (v : Variant w) (s : State w) (block : List (BitVec w)) : State w :=
  s.add (rounds v s v.constants (extend v (v.constants.length - 16) block).reverse)

/-- The message followed by a one bit, zeros up to a multiple of sixteen words, and its length in
bits as a number of two words. -/
def pad (w : Nat) (message : Bytes) : Bytes :=
  let block := 2 * w
  let size := message.length + 1 + w / 4
  message ++ 0x80 :: List.replicate ((block - size % block) % block) 0 ++
    Bytes.bigEndian (w / 4) (8 * message.length)

/-- Reads words and compresses every sixteen of them. `word` is the word begun, `words` the block begun,
last word first, and `count` the number of its bytes. -/
def absorb (v : Variant w) (s : State w) (words : List (BitVec w)) (count : Nat) (word : Nat) :
    Bytes → State w
  | [] => s
  | b :: rest =>
    let word := 256 * word + b.toNat
    if count % (w / 8) + 1 = w / 8 then
      let words := BitVec.ofNat w word :: words
      if count + 1 = 2 * w then absorb v (compress v s words) [] 0 0 rest
      else absorb v s words (count + 1) 0 rest
    else absorb v s words (count + 1) word rest

def hash (v : Variant w) (message : Bytes) : Bytes :=
  (absorb v v.initial [] 0 0 (pad w message)).words.flatMap fun x => Bytes.bigEndian (w / 8) x.toNat

end Sqrl.Sha2
