import Sqrl.Bytes

/-!
SHA3-256: the Keccak permutation of 25 lanes of 64 bits, and the sponge that absorbs seventeen lanes
at a time.
-/
namespace Sqrl

namespace Keccak

/-- The state; lane `x` of row `y` has the index `x + 5 y`. -/
abbrev State := Vector (BitVec 64) 25

/-- The lane in column `x` of row `y`, both taken modulo five. -/
def State.lane (s : State) (x y : Nat) : BitVec 64 :=
  s.get ⟨x % 5 + 5 * (y % 5), by omega⟩

def build (f : Nat → Nat → BitVec 64) : State := Vector.ofFn fun i => f (i.val % 5) (i.val / 5)

def parity (s : State) (x : Nat) : BitVec 64 :=
  s.lane x 0 ^^^ s.lane x 1 ^^^ s.lane x 2 ^^^ s.lane x 3 ^^^ s.lane x 4

/-- Adds to each lane the parities of the columns beside it, one of them rotated. -/
def theta (s : State) : State :=
  let d : Vector (BitVec 64) 5 :=
    Vector.ofFn fun x => parity s (x.val + 4) ^^^ (parity s (x.val + 1)).rotateLeft 1
  build fun x y => s.lane x y ^^^ d.get ⟨x % 5, by omega⟩

def offsets : Vector Nat 25 := #v[
  0, 1, 62, 28, 27, 36, 44, 6, 55, 20, 3, 10, 43,
  25, 39, 41, 45, 15, 21, 8, 18, 2, 61, 56, 14]

def rho (s : State) : State := Vector.zipWith (fun lane n => lane.rotateLeft n) s offsets

def pi (s : State) : State := build fun x y => s.lane (x + 3 * y) x

/-- Adds to each lane the product of the two next ones in its row, the first inverted. -/
def chi (s : State) : State :=
  build fun x y => s.lane x y ^^^ (~~~s.lane (x + 1) y &&& s.lane (x + 2) y)

def iota (k : BitVec 64) (s : State) : State := s.set 0 (s[0] ^^^ k)

def constants : List (BitVec 64) := [
  0x0000000000000001, 0x0000000000008082, 0x800000000000808a, 0x8000000080008000,
  0x000000000000808b, 0x0000000080000001, 0x8000000080008081, 0x8000000000008009,
  0x000000000000008a, 0x0000000000000088, 0x0000000080008009, 0x000000008000000a,
  0x000000008000808b, 0x800000000000008b, 0x8000000000008089, 0x8000000000008003,
  0x8000000000008002, 0x8000000000000080, 0x000000000000800a, 0x800000008000000a,
  0x8000000080008081, 0x8000000000008080, 0x0000000080000001, 0x8000000080008008]

def permute (s : State) : State := constants.foldl (fun s k => iota k (chi (pi (rho (theta s))))) s

/-- How many lanes are absorbed between two permutations. -/
def rate : Nat := 17

/-- The message, a byte that ends it, and zeros up to whole blocks with a last bit set. -/
def pad (message : Bytes) : Bytes :=
  let gap := 8 * rate - message.length % (8 * rate)
  if gap = 1 then message ++ [0x86] else message ++ 0x06 :: List.replicate (gap - 2) 0 ++ [0x80]

/-- Eight bytes at a time as lanes, the least significant byte first. -/
def lanes : Bytes → List (BitVec 64)
  | a :: b :: c :: d :: e :: f :: g :: h :: rest =>
    BitVec.ofNat 64 (Bytes.ofLittleEndian [a, b, c, d, e, f, g, h]) :: lanes rest
  | _ => []

/-- Adds lanes to the state, the next one at index `i`. -/
def absorb (s : State) (i : Nat) : List (BitVec 64) → State
  | [] => s
  | lane :: rest =>
    let s := s.setIfInBounds i (s.lane i (i / 5) ^^^ lane)
    if i + 1 = rate then absorb (permute s) 0 rest else absorb s (i + 1) rest

end Keccak

def sha3 (message : Bytes) : Bytes :=
  let s := Keccak.absorb (Vector.replicate 25 0) 0 (Keccak.lanes (Keccak.pad message))
  [s[0], s[1], s[2], s[3]].flatMap fun lane => Bytes.littleEndian 8 lane.toNat

@[simp] theorem length_sha3 (message : Bytes) : (sha3 message).length = 32 := by simp [sha3]

end Sqrl
