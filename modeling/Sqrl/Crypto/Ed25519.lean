import Sqrl.Crypto.Sha512

/-!
Verification of Ed25519 signatures. The group is that of the twisted Edwards curve
`-x² + y² = 1 + d x² y²` over the integers modulo `2^255 - 19`. The equation is checked without the
cofactor and on the bytes of the commitment; a key may be of small order, and its `y` need not be
reduced.
-/
namespace Sqrl.Ed25519

def fieldOrder : Nat := Nat.pow 2 255 - 19

def groupOrder : Nat := Nat.pow 2 252 + 27742317777372353535851937790883648493

def curveD : Nat := 0x52036cee2b6ffe738cc740797779e89800700a4d4141d8ab75eb4dca135978a3

def rootOfMinusOne : Nat := 0x2b8324804fc1df0b2b4d00993dfbd7a72f431806ad2fe478c4ee1b274a0ea0b0

def add (a b : Nat) : Nat := (a + b) % fieldOrder

def sub (a b : Nat) : Nat := (a + (fieldOrder - b)) % fieldOrder

def mul (a b : Nat) : Nat := a * b % fieldOrder

/-- The power with the last `n` bits of `e`, after `acc` for the bits before them. -/
def powFrom (a e : Nat) : (n acc : Nat) → Nat
  | 0, acc => acc
  | n + 1, acc =>
    let square := mul acc acc
    powFrom a e n (if e.testBit n then mul square a else square)

/-- The power in the field, for exponents below `2^255`. -/
def pow (a e : Nat) : Nat := powFrom a e 255 1

/-- A point: `x / z`, `y / z`, and `x y / z` in `t`. -/
structure Point where
  x : Nat
  y : Nat
  z : Nat
  t : Nat

namespace Point

def zero : Point := ⟨0, 1, 1, 0⟩

def base : Point :=
  let x := 0x216936d3cd6e53fec0a4e231fdd6dc5c692cc7609525a7b2c9562d608f25d51a
  let y := 0x6666666666666666666666666666666666666666666666666666666666666658
  ⟨x, y, 1, mul x y⟩

/-- The sum of two points, equal or not. -/
def add (p q : Point) : Point :=
  let a := mul (sub p.y p.x) (sub q.y q.x)
  let b := mul (Ed25519.add p.y p.x) (Ed25519.add q.y q.x)
  let c := mul (mul (mul 2 curveD) p.t) q.t
  let d := mul (mul 2 p.z) q.z
  let e := sub b a
  let f := sub d c
  let g := Ed25519.add d c
  let h := Ed25519.add b a
  ⟨mul e f, mul g h, mul f g, mul e h⟩

def neg (p : Point) : Point := ⟨sub 0 p.x, p.y, p.z, sub 0 p.t⟩

/-- The multiple by the last `n` bits of `k`, after `acc` for the bits before them. -/
def scaleFrom (k : Nat) (p : Point) : (n : Nat) → (acc : Point) → Point
  | 0, acc => acc
  | n + 1, acc =>
    let twice := acc.add acc
    scaleFrom k p n (if k.testBit n then twice.add p else twice)

/-- The multiple of a point, for factors below `2^253`. -/
def scale (k : Nat) (p : Point) : Point := scaleFrom k p 253 zero

/-- The bytes of a point: `y` and the last bit of `x`. -/
def encode (p : Point) : Bytes :=
  let inverse := pow p.z (fieldOrder - 2)
  Bytes.littleEndian 32 (mul p.y inverse + Nat.pow 2 255 * (mul p.x inverse % 2))

/-- The `x` of the given last bit that belongs to `y`, if there is one. Zero belongs to both bits. -/
def recoverX? (y parity : Nat) : Option Nat :=
  let u := sub (mul y y) 1
  let v := Ed25519.add (mul curveD (mul y y)) 1
  let v3 := mul v (mul v v)
  let x := mul (mul u v3) (pow (mul (mul u v3) (mul v3 v)) ((fieldOrder - 5) / 8))
  let square := mul v (mul x x)
  let signed (x : Nat) : Nat := if x % 2 = parity then x else sub 0 x
  if square = u then some (signed x)
  else if square = sub 0 u then some (signed (mul x rootOfMinusOne))
  else none

def decode? (b : Bytes) : Option Point :=
  let n := Bytes.ofLittleEndian b
  let y := n % Nat.pow 2 255 % fieldOrder
  (recoverX? y (n / Nat.pow 2 255)).map fun x => ⟨x, y, 1, mul x y⟩

end Point

def verify (key message signature : Bytes) : Bool :=
  let commitment := signature.take 32
  let response := Bytes.ofLittleEndian (signature.drop 32)
  match Point.decode? key with
  | none => false
  | some point =>
    let challenge := Bytes.ofLittleEndian (sha512 (commitment ++ key ++ message)) % groupOrder
    decide (response < groupOrder) &&
      (((Point.base.scale response).add (point.scale challenge).neg).encode == commitment)

end Sqrl.Ed25519
