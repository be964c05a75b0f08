import Sqrl.Crypto.Aes

/-!
AES in Galois counter mode with nonces of twelve bytes, tags of sixteen and no associated data.
Decryption gives back exactly the texts that encryption takes.
-/
namespace Sqrl.Gcm

open Aes (Block Key)

/-- The product in the field of 2^128 elements, whose elements are numbers with the coefficient of
the lowest power in the highest bit: `n` bits of `x` are left, `y` is the factor of the next one. -/
def mulFrom (x : Nat) : (n y sum : Nat) → Nat
  | 0, _, sum => sum
  | n + 1, y, sum =>
    mulFrom x n (if y.testBit 0 then (y >>> 1) ^^^ (0xe1 <<< 120) else y >>> 1)
      (if x.testBit n then sum ^^^ y else sum)

def mul (x y : Nat) : Nat := mulFrom x 128 y 0

def blockNumbers (b : Bytes) : List Nat :=
  (List.range ((b.length + 15) / 16)).map fun i =>
    Bytes.ofBigEndian (Block.ofBytes (b.drop (16 * i))).toList

/-- The polynomial of a ciphertext and its length in bits, at the point `h`. -/
def ghash (h : Nat) (ciphertext : Bytes) : Nat :=
  (blockNumbers ciphertext ++ [8 * ciphertext.length]).foldl (fun y x => mul (y ^^^ x) h) 0

def counter (iv : Bytes) (n : Nat) : Block := .ofBytes (iv ++ Bytes.bigEndian 4 n)

/-- The key stream for `size` bytes, filled up to whole blocks. Its first block is that of number
two. -/
def stream (key : Key) (iv : Bytes) (size : Nat) : Bytes :=
  (List.range ((size + 15) / 16)).flatMap fun i =>
    (Aes.encryptBlock key.schedule (counter iv (i + 2))).toList

def crypt (key : Key) (iv text : Bytes) : Bytes := Bytes.xor text (stream key iv text.length)

def tag (key : Key) (iv ciphertext : Bytes) : Bytes :=
  let keys := key.schedule
  let h := Bytes.ofBigEndian (Aes.encryptBlock keys (Vector.replicate 16 0)).toList
  let mask := Bytes.ofBigEndian (Aes.encryptBlock keys (counter iv 1)).toList
  Bytes.bigEndian 16 (ghash h ciphertext ^^^ mask)

def encrypt (key : Key) (iv text : Bytes) : Bytes :=
  let ciphertext := crypt key iv text
  ciphertext ++ tag key iv ciphertext

/-- The text of a ciphertext with the right tag. -/
def decrypt? (key : Key) (iv sealed : Bytes) : Option Bytes :=
  let ciphertext := sealed.take (sealed.length - 16)
  if 16 ≤ sealed.length ∧ sealed.drop ciphertext.length = tag key iv ciphertext then
    some (crypt key iv ciphertext)
  else none

end Sqrl.Gcm
