import Sqrl.Bytes

/-!
Sources of random bytes. A source answers every draw, known by its number, with as many bytes as are
asked for, so that what a server does is a function of its source.
-/
namespace Sqrl

structure Entropy where
  bytes : (draw size : Nat) → Bytes
  length_bytes : ∀ draw size, (bytes draw size).length = size := by simp

namespace Entropy

/-- The source whose draws are their own numbers, for runs that can be repeated. -/
def counting : Entropy where
  bytes draw size := Bytes.bigEndian size draw

end Entropy

end Sqrl
