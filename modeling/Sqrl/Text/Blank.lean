/-!
Blank characters and what is left of a text when they are removed at its ends.
-/
namespace Sqrl.Text

/-- White space and the separators of ASCII: what is removed at the ends of keys, settings,
addresses and lines. -/
def isBlank (c : Char) : Bool :=
  let n := c.toNat
  (0x09 ≤ n && n ≤ 0x0D) || (0x1C ≤ n && n ≤ 0x20) || n == 0x85 || n == 0xA0 || n == 0x1680 ||
    (0x2000 ≤ n && n ≤ 0x200A) || n == 0x2028 || n == 0x2029 || n == 0x202F || n == 0x205F ||
    n == 0x3000

def trimEnd {α : Type} (p : α → Bool) (s : List α) : List α := (s.reverse.dropWhile p).reverse

def trim {α : Type} (p : α → Bool) (s : List α) : List α := trimEnd p (s.dropWhile p)

def strip (s : List Char) : List Char := trim isBlank s

def stripped (s : String) : String := String.ofList (strip s.toList)

end Sqrl.Text
