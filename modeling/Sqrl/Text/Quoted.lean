import Sqrl.Bytes
import Sqrl.Text.Printable

/-!
Quoted text, as it stands in messages: between apostrophes, or between quotation marks where the text
holds apostrophes alone.
-/
namespace Sqrl.Text

/-- The shortest of the escapes `\xNN`, `\uNNNN` and `\UNNNNNNNN` that holds a code point. -/
def escapeNumber (n : Nat) : List Char :=
  if n < 0x100 then '\\' :: 'x' :: Bytes.hex (Bytes.bigEndian 1 n)
  else if n < 0x10000 then '\\' :: 'u' :: Bytes.hex (Bytes.bigEndian 2 n)
  else '\\' :: 'U' :: Bytes.hex (Bytes.bigEndian 4 n)

def quoteChar (quote c : Char) : List Char :=
  if c = quote ∨ c = '\\' then ['\\', c]
  else if c = '\n' then ['\\', 'n']
  else if c = '\r' then ['\\', 'r']
  else if c = '\t' then ['\\', 't']
  else if isPrintable c then [c]
  else escapeNumber c.toNat

/-- The quotes that need the fewest escapes; apostrophes where both kinds would need some. -/
def quoteFor (s : List Char) : Char := if '\x27' ∈ s ∧ '"' ∉ s then '"' else '\x27'

def quoted (s : List Char) : List Char :=
  quoteFor s :: (s.flatMap (quoteChar (quoteFor s)) ++ [quoteFor s])

def quotedString (s : String) : String := String.ofList (quoted s.toList)

end Sqrl.Text
