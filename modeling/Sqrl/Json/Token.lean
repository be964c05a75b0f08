import Sqrl.Json

/-!
The tokens of a JSON text: punctuation, strings and words, a word being a longest run of other
characters that are not blank. A character that no token can hold makes the token bad, and nothing
is read past a bad token.
-/
namespace Sqrl.Json

inductive Token where
  | openBracket
  | closeBracket
  | openBrace
  | closeBrace
  | comma
  | colon
  | null
  | bool (b : Bool)
  /-- The digits of a whole number, without a leading zero unless it is the only digit. -/
  | integer (negative : Bool) (digits : List Char)
  /-- A number with a fraction or an exponent, an infinity, or what is no number. -/
  | float (x : Binary64)
  | string (s : List CodePoint)
  | bad
  deriving DecidableEq, Repr

namespace Token

def isDigit (c : Char) : Bool := '0' ≤ c && c ≤ '9'

def value (digits : List Char) : Nat := Nat.ofDigitChars 10 digits 0

/-- The digits of the whole part of a number and what follows them. A leading zero stands alone. -/
def cutWhole : List Char → List Char × List Char
  | '0' :: rest => (['0'], rest)
  | s => s.span isDigit

/-- The digits of a fraction and what follows them. A point without digits begins no fraction. -/
def cutFraction : List Char → List Char × List Char
  | '.' :: rest =>
    let (digits, after) := rest.span isDigit
    if digits = [] then ([], '.' :: rest) else (digits, after)
  | s => ([], s)

/-- The exponent after its mark, a sign or none and digits, and what follows it. -/
def cutPower? (s : List Char) : Option (Int × List Char) :=
  let (negative, s) := match s with
    | '-' :: rest => (true, rest)
    | '+' :: rest => (false, rest)
    | s => (false, s)
  let (digits, after) := s.span isDigit
  if digits = [] then none
  else some (if negative then -(value digits : Int) else value digits, after)

def cutExponent (s : List Char) : Option Int × List Char :=
  match s with
  | c :: rest =>
    match if c = 'e' ∨ c = 'E' then cutPower? rest else none with
    | some (power, after) => (some power, after)
    | none => (none, c :: rest)
  | [] => (none, [])

def cutNumber? (negative : Bool) (s : List Char) : Option (Token × List Char) :=
  let (whole, rest) := cutWhole s
  let (fraction, rest) := cutFraction rest
  let (exponent, rest) := cutExponent rest
  if whole = [] then none
  else if fraction = [] ∧ exponent = none then some (.integer negative whole, rest)
  else
    let power := exponent.getD 0 - fraction.length
    some (.float (.ofDecimal negative (value (whole ++ fraction)) power), rest)

/-- The tokens of a word that begins with a number. What follows the number is bad, but it is the
number that is read first. -/
def ofNumeral (s : List Char) : List Token :=
  let number := match s with
    | '-' :: rest => cutNumber? true rest
    | s => cutNumber? false s
  match number with
  | none => [.bad]
  | some (token, []) => [token]
  | some (token, _) => [token, .bad]

def ofWord (s : List Char) : List Token :=
  if s = "null".toList then [.null]
  else if s = "true".toList then [.bool true]
  else if s = "false".toList then [.bool false]
  else if s = "NaN".toList then [.float .nan]
  else if s = "Infinity".toList then [.float (.infinite false)]
  else if s = "-Infinity".toList then [.float (.infinite true)]
  else ofNumeral s

end Token

/-- Where the scan of a text stands. Collected characters are kept last first. -/
inductive Scan where
  | between
  | word (chars : List Char)
  | string (points : List CodePoint)
  | escape (points : List CodePoint)
  /-- In an escape by number, with `left` digits to come. -/
  | unit (points : List CodePoint) (left value : Nat)
  deriving DecidableEq, Repr

namespace Scan

/-- Adds the code unit of an escape. A low surrogate completes a high one before it. -/
def addUnit (points : List CodePoint) (n : Nat) : List CodePoint :=
  match points with
  | p :: rest =>
    if 0xD800 ≤ p.val ∧ p.val ≤ 0xDBFF ∧ 0xDC00 ≤ n ∧ n ≤ 0xDFFF then
      CodePoint.ofNat (0x10000 + (p.val - 0xD800) * 0x400 + (n - 0xDC00)) :: rest
    else CodePoint.ofNat n :: p :: rest
  | [] => [CodePoint.ofNat n]

def escaped? (c : Char) : Option Char :=
  match c with
  | '"' => some '"'
  | '\\' => some '\\'
  | '/' => some '/'
  | 'b' => some '\x08'
  | 'f' => some '\x0c'
  | 'n' => some '\n'
  | 'r' => some '\r'
  | 't' => some '\t'
  | _ => none

def punctuation? (c : Char) : Option Token :=
  match c with
  | '[' => some .openBracket
  | ']' => some .closeBracket
  | '\x7b' => some .openBrace
  | '\x7d' => some .closeBrace
  | ',' => some .comma
  | ':' => some .colon
  | _ => none

def isSpace (c : Char) : Bool := c = ' ' || c = '\t' || c = '\n' || c = '\r'

/-- The tokens that end before a character that belongs to none or to the next. -/
def pendingTokens : Scan → List Token
  | .word chars => Token.ofWord chars.reverse
  | _ => []

def stepOutside (s : Scan) (c : Char) : List Token × Scan :=
  if isSpace c then (s.pendingTokens, .between)
  else if c = '"' then (s.pendingTokens, .string [])
  else
    match punctuation? c with
    | some token => (s.pendingTokens ++ [token], .between)
    | none =>
      match s with
      | .word chars => ([], .word (c :: chars))
      | _ => ([], .word [c])

/-- The tokens that a character completes, and where the scan stands after it. -/
def step : Scan → Char → List Token × Scan
  | .string points, c =>
    if c = '"' then ([.string points.reverse], .between)
    else if c = '\\' then ([], .escape points)
    else if c.toNat < 0x20 then ([.bad], .between)
    else ([], .string (CodePoint.ofChar c :: points))
  | .escape points, c =>
    if c = 'u' then ([], .unit points 4 0)
    else
      match escaped? c with
      | some e => ([], .string (CodePoint.ofChar e :: points))
      | none => ([.bad], .between)
  | .unit points left value, c =>
    match Bytes.hexValue? c with
    | none => ([.bad], .between)
    | some digit =>
      if left = 1 then ([], .string (addUnit points (16 * value + digit)))
      else ([], .unit points (left - 1) (16 * value + digit))
  | s, c => stepOutside s c

def tokens : Scan → List Char → List Token
  | .between, [] => []
  | .word chars, [] => Token.ofWord chars.reverse
  | _, [] => [.bad]
  | s, c :: rest => (s.step c).1 ++ tokens (s.step c).2 rest

end Scan

end Sqrl.Json
