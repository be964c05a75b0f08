import Sqrl.Log.Template
import Sqrl.Log.Template.Argument

/-!
Messages: templates whose places are filled. Arguments are taken in turn, or by key from an object that
is the only one.
-/
namespace Sqrl.Log.Message

open Template

inductive Fault where
  | missingArgument
  | surplusArgument
  /-- A place has a key and there is no object to look it up in. -/
  | noMapping
  | unclosedKey
  | unknownKey (name : List Char)
  /-- A width or precision that is to be an argument is no whole number. -/
  | notAmount
  | oversizedWidth
  | oversizedPrecision
  | widthOutOfRange
  | precisionOutOfRange
  /-- The template ends inside a place. -/
  | incomplete
  | unknownLetter (letter : Char) (index : Nat)
  | argument (letter : Char) (fault : ArgumentFault)
  /-- A place is wider than any text can be. -/
  | tooWide
  deriving DecidableEq, Repr

structure Supply where
  mapping : Option Json.Members
  next : List Json

abbrev Filling := StateT Supply (Except Fault)

def take : Filling Json := do
  match (← get).next with
  | [] => throw .missingArgument
  | v :: rest =>
    modify fun supply => { supply with next := rest }
    return v

/-- Looks up a key. From then on its value is all that there is to take. -/
def choose (key : Key) : Filling Unit := do
  match key, (← get).mapping with
  | .absent, _ => return
  | _, none => throw .noMapping
  | .unclosed, some _ => throw .unclosedKey
  | .named name, some members =>
    match Dictionary.get? members (CodePoint.ofChars name) with
    | none => throw (.unknownKey name)
    | some v => modify fun supply => { supply with next := [v] }

def takeAmount : Filling Int := do
  match ← take with
  | .number (.int n) => return n
  | .bool b => return if b then 1 else 0
  | _ => throw .notAmount

/-- The width of a place, and whether its text is put at the left end. A negative width is one to the
left. -/
def widthOf (place : Place) : Filling (Nat × Bool) := do
  match place.width with
  | none => return (0, place.flags.left)
  | some (.given n) => return (n, place.flags.left)
  | some .argument =>
    let n ← takeAmount
    if n < -0x8000000000000000 ∨ 0x8000000000000000 ≤ n then throw .widthOutOfRange
    return (n.natAbs, place.flags.left || n < 0)

/-- The precision of a place. A negative one counts as zero. -/
def precisionOf (place : Place) : Filling (Option Nat) := do
  match place.precision with
  | none => return none
  | some (.given n) => return some n
  | some .argument =>
    let n ← takeAmount
    if n < -0x80000000 ∨ 0x80000000 ≤ n then throw .precisionOutOfRange
    return some n.toNat

def signOf (flags : Flags) : List Char :=
  if flags.plus then ['+'] else if flags.blank then [' '] else []

/-- The width that no text can have. -/
def widthLimit : Nat := 0x1000000000

/-- A written argument filled up to its width. Zeros stand between the sign and the digits. -/
def pad (form : Form) (flags : Flags) (width : Nat) (left : Bool) (written : Written) :
    Except Fault (List CodePoint) :=
  let sign := if form.isNumeric && written.sign.isEmpty then signOf flags else written.sign
  let front := CodePoint.ofChars (sign ++ written.mark)
  let gap := width - front.length - written.body.length
  let filler (c : Char) : List CodePoint := List.replicate gap (CodePoint.ofChar c)
  if widthLimit ≤ width then .error .tooWide
  else if left then .ok (front ++ written.body ++ filler ' ')
  else if flags.zeros && form.isNumeric then .ok (front ++ filler '0' ++ written.body)
  else .ok (filler ' ' ++ front ++ written.body)

/-- The text of a place. What it takes is taken in the order key, width, precision, argument. -/
def fillPlace (place : Place) (ending : Ending) : Filling (List CodePoint) := do
  choose place.key
  let (width, left) ← widthOf place
  if ending = .oversizedWidth then throw .oversizedWidth
  let precision ← precisionOf place
  match ending with
  | .oversizedWidth | .oversizedPrecision => throw .oversizedPrecision
  | .cut => throw .incomplete
  | .letter c index =>
    let v ← take
    match Form.ofLetter? c with
    | none => throw (.unknownLetter c index)
    | some form =>
      match form.write place.flags.marked precision v with
      | .error fault => throw (.argument c fault)
      | .ok written => pad form place.flags width left written

def fillPiece : Piece → Filling (List CodePoint)
  | .char c => return [CodePoint.ofChar c]
  | .place place ending => fillPlace place ending

/-- The supply of arguments. A single object that has members is a mapping, and can also be taken
itself. -/
def Supply.ofArguments : List Json → Supply
  | [.object (member :: members)] =>
    ⟨some (member :: members), [.object (member :: members)]⟩
  | args => ⟨none, args⟩

/-- The message of a template. Without arguments a template is taken as it is. Of arguments that are
taken in turn none may be left over. -/
def fill (template : List CodePoint) (args : List Json) : Except Fault (List CodePoint) :=
  if args.isEmpty then .ok template
  else do
    let pieces := pieces (template.map CodePoint.toChar)
    let (texts, supply) ← (pieces.mapM fillPiece).run (.ofArguments args)
    if supply.mapping.isNone && !supply.next.isEmpty then throw .surplusArgument
    return texts.flatten

def Fault.message : Fault → String
  | .missingArgument => "not enough arguments for format string"
  | .surplusArgument => "not all arguments converted during string formatting"
  | .noMapping => "format requires a mapping"
  | .unclosedKey => "incomplete format key"
  | .unknownKey name => String.ofList (Text.quoted name)
  | .notAmount => "* wants int"
  | .oversizedWidth => "width too big"
  | .oversizedPrecision => "precision too big"
  | .widthOutOfRange => "Python int too large to convert to C ssize_t"
  | .precisionOutOfRange => "Python int too large to convert to C int"
  | .incomplete => "incomplete format"
  | .unknownLetter letter index =>
    let shown := if 31 ≤ letter.toNat && letter.toNat ≤ 126 then letter else '?'
    "unsupported format character '" ++ shown.toString ++ "' (0x" ++
      String.ofList (Nat.toDigits 16 letter.toNat) ++ ") at index " ++ toString index
  | .argument letter fault => fault.message letter
  | .tooWide => ""

end Sqrl.Log.Message
