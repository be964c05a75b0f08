import Sqrl.Json.Token

/-!
Reading JSON values from tokens. The reader is a machine with a stack of the arrays and objects that
are open; what it does with a token depends on what may stand next.
-/
namespace Sqrl.Json

/-- An array or object that waits for the value being read. -/
inductive Frame where
  /-- The items so far, last first. -/
  | items (items : List Json)
  | member (members : Members) (key : List CodePoint)

/-- What may stand next, under the arrays and objects that are open, innermost first. -/
inductive Reader where
  | value (stack : List Frame)
  | firstItem (stack : List Frame)
  | afterItem (items : List Json) (stack : List Frame)
  | firstKey (stack : List Frame)
  | nextKey (members : Members) (stack : List Frame)
  | colon (members : Members) (key : List CodePoint) (stack : List Frame)
  | afterMember (members : Members) (stack : List Frame)
  | done (v : Json)

inductive Container where
  | array
  | object
  deriving DecidableEq, Repr

inductive Fault where
  | notJson
  | oversizedInteger (digits : Nat)
  | tooDeep (container : Container)
  deriving DecidableEq, Repr

namespace Reader

/-- A value is complete. Of members with one key the last counts. -/
def finish (v : Json) : List Frame → Reader
  | [] => .done v
  | .items items :: stack => .afterItem (v :: items) stack
  | .member members name :: stack => .afterMember (Dictionary.put name v members) stack

def begin (stack : List Frame) : Token → Except Fault Reader
  | .null => .ok (finish .null stack)
  | .bool b => .ok (finish (.bool b) stack)
  | .integer negative digits =>
    if Number.maxDigits < digits.length then .error (.oversizedInteger digits.length)
    else
      let n : Int := Token.value digits
      .ok (finish (.number (.int (if negative then -n else n))) stack)
  | .float x => .ok (finish (.number (.float x)) stack)
  | .string s => .ok (finish (.string s) stack)
  | .openBracket => .ok (.firstItem stack)
  | .openBrace => .ok (.firstKey stack)
  | _ => .error .notJson

def step : Reader → Token → Except Fault Reader
  | .value stack, token => begin stack token
  | .firstItem stack, .closeBracket => .ok (finish (.array []) stack)
  | .firstItem stack, token => begin (.items [] :: stack) token
  | .afterItem items stack, .comma => .ok (.value (.items items :: stack))
  | .afterItem items stack, .closeBracket => .ok (finish (.array items.reverse) stack)
  | .firstKey stack, .closeBrace => .ok (finish (.object []) stack)
  | .firstKey stack, .string s => .ok (.colon [] s stack)
  | .nextKey members stack, .string s => .ok (.colon members s stack)
  | .colon members name stack, .colon => .ok (.value (.member members name :: stack))
  | .afterMember members stack, .comma => .ok (.nextKey members stack)
  | .afterMember members stack, .closeBrace => .ok (finish (.object members) stack)
  | _, _ => .error .notJson

/-- The array or object that has just been opened under `depth` others, if the reader is there. -/
def beyond? (depth : Nat) : Reader → Option Container
  | .firstItem stack => if depth ≤ stack.length then some .array else none
  | .firstKey stack => if depth ≤ stack.length then some .object else none
  | _ => none

/-- The reader after tokens that open at most `depth` arrays and objects at once. -/
def run (depth : Nat) : Reader → List Token → Except Fault Reader
  | r, [] => .ok r
  | r, token :: rest =>
    match r.step token with
    | .error fault => .error fault
    | .ok r =>
      match r.beyond? depth with
      | some container => .error (.tooDeep container)
      | none => run depth r rest

end Reader

def readWithin (depth : Nat) (s : List Char) : Except Fault Json :=
  match Reader.run depth (.value []) (Scan.tokens .between s) with
  | .ok (.done v) => .ok v
  | .ok _ => .error .notJson
  | .error fault => .error fault

def read (s : List Char) : Except Fault Json := readWithin maxDepth s

def Container.deepMessage (container : Container) : String :=
  let word := match container with
    | .array => "array"
    | .object => "object"
  "maximum recursion depth exceeded while decoding a JSON " ++ word ++ " from a unicode string"

end Sqrl.Json
