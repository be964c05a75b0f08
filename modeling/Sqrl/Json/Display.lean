import Sqrl.Json
import Sqrl.Text.Quoted

/-!
JSON values as messages show them: quoted strings, and words of their own for the constants.
-/
namespace Sqrl.Json

mutual

/-- A value in a message. -/
def display : Json → List Char
  | .null => "None".toList
  | .bool true => "True".toList
  | .bool false => "False".toList
  | .number n => n.text Binary64.plainWords
  | .string s => Text.quoted (s.map CodePoint.toChar)
  | .array [] => ['[', ']']
  | .array (v :: rest) => '[' :: (display v ++ displayItems rest)
  | .object [] => ['\x7b', '\x7d']
  | .object ((k, v) :: rest) =>
    '\x7b' :: (Text.quoted (k.map CodePoint.toChar) ++ [':', ' '] ++ display v ++
      displayMembers rest)

def displayItems : List Json → List Char
  | [] => [']']
  | v :: rest => [',', ' '] ++ display v ++ displayItems rest

def displayMembers : List (List CodePoint × Json) → List Char
  | [] => ['\x7d']
  | (k, v) :: rest =>
    [',', ' '] ++ Text.quoted (k.map CodePoint.toChar) ++ [':', ' '] ++ display v ++
      displayMembers rest

end

def shown (v : Json) : String := String.ofList (display v)

def typeName : Json → String
  | .null => "NoneType"
  | .bool _ => "bool"
  | .number (.int _) => "int"
  | .number (.float _) => "float"
  | .string _ => "str"
  | .array _ => "list"
  | .object _ => "dict"

end Sqrl.Json
