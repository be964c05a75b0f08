/-!
The flags of a response: what the server saw while it handled a request. A set of flags goes over the
wire as a bitmask.
-/
namespace Sqrl

/-- What a response tells about its request. -/
inductive Flag where
  | idMatch
  | previousIdMatch
  | ipMatched
  | sqrlDisabled
  | functionNotSupported
  | transientError
  | commandFailed
  | clientFailure
  | badIdAssociation
  deriving DecidableEq, Repr

namespace Flag

def all : List Flag :=
  [.idMatch, .previousIdMatch, .ipMatched, .sqrlDisabled, .functionNotSupported, .transientError,
    .commandFailed, .clientFailure, .badIdAssociation]

def index : Flag → Nat
  | .idMatch => 0
  | .previousIdMatch => 1
  | .ipMatched => 2
  | .sqrlDisabled => 3
  | .functionNotSupported => 4
  | .transientError => 5
  | .commandFailed => 6
  | .clientFailure => 7
  | .badIdAssociation => 8

def bit (f : Flag) : Nat := Nat.pow 2 f.index

def value : Flag → String
  | .idMatch => "id_match"
  | .previousIdMatch => "previous_id_match"
  | .ipMatched => "ip_matched"
  | .sqrlDisabled => "sqrl_disabled"
  | .functionNotSupported => "function_not_supported"
  | .transientError => "transient_error"
  | .commandFailed => "command_failed"
  | .clientFailure => "client_failure"
  | .badIdAssociation => "bad_id_association"

def name (f : Flag) : String := f.value.toUpper

def ofValue? (s : String) : Option Flag := all.find? fun f => f.value = s

def ofName? (s : String) : Option Flag := all.find? fun f => f.name = s

/-- Is the bit of the flag set in a mask of any size? A negative mask counts in two's complement. -/
def isSetIn (mask : Int) (f : Flag) : Bool := mask / (f.bit : Int) % 2 = 1

/-- The flags of a mask, by bit. Higher bits do not matter. -/
def ofMask (mask : Int) : List Flag := all.filter (isSetIn mask)

def unknownMessage (shown : String) : String :=
  shown ++ " is not a valid TransactionInformationFlag"

def foreignMessage (shown : String) : String := "not a TIF flag: " ++ shown

def unhashableMessage (type : String) : String := "unhashable type: '" ++ type ++ "'"

def noMaskMessage (type : String) : String :=
  "unsupported operand type(s) for &: '" ++ type ++ "' and 'int'"

end Flag

structure FlagSet where
  contains : Flag → Bool

namespace FlagSet

def empty : FlagSet := ⟨fun _ => false⟩

def insert (s : FlagSet) (f : Flag) : FlagSet := ⟨fun g => g = f || s.contains g⟩

def ofList (fs : List Flag) : FlagSet := fs.foldl insert empty

def toList (s : FlagSet) : List Flag := Flag.all.filter s.contains

def mask (s : FlagSet) : Nat := s.toList.foldl (fun m f => m ||| f.bit) 0

def size (s : FlagSet) : Nat := s.toList.length

def text (s : FlagSet) : String :=
  let names := if s.size = 0 then "-" else ",".intercalate (s.toList.map Flag.name)
  "TifSet(" ++ names ++ "; tif=0x" ++ String.ofList (Nat.toDigits 16 s.mask) ++ ")"

@[simp] theorem contains_insert (s : FlagSet) (f g : Flag) :
    (s.insert f).contains g = (decide (g = f) || s.contains g) := rfl

end FlagSet

end Sqrl
