import Sqrl.Server

/-!
The nuts of a server: made, written and read with its key and its random bytes.
-/
namespace Sqrl.Server

def createNut (server : Server) (address : Option String) (qr : Bool) : Action Nut := do
  demand .createNut
  let entropy ← server.drawBytes Nut.entropyLength
  return Nut.create (← now) address qr entropy

/-- The text of a nut. No nonce is drawn for one that has no record. -/
def encodeNut (server : Server) (nut : Nut) : Action String := do
  demand .encodeNut
  match nut.record with
  | .error fault => throw (.pack fault)
  | .ok record =>
    let iv ← server.drawBytes Nut.nonceLength
    return Nut.sealRecord server.key iv record

def mint (server : Server) (address : Option String) (qr : Bool) : Action String := do
  server.encodeNut (← server.createNut address qr)

def decodeNut (server : Server) (text : String) : Action (Except Nut.Rejection Nut) := do
  demand .decodeNut
  return Nut.decode server.key text

end Sqrl.Server
