import Sqrl.Server

/-!
How a server starts.
-/
namespace Sqrl.Server

/-- The key of the settings, or sixteen drawn bytes if they have none. -/
def chooseKey (settings : Settings) (entropy : Entropy) (draw : Nat) :
    Except Nut.KeyFault Aes.Key :=
  match settings.nutKey with
  | some text => Nut.loadKey text
  | none => .ok ⟨entropy.bytes draw 16, by simp [entropy.length_bytes]⟩

def build (settings : Settings) (entropy : Entropy) (now : Number) (draw : Nat) :
    Except Nut.KeyFault (Server × State) :=
  let drawn := settings.nutKey.isNone
  let warning : Log.Record :=
    .ofText .warning "server" "NUT_KEY_B64 not set: nuts will not survive a restart" none
  (chooseKey settings entropy draw).map fun key =>
    (⟨settings, key, entropy⟩,
      { now := now
        draw := if drawn then draw + 1 else draw
        accounts := ∅
        sessions := .empty (.int settings.sessionTtl)
        trail := if settings.auditEnabled then some .empty else none
        outages := []
        records := if drawn then [warning] else [] })

end Sqrl.Server
