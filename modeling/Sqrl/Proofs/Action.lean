import Sqrl.Proofs.Nut
import Sqrl.Server.Decision
import Sqrl.Server.Nuts
import Sqrl.Server.Stores

/-! What the single operations of a server do when none of them is out of service. -/
namespace Sqrl.Server

variable {α β : Type} {s t : State} {a : α} {fault : Fault}

namespace Action

@[simp] theorem outcome_pure (a : α) (s : State) : outcome (pure a) s = (.ok a, s) := rfl

@[simp] theorem outcome_throw (fault : Fault) (s : State) :
    outcome (throw fault : Action α) s = (.error fault, s) := rfl

@[simp] theorem outcome_get (s : State) : outcome get s = (.ok s, s) := rfl

@[simp] theorem outcome_modify (f : State → State) (s : State) :
    outcome (modify f) s = (.ok (), f s) := rfl

theorem outcome_bind (x : Action α) (f : α → Action β) (s : State) :
    outcome (x >>= f) s = (match x.outcome s with
      | (.ok a, t) => (f a).outcome t
      | (.error fault, t) => (.error fault, t)) := by
  simp only [outcome, ExceptT.run_bind]
  rcases h : x.run.run s with ⟨_ | _, _⟩ <;> simp_all [StateT.run_bind] <;> rfl

theorem outcome_bind_ok {x : Action α} {f : α → Action β} (h : x.outcome s = (.ok a, t)) :
    outcome (x >>= f) s = (f a).outcome t := by
  rw [outcome_bind, h]

theorem outcome_bind_error {x : Action α} {f : α → Action β}
    (h : x.outcome s = (.error fault, t)) : outcome (x >>= f) s = (.error fault, t) := by
  rw [outcome_bind, h]

end Action

open Server.Action

@[simp] theorem outcome_now (s : State) : now.outcome s = (.ok s.now, s) := rfl

@[simp] theorem outcome_log (level : Log.Level) (source message : String)
    (extra : Option Json.Members) (s : State) :
    (log level source message extra).outcome s =
      (.ok (), { s with records := s.records ++ [.ofText level source message extra] }) := rfl

@[simp] theorem outcome_drawBytes (server : Server) (size : Nat) (s : State) :
    (server.drawBytes size).outcome s =
      (.ok (server.entropy.bytes s.draw size), { s with draw := s.draw + 1 }) := rfl

@[simp] theorem outcome_changeAccounts (change : Accounts → α × Accounts) (s : State) :
    (changeAccounts change).outcome s =
      (.ok (change s.accounts).1, { s with accounts := (change s.accounts).2 }) := rfl

@[simp] theorem outcome_changeSessions (change : Sessions → Sessions) (s : State) :
    (changeSessions change).outcome s =
      (.ok (), { s with sessions := change s.sessions }) := rfl

def State.IsUp (s : State) : Prop := s.outages = []

def nextNut (server : Server) (s : State) (address : Option String) (qr : Bool) : Nut :=
  Nut.create s.now address qr (server.entropy.bytes s.draw Nut.entropyLength)

def nextText (server : Server) (s : State) (address : Option String) (qr : Bool) :
    Except Nut.PackFault String :=
  (server.nextNut s address qr).encode server.key
    (server.entropy.bytes (s.draw + 1) Nut.nonceLength)

variable (hs : s.IsUp)
include hs

theorem outcome_demand (op : Operation) : (demand op).outcome s = (.ok (), s) := by
  have hnone : s.outages.get? op = none := by rw [hs]; rfl
  rw [demand, outcome_bind_ok (outcome_get s), hnone]
  rfl

theorem outcome_findAccount (key : String) :
    (findAccount key).outcome s = (.ok (s.accounts.find? key), s) :=
  outcome_bind_ok (outcome_demand hs .findAccount)

theorem outcome_rotateAccount (previous key : String) :
    (rotateAccount previous key).outcome s =
      (.ok (s.accounts.rotate previous key).1,
        { s with accounts := (s.accounts.rotate previous key).2 }) :=
  outcome_bind_ok (outcome_demand hs .rotateAccount)

theorem outcome_registerAccount (key : String) (suk vuk : Option String) :
    (registerAccount key suk vuk).outcome s =
      (.ok (s.accounts.register key suk vuk).1,
        { s with accounts := (s.accounts.register key suk vuk).2 }) :=
  outcome_bind_ok (outcome_demand hs .registerAccount)

theorem outcome_disableAccount (key : String) :
    (disableAccount key).outcome s =
      (.ok (s.accounts.setEnabled key false).1,
        { s with accounts := (s.accounts.setEnabled key false).2 }) :=
  outcome_bind_ok (outcome_demand hs .disableAccount)

theorem outcome_enableAccount (key : String) :
    (enableAccount key).outcome s =
      (.ok (s.accounts.setEnabled key true).1,
        { s with accounts := (s.accounts.setEnabled key true).2 }) :=
  outcome_bind_ok (outcome_demand hs .enableAccount)

theorem outcome_removeAccount (key : String) :
    (removeAccount key).outcome s =
      (.ok (s.accounts.remove key).1, { s with accounts := (s.accounts.remove key).2 }) :=
  outcome_bind_ok (outcome_demand hs .removeAccount)

theorem outcome_prune (time : Option Number) :
    (prune time).outcome s =
      (.ok (s.sessions.prune (time.getD s.now)).1,
        { s with sessions := (s.sessions.prune (time.getD s.now)).2 }) :=
  outcome_bind_ok (outcome_demand hs .prune)

theorem outcome_openTransaction (nut : String) (address : Option String) :
    (openTransaction nut address).outcome s =
      (.ok (), { s with sessions := (s.sessions.prune s.now).2.start nut address s.now }) := by
  rw [openTransaction, outcome_bind_ok (outcome_demand hs _),
    outcome_bind_ok (outcome_prune hs none)]
  rfl

theorem outcome_consumeNut (nut : String) :
    (consumeNut nut).outcome s =
      (.ok (s.sessions.consume nut s.now).1,
        { s with sessions := (s.sessions.consume nut s.now).2 }) :=
  outcome_bind_ok (outcome_demand hs .consumeNut)

theorem outcome_linkNut (old new : String) :
    (linkNut old new).outcome s =
      (.ok (), { s with sessions := (s.sessions.prune s.now).2.link old new s.now }) := by
  rw [linkNut, outcome_bind_ok (outcome_demand hs _), outcome_bind_ok (outcome_prune hs none)]
  rfl

theorem outcome_authenticateNut (nut identity : String) :
    ∃ records, (authenticateNut nut identity).outcome s =
      (.ok (), { s with sessions := s.sessions.authenticate nut identity s.now, records }) :=
  ⟨_, outcome_bind_ok (outcome_demand hs .authenticateNut)⟩

theorem outcome_readIdentity (nut : String) :
    (readIdentity nut).outcome s = (.ok (s.sessions.identity? nut), s) :=
  outcome_bind_ok (outcome_demand hs .readIdentity)

theorem outcome_createNut (server : Server) (address : Option String) (qr : Bool) :
    (server.createNut address qr).outcome s =
      (.ok (server.nextNut s address qr), { s with draw := s.draw + 1 }) :=
  outcome_bind_ok (outcome_demand hs .createNut)

theorem outcome_encodeNut_ok (server : Server) {nut : Nut} {text : String}
    (h : nut.encode server.key (server.entropy.bytes s.draw Nut.nonceLength) = .ok text) :
    (server.encodeNut nut).outcome s = (.ok text, { s with draw := s.draw + 1 }) := by
  rw [encodeNut, outcome_bind_ok (outcome_demand hs _)]
  cases hrecord : nut.record with
  | error fault => simp [Nut.encode, hrecord, Except.map] at h
  | ok record =>
    simp only [Nut.encode, hrecord, Except.map, Except.ok.injEq] at h
    rw [← h]
    rfl

theorem outcome_encodeNut_error (server : Server) {nut : Nut} {iv : Bytes} {fault : Nut.PackFault}
    (h : nut.encode server.key iv = .error fault) :
    (server.encodeNut nut).outcome s = (.error (.pack fault), s) := by
  rw [encodeNut, outcome_bind_ok (outcome_demand hs _)]
  cases hrecord : nut.record with
  | error fault' =>
    simp only [Nut.encode, hrecord, Except.map, Except.error.injEq] at h
    rw [← h]
    rfl
  | ok record => simp [Nut.encode, hrecord, Except.map] at h

theorem outcome_mint_ok (server : Server) {address : Option String} {qr : Bool} {text : String}
    (h : server.nextText s address qr = .ok text) :
    (server.mint address qr).outcome s = (.ok text, { s with draw := s.draw + 2 }) := by
  rw [mint, outcome_bind_ok (outcome_createNut hs server address qr)]
  exact outcome_encodeNut_ok (s := { s with draw := s.draw + 1 }) hs server h

theorem outcome_mint_error (server : Server) {address : Option String} {qr : Bool}
    {fault : Nut.PackFault} (h : server.nextText s address qr = .error fault) :
    (server.mint address qr).outcome s = (.error (.pack fault), { s with draw := s.draw + 1 }) := by
  rw [mint, outcome_bind_ok (outcome_createNut hs server address qr)]
  exact outcome_encodeNut_error (s := { s with draw := s.draw + 1 }) hs server h

theorem outcome_decodeNut (server : Server) (text : String) :
    (server.decodeNut text).outcome s = (.ok (Nut.decode server.key text), s) :=
  outcome_bind_ok (outcome_demand hs .decodeNut)

end Sqrl.Server
