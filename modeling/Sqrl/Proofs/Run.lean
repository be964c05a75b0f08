import Sqrl.Proofs.Protocol
import Sqrl.Server.Start

/-! Runs of a server from empty stores: any calls in any order, each at its own reading of the
clock. A history tells what was called and what came of it. -/
namespace Sqrl.Server

/-- What stands in a list with one more item stands at its end or before it. -/
theorem split_snoc {α : Type} {past before after : List α} {e d : α}
    (h : past ++ [e] = before ++ d :: after) :
    (before = past ∧ d = e ∧ after = []) ∨
      ∃ rest, after = rest ++ [e] ∧ past = before ++ d :: rest := by
  rcases List.eq_nil_or_concat after with rfl | ⟨rest, last, rfl⟩
  · obtain ⟨rfl, hsingle⟩ := List.append_inj' h rfl
    exact .inl ⟨rfl, (List.cons.inj hsingle).1.symm, rfl⟩
  · have hsplit : past ++ [e] = (before ++ d :: rest) ++ [last] := by simpa using h
    obtain ⟨rfl, hlast⟩ := List.append_inj' hsplit rfl
    obtain rfl : e = last := (List.cons.inj hlast).1
    exact .inr ⟨rest, List.concat_eq_append, rfl⟩

inductive Call where
  | issue (address : Option String) (qr : Bool)
  | handle (request : Request) (nut : String) (address : Option String)
  | handleMalformed (nut : Option String) (address : Option String)
  | readIdentity (nut : String)
  | prune (time : Option Number)

inductive Answer where
  | nut (text : String)
  | response (r : Response)
  | identity (key : Option String)
  | count (n : Nat)

def perform (server : Server) : Call → Action Answer
  | .issue address qr => do return .nut (← server.issue address qr)
  | .handle request nut address => do return .response (← server.handle request nut address)
  | .handleMalformed nut address => do return .response (← server.handleMalformed nut address)
  | .readIdentity nut => do return .identity (← Server.readIdentity nut)
  | .prune time => do return .count (← Server.prune time)

/-- A call at a reading of the clock. By convention a call reads its clock once: all that depends on the
time in it, the time of its audit event included, has this reading. -/
structure Moment where
  time : Number
  call : Call

structure Entry extends Moment where
  result : Except Fault Answer

def step (server : Server) (s : State) (m : Moment) : Entry × State :=
  let (result, after) := (server.perform m.call).outcome { s with now := m.time }
  ({ m with result }, after)

def run (server : Server) : State → List Moment → List Entry × State
  | s, [] => ([], s)
  | s, m :: moments =>
    let (e, after) := server.step s m
    let (history, last) := run server after moments
    (e :: history, last)

/-- A run of a server from empty stores, with its history and the state it leads to. -/
def IsRun (server : Server) (moments : List Moment) (history : List Entry) (s : State) : Prop :=
  ∃ entropy now draw first,
    build server.settings entropy now draw = .ok (server, first) ∧
      server.run first moments = (history, s)

end Server

def Response.isProcessed (r : Response) : Bool :=
  decide (.clientFailure ∉ r.flags ∧ .transientError ∉ r.flags)

namespace Server

namespace Entry

def isProcessed (e : Entry) : Bool :=
  match e.call, e.result with
  | .handle _ _ _, .ok (.response r) => r.isProcessed
  | _, _ => false

/-- Is it a processed request that presents the nut? -/
def spends (e : Entry) (nut : String) : Bool :=
  match e.call with
  | .handle _ presented _ => decide (presented = nut) && e.isProcessed
  | _ => false

def minted? (e : Entry) : Option String :=
  match e.result with
  | .ok (.nut text) => some text
  | .ok (.response r) => r.nut
  | _ => none

/-- The reading of the clock by which stale things were forgotten, if they were. -/
def prunedAt? (e : Entry) : Option Number :=
  match e.call, e.result with
  | .issue _ _, .ok _ => some e.time
  | .prune time, .ok _ => some (time.getD e.time)
  | _, _ => if e.isProcessed then some e.time else none

end Entry

theorem Entry.isProcessed_of_spends {e : Entry} {nut : String} (h : e.spends nut = true) :
    e.isProcessed = true := by
  unfold Entry.spends at h
  split at h
  · exact (Bool.and_eq_true_iff.mp h).2
  · cases h

theorem Entry.spends_of_issue {e : Entry} {address : Option String} {qr : Bool}
    (hcall : e.call = .issue address qr) (nut : String) : e.spends nut = false := by
  simp only [Entry.spends, hcall]

theorem Entry.spends_of_prune {e : Entry} {time : Option Number} (hcall : e.call = .prune time)
    (nut : String) : e.spends nut = false := by
  simp only [Entry.spends, hcall]

theorem Entry.spends_of_handle {e : Entry} {request : Request} {nut : String}
    {address : Option String} (hcall : e.call = .handle request nut address) (other : String) :
    e.spends other = (decide (nut = other) && e.isProcessed) := by
  simp only [Entry.spends, hcall]

section

variable (server : Server) {s : State}

theorem run_cons (s : State) (m : Moment) (moments : List Moment) :
    server.run s (m :: moments) =
      ((server.step s m).1 :: (server.run (server.step s m).2 moments).1,
        (server.run (server.step s m).2 moments).2) := rfl

theorem run_append (s : State) (first second : List Moment) :
    server.run s (first ++ second) =
      ((server.run s first).1 ++ (server.run (server.run s first).2 second).1,
        (server.run (server.run s first).2 second).2) := by
  induction first generalizing s with
  | nil => rfl
  | cons m first ih => simp only [List.cons_append, run_cons, ih]

theorem map_toMoment_run (s : State) (moments : List Moment) :
    (server.run s moments).1.map Entry.toMoment = moments := by
  induction moments generalizing s with
  | nil => rfl
  | cons m moments ih =>
    rw [run_cons, List.map_cons, ih]
    rfl

/-- What every call keeps, a run keeps. -/
theorem run_invariant {I : List Entry → State → Prop} {P : Moment → Prop}
    (hstep : ∀ past s m, P m → I past s → I (past ++ [(server.step s m).1]) (server.step s m).2)
    {past : List Entry} (h : I past s) {moments : List Moment} (hm : ∀ m ∈ moments, P m) :
    I (past ++ (server.run s moments).1) (server.run s moments).2 := by
  induction moments generalizing past s with
  | nil =>
    rw [run, List.append_nil]
    exact h
  | cons m moments ih =>
    have hfirst := hstep past s m (hm m List.mem_cons_self) h
    have hrest := ih hfirst fun m' hm' => hm m' (List.mem_cons_of_mem m hm')
    rw [run_cons]
    rwa [List.append_assoc, List.singleton_append] at hrest

end

theorem first_of_build {settings : Settings} {entropy : Entropy} {now : Number} {draw : Nat}
    {server : Server} {first : State}
    (h : build settings entropy now draw = .ok (server, first)) :
    first.IsReady ∧ first.sessions = .empty (.int settings.sessionTtl) ∧ first.accounts = ∅ := by
  cases hkey : chooseKey settings entropy draw with
  | error fault => simp [build, hkey, Except.map] at h
  | ok key =>
    simp only [build, hkey, Except.map, Except.ok.injEq, Prod.mk.injEq] at h
    obtain ⟨-, rfl⟩ := h
    refine ⟨⟨rfl, fun trail htrail => ?_⟩, rfl, rfl⟩
    have hempty : trail = .empty := by
      simp only [Option.ite_none_right_eq_some, Option.some.injEq] at htrail
      exact htrail.2.symm
    rw [hempty]
    exact Audit.Trail.isReadable_empty

namespace IsRun

variable {server : Server} {moments : List Moment} {history : List Entry} {s : State}

theorem map_toMoment (h : server.IsRun moments history s) :
    history.map Entry.toMoment = moments := by
  obtain ⟨_, _, _, first, -, hrun⟩ := h
  rw [← map_toMoment_run server first moments, hrun]

/-- What holds before the first call, and is kept by every call, holds after a run. -/
theorem invariant {I : List Entry → State → Prop} {P : Moment → Prop}
    (h : server.IsRun moments history s)
    (hfirst : ∀ first : State, server.IsRun [] [] first → first.IsReady →
      first.sessions = .empty (.int server.settings.sessionTtl) → first.accounts = ∅ → I [] first)
    (hstep : ∀ past s m, P m → I past s → I (past ++ [(server.step s m).1]) (server.step s m).2)
    (hm : ∀ m ∈ moments, P m) : I history s := by
  obtain ⟨entropy, now, draw, first, hbuild, hrun⟩ := h
  obtain ⟨hready, hsessions, haccounts⟩ := first_of_build hbuild
  have hnone : server.IsRun [] [] first := ⟨entropy, now, draw, first, hbuild, rfl⟩
  have hafter := server.run_invariant hstep (hfirst first hnone hready hsessions haccounts) hm
  rw [hrun] at hafter
  exact hafter

theorem split {before after : List Entry} {e : Entry}
    (h : server.IsRun moments (before ++ e :: after) s) :
    ∃ t, server.IsRun (before.map Entry.toMoment) before t ∧ (server.step t e.toMoment).1 = e := by
  have hmoments := h.map_toMoment
  obtain ⟨entropy, now, draw, first, hbuild, hrun⟩ := h
  rw [← hmoments, List.map_append, List.map_cons, run_append, run_cons, Prod.mk.injEq] at hrun
  have hlength : (server.run first (before.map Entry.toMoment)).1.length = before.length := by
    have hmap := congrArg List.length (map_toMoment_run server first (before.map Entry.toMoment))
    simpa using hmap
  obtain ⟨hbefore, hrest⟩ := List.append_inj hrun.1 hlength
  refine ⟨(server.run first (before.map Entry.toMoment)).2, ?_, (List.cons.inj hrest).1⟩
  exact ⟨entropy, now, draw, first, hbuild, Prod.ext hbefore rfl⟩

theorem snoc (h : server.IsRun moments history s) (m : Moment) :
    server.IsRun (moments ++ [m]) (history ++ [(server.step s m).1]) (server.step s m).2 := by
  obtain ⟨entropy, now, draw, first, hbuild, hrun⟩ := h
  refine ⟨entropy, now, draw, first, hbuild, ?_⟩
  rw [run_append, hrun]
  rfl

end IsRun

section Sample

/-- A server that accepts nuts for ten minutes and keeps transactions for a while, whose random
bytes are the numbers of their draws. It keeps no audit trail. -/
def sampleServer (ttl : Nat) (h : 600 ≤ ttl) : Server where
  settings := {
    version := "1", nutExpiration := 600, baseUri := "/sqrl", origin := "http://127.0.0.1:8080"
    nutKey := none, sessionTtl := ttl, auditEnabled := false, auditDirectory := "audit"
    logLevel := .info, logStructured := false, nutExpiration_le_sessionTtl := h }
  key := ⟨Entropy.counting.bytes 0 16, by decide⟩
  entropy := .counting

def sampleFirst (ttl : Nat) : State where
  now := .int 1000
  draw := 1
  accounts := ∅
  sessions := .empty (.int ttl)
  trail := none
  outages := []
  records := [.ofText .warning "server" "NUT_KEY_B64 not set: nuts will not survive a restart" none]

def sampleKeyBytes : Bytes :=
  [0x79, 0xb5, 0x56, 0x2e, 0x8f, 0xe6, 0x54, 0xf9, 0x40, 0x78, 0xb1, 0x12, 0xe8, 0xa9, 0x8b, 0xa7,
    0x90, 0x1f, 0x85, 0x3a, 0xe6, 0x95, 0xbe, 0xd7, 0xe0, 0xe3, 0x91, 0x0b, 0xad, 0x04, 0x96, 0x64]

def sampleKey : String := Base64.Url.encode sampleKeyBytes

/-- A request to log in, signed with the private key that belongs to the sample key. -/
def sampleRequest : Request where
  client := Base64.Url.encodeText ("ver=1\r\ncmd=ident\r\nidk=" ++ sampleKey)
  server := Base64.Url.encodeText "sqrl"
  ids := "c1BXfL5-LW7nwyjw7DYt0sbthCjtuyCQHdDyHofAdlIxiZVrl8e83Zuy9CEC29evZCBuZQoKpLL9FswO5yclCw"
  ver := "1"
  cmd := "ident"
  idk := sampleKey
  pidk := none
  suk := none
  vuk := none
  opt := []

theorem check_sampleRequest :
    Signature.check (some sampleRequest.signedMessage) sampleRequest.idk sampleRequest.ids =
      .ok () := by
  decide +kernel

theorem isRecordable_sampleRequest : sampleRequest.IsRecordable :=
  Request.isRecordable_of_lt (by decide +kernel) (by decide +kernel)

theorem isReady_sampleFirst (ttl : Nat) : (sampleFirst ttl).IsReady :=
  ⟨rfl, by simp [sampleFirst]⟩

theorem isRun_sample {ttl : Nat} (h : 600 ≤ ttl) :
    (sampleServer ttl h).IsRun [] [] (sampleFirst ttl) :=
  ⟨.counting, .int 1000, 0, sampleFirst ttl, rfl, rfl⟩

end Sample

end Sqrl.Server
