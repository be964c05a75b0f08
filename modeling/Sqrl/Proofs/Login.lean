import Mathlib.Logic.Relation
import Sqrl.Proofs.NutUse

/-! Who is logged in. An identity that is read for a nut has logged in with a nut of the same
transaction; no other call logs anybody in. -/
namespace Sqrl.Server

namespace Entry

def presented? (e : Entry) : Option String :=
  match e.call with
  | .handle _ nut _ => some nut
  | _ => none

/-- Is it a processed request to log in with a nut, signed under the key over all that the client
and the server said? -/
structure LogsIn (e : Entry) (nut key : String) : Prop where
  isProcessed : e.isProcessed = true
  request : ∃ request address, e.call = .handle request nut address ∧
    request.command = some .ident ∧ request.idk = key ∧
      Signature.check (some (Utf8.encode (request.client ++ request.server).toList)) key
        request.ids = .ok ()

end Entry

def IsKnown (history : List Entry) (nut : String) : Prop :=
  ∃ e ∈ history, e.minted? = some nut ∨ e.presented? = some nut

/-- Is every nut new when it is made? No earlier call made it, and no call up to its own presented
it. -/
def MintsNew (history : List Entry) : Prop :=
  ∀ before e after, history = before ++ e :: after → ∀ nut, e.minted? = some nut →
    ¬ IsKnown before nut ∧ e.presented? ≠ some nut

/-- Did a processed request with one nut lead to the other? -/
def Leads (history : List Entry) (old new : String) : Prop :=
  ∃ e ∈ history, e.spends old = true ∧ e.minted? = some new

/-- Did processed requests lead from one nut to the other, in any number of steps? -/
def Reaches (history : List Entry) : String → String → Prop :=
  Relation.ReflTransGen (Leads history)

variable {server : Server} {moments : List Moment} {past history : List Entry} {s t : State}
  {m : Moment} {e : Entry} {nut old new key : String}

theorem Entry.presented?_of_handle {request : Request} {address : Option String}
    (h : e.call = .handle request nut address) : e.presented? = some nut := by
  simp only [Entry.presented?, h]

theorem isKnown_append : IsKnown (past ++ [e]) nut ↔
    IsKnown past nut ∨ e.minted? = some nut ∨ e.presented? = some nut := by
  simp [IsKnown, or_and_right, exists_or]

theorem mintsNew_nil : MintsNew [] := by simp [MintsNew]

theorem mintsNew_append : MintsNew (past ++ [e]) ↔
    MintsNew past ∧ ∀ nut, e.minted? = some nut → ¬ IsKnown past nut ∧ e.presented? ≠ some nut := by
  constructor
  · intro h
    refine ⟨fun before d after hsplit => h before d (after ++ [e]) ?_, h past e [] rfl⟩
    rw [hsplit, List.append_assoc, List.cons_append]
  · intro ⟨hpast, hlast⟩ before d after hsplit
    rcases split_snoc hsplit with ⟨rfl, rfl, -⟩ | ⟨rest, -, rfl⟩
    · exact hlast
    · exact hpast before d rest rfl

theorem Reaches.append (h : Reaches past old new) (later : List Entry) :
    Reaches (past ++ later) old new := by
  have hleads : Leads past ≤ Leads (past ++ later) := by
    intro old new ⟨e, he, hboth⟩
    exact ⟨e, List.mem_append_left later he, hboth⟩
  exact Relation.ReflTransGen.mono hleads old new h

/-- Every link and every login of the store has come about in the history. -/
structure Traces (history : List Entry) (sessions : Sessions) : Prop where
  link : ∀ {m r : String}, sessions.links[m]? = some r → Reaches history r m
  login : ∀ {r key : String}, sessions.login? r = some key →
    ∃ e ∈ history, ∃ nut, e.LogsIn nut key ∧ Reaches history r nut

namespace Traces

variable {sessions : Sessions} {now : Number}

theorem empty (ttl : Number) : Traces [] (.empty ttl) := by
  constructor <;> simp [Sessions.empty, Sessions.login?]

theorem append (h : Traces past sessions) (later : List Entry) :
    Traces (past ++ later) sessions where
  link hm := (h.link hm).append later
  login hr := by
    obtain ⟨e, he, nut, hlogin, hreaches⟩ := h.login hr
    exact ⟨e, List.mem_append_left later he, nut, hlogin, hreaches.append later⟩

theorem prune (h : Traces history sessions) (now : Number) :
    Traces history (sessions.prune now).2 where
  link hm := h.link (Sessions.links_of_prune hm)
  login hr := h.login (Sessions.login?_of_prune hr)

theorem consume (h : Traces history sessions) (nut : String) (now : Number) :
    Traces history (sessions.consume nut now).2 where
  link hm := h.link (sessions.consume_links now nut ▸ hm)
  login hr := by
    rw [Sessions.login?, Sessions.consume_transactions] at hr
    exact h.login hr

theorem start (h : Traces history sessions) (nut : String) (address : Option String)
    (now : Number) : Traces history (sessions.start nut address now) where
  link hm := h.link hm
  login hr := by
    rw [Sessions.login?_start] at hr
    split at hr
    · cases hr
    · exact h.login hr

theorem root (h : Traces history sessions) (nut : String) :
    Reaches history (sessions.root nut) nut := by
  cases hlink : sessions.links[nut]? with
  | none =>
    rw [Sessions.root_of_not_mem hlink]
    exact .refl
  | some r =>
    rw [Sessions.root_of_links hlink]
    exact h.link hlink

theorem link_leads (h : Traces history sessions) (hleads : Leads history old new) (now : Number) :
    Traces history (sessions.link old new now) where
  link hm := by
    rw [Sessions.links_link] at hm
    split at hm
    · next heq =>
      rw [← Option.some.inj hm, ← heq]
      exact (h.root old).tail hleads
    · exact h.link hm
  login hr := h.login (sessions.login?_link .. ▸ hr)

theorem authenticate (h : Traces history sessions) {e : Entry} (he : e ∈ history)
    (hlogin : e.LogsIn old key) (hroot : Reaches history (sessions.root new) old) (now : Number) :
    Traces history (sessions.authenticate new key now) where
  link hm := h.link hm
  login hr := by
    rw [Sessions.login?_authenticate] at hr
    split at hr
    · next heq =>
      rw [← heq, ← Option.some.inj hr]
      exact ⟨e, he, old, hlogin, hroot⟩
    · exact h.login hr

end Traces

theorem Entry.spends_of_isProcessed {request : Request} {address : Option String}
    (hcall : e.call = .handle request nut address) (h : e.isProcessed = true) :
    e.spends nut = true := by
  simp [Entry.spends_of_handle hcall, h]

/-- What a call does to the links and the logins has come about in the history with the call. -/
theorem Transition.traces (hstep : server.Transition s e t) (h : Traces past s.sessions) :
    Traces (past ++ [e]) t.sessions := by
  have hafter := h.append [e]
  cases hstep with
  | @processed request nut address presented text hcall hgenuine _ _ hprocessed hminted hsessions =>
    have hmem : e ∈ past ++ [e] := by simp
    have hleads : Leads (past ++ [e]) nut text :=
      ⟨e, hmem, Entry.spends_of_isProcessed hcall hprocessed, hminted⟩
    have hpruned := (hafter.consume nut e.time).prune e.time
    have hlinked := hpruned.link_leads hleads e.time
    rw [hsessions, Sessions.serve]
    split
    · next hident =>
      refine hlinked.authenticate hmem ⟨hprocessed, request, address, hcall, hident, rfl,
        hgenuine.signature⟩ ?_ e.time
      rw [Sessions.root_link, if_pos rfl]
      exact hpruned.root nut
    · exact hlinked
  | issued _ _ _ hsessions =>
    rw [hsessions]
    exact (hafter.prune e.time).start ..
  | pruned _ _ _ hsessions =>
    rw [hsessions]
    exact hafter.prune _
  | idle _ _ hsessions =>
    rw [hsessions]
    exact hafter

theorem Transition.isTidy (hstep : server.Transition s e t)
    (h : s.sessions.IsTidy (IsKnown past))
    (hnew : ∀ nut, e.minted? = some nut → ¬ IsKnown past nut ∧ e.presented? ≠ some nut) :
    t.sessions.IsTidy (IsKnown (past ++ [e])) := by
  cases hstep with
  | @processed request nut address presented text hcall _ _ _ _ hminted hsessions =>
    have hpresented := Entry.presented?_of_handle hcall
    have htext : ¬ (IsKnown past text ∨ text = nut) := by
      intro h
      cases h with
      | inl hknown => exact (hnew text hminted).1 hknown
      | inr hsame => exact (hnew text hminted).2 (hsame ▸ hpresented)
    have hnut : s.sessions.IsTidy fun m => IsKnown past m ∨ m = nut := h.mono fun m hm => .inl hm
    rw [hsessions]
    apply (hnut.serve (.inr rfl) htext).mono
    intro m hm
    apply isKnown_append.mpr
    rcases hm with (hm | rfl) | rfl
    · exact .inl hm
    · exact .inr (.inr hpresented)
    · exact .inr (.inl hminted)
  | @issued address qr text _ hminted _ hsessions =>
    rw [hsessions]
    apply ((h.prune e.time).start (hnew text hminted).1 address e.time).mono
    intro m hm
    rcases hm with hm | rfl
    · exact isKnown_append.mpr (.inl hm)
    · exact isKnown_append.mpr (.inr (.inl hminted))
  | pruned _ _ _ hsessions =>
    rw [hsessions]
    exact (h.prune _).mono fun m hm => isKnown_append.mpr (.inl hm)
  | idle _ _ hsessions =>
    rw [hsessions]
    exact h.mono fun m hm => isKnown_append.mpr (.inl hm)

/-- A call that is no processed login logs nobody in: the nut of its response takes part in the
login of the nut that was presented. -/
theorem Transition.identity?_of_step (hstep : server.Transition s e t)
    (h : s.sessions.IsTidy (IsKnown past)) (hlogin : ∀ nut key, ¬ e.LogsIn nut key)
    (hkey : t.sessions.identity? nut = some key) :
    s.sessions.identity? nut = some key ∨
      ∃ presented, e.spends presented = true ∧ e.minted? = some nut ∧
        s.sessions.identity? presented = some key := by
  cases hstep with
  | @processed request presented address _ text hcall hgenuine _ _ hprocessed hminted hsessions =>
    have hident : request.command ≠ some .ident := fun hident =>
      hlogin presented request.idk ⟨hprocessed, request, address, hcall, hident, rfl,
        hgenuine.signature⟩
    rw [hsessions] at hkey
    refine (h.identity?_of_serve hident hkey).imp_right fun ⟨heq, hold⟩ => ?_
    exact ⟨presented, Entry.spends_of_isProcessed hcall hprocessed, heq ▸ hminted, hold⟩
  | issued _ _ _ hsessions =>
    rw [hsessions] at hkey
    exact .inl (h.identity?_of_prune (Sessions.identity?_start hkey))
  | pruned _ _ _ hsessions =>
    rw [hsessions] at hkey
    exact .inl (h.identity?_of_prune hkey)
  | idle _ _ hsessions =>
    rw [hsessions] at hkey
    exact .inl hkey

namespace IsRun

theorem traces (hrun : server.IsRun moments history s)
    (hmoments : ∀ m ∈ moments, m.call.IsRecordable) : Traces history s.sessions := by
  refine (hrun.invariant_of_spec (I := fun history s => Traces history s.sessions) hmoments ?_
    fun _ _ _ _ hspec h => hspec.transition.traces h).2
  intro first hsessions _
  rw [hsessions]
  exact .empty _

theorem isTidy (hrun : server.IsRun moments history s)
    (hmoments : ∀ m ∈ moments, m.call.IsRecordable) (hnew : MintsNew history) :
    s.sessions.IsTidy (IsKnown history) := by
  refine (hrun.invariant_of_spec (I := fun history s =>
    MintsNew history → s.sessions.IsTidy (IsKnown history)) hmoments ?_ ?_).2 hnew
  · intro first hsessions _ _
    rw [hsessions]
    exact .empty _
  · intro past s e t hspec h hnew
    obtain ⟨hpast, hlast⟩ := mintsNew_append.mp hnew
    exact hspec.transition.isTidy (h hpast) hlast

end IsRun

def identityAt (server : Server) (s : State) (time : Number) (nut : String) : Except Fault Answer :=
  (server.step s ⟨time, .readIdentity nut⟩).1.result

theorem identityAt_eq (server : Server) (hs : s.IsReady) (time : Number) (nut : String) :
    server.identityAt s time nut = .ok (.identity (s.sessions.identity? nut)) := by
  rw [identityAt, step_readIdentity _ hs]

/-- An identity that is read for a nut has logged in: a request to log in was processed, signed
under its key, with a nut that stands in one transaction with the nut it is read for. And a call
that is no such request logs nobody in: what is read for a nut after it was read before it, unless
the nut is that of the response to a processed request and new. Then it was read for the nut that
was presented. -/
theorem login_sound (hrun : server.IsRun moments history s)
    (hmoments : ∀ m ∈ moments, m.call.IsRecordable) (hnew : MintsNew history) (time : Number)
    (nut key : String) :
    (server.identityAt s time nut = .ok (.identity (some key)) →
      ∃ e ∈ history, ∃ presented root, e.LogsIn presented key ∧ Reaches history root presented ∧
        Reaches history root nut) ∧
    ∀ m : Moment, m.call.IsRecordable → MintsNew (history ++ [(server.step s m).1]) →
      (∀ presented key, ¬ (server.step s m).1.LogsIn presented key) →
        server.identityAt (server.step s m).2 time nut = .ok (.identity (some key)) →
          server.identityAt s time nut = .ok (.identity (some key)) ∨
            ¬ IsKnown history nut ∧ ∃ presented, (server.step s m).1.spends presented = true ∧
              (server.step s m).1.minted? = some nut ∧
                server.identityAt s time presented = .ok (.identity (some key)) := by
  have hready := hrun.isReady hmoments
  have htraces := hrun.traces hmoments
  have htidy := hrun.isTidy hmoments hnew
  simp only [server.identityAt_eq hready, Except.ok.injEq, Answer.identity.injEq]
  constructor
  · intro hkey
    obtain ⟨e, he, presented, hlogin, hreaches⟩ := htraces.login hkey
    exact ⟨e, he, presented, _, hlogin, hreaches, htraces.root nut⟩
  · intro m hm hnext hlogin hkey
    have hspec := server.step_spec hready hm
    rw [server.identityAt_eq hspec.isReady, Except.ok.injEq, Answer.identity.injEq] at hkey
    refine (hspec.transition.identity?_of_step htidy hlogin hkey).imp_right ?_
    intro ⟨presented, hspends, hminted, hold⟩
    exact ⟨((mintsNew_append.mp hnext).2 nut hminted).1, presented, hspends, hminted, hold⟩

section Sample

/-- A second after a nut is issued, a login with it is requested. -/
def sampleVisit : List Moment := [sampleIssue, sampleLogin (.int 1001) sampleNut]

theorem isRecordable_sampleVisit : ∀ m ∈ sampleVisit, m.call.IsRecordable := by
  simp [sampleVisit, sampleIssue, sampleLogin, Call.IsRecordable, isRecordable_sampleRequest]

/-- The nut of the response holds a later second than the issued one, so they differ. -/
theorem exists_sampleVisit :
    ∃ issued login s, (sampleServer 900 (by decide)).IsRun sampleVisit ([issued] ++ [login]) s ∧
      issued.toMoment = sampleIssue ∧ issued.minted? = some sampleNut ∧
      login.toMoment = sampleLogin (.int 1001) sampleNut ∧ MintsNew ([issued] ++ [login]) ∧
        s.sessions.identity? sampleNut = some sampleKey := by
  obtain ⟨issued, _, hrun, hissued, hminted, hunused⟩ :=
    isRun_sampleIssue (by decide : 600 ≤ 900)
  have hpresented : issued.presented? = none := by
    simp only [Entry.presented?, congrArg Moment.call hissued, sampleIssue]
  obtain ⟨login, s, hrun, hlogin, hspec, hspends⟩ := isRun_sampleLogin (by decide : 600 ≤ 900) hrun
    (fun m hm => isRecordable_sampleVisit m (List.mem_append_left [_] hm))
    (by decide +kernel : Number.IsReading (.int 1001)) (by decide) rfl
    (.inl (by simpa using hunused sampleNut))
  have hcall : login.call = .handle sampleRequest sampleNut none := congrArg Moment.call hlogin
  have hnew : MintsNew ([issued] ++ [login]) := by
    refine mintsNew_append.mpr ⟨mintsNew_append.mpr ⟨mintsNew_nil, ?_⟩, fun nut hnut => ?_⟩
    · simp [IsKnown, hpresented]
    · have hother : sampleNut ≠ nut := by
        intro hsame
        rw [← hsame] at hnut
        obtain ⟨presented, hcreated, hgenuine⟩ := isGenuine_sample (by decide : 600 ≤ 900) rfl
        obtain ⟨made, hdecode, htime⟩ := hspec.created sampleNut hnut
        obtain rfl : presented = made := Except.ok.inj (hgenuine.decode.symm.trans hdecode)
        rw [hcreated, congrArg Moment.time hlogin] at htime
        exact absurd htime (by decide)
      simp [IsKnown, hminted, hpresented, Entry.presented?_of_handle hcall, hother]
  refine ⟨issued, login, s, hrun, hissued, hminted, hlogin, hnew, ?_⟩
  obtain ⟨_, text, _, _, _, _, hsessions, -⟩ :=
    hspec.transition.of_isProcessed hcall (Entry.isProcessed_of_spends hspends)
  rw [hsessions]
  exact Sessions.identity?_serve_ident (by decide)

theorem isRun_sampleVisit :
    ∃ history s, (sampleServer 900 (by decide)).IsRun sampleVisit history s ∧ MintsNew history ∧
      s.sessions.identity? sampleNut = some sampleKey := by
  obtain ⟨issued, login, s, hrun, -, -, -, hnew, hidentity⟩ := exists_sampleVisit
  exact ⟨_, s, hrun, hnew, hidentity⟩

/-- The login that is read for the nut was requested. -/
theorem login_sound_visit :
    ∃ history s, (sampleServer 900 (by decide)).IsRun sampleVisit history s ∧
      ∃ e ∈ history, ∃ presented root, e.LogsIn presented sampleKey ∧
        Reaches history root presented ∧ Reaches history root sampleNut := by
  obtain ⟨history, s, hrun, hnew, hidentity⟩ := isRun_sampleVisit
  have hready := hrun.isReady isRecordable_sampleVisit
  refine ⟨history, s, hrun, (login_sound hrun isRecordable_sampleVisit hnew (.int 1001) sampleNut
    sampleKey).1 ?_⟩
  rw [identityAt_eq _ hready, hidentity]

end Sample

end Sqrl.Server
