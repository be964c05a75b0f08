import Sqrl.Proofs.Answer
import Sqrl.Proofs.Login
import Sqrl.Proofs.SignedRequest

/-! A login with a disabled account. The answer tells that the account is disabled, and the account
stays so, but the identity is logged in all the same: what a request does to the sessions does not
depend on the accounts. -/
namespace Sqrl

namespace Sessions

theorem identity?_serve_response {s : Sessions} {request : Request} {nut responseNut : String}
    {now : Number} (h : request.command = some .ident) :
    (s.serve request nut responseNut now).identity? responseNut = some request.idk := by
  rw [serve, if_pos h, identity?_eq, root_authenticate, login?_authenticate, if_pos rfl]

end Sessions

namespace Server

variable {server : Server} {moments : List Moment} {history : List Entry} {s t : State}
  {e : Entry} {time : Number} {request : Request} {nut : String} {address : Option String}

/-- No link was ever made to a nut that no processed request led to. -/
theorem Traces.root_of_not_leads {sessions : Sessions} (h : Traces history sessions)
    (hnut : ∀ old, ¬ Leads history old nut) : sessions.root nut = nut := by
  cases Relation.ReflTransGen.cases_tail (h.root nut) with
  | inl heq => exact heq.symm
  | inr hleads =>
    obtain ⟨old, -, hlast⟩ := hleads
    exact absurd hlast (hnut old)

theorem IsRun.not_leads_of_created (hrun : server.IsRun moments history s)
    (hmoments : ∀ m ∈ moments, m.call.IsRecordable) {presented : Nut}
    (hdecode : Nut.decode server.key nut = .ok presented)
    (hother : ∀ d ∈ history, d.isProcessed = true → d.time.truncate ≠ presented.created)
    (old : String) : ¬ Leads history old nut := by
  intro ⟨d, hd, hspends, hminted⟩
  obtain ⟨made, hmade, hcreated⟩ := hrun.created hmoments hd hminted
  obtain rfl : made = presented := Except.ok.inj (hmade.symm.trans hdecode)
  exact hother d hd (Entry.isProcessed_of_spends hspends) hcreated.symm

/-- Which nut is made, whether a request is genuine and whether its nut is available are read from
no account. -/
theorem Handled.sessions_eq {accounts : Accounts} {u : State} {result : Except Fault Answer}
    {presented : Nut} {text : String}
    (h : server.Handled { s with accounts } time request nut address result u)
    (htext : server.nextText { s with now := time } address (server.responseQr nut) = .ok text)
    (hgenuine : server.IsGenuine request nut presented) (hfresh : server.IsFresh time presented)
    (hunused : nut ∉ s.sessions.used) :
    u.sessions = s.sessions.serve request nut text time := by
  cases h with
  | failed htext' => cases htext.symm.trans htext'
  | denied _ hfalse => exact absurd hgenuine (hfalse presented)
  | transient _ hgenuine' hrefused =>
    obtain rfl := hgenuine.unique hgenuine'
    exact absurd (hrefused hfresh) hunused
  | processed htext' _ _ _ _ hsessions =>
    obtain rfl := Except.ok.inj (htext.symm.trans htext')
    exact hsessions

/-- A processed login with a disabled account logs its key in, for the nut that was presented and for
the nut of the response, and changes the sessions as it would with any other accounts. The response
tells that the account is disabled, and it stays so under the key of the request. -/
theorem disabled_login (hrun : server.IsRun moments history s)
    (hmoments : ∀ m ∈ moments, m.call.IsRecordable) (hrequest : request.IsRecordable)
    (hstep : server.step s ⟨time, .handle request nut address⟩ = (e, t))
    (hprocessed : e.isProcessed = true) (hident : request.command = some .ident)
    {account : Account} (hsubject : s.accounts.subject? request = some account)
    (hdisabled : account.enabled = false) (reading : Number) :
    ∃ r text, e.result = .ok (.response r) ∧ r.nut = some text ∧ .sqrlDisabled ∈ r.flags ∧
      server.identityAt t reading nut = .ok (.identity (some request.idk)) ∧
      server.identityAt t reading text = .ok (.identity (some request.idk)) ∧
      (∃ left, t.accounts.find? request.idk = some left ∧ left.enabled = false) ∧
      ∀ accounts, (server.step { s with accounts } ⟨time, .handle request nut address⟩).2.sessions =
        t.sessions := by
  have hs := hrun.isReady hmoments
  obtain ⟨hready, hhandled⟩ := server.handled_step hs time hrequest nut address
  simp only [hstep] at hready hhandled
  have hentry : e = { time, call := .handle request nut address, result := e.result } := by
    have hmoment := server.toMoment_step s ⟨time, .handle request nut address⟩
    rw [hstep] at hmoment
    rw [← hmoment]
  rw [hentry] at hprocessed
  cases hhandled with
  | failed _ hresult => simp [Entry.isProcessed, hresult] at hprocessed
  | denied _ _ hresult => simp [Entry.isProcessed, hresult, isProcessed_respond] at hprocessed
  | transient _ _ _ hresult => simp [Entry.isProcessed, hresult, isProcessed_respond] at hprocessed
  | @processed presented text htext hgenuine hfresh hunused hresult hsessions haccounts =>
    refine ⟨_, text, hresult, rfl, ?_, ?_, ?_, ?_, fun accounts => ?_⟩
    · rw [mem_flags_respond, contains_answerFlags_iff]
      exact .inl ⟨account, hsubject, .inr ⟨by simp [hident], hdisabled⟩⟩
    · rw [server.identityAt_eq hready, hsessions, Sessions.identity?_serve_ident hident]
    · rw [server.identityAt_eq hready, hsessions, Sessions.identity?_serve_response hident]
    · obtain ⟨moved, hmoved, henabled⟩ := Accounts.exists_moved? hsubject
      refine ⟨moved, ?_, henabled.trans hdisabled⟩
      simp [haccounts, Accounts.find?_serve, Accounts.settled?, hident, hmoved]
    · have hother := (server.handled_step (s := { s with accounts }) ⟨hs.isUp, hs.isReadable⟩ time
        hrequest nut address).2
      rw [hsessions, hother.sessions_eq htext hgenuine hfresh hunused]

section Sample

def sampleDisable : Request :=
  { sampleRequest with
    client := Base64.Url.encodeText ("ver=1\r\ncmd=disable\r\nidk=" ++ sampleKey)
    ids := "bfwfRMnkzVxX5gnz4ZC9rYc9yFX8hlVgRwcKA26n31Qy-g5Kz7TXqNTd3LU9RTITarejg3BW9cv15Qqw9eymDA"
    cmd := "disable" }

theorem check_sampleDisable :
    Signature.check (some sampleDisable.signedMessage) sampleDisable.idk sampleDisable.ids =
      .ok () := by
  decide +kernel

theorem isRecordable_sampleDisable : sampleDisable.IsRecordable :=
  Request.isRecordable_of_lt (by decide +kernel) (by decide +kernel)

theorem isReading_sampleDisable : Number.IsReading (.int 1002) := by decide +kernel

theorem isReading_sampleThird : Number.IsReading (.int 1003) := by decide +kernel

def sampleDisabled (r : String) : List Moment :=
  [sampleIssue, sampleLogin (.int 1001) sampleNut, ⟨.int 1002, .handle sampleDisable r none⟩]

theorem isRecordable_sampleDisabled (r : String) :
    ∀ m ∈ sampleDisabled r, m.call.IsRecordable := by
  simp [sampleDisabled, sampleIssue, sampleLogin, Call.IsRecordable, isRecordable_sampleRequest,
    isRecordable_sampleDisable]

/-- The sample key logs in, and disables its account with the nut of the response. -/
theorem isRun_sampleDisabled :
    ∃ r history s account,
      (sampleServer 900 (by decide)).IsRun (sampleDisabled r) history s ∧
      (∀ d ∈ history, ∀ nut, d.spends nut = true →
        ∃ spent, Nut.decode (sampleServer 900 (by decide)).key nut = .ok spent ∧
          spent.created ≤ 1001) ∧
      s.accounts.find? sampleKey = some account ∧ account.enabled = false := by
  obtain ⟨issued, _, hrun, hissued, -, hunspent⟩ := isRun_sampleIssue (by decide : 600 ≤ 900)
  have hmoments (r : String) := isRecordable_sampleDisabled r
  have hfirst : ∀ m ∈ [sampleIssue], m.call.IsRecordable := fun m hm =>
    hmoments "" m (List.mem_append_left [_, _] hm)
  obtain ⟨login, s, hrun, hlogin, hspec, hspends⟩ := isRun_sampleLogin (by decide : 600 ≤ 900) hrun
    hfirst (by decide +kernel : Number.IsReading (.int 1001)) (by decide) rfl
    (.inl (by simpa using hunspent sampleNut))
  have hcall : login.call = .handle sampleRequest sampleNut none := congrArg Moment.call hlogin
  obtain ⟨_, r, -, -, -, hminted, -, hregistered⟩ :=
    hspec.transition.of_isProcessed hcall (Entry.isProcessed_of_spends hspends)
  obtain ⟨given, hgiven, htime⟩ := hspec.created r hminted
  have hgivenAt : given.created = 1001 := by rw [htime, congrArg Moment.time hlogin]; rfl
  obtain ⟨presented, hpresentedAt, hgenuine⟩ := isGenuine_sample (by decide : 600 ≤ 900) rfl
  have hother : sampleNut ≠ r := Nut.ne_of_created hgenuine.decode hgiven (by omega)
  have hearlier : ∀ m ∈ [sampleIssue] ++ [sampleLogin (.int 1001) sampleNut], m.call.IsRecordable :=
    fun m hm => hmoments r m (List.mem_append_left [_] hm)
  have hnever : ∀ d ∈ [issued] ++ [login], d.spends r = false := by
    simp [hunspent, Entry.spends_of_handle hcall, hother]
  have hage : (Number.int 1002).truncate - given.created ≤ 600 := by
    rw [hgivenAt]
    decide
  have hprocessed := isProcessed_sample (by decide : 600 ≤ 900) hrun hearlier
    isReading_sampleDisable hgiven hage hnever isRecordable_sampleDisable rfl
    check_sampleDisable none
  obtain ⟨last, t, hstep, hrun, hlast, hspec⟩ := hrun.next hearlier
    ⟨.int 1002, .handle sampleDisable r none⟩ isRecordable_sampleDisable
  rw [hstep] at hprocessed
  obtain ⟨_, _, -, -, -, -, -, hdisabled⟩ :=
    hspec.transition.of_isProcessed (congrArg Moment.call hlast) hprocessed
  have hident : sampleRequest.command = some .ident := by decide
  have hdisable : sampleDisable.command = some .disable := by decide
  have hfound : sampleKey ∈ s.accounts := by
    rw [hregistered]
    exact Accounts.idk_mem_serve_accounts.mpr (.inl hident)
  obtain ⟨account, haccount⟩ := Accounts.exists_find? hfound
  refine ⟨r, _, t, { account with enabled := false }, hrun, ?_, ?_, rfl⟩
  · intro d hd nut hspent
    simp only [List.mem_append, List.mem_singleton] at hd
    obtain (rfl | rfl) | rfl := hd
    · simp [hunspent] at hspent
    · simp only [Entry.spends_of_handle hcall, Bool.and_eq_true, decide_eq_true_eq] at hspent
      exact ⟨presented, hspent.1 ▸ hgenuine.decode, by omega⟩
    · simp only [Entry.spends_of_handle (congrArg Moment.call hlast), Bool.and_eq_true,
        decide_eq_true_eq] at hspent
      exact ⟨given, hspent.1 ▸ hgiven, by omega⟩
  · have hkey : sampleDisable.idk = sampleKey := rfl
    simp [hdisabled, Accounts.find?_serve, Accounts.settled?, Accounts.moved?, hkey, hdisable,
      hfound, haccount]

/-- Then another nut is issued, with which no login is known. -/
theorem isRun_sampleThird :
    ∃ moments history s text presented account,
      (sampleServer 900 (by decide)).IsRun moments history s ∧
      (∀ m ∈ moments, m.call.IsRecordable) ∧
      Nut.decode (sampleServer 900 (by decide)).key text = .ok presented ∧
      presented.created = 1003 ∧ (∀ d ∈ history, d.spends text = false) ∧
      s.accounts.subject? sampleRequest = some account ∧ account.enabled = false ∧
      s.sessions.identity? text = none := by
  obtain ⟨r, history, s, account, hrun, hspent, haccount, hdisabled⟩ := isRun_sampleDisabled
  have hmoments := isRecordable_sampleDisabled r
  have htime : Number.IsReading (.int 1003) := isReading_sampleThird
  obtain ⟨text, t, hstep, hsessions, haccounts⟩ :=
    (sampleServer 900 (by decide)).step_issue_of_isReading (hrun.isReady hmoments) htime none true
  have hlater := hrun.snoc ⟨.int 1003, .issue none true⟩
  simp only [hstep] at hlater
  have hall : ∀ m ∈ sampleDisabled r ++ [⟨.int 1003, .issue none true⟩], m.call.IsRecordable :=
    List.forall_mem_append.mpr ⟨hmoments, by simp [Call.IsRecordable]⟩
  obtain ⟨presented, hdecode, htime⟩ := hlater.created hall
    (List.mem_append_right history (List.mem_singleton_self _)) rfl
  have hcreated : presented.created = 1003 := htime
  have hwhen : ∀ m ∈ sampleDisabled r, m.time.truncate ≤ 1002 := by
    simp only [sampleDisabled, sampleIssue, sampleLogin, List.forall_mem_cons]
    exact ⟨by decide, by decide, by decide, by simp⟩
  have hroot : t.sessions.root text = text := by
    refine (hlater.traces hall).root_of_not_leads
      (hlater.not_leads_of_created hall hdecode fun d hd hprocessed => ?_)
    rcases List.mem_append.mp hd with hd | hd
    · have hbefore := hwhen d.toMoment (hrun.map_toMoment ▸ List.mem_map_of_mem hd)
      omega
    · rw [List.mem_singleton.mp hd] at hprocessed
      cases hprocessed
  refine ⟨_, _, t, text, presented, account, hlater, hall, hdecode, hcreated, ?_, ?_, hdisabled, ?_⟩
  · refine List.forall_mem_append.mpr ⟨fun d hd => ?_, List.forall_mem_singleton.mpr rfl⟩
    rw [Bool.eq_false_iff]
    intro hspends
    obtain ⟨spent, hsame, hold⟩ := hspent d hd text hspends
    obtain rfl : spent = presented := Except.ok.inj (hsame.symm.trans hdecode)
    omega
  · have hkey : sampleRequest.idk = sampleKey := rfl
    rw [Accounts.subject?, haccounts, hkey, haccount, Option.some_or]
  · rw [Sessions.identity?_eq, hroot, hsessions, Sessions.login?_start, if_pos rfl]

theorem isProcessed_sampleThird {text : String} {presented : Nut}
    (hrun : (sampleServer 900 (by decide)).IsRun moments history s)
    (hmoments : ∀ m ∈ moments, m.call.IsRecordable)
    (hdecode : Nut.decode (sampleServer 900 (by decide)).key text = .ok presented)
    (hcreated : presented.created = 1003) (hnever : ∀ d ∈ history, d.spends text = false) :
    ((sampleServer 900 (by decide)).step s (sampleLogin (.int 1003) text)).1.isProcessed =
      true := by
  have hage : (Number.int 1003).truncate - presented.created ≤ 600 := by
    rw [hcreated]
    decide
  exact isProcessed_sample (by decide) hrun hmoments isReading_sampleThird hdecode hage hnever
    isRecordable_sampleRequest rfl check_sampleRequest none

/-- A disabled account is no bar to a login. -/
theorem disabled_login_adds :
    ¬ ∀ (server : Server) (moments : List Moment) (history : List Entry) (s t : State) (e : Entry)
      (time : Number) (request : Request) (nut : String) (address : Option String)
      (account : Account) (reading : Number), server.IsRun moments history s →
      (∀ m ∈ moments, m.call.IsRecordable) → request.IsRecordable →
      server.step s ⟨time, .handle request nut address⟩ = (e, t) → e.isProcessed = true →
      request.command = some .ident → s.accounts.subject? request = some account →
      account.enabled = false →
        server.identityAt t reading nut = server.identityAt s reading nut ∨
          server.identityAt t reading nut = .ok (.identity none) := by
  intro hwithheld
  obtain ⟨moments, history, s, text, presented, account, hrun, hmoments, hdecode, hcreated, hnever,
    hsubject, hdisabled, hnobody⟩ := isRun_sampleThird
  have hident : sampleRequest.command = some .ident := by decide
  have hprocessed := isProcessed_sampleThird hrun hmoments hdecode hcreated hnever
  have hready := hrun.isReady hmoments
  obtain ⟨e, t, hstep, -, hlast, hspec⟩ :=
    hrun.next hmoments (sampleLogin (.int 1003) text) isRecordable_sampleRequest
  rw [hstep] at hprocessed
  obtain ⟨_, _, -, -, -, -, hsessions, -⟩ :=
    hspec.transition.of_isProcessed (congrArg Moment.call hlast) hprocessed
  have hafter : t.sessions.identity? text = some sampleKey := by
    rw [hsessions]
    exact Sessions.identity?_serve_ident hident
  have hneither := hwithheld _ moments history s t e _ sampleRequest text none account (.int 1003) hrun
    hmoments isRecordable_sampleRequest hstep hprocessed hident hsubject hdisabled
  rw [identityAt_eq _ hready, identityAt_eq _ hspec.isReady, hafter, hnobody] at hneither
  simp at hneither

/-- The sample key, whose account is disabled, is logged in with the nut that is issued last. -/
theorem disabled_login_third :
    ∃ moments history s t text, (sampleServer 900 (by decide)).IsRun moments history s ∧
      (sampleServer 900 (by decide)).step s (sampleLogin (.int 1003) text) = t ∧
      (∃ account, s.accounts.find? sampleKey = some account ∧ account.enabled = false) ∧
      (sampleServer 900 (by decide)).identityAt t.2 (.int 1003) text =
        .ok (.identity (some sampleKey)) := by
  obtain ⟨moments, history, s, text, presented, account, hrun, hmoments, hdecode, hcreated, hnever,
    hsubject, hdisabled, -⟩ := isRun_sampleThird
  have hprocessed := isProcessed_sampleThird hrun hmoments hdecode hcreated hnever
  have hfound : s.accounts.find? sampleKey = some account := by
    have hpidk : sampleRequest.pidk = none := rfl
    rw [Accounts.subject?, hpidk, Option.bind_none, Option.or_none] at hsubject
    exact hsubject
  obtain ⟨_, _, -, -, -, hlogin, -⟩ := disabled_login hrun hmoments isRecordable_sampleRequest rfl
    hprocessed (by decide) hsubject hdisabled (.int 1003)
  exact ⟨moments, history, s, _, text, hrun, rfl, ⟨account, hfound, hdisabled⟩, hlogin⟩

end Sample

end Server

end Sqrl
