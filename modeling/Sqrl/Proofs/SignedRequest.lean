import Sqrl.Proofs.AccountHistory
import Sqrl.Proofs.Request

/-! A signed request and the nuts it is sent with. The signature covers the parameters of the
request as they came, and nothing that the server said is compared with the nut: a request that was
processed once is processed again with every other nut that is young and not consumed. -/
namespace Sqrl

namespace Server

variable {server : Server} {moments : List Moment} {before after : List Entry} {s : State}
  {e d : Entry} {request other : Request} {nut : String} {address : Option String}

/-- What a processed request says of itself is right, at whatever call it is sent again. -/
theorem IsRun.genuine_of_request? {history : List Entry} (hrun : server.IsRun moments history s)
    (hmoments : ∀ m ∈ moments, m.call.IsRecordable) (hd : d ∈ history)
    (hprocessed : d.request? = some request) :
    request.ver = server.settings.version ∧
      Signature.check (some request.signedMessage) request.idk request.ids = .ok () := by
  obtain ⟨first, last, rfl⟩ := List.append_of_mem hd
  obtain ⟨_, t, u, -, -, hspec⟩ := hrun.split_spec hmoments
  obtain ⟨⟨nut, address, hcall⟩, hprocessed⟩ := Entry.request?_eq_some_iff.mp hprocessed
  obtain ⟨_, _, hgenuine, -⟩ := hspec.transition.of_isProcessed hcall hprocessed
  exact ⟨hgenuine.version, hgenuine.signature⟩

/-- A request that was processed in a run, at whatever call of it and with whatever nut, is
processed with a nut just if that can be read, is young enough, and was not consumed before or that
has been forgotten. -/
theorem signed_request_again_iff {params others : Dictionary String (Option String)}
    (hrun : server.IsRun moments (before ++ e :: after) s)
    (hmoments : ∀ m ∈ moments, m.call.IsRecordable)
    (hd : d ∈ before ++ e :: after) (hprocessed : d.request? = some other)
    (hother : Request.ofParams others = .ok other)
    (hcall : e.call = .handle request nut address) (htime : e.time.IsReading)
    (hrequest : Request.ofParams params = .ok request) (hsame : request.SameParameters other) :
    e.isProcessed = true ↔
      (∃ presented, Nut.decode server.key nut = .ok presented ∧
        e.time.truncate - presented.created ≤ server.settings.nutExpiration) ∧
      IsAvailable (.int server.settings.sessionTtl) before nut := by
  obtain rfl : request = other := hsame.eq hrequest hother
  obtain ⟨hversion, hsignature⟩ := hrun.genuine_of_request? hmoments hd hprocessed
  rw [hrun.isProcessed_iff hmoments hcall htime]
  -- What is left of a genuine request is that its nut can be read.
  apply and_congr_left
  intro _
  apply exists_congr
  intro presented
  constructor
  · intro ⟨hpresented, hfresh⟩
    exact ⟨hpresented.decode, hfresh⟩
  · intro ⟨hdecode, hfresh⟩
    exact ⟨⟨hdecode, hversion, hsignature⟩, hfresh⟩

section Sample

def sampleSecond : Moment := ⟨.int 1001, .issue none true⟩

theorem isReading_sampleSecond : sampleSecond.time.IsReading := by decide +kernel

theorem isRecordable_sampleSecond : ∀ m ∈ [sampleIssue, sampleLogin (.int 1000) sampleNut,
    sampleSecond], m.call.IsRecordable := by
  simp [sampleIssue, sampleLogin, sampleSecond, Call.IsRecordable, isRecordable_sampleRequest]

variable {ttl : Nat} (h : 600 ≤ ttl)

theorem isRun_sampleSecond :
    ∃ issued login again t text presented,
      (sampleServer ttl h).IsRun [sampleIssue, sampleLogin (.int 1000) sampleNut, sampleSecond]
        [issued, login, again] t ∧
      login.spends sampleNut = true ∧ again.minted? = some text ∧
      Nut.decode (sampleServer ttl h).key text = .ok presented ∧ presented.created = 1001 ∧
      sampleKey ∈ t.accounts ∧ ∀ d ∈ [issued, login, again], d.spends text = false := by
  obtain ⟨issued, s, hrun, hissued, -, hnever⟩ := isRun_sampleIssue h
  have hmoments (m : Moment) (hm : m ∈ [sampleIssue, sampleLogin (.int 1000) sampleNut]) :
      m.call.IsRecordable :=
    isRecordable_sampleSecond m (List.mem_append_left [_] hm)
  obtain ⟨login, t, hrun, hlogin, hspec, hspends⟩ := isRun_sampleLogin h hrun
    (fun m hm => hmoments m (List.mem_append_left [_] hm)) isReading_thousand (by decide) rfl
    (.inl (by simpa using hnever sampleNut))
  have htime : Number.IsReading (.int 1001) := isReading_sampleSecond
  obtain ⟨text, u, hstep, -, haccounts⟩ := (sampleServer ttl h).step_issue_of_isReading
    (hrun.isReady hmoments) htime none true
  have hrun := hrun.snoc sampleSecond
  simp only [sampleSecond, hstep] at hrun
  obtain ⟨presented, hdecode, hcreated⟩ := hrun.created isRecordable_sampleSecond
    (List.mem_append_right _ (List.mem_singleton_self _)) rfl
  have hcreated : presented.created = 1001 := hcreated
  have hother : sampleNut ≠ text := by
    obtain ⟨first, htime, hgenuine⟩ := isGenuine_sample h rfl
    exact Nut.ne_of_created hgenuine.decode hdecode (by omega)
  refine ⟨issued, login, _, u, text, presented, hrun, hspends, rfl, hdecode, hcreated, ?_, ?_⟩
  · obtain ⟨_, _, -, -, -, -, -, hserved⟩ := hspec.transition.of_isProcessed
      (congrArg Moment.call hlogin) (Entry.isProcessed_of_spends hspends)
    have hident : sampleRequest.command = some .ident := by decide
    rw [haccounts, hserved]
    exact Accounts.idk_mem_serve_accounts.mpr (.inl hident)
  · have hlast : Entry.spends ⟨⟨.int 1001, .issue none true⟩, .ok (.nut text)⟩ text = false := rfl
    simp [hnever, Entry.spends_of_handle (congrArg Moment.call hlogin), hother, hlast]

/-- With the sample server every request that is signed rightly and has its version is processed
with every young nut that was never spent. -/
theorem isProcessed_sample {history : List Entry} {t : State} {time : Number} {presented : Nut}
    (hrun : (sampleServer ttl h).IsRun moments history t)
    (hmoments : ∀ m ∈ moments, m.call.IsRecordable) (htime : time.IsReading)
    (hdecode : Nut.decode (sampleServer ttl h).key nut = .ok presented)
    (hage : time.truncate - presented.created ≤ 600)
    (hnever : ∀ d ∈ history, d.spends nut = false) (hrequest : request.IsRecordable)
    (hversion : request.ver = "1")
    (hcheck : Signature.check (some request.signedMessage) request.idk request.ids = .ok ())
    (address : Option String) :
    ((sampleServer ttl h).step t ⟨time, .handle request nut address⟩).1.isProcessed = true := by
  have hspec := (sampleServer ttl h).step_spec (m := ⟨time, .handle request nut address⟩)
    (hrun.isReady hmoments) hrequest
  exact (hspec.transition.isProcessed_iff (hrun.remembers hmoments) rfl htime).mpr
    ⟨⟨presented, ⟨hdecode, hversion, hcheck⟩, hage⟩, .inl hnever⟩

/-- Every genuine request is processed with the second nut. -/
theorem isProcessed_sampleSecond {history : List Entry} {t : State} {text : String}
    {presented : Nut}
    (hrun : (sampleServer ttl h).IsRun
      [sampleIssue, sampleLogin (.int 1000) sampleNut, sampleSecond] history t)
    (hdecode : Nut.decode (sampleServer ttl h).key text = .ok presented)
    (hcreated : presented.created = 1001) (hnever : ∀ d ∈ history, d.spends text = false)
    (hrequest : request.IsRecordable) (hversion : request.ver = "1")
    (hcheck : Signature.check (some request.signedMessage) request.idk request.ids = .ok ()) :
    ((sampleServer ttl h).step t ⟨.int 1001, .handle request text none⟩).1.isProcessed = true := by
  have hage : (1001 : Int) - presented.created ≤ 600 := by omega
  exact isProcessed_sample h hrun isRecordable_sampleSecond isReading_sampleSecond hdecode hage
    hnever hrequest hversion hcheck none

def sampleParameters : Dictionary String (Option String) :=
  [("client", some sampleRequest.client), ("server", some sampleRequest.server),
    ("ids", some sampleRequest.ids)]

theorem ofParams_sample : Request.ofParams sampleParameters = .ok sampleRequest := by
  decide +kernel

theorem isRun_sampleTwice :
    ∃ issued login again last t text presented, (sampleServer 900 (by decide)).IsRun
        [sampleIssue, sampleLogin (.int 1000) sampleNut, sampleSecond,
          sampleLogin (.int 1001) text] [issued, login, again, last] t ∧
      login.request? = some sampleRequest ∧ last.toMoment = sampleLogin (.int 1001) text ∧
      last.isProcessed = true ∧
      Nut.decode (sampleServer 900 (by decide)).key text = .ok presented ∧
      presented.created = 1001 ∧ ∀ d ∈ [issued, login, again], d.spends text = false := by
  obtain ⟨issued, login, again, t, text, presented, hrun, hspends, -, hdecode, hcreated, -,
    hnever⟩ := isRun_sampleSecond (by decide : 600 ≤ 900)
  have hlogin : login.toMoment = sampleLogin (.int 1000) sampleNut := by
    have hmoments := hrun.map_toMoment
    simp only [List.map_cons, List.map_nil, List.cons.injEq] at hmoments
    exact hmoments.2.1
  have hlast := isProcessed_sampleSecond (by decide : 600 ≤ 900) hrun hdecode hcreated hnever
    isRecordable_sampleRequest rfl check_sampleRequest
  exact ⟨issued, login, again, _, _, text, presented, hrun.snoc (sampleLogin (.int 1001) text),
    Entry.request?_eq_some_iff.mpr
      ⟨⟨_, _, congrArg Moment.call hlogin⟩, Entry.isProcessed_of_spends hspends⟩,
    rfl, hlast, hdecode, hcreated, hnever⟩

theorem isRecordable_sampleTwice (text : String) :
    ∀ m ∈ [sampleIssue, sampleLogin (.int 1000) sampleNut, sampleSecond,
      sampleLogin (.int 1001) text], m.call.IsRecordable := by
  simp [sampleIssue, sampleLogin, sampleSecond, Call.IsRecordable, isRecordable_sampleRequest]

/-- One signed request can be processed twice. -/
theorem signed_request_twice :
    ¬ ∀ (server : Server) (moments : List Moment) (history : List Entry) (s : State),
      server.IsRun moments history s → (∀ m ∈ moments, m.call.IsRecordable) →
        history.Pairwise fun d e => ∀ request other, d.request? = some request →
          e.request? = some other → ¬ request.SameParameters other := by
  intro honce
  obtain ⟨issued, login, again, last, t, text, _, hrun, hlogin, hlast, hprocessed, -⟩ :=
    isRun_sampleTwice
  have hdistinct := honce _ _ _ _ hrun (isRecordable_sampleTwice text)
  have hpair : List.Sublist [login, last] [issued, login, again, last] :=
    .cons _ (.cons_cons _ (.cons _ (.refl _)))
  have hneither := (List.pairwise_cons.mp (hdistinct.sublist hpair)).1 last
    (List.mem_singleton_self last)
  have hagain : last.request? = some sampleRequest :=
    Entry.request?_eq_some_iff.mpr ⟨⟨_, _, congrArg Moment.call hlast⟩, hprocessed⟩
  exact hneither sampleRequest sampleRequest hlogin hagain ⟨rfl, rfl, rfl⟩

/-- It is processed again because the other nut is young and was not consumed. -/
theorem signed_request_again_iff_second :
    ∃ before last t text, (sampleServer 900 (by decide)).IsRun
        [sampleIssue, sampleLogin (.int 1000) sampleNut, sampleSecond,
          sampleLogin (.int 1001) text] (before ++ last :: []) t ∧
      (∃ d ∈ before, d.request? = some sampleRequest) ∧ last.isProcessed = true := by
  obtain ⟨issued, login, again, last, t, text, presented, hrun, hlogin, hlast, -, hdecode, hcreated,
    hnever⟩ := isRun_sampleTwice
  have hrun : (sampleServer 900 (by decide)).IsRun [sampleIssue,
      sampleLogin (.int 1000) sampleNut, sampleSecond, sampleLogin (.int 1001) text]
      ([issued, login, again] ++ last :: []) t := hrun
  have htime : last.time = .int 1001 := congrArg Moment.time hlast
  refine ⟨_, last, t, text, hrun, ⟨login, by simp, hlogin⟩,
    (signed_request_again_iff hrun (isRecordable_sampleTwice text) (d := login) (by simp) hlogin
      ofParams_sample (congrArg Moment.call hlast) (htime ▸ isReading_sampleSecond) ofParams_sample
      ⟨rfl, rfl, rfl⟩).mpr ⟨⟨presented, hdecode, ?_⟩, .inl hnever⟩⟩
  rw [hcreated, htime]
  decide

end Sample

end Server

end Sqrl
