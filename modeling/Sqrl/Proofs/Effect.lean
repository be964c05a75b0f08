import Sqrl.Proofs.Action
import Sqrl.Proofs.Audit
import Sqrl.Proofs.Flag
import Sqrl.Proofs.Sessions
import Sqrl.Server.Protocol

/-! What a processed request does to the stores, and which flags tell it. The accounts do not depend
on the sessions, nor the sessions on the accounts. -/
namespace Sqrl

namespace Accounts

/-- The account of a request and the flags that tell how it was found, and the accounts once it
stands under the key of the request. -/
def resolve (accounts : Accounts) (request : Request) : (Option Account × List Flag) × Accounts :=
  match accounts.find? request.idk with
  | some account => ((some account, [.idMatch]), accounts)
  | none =>
    match request.pidk with
    | none => ((none, []), accounts)
    | some previous =>
      match accounts.find? previous with
      | none => ((none, []), accounts)
      | some account =>
        ((some account, [.previousIdMatch]), (accounts.rotate previous request.idk).2)

def obey (accounts : Accounts) (request : Request) (account : Option Account) :
    List Flag × Accounts :=
  match request.command with
  | some .query => ([], accounts)
  | some .ident =>
    ([.idMatch],
      if account.isNone then (accounts.register request.idk request.suk request.vuk).2
      else accounts)
  | some .disable => ([], (accounts.setEnabled request.idk false).2)
  | some .enable => ([], (accounts.setEnabled request.idk true).2)
  | some .remove => ([], (accounts.remove request.idk).2)
  | none => ([.functionNotSupported], accounts)

def disabledFlags (accounts : Accounts) (key : String) (account : Option Account) : List Flag :=
  match account with
  | none => []
  | some account => if ((accounts.find? key).getD account).enabled then [] else [.sqrlDisabled]

/-- The flags of a processed request, but for that of its address, and the accounts after it. -/
def serve (accounts : Accounts) (request : Request) : List Flag × Accounts :=
  let found := accounts.resolve request
  let told := found.2.obey request found.1.1
  (found.1.2 ++ told.1 ++ told.2.disabledFlags request.idk found.1.1, told.2)

theorem not_mem_serve (accounts : Accounts) (request : Request) {f : Flag}
    (hf : f = .clientFailure ∨ f = .transientError) : f ∉ (accounts.serve request).1 := by
  have hresolve : f ∉ (accounts.resolve request).1.2 := by
    unfold resolve
    rcases hf with rfl | rfl <;> (repeat' split) <;> simp
  have hobey (accounts : Accounts) (account : Option Account) :
      f ∉ (accounts.obey request account).1 := by
    unfold obey
    rcases hf with rfl | rfl <;> split <;> simp
  have hdisabled (accounts : Accounts) (account : Option Account) :
      f ∉ accounts.disabledFlags request.idk account := by
    unfold disabledFlags
    rcases hf with rfl | rfl <;> (repeat' split) <;> simp
  simp [serve, hresolve, hobey, hdisabled]

end Accounts

namespace Sessions

/-- The sessions after a processed request: its nut is consumed, the nut of the response belongs to
the same transaction, and an identity may have logged in to it. -/
def serve (s : Sessions) (request : Request) (nut responseNut : String) (now : Number) :
    Sessions :=
  let linked := ((s.consume nut now).2.prune now).2.link nut responseNut now
  if request.command = some .ident then linked.authenticate responseNut request.idk now else linked

variable {s : Sessions} {request : Request} {nut responseNut : String} {now : Number}

theorem ttl_serve : (s.serve request nut responseNut now).ttl = s.ttl := by
  rw [serve]
  split <;> exact s.consume_ttl now nut

theorem isStale_consume (time : Number) :
    (s.consume nut now).2.isStale now time = s.isStale now time := by
  rw [isStale, isStale, s.consume_ttl]

theorem used_serve {ttl : Nat} (httl : s.ttl = .int ttl) (hunused : nut ∉ s.used) (m : String) :
    (s.serve request nut responseNut now).used[m]? =
      if nut = m then some now else s.used[m]?.filter fun time => !s.isStale now time := by
  have hused : (s.serve request nut responseNut now).used =
      ((s.consume nut now).2.prune now).2.used := by
    rw [serve]
    split <;> rfl
  simp only [hused, used_prune, used_consume m hunused, isStale_consume]
  split
  · rw [Option.filter_some, isStale_self httl]
    rfl
  · rfl

/-- A login shows under the nut that was presented. -/
theorem identity?_serve_ident (h : request.command = some .ident) :
    (s.serve request nut responseNut now).identity? nut = some request.idk := by
  have hroot (t : Sessions) :
      (t.link nut responseNut now).root responseNut = (t.link nut responseNut now).root nut := by
    rw [root_link, root_link, if_pos rfl, ite_self]
  rw [serve, if_pos h, identity?_eq, root_authenticate, login?_authenticate, if_pos (hroot _)]

/-- Without a login nobody is logged in anew: the nut of the response takes part in the login of the
nut that was presented. -/
theorem IsTidy.identity?_of_serve {known : String → Prop} (h : s.IsTidy known)
    (hident : request.command ≠ some .ident) {m key : String}
    (hkey : (s.serve request nut responseNut now).identity? m = some key) :
    s.identity? m = some key ∨ m = responseNut ∧ s.identity? nut = some key := by
  have hconsume : (s.consume nut now).2.IsTidy known :=
    h.congr (s.consume_links now nut) (s.consume_transactions now nut)
  rw [serve, if_neg hident, identity?_link] at hkey
  split at hkey
  · next heq =>
    have hnut := hconsume.identity?_of_prune hkey
    rw [identity?_consume] at hnut
    exact .inr ⟨heq.symm, hnut⟩
  · have hm := hconsume.identity?_of_prune hkey
    rw [identity?_consume] at hm
    exact .inl hm

theorem IsTidy.serve {known : String → Prop} (h : s.IsTidy known) (hnut : known nut)
    (hresponse : ¬ known responseNut) :
    (s.serve request nut responseNut now).IsTidy fun m => known m ∨ m = responseNut := by
  have hconsume : (s.consume nut now).2.IsTidy known :=
    h.congr (s.consume_links now nut) (s.consume_transactions now nut)
  have hlink := (hconsume.prune now).link hnut hresponse now
  rw [Sessions.serve]
  split
  · exact hlink.authenticate (.inr rfl) request.idk now
  · exact hlink

theorem IsLinked.serve {known : String → Prop} (h : s.IsLinked) (htidy : s.IsTidy known)
    (hresponse : ¬ known responseNut) :
    (s.serve request nut responseNut now).IsLinked := by
  have hlinks : ((s.consume nut now).2.prune now).2.links[responseNut]? = none :=
    links_prune_eq_none (s.consume_links now nut ▸ htidy.links_of_not_known hresponse) now
  have hconsume : (s.consume nut now).2.IsLinked :=
    h.congr (s.consume_links now nut) (s.consume_transactions now nut)
  have hlink := (hconsume.prune now).link hlinks nut now
  rw [Sessions.serve]
  split
  · exact hlink.authenticate responseNut request.idk now
  · exact hlink

/-- A login links no nut. -/
theorem root_serve (request : Request) (m : String) :
    (s.serve request nut responseNut now).root m =
      (((s.consume nut now).2.prune now).2.link nut responseNut now).root m := by
  rw [serve]
  split <;> rfl

section Open

variable {known : String → Prop} {time : Number} {r : String}

theorem IsOpen.serve (h : s.IsOpen r time) (hkept : s.isStale now time = false) :
    (s.serve request nut responseNut now).IsOpen r time := by
  have hconsume : (s.consume nut now).2.IsOpen r time := h.congr (s.consume_transactions now nut)
  have hlink := (hconsume.prune ((isStale_consume time).trans hkept)).link nut responseNut now
  rw [Sessions.serve]
  split
  · exact hlink.authenticate responseNut request.idk now
  · exact hlink

/-- Only the nut of the response joins a transaction that stands: the one of the nut that was
presented. -/
theorem IsOpen.root_serve_iff (h : s.IsOpen r time) (htidy : s.IsTidy known) (hlinked : s.IsLinked)
    (hkept : s.isStale now time = false) (m : String) :
    (s.serve request nut responseNut now).root m = r ↔
      if responseNut = m then s.root nut = r else s.root m = r := by
  have hpruned (m : String) : ((s.consume nut now).2.prune now).2.root m = r ↔ s.root m = r := by
    have hsame : (s.consume nut now).2.root m = s.root m := by
      rw [root, root, s.consume_links]
    rw [(h.congr (s.consume_transactions now nut)).root_prune_iff
      (htidy.congr (s.consume_links now nut) (s.consume_transactions now nut))
      (hlinked.congr (s.consume_links now nut) (s.consume_transactions now nut))
      ((isStale_consume time).trans hkept), hsame]
  rw [root_serve, root_link]
  split
  · exact hpruned nut
  · exact hpruned m

/-- Only a login with one of its nuts shows in a transaction that stands. -/
theorem IsOpen.login?_serve (h : s.IsOpen r time) (htidy : s.IsTidy known) (hlinked : s.IsLinked)
    (hkept : s.isStale now time = false) :
    (s.serve request nut responseNut now).login? r =
      if request.command = some .ident ∧ s.root nut = r then some request.idk
      else s.login? r := by
  have hlogin : (((s.consume nut now).2.prune now).2.link nut responseNut now).login? r =
      s.login? r := by
    rw [login?_link, (h.congr (s.consume_transactions now nut)).login?_prune
      ((isStale_consume time).trans hkept), login?, login?, s.consume_transactions]
  have hroot : (((s.consume nut now).2.prune now).2.link nut responseNut now).root responseNut = r ↔
      s.root nut = r := by
    rw [← root_serve request, h.root_serve_iff htidy hlinked hkept, if_pos rfl]
  rw [Sessions.serve]
  split
  · next hident => simp only [login?_authenticate, hlogin, hroot, hident, true_and]
  · next hident => simp only [hlogin, hident, false_and, if_false]

end Open

end Sessions

namespace Server

open Server.Action

variable {s : State}

theorem outcome_identify (hs : s.IsUp) (request : Request) :
    ∃ records, (identify request).outcome s =
      (.ok (s.accounts.resolve request).1,
        { s with accounts := (s.accounts.resolve request).2, records }) := by
  rw [identify, outcome_bind_ok (outcome_findAccount hs _)]
  cases hfound : s.accounts.find? request.idk with
  | some account => exact ⟨s.records, by simp [Accounts.resolve, hfound]⟩
  | none =>
    cases hpidk : request.pidk with
    | none => exact ⟨s.records, by simp [Accounts.resolve, hfound, hpidk]⟩
    | some previous =>
      simp only [outcome_bind_ok (outcome_findAccount hs previous)]
      cases hprevious : s.accounts.find? previous with
      | none => exact ⟨s.records, by simp [Accounts.resolve, hfound, hpidk, hprevious]⟩
      | some account =>
        simp only [outcome_bind_ok (outcome_rotateAccount hs previous request.idk),
          outcome_bind_ok (outcome_log ..)]
        exact ⟨_, by simp [Accounts.resolve, hfound, hpidk, hprevious]; rfl⟩

theorem outcome_dispatch (hs : s.IsUp) (request : Request) (account : Option Account)
    (responseNut : String) :
    ∃ records, (dispatch request account responseNut).outcome s =
      (.ok (s.accounts.obey request account).1,
        { s with
          accounts := (s.accounts.obey request account).2
          sessions :=
            if request.command = some .ident then
              s.sessions.authenticate responseNut request.idk s.now
            else s.sessions
          records }) := by
  rw [dispatch]
  cases hcommand : request.command with
  | none =>
    simp only [Accounts.obey, hcommand, reduceCtorEq, if_false]
    exact ⟨_, outcome_bind_ok (outcome_log ..)⟩
  | some command =>
    cases command with
    | query => exact ⟨s.records, by simp [Accounts.obey, hcommand]⟩
    | ident =>
      cases account with
      | some account =>
        obtain ⟨records, hauth⟩ := outcome_authenticateNut hs responseNut request.idk
        refine ⟨records, ?_⟩
        simp only [Accounts.obey, hcommand, Option.isNone_some, Bool.false_eq_true, if_false,
          if_true, outcome_bind_ok hauth]
        rfl
      | none =>
        have hregister := outcome_registerAccount hs request.idk request.suk request.vuk
        obtain ⟨records, hauth⟩ := outcome_authenticateNut
          (s := { s with
            accounts := (s.accounts.register request.idk request.suk request.vuk).2
            records := s.records ++
              [.ofText .info "server" "Registered new SQRL account" none] })
          hs responseNut request.idk
        refine ⟨records, ?_⟩
        simp only [Accounts.obey, hcommand, Option.isNone_none, if_true, outcome_bind_ok hregister,
          outcome_bind_ok (outcome_log ..), outcome_bind_ok hauth]
        rfl
    | disable =>
      refine ⟨s.records, ?_⟩
      simp only [Accounts.obey, hcommand, Option.some.injEq, reduceCtorEq, if_false]
      exact outcome_bind_ok (outcome_disableAccount hs request.idk)
    | enable =>
      refine ⟨s.records, ?_⟩
      simp only [Accounts.obey, hcommand, Option.some.injEq, reduceCtorEq, if_false]
      exact outcome_bind_ok (outcome_enableAccount hs request.idk)
    | remove =>
      refine ⟨s.records, ?_⟩
      simp only [Accounts.obey, hcommand, Option.some.injEq, reduceCtorEq, if_false]
      exact outcome_bind_ok (outcome_removeAccount hs request.idk)

theorem outcome_disabledFlag (key : String) (account : Option Account) :
    (disabledFlag key account).outcome s = (.ok (s.accounts.disabledFlags key account), s) := by
  cases account with
  | none => rfl
  | some account =>
    rw [disabledFlag, outcome_bind_ok (outcome_get s)]
    rfl

end Server

end Sqrl
