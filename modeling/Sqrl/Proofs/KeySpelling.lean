import Sqrl.Proofs.Signature
import Sqrl.Proofs.SignedRequest

/-! The spellings of a key. A signature is checked under the bytes of an identity key, but an
account stands under its text, and one key has many texts. -/
namespace Sqrl

namespace Accounts

variable {accounts : Accounts} {request : Request} {key other : String} {bytes : Bytes}

/-- Have different texts in the store different keys? -/
def IsOnePerKey (accounts : Accounts) : Prop :=
  ∀ a ∈ accounts, ∀ b ∈ accounts, ∀ key,
    Signature.loadKey a = .ok key → Signature.loadKey b = .ok key → a = b

/-- Does a request that is processed leave one key with two accounts? One that it does not move
stands under another text of its key, and it creates one, or has moved one, under its own text. -/
structure Doubles (accounts : Accounts) (request : Request) : Prop where
  other : ∃ other ∈ accounts, other ≠ request.idk ∧ request.pidk ≠ some other ∧
    Signature.loadKey other = Signature.loadKey request.idk
  arrives : request.command = some .ident ∨
    request.command ≠ some .remove ∧ accounts.subject? request ≠ none

theorem IsOnePerKey.doubles (h : accounts.IsOnePerKey) (hne : other ≠ request.idk)
    (hother : other ∈ (accounts.serve request).2) (hidk : request.idk ∈ (accounts.serve request).2)
    (hload : Signature.loadKey other = .ok bytes)
    (hload' : Signature.loadKey request.idk = .ok bytes) : accounts.Doubles request := by
  obtain ⟨hfound, hstays⟩ := (mem_serve_accounts_of_ne hne).mp hother
  refine ⟨⟨other, hfound, hne, ?_, hload.trans hload'.symm⟩, idk_mem_serve_accounts.mp hidk⟩
  exact hstays.resolve_left fun hmem => hne (h other hfound _ hmem bytes hload hload')

theorem isOnePerKey_serve_iff (hidk : Signature.loadKey request.idk = .ok bytes)
    (h : accounts.IsOnePerKey) :
    (accounts.serve request).2.IsOnePerKey ↔ ¬ accounts.Doubles request := by
  constructor
  · intro hafter hdoubles
    obtain ⟨other, hother, hne, hpidk, hsame⟩ := hdoubles.other
    have hstays := (mem_serve_accounts_of_ne hne).mpr ⟨hother, .inr hpidk⟩
    have harrives := idk_mem_serve_accounts.mpr hdoubles.arrives
    exact hne (hafter other hstays _ harrives bytes (hsame.trans hidk) hidk)
  · intro hnot a ha b hb key hload hload'
    by_contra hne
    -- One of the two is the text of the request: the others were there before.
    by_cases ha' : a = request.idk
    · subst ha'
      exact hnot (h.doubles (Ne.symm hne) hb ha hload' hload)
    · by_cases hb' : b = request.idk
      · subst hb'
        exact hnot (h.doubles ha' ha hb hload hload')
      · exact hne (h a ((mem_serve_accounts_of_ne ha').mp ha).1 b
          ((mem_serve_accounts_of_ne hb').mp hb).1 key hload hload')

end Accounts

namespace Server

variable {server : Server} {moments : List Moment} {s : State} {v : Visit}

/-- A text under which an account stands after a call was there before, or is the key of the
request that was processed. -/
theorem Visit.mem_left {key : String} (h : key ∈ v.left) :
    key ∈ v.found ∨ ∃ request, v.entry.request? = some request ∧ request.idk = key := by
  obtain ⟨account, haccount⟩ := Accounts.exists_find? h
  rcases Visit.cases_of_find?_left haccount with
    ⟨request, hcreates, hkey⟩ | ⟨old, found, hfound, hold⟩
  · exact .inr ⟨request, hcreates.processed, hkey⟩
  · cases hrequest : v.entry.request? with
    | none =>
      rw [Visit.keyAfter_of_none hrequest] at hold
      exact .inl (hold ▸ Accounts.mem_of_find? hfound)
    | some request =>
      rw [Visit.keyAfter_of_some hrequest] at hold
      split at hold
      · exact .inr ⟨request, rfl, hold⟩
      · exact .inl (hold ▸ Accounts.mem_of_find? hfound)

theorem exists_of_mem_visits (hs : s.IsReady) (hmoments : ∀ m ∈ moments, m.call.IsRecordable)
    (hv : v ∈ server.visits s moments) :
    ∃ t m, t.IsReady ∧ m.call.IsRecordable ∧ v = server.visit t m := by
  induction moments generalizing s with
  | nil => cases hv
  | cons m moments ih =>
    obtain ⟨hm, hmoments⟩ := List.forall_mem_cons.mp hmoments
    rcases List.mem_cons.mp hv with rfl | hv
    · exact ⟨s, m, hs, hm, rfl⟩
    · exact ih (server.step_spec hs hm).isReady hmoments hv

theorem exists_key_of_visit (hs : s.IsReady) {m : Moment} (hm : m.call.IsRecordable)
    {request : Request} (h : (server.visit s m).entry.request? = some request) :
    ∃ key, Signature.loadKey request.idk = .ok key := by
  obtain ⟨⟨nut, address, hcall⟩, hprocessed⟩ := Entry.request?_eq_some_iff.mp h
  obtain ⟨_, _, hgenuine, -⟩ :=
    (server.step_spec hs hm).transition.of_isProcessed hcall hprocessed
  exact Signature.exists_key_of_check hgenuine.signature

/-- What is true of the keys of all processed requests is true of the texts of all accounts. -/
theorem forall_key_run {P : String → Prop} (hs : s.IsReady)
    (hmoments : ∀ m ∈ moments, m.call.IsRecordable) (hfirst : ∀ key ∈ s.accounts, P key)
    (hrequests : ∀ v ∈ server.visits s moments, ∀ request, v.entry.request? = some request →
      P request.idk) :
    ∀ key ∈ (server.run s moments).2.accounts, P key := by
  induction moments generalizing s with
  | nil => exact hfirst
  | cons m moments ih =>
    rw [visits, List.forall_mem_cons] at hrequests
    obtain ⟨hm, hmoments⟩ := List.forall_mem_cons.mp hmoments
    have hafter : ∀ key ∈ (server.step s m).2.accounts, P key := by
      intro key hkey
      rw [accounts_step hs hm] at hkey
      rcases Visit.mem_left hkey with hkey | ⟨request, hrequest, rfl⟩
      · exact hfirst key hkey
      · exact hrequests.1 request hrequest
    exact ih (server.step_spec hs hm).isReady hmoments hafter hrequests.2

theorem isOnePerKey_step_iff (hs : s.IsReady) {m : Moment} (hm : m.call.IsRecordable)
    (h : s.accounts.IsOnePerKey) :
    (server.step s m).2.accounts.IsOnePerKey ↔
      ∀ request, (server.visit s m).entry.request? = some request →
        ¬ s.accounts.Doubles request := by
  rw [accounts_step hs hm]
  cases hrequest : (server.visit s m).entry.request? with
  | none =>
    rw [Visit.left_of_none hrequest]
    exact iff_of_true h fun _ hnone => nomatch hnone
  | some request =>
    obtain ⟨key, hkey⟩ := exists_key_of_visit hs hm hrequest
    rw [Visit.left_of_some hrequest]
    exact (Accounts.isOnePerKey_serve_iff hkey h).trans
      ⟨fun hnot _ hsame => Option.some.inj hsame ▸ hnot, fun hnot => hnot request rfl⟩

theorem forall_prefix_cons_iff {α : Type} {P : List α → Prop} {a : α} {l : List α} :
    (∀ first, first <+: a :: l → P first) ↔ P [] ∧ ∀ first, first <+: l → P (a :: first) := by
  constructor
  · intro h
    exact ⟨h [] List.nil_prefix,
      fun first hfirst => h (a :: first) (List.cons_prefix_cons.mpr ⟨rfl, hfirst⟩)⟩
  · rintro ⟨hnone, hrest⟩ first hfirst
    cases first with
    | nil => exact hnone
    | cons b first =>
      obtain ⟨rfl, hlater⟩ := List.cons_prefix_cons.mp hfirst
      exact hrest first hlater

theorem isOnePerKey_run_iff (hs : s.IsReady) (hmoments : ∀ m ∈ moments, m.call.IsRecordable) :
    (∀ first, first <+: moments → (server.run s first).2.accounts.IsOnePerKey) ↔
      s.accounts.IsOnePerKey ∧ ∀ v ∈ server.visits s moments, ∀ request,
        v.entry.request? = some request → ¬ v.found.Doubles request := by
  induction moments generalizing s with
  | nil => simp [visits, run]
  | cons m moments ih =>
    obtain ⟨hm, hmoments⟩ := List.forall_mem_cons.mp hmoments
    simp only [forall_prefix_cons_iff, run_cons, visits, List.forall_mem_cons]
    rw [ih (server.step_spec hs hm).isReady hmoments]
    -- Both sides say that the first state has one account for each key; only then does the step
    -- lemma apply.
    exact and_congr_right fun h => and_congr_left fun _ => isOnePerKey_step_iff hs hm h

/-- In every state of a run from a store without accounts, all accounts stand under texts of keys
of 32 bytes. No key has two of them just if no request of the run doubles one: it logs in, or has
its account moved, under another text of a key that has an account already. -/
theorem isOnePerKey_iff (hs : s.IsReady) (hempty : s.accounts = ∅)
    (hmoments : ∀ m ∈ moments, m.call.IsRecordable) :
    (∀ text ∈ (server.run s moments).2.accounts,
      ∃ key, Signature.loadKey text = .ok key ∧ key.length = 32) ∧
    ((∀ first, first <+: moments → (server.run s first).2.accounts.IsOnePerKey) ↔
      ∀ v ∈ server.visits s moments, ∀ request, v.entry.request? = some request →
        ¬ v.found.Doubles request) := by
  constructor
  · refine forall_key_run hs hmoments (by simp [hempty]) fun v hv request hrequest => ?_
    obtain ⟨t, m, ht, hm, rfl⟩ := exists_of_mem_visits hs hmoments hv
    obtain ⟨key, hkey⟩ := exists_key_of_visit ht hm hrequest
    exact ⟨key, hkey, (Signature.loadKey_eq_ok_iff.mp hkey).2⟩
  · have hfirst : s.accounts.IsOnePerKey := by simp [Accounts.IsOnePerKey, hempty]
    rw [isOnePerKey_run_iff hs hmoments]
    exact and_iff_right hfirst

/-- A client that writes all keys as the server would has one account for each. -/
theorem isOnePerKey_of_encoded (hs : s.IsReady) (hempty : s.accounts = ∅)
    (hmoments : ∀ m ∈ moments, m.call.IsRecordable)
    (hrequests : ∀ v ∈ server.visits s moments, ∀ request, v.entry.request? = some request →
      ∃ key, request.idk = Base64.Url.encode key) :
    (server.run s moments).2.accounts.IsOnePerKey := by
  have hencoded : ∀ text ∈ (server.run s moments).2.accounts, ∃ key, text = Base64.Url.encode key :=
    forall_key_run hs hmoments (by simp [hempty]) hrequests
  intro a ha b hb key hload hload'
  obtain ⟨first, rfl⟩ := hencoded a ha
  obtain ⟨second, rfl⟩ := hencoded b hb
  rw [Signature.key_of_loadKey_encode hload, Signature.key_of_loadKey_encode hload']

section Sample

def sampleSpelled : Request :=
  { sampleRequest with
    client := Base64.Url.encodeText ("ver=1\r\ncmd=ident\r\nidk= " ++ sampleKey)
    ids := "MMGXUxoWL1YGEzQPBlczSeypkkwtudJRlE1kNIAilpIXWjLJc_UF7jhZCw6OWj_AhWFvhN0mnjrswoX07zR9Dg"
    idk := " " ++ sampleKey }

theorem loadKey_sampleKey : Signature.loadKey sampleKey = .ok sampleKeyBytes := by
  rw [Signature.loadKey, sampleKey, Base64.Url.decode_encode]
  rfl

theorem check_sampleSpelled :
    Signature.check (some sampleSpelled.signedMessage) sampleSpelled.idk sampleSpelled.ids =
      .ok () := by
  decide +kernel

theorem isRecordable_sampleSpelled : sampleSpelled.IsRecordable :=
  Request.isRecordable_of_lt (by decide +kernel) (by decide +kernel)

/-- One key can have two accounts. -/
theorem two_accounts_one_key :
    ¬ ∀ (server : Server) (moments : List Moment) (history : List Entry) (s : State),
      server.IsRun moments history s → (∀ m ∈ moments, m.call.IsRecordable) →
        s.accounts.IsOnePerKey := by
  intro honePerKey
  obtain ⟨issued, login, again, t, text, presented, hrun, -, -, hdecode, hcreated, hmem, hnever⟩ :=
    isRun_sampleSecond (by decide : 600 ≤ 900)
  have hlast := isProcessed_sampleSecond (by decide : 600 ≤ 900) hrun hdecode hcreated hnever
    isRecordable_sampleSpelled rfl check_sampleSpelled
  set m : Moment := ⟨.int 1001, .handle sampleSpelled text none⟩ with hm
  have hspec := (sampleServer 900 (by decide)).step_spec (m := m)
    (hrun.isReady isRecordable_sampleSecond) isRecordable_sampleSpelled
  obtain ⟨_, _, -, -, -, -, -, haccounts⟩ := hspec.transition.of_isProcessed rfl hlast
  have hother : sampleKey ≠ sampleSpelled.idk := by decide +kernel
  have hpidk : sampleSpelled.pidk ≠ some sampleKey := by simp [sampleSpelled, sampleRequest]
  have hstays : sampleKey ∈ ((sampleServer 900 (by decide)).step t m).2.accounts :=
    haccounts ▸ (Accounts.mem_serve_accounts_of_ne hother).mpr ⟨hmem, .inr hpidk⟩
  have hident : sampleSpelled.command = some .ident := by decide
  have harrives : sampleSpelled.idk ∈ ((sampleServer 900 (by decide)).step t m).2.accounts :=
    haccounts ▸ Accounts.idk_mem_serve_accounts.mpr (.inl hident)
  have hone := honePerKey _ _ _ _ (hrun.snoc m) (by
    simp [sampleIssue, sampleLogin, sampleSecond, hm, Call.IsRecordable, isRecordable_sampleRequest,
      isRecordable_sampleSpelled])
  exact hother (hone _ hstays _ harrives _ loadKey_sampleKey
    ((Signature.loadKey_blank_append sampleKey).trans loadKey_sampleKey))

/-- A login to a server without accounts doubles none. -/
theorem isOnePerKey_iff_login :
    ((sampleServer 900 (by decide)).run (sampleFirst 900)
      [sampleIssue, sampleLogin (.int 1000) sampleNut]).2.accounts.IsOnePerKey := by
  set server := sampleServer 900 (by decide)
  have hready : (sampleFirst 900).IsReady := ⟨rfl, by simp [sampleFirst]⟩
  have hmoments : ∀ m ∈ [sampleIssue, sampleLogin (.int 1000) sampleNut], m.call.IsRecordable := by
    simp [sampleIssue, sampleLogin, Call.IsRecordable, isRecordable_sampleRequest]
  have hissue : (server.visit (sampleFirst 900) sampleIssue).entry.request? = none :=
    Entry.request?_of_issue rfl
  have hfound : (server.step (sampleFirst 900) sampleIssue).2.accounts = ∅ := by
    rw [accounts_step hready (hmoments _ List.mem_cons_self), Visit.left_of_none hissue]
    rfl
  refine (isOnePerKey_iff hready rfl hmoments).2.mpr ?_ _ List.prefix_rfl
  intro v hv request hrequest hdoubles
  obtain ⟨other, hother, -⟩ := hdoubles.other
  rw [visits, visits, visits, List.mem_cons, List.mem_singleton] at hv
  rcases hv with rfl | rfl
  · rw [hissue] at hrequest
    cases hrequest
  · rw [visit, hfound] at hother
    simp at hother

end Sample

end Server

end Sqrl
