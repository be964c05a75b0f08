import Sqrl.Proofs.Polling

/-! How the three maps of the session store fit together. A transaction stands under the nut that
opened it, a nut is linked to a root just if the transaction there has linked it, and nothing that is
stale is left by a call that forgets. -/
namespace Sqrl.Sessions

variable {s : Sessions} {known : String → Prop} {now : Number} {nut old new m r responseNut : String}
  {request : Request}

/-- Every transaction stands under its own nut, and every link leads to a transaction that has linked
the nut. -/
structure IsAnchored (s : Sessions) : Prop where
  nut_eq : ∀ {r : String} {t : Transaction}, s.transactions[r]? = some t → t.nut = r
  linked : ∀ {m r : String}, s.links[m]? = some r →
    ∃ t, s.transactions[r]? = some t ∧ m ∈ t.linked

namespace IsAnchored

theorem empty (ttl : Number) : (Sessions.empty ttl).IsAnchored := by
  constructor <;> simp [Sessions.empty]

theorem congr {t : Sessions} (h : s.IsAnchored) (hlinks : t.links = s.links)
    (htransactions : t.transactions = s.transactions) : t.IsAnchored where
  nut_eq ht := h.nut_eq (htransactions ▸ ht)
  linked hm := htransactions ▸ h.linked (hlinks ▸ hm)

/-- A link that is kept leads to a transaction that is kept: the links of a forgotten one are
forgotten with it. -/
theorem prune (h : s.IsAnchored) (now : Number) : (s.prune now).2.IsAnchored where
  nut_eq ht := h.nut_eq (transactions_of_prune ht)
  linked {m r} hm := by
    obtain ⟨t, ht, hlinked⟩ := h.linked (links_of_prune hm)
    refine ⟨t, ?_, hlinked⟩
    rw [transactions_prune, ht, Option.filter_eq_some_iff]
    refine ⟨rfl, ?_⟩
    rw [Bool.not_eq_true', ← Bool.not_eq_true]
    intro hstale
    simp only [Sessions.prune, Std.ExtTreeMap.getElem?_filter'] at hm
    have hkept := (Option.filter_eq_some_iff.mp hm).2
    rw [Bool.not_eq_true', ← Bool.not_eq_true] at hkept
    refine hkept (List.any_eq_true.mpr ⟨t.linked, List.mem_map.mpr ⟨(r, t), ?_, rfl⟩,
      Std.ExtTreeSet.contains_iff_mem.mpr hlinked⟩)
    rw [Std.ExtTreeMap.mem_toList_iff_getElem?_eq_some, Sessions.stale,
      Std.ExtTreeMap.getElem?_filter', ht]
    exact Option.filter_eq_some_iff.mpr ⟨rfl, hstale⟩

/-- A transaction that nothing is linked to can be opened anew. -/
theorem start (h : s.IsAnchored) (hnut : ∀ m : String, s.links[m]? ≠ some nut)
    (address : Option String) (now : Number) : (s.start nut address now).IsAnchored where
  nut_eq {r t} ht := by
    rw [transactions_start] at ht
    split at ht
    · next heq => rw [← Option.some.inj ht, ← heq, fresh]
    · exact h.nut_eq ht
  linked {m r} hm := by
    rw [transactions_start, if_neg]
    · exact h.linked hm
    · rintro rfl
      exact hnut m hm

theorem nut_find (h : s.IsAnchored) (nut : String) (now : Number) :
    (s.find nut now).nut = s.root nut := by
  rw [find]
  cases ht : s.transactions[s.root nut]? with
  | none => rfl
  | some t => exact h.nut_eq ht

theorem mem_linked_find (h : s.IsAnchored) (hm : s.links[m]? = some (s.root nut)) (now : Number) :
    m ∈ (s.find nut now).linked := by
  obtain ⟨t, ht, hlinked⟩ := h.linked hm
  rw [find, ht]
  exact hlinked

theorem link (h : s.IsAnchored) (old new : String) (now : Number) :
    (s.link old new now).IsAnchored where
  nut_eq {r t} ht := by
    rw [transactions_link] at ht
    split at ht
    · next hroot =>
      rw [← Option.some.inj ht, ← hroot]
      exact h.nut_find old now
    · exact h.nut_eq ht
  linked {m r} hm := by
    rw [links_link] at hm
    rw [transactions_link]
    split at hm
    · next heq =>
      rw [if_pos (Option.some.inj hm), ← heq]
      exact ⟨_, rfl, Std.ExtTreeSet.mem_insert_self⟩
    · split
      · next hroot =>
        exact ⟨_, rfl, Std.ExtTreeSet.mem_insert.mpr (.inr (h.mem_linked_find (hroot ▸ hm) now))⟩
      · exact h.linked hm

theorem authenticate (h : s.IsAnchored) (nut identity : String) (now : Number) :
    (s.authenticate nut identity now).IsAnchored where
  nut_eq {r t} ht := by
    rw [transactions_authenticate] at ht
    split at ht
    · next hroot =>
      rw [← Option.some.inj ht, ← hroot]
      exact h.nut_find nut now
    · exact h.nut_eq ht
  linked {m r} hm := by
    rw [transactions_authenticate]
    split
    · next hroot => exact ⟨_, rfl, h.mem_linked_find (hroot ▸ hm) now⟩
    · exact h.linked hm

theorem serve (h : s.IsAnchored) : (s.serve request nut responseNut now).IsAnchored := by
  have hconsume : (s.consume nut now).2.IsAnchored :=
    h.congr (s.consume_links now nut) (s.consume_transactions now nut)
  have hlink := (hconsume.prune now).link nut responseNut now
  rw [Sessions.serve]
  split
  · exact hlink.authenticate responseNut request.idk now
  · exact hlink

end IsAnchored

/-- Nothing that is kept is stale at a time. -/
structure IsCurrent (s : Sessions) (now : Number) : Prop where
  transaction : ∀ {r : String} {t : Transaction}, s.transactions[r]? = some t →
    s.isStale now t.issuedAt = false
  used : ∀ {n : String} {time : Number}, s.used[n]? = some time → s.isStale now time = false

theorem isCurrent_prune (s : Sessions) (now : Number) : (s.prune now).2.IsCurrent now where
  transaction {r t} ht := by
    rw [transactions_prune] at ht
    exact Bool.not_eq_true' _ ▸ (Option.filter_eq_some_iff.mp ht).2
  used {n time} hn := by
    rw [used_prune] at hn
    exact Bool.not_eq_true' _ ▸ (Option.filter_eq_some_iff.mp hn).2

namespace IsCurrent

variable {ttl : Nat}

theorem start (h : s.IsCurrent now) (httl : s.ttl = .int ttl) (nut : String)
    (address : Option String) : (s.start nut address now).IsCurrent now where
  transaction {r t} ht := by
    rw [transactions_start] at ht
    split at ht
    · rw [← Option.some.inj ht]
      exact isStale_self httl now
    · exact h.transaction ht
  used hn := h.used hn

theorem find (h : s.IsCurrent now) (httl : s.ttl = .int ttl) (nut : String) :
    s.isStale now (s.find nut now).issuedAt = false := by
  rw [Sessions.find]
  cases ht : s.transactions[s.root nut]? with
  | none => exact isStale_self httl now
  | some t => exact h.transaction ht

theorem link (h : s.IsCurrent now) (httl : s.ttl = .int ttl) (old new : String) :
    (s.link old new now).IsCurrent now where
  transaction {r t} ht := by
    rw [transactions_link] at ht
    split at ht
    · rw [← Option.some.inj ht]
      exact h.find httl old
    · exact h.transaction ht
  used hn := h.used hn

theorem authenticate (h : s.IsCurrent now) (httl : s.ttl = .int ttl) (nut identity : String) :
    (s.authenticate nut identity now).IsCurrent now where
  transaction {r t} ht := by
    rw [transactions_authenticate] at ht
    split at ht
    · rw [← Option.some.inj ht]
      exact h.find httl nut
    · exact h.transaction ht
  used hn := h.used hn

end IsCurrent

theorem isCurrent_serve {ttl : Nat} (httl : s.ttl = .int ttl) :
    (s.serve request nut responseNut now).IsCurrent now := by
  have hkept : ((s.consume nut now).2.prune now).2.ttl = .int ttl := (s.consume_ttl now nut).trans httl
  have hlink := ((s.consume nut now).2.isCurrent_prune now).link hkept nut responseNut
  rw [Sessions.serve]
  split
  · exact hlink.authenticate hkept responseNut request.idk
  · exact hlink

end Sqrl.Sessions

namespace Sqrl.Server

variable {server : Server} {moments : List Moment} {past history : List Entry} {s t : State}
  {e : Entry}

theorem Transition.isAnchored (hstep : server.Transition s e t)
    (htidy : s.sessions.IsTidy (IsKnown past)) (h : s.sessions.IsAnchored)
    (hnew : ∀ nut, e.minted? = some nut → ¬ IsKnown past nut) : t.sessions.IsAnchored := by
  cases hstep with
  | processed _ _ _ _ _ _ hsessions =>
    rw [hsessions]
    exact h.serve
  | issued _ hminted _ hsessions =>
    rw [hsessions]
    refine (h.prune e.time).start (fun m hm => ?_) _ _
    exact hnew _ hminted (htidy.known_root (Sessions.links_of_prune hm))
  | pruned _ _ _ hsessions =>
    rw [hsessions]
    exact h.prune _
  | idle _ _ hsessions =>
    rw [hsessions]
    exact h

/-- A call that forgets what is stale leaves nothing behind that is. -/
theorem Transition.isCurrent (hstep : server.Transition s e t) {ttl : Nat}
    (httl : s.sessions.ttl = .int ttl) {p : Number} (hp : e.prunedAt? = some p) :
    t.sessions.IsCurrent p := by
  cases hstep with
  | processed hcall _ _ _ hprocessed _ hsessions =>
    simp only [Entry.prunedAt?, hcall, hprocessed, if_true, Option.some.injEq] at hp
    rw [hsessions, ← hp]
    exact Sessions.isCurrent_serve httl
  | issued _ _ hpruned hsessions =>
    rw [hsessions, ← Option.some.inj (hpruned.symm.trans hp)]
    exact (s.sessions.isCurrent_prune e.time).start httl _ _
  | pruned _ _ hpruned hsessions =>
    rw [hsessions, ← Option.some.inj (hpruned.symm.trans hp)]
    exact s.sessions.isCurrent_prune _
  | idle _ hnone =>
    rw [hnone] at hp
    cases hp

theorem IsRun.isAnchored (hrun : server.IsRun moments history s)
    (hmoments : ∀ m ∈ moments, m.call.IsRecordable) (hnew : MintsNew history) :
    s.sessions.IsAnchored := by
  refine hrun.induction (I := fun history s => MintsNew history → s.sessions.IsAnchored) hmoments
    ?_ ?_ hnew
  · intro first hsessions _ _
    rw [hsessions]
    exact .empty _
  · intro moments past s e t hpast hearlier hspec h hnew
    obtain ⟨hbefore, hlast⟩ := mintsNew_append.mp hnew
    exact hspec.transition.isAnchored (hpast.isTidy hearlier hbefore) (h hbefore)
      fun nut hminted => (hlast nut hminted).1

theorem IsRun.isCurrent (hrun : server.IsRun moments (past ++ [e]) s)
    (hmoments : ∀ m ∈ moments, m.call.IsRecordable) {p : Number} (hp : e.prunedAt? = some p) :
    s.sessions.IsCurrent p := by
  refine hrun.induction (I := fun history s => ∀ past e, history = past ++ [e] → ∀ p,
    e.prunedAt? = some p → s.sessions.IsCurrent p) hmoments ?_ ?_ past e rfl p hp
  · intro first _ _ past e hnil
    simp at hnil
  · intro moments past s e t hpast hearlier hspec _ past' e' hsplit p hp
    obtain ⟨-, hlast⟩ := List.append_inj' hsplit rfl
    obtain rfl : e = e' := List.singleton_inj.mp hlast
    exact hspec.transition.isCurrent (hpast.remembers hearlier).ttl hp

/-- The maps of the session store fit together after every run: a transaction stands under its own
nut, a nut is linked to a root just if the transaction there has linked it, and no root is linked.
A call by which stale things are forgotten, such as an issue or a processed request, leaves no
transaction and no consumed nut that is older than the server keeps them. -/
theorem sessions_consistent (hrun : server.IsRun moments history s)
    (hmoments : ∀ m ∈ moments, m.call.IsRecordable) (hnew : MintsNew history) :
    (∀ (r : String) (t : Transaction), s.sessions.transactions[r]? = some t → t.nut = r) ∧
    (∀ n r : String, s.sessions.links[n]? = some r ↔
      ∃ t, s.sessions.transactions[r]? = some t ∧ n ∈ t.linked) ∧
    (∀ (r : String) (t : Transaction), s.sessions.transactions[r]? = some t →
      s.sessions.links[r]? = none) ∧
    ∀ (before : List Entry) (e : Entry) (p : Number), history = before ++ [e] →
      e.prunedAt? = some p →
        (∀ (r : String) (t : Transaction), s.sessions.transactions[r]? = some t →
          (Number.int server.settings.sessionTtl).lt (p.sub t.issuedAt) = false) ∧
        ∀ (n : String) (time : Number), s.sessions.used[n]? = some time →
          (Number.int server.settings.sessionTtl).lt (p.sub time) = false := by
  have hanchored := hrun.isAnchored hmoments hnew
  have hlinked := hrun.isLinked hmoments hnew
  have htidy := hrun.isTidy hmoments hnew
  refine ⟨fun r t => hanchored.nut_eq, fun n r => ⟨hanchored.linked, ?_⟩, fun r t ht => ?_, ?_⟩
  · rintro ⟨t, ht, hn⟩
    exact hlinked r t n ht hn
  · rw [Option.eq_none_iff_forall_ne_some]
    intro root hlink
    rw [htidy.unopened hlink] at ht
    cases ht
  · rintro before e p rfl hp
    have hcurrent := hrun.isCurrent hmoments hp
    have httl := (hrun.remembers hmoments).ttl
    refine ⟨fun r t ht => ?_, fun n time hn => ?_⟩
    · rw [← httl]
      exact hcurrent.transaction ht
    · rw [← httl]
      exact hcurrent.used hn

section Sample

/-- After the login its transaction stands under its own nut, and it is not stale. -/
theorem sessions_consistent_visit :
    ∃ issued login s, (sampleServer 900 (by decide)).IsRun sampleVisit ([issued] ++ [login]) s ∧
      MintsNew ([issued] ++ [login]) ∧ login.prunedAt? = some (.int 1001) ∧
      ∃ (r : String) (t : Transaction), s.sessions.transactions[r]? = some t ∧
        t.identity = some sampleKey ∧ t.nut = r ∧ s.sessions.links[r]? = none ∧
          (Number.int 900).lt ((Number.int 1001).sub t.issuedAt) = false := by
  obtain ⟨issued, login, s, hrun, hissued, -, hlogin, hnew, hidentity⟩ := exists_sampleVisit
  -- Whoever is read as logged in was logged in by the second call.
  obtain ⟨e, he, nut, hlogs, -⟩ := (hrun.traces isRecordable_sampleVisit).login hidentity
  have hprocessed : login.isProcessed = true := by
    rcases List.mem_append.mp he with he | he
    · obtain rfl := List.mem_singleton.mp he
      obtain ⟨request, address, hcall, -⟩ := hlogs.request
      cases hcall.symm.trans (congrArg Moment.call hissued)
    · exact List.mem_singleton.mp he ▸ hlogs.isProcessed
  have hpruned : login.prunedAt? = some (.int 1001) := by
    have hcall : login.call = .handle sampleRequest sampleNut none := congrArg Moment.call hlogin
    have htime : login.time = .int 1001 := congrArg Moment.time hlogin
    simp only [Entry.prunedAt?, hcall, hprocessed, if_true, htime]
  obtain ⟨hnut, -, hroot, hcurrent⟩ := sessions_consistent hrun isRecordable_sampleVisit hnew
  obtain ⟨t, ht, hkey⟩ := Option.bind_eq_some_iff.mp hidentity
  exact ⟨issued, login, s, hrun, hnew, hpruned, _, t, ht, hkey, hnut _ t ht, hroot _ t ht,
    (hcurrent [issued] login _ rfl hpruned).1 _ t ht⟩

end Sample

end Sqrl.Server
