import Sqrl.Proofs.NutUse

/-! When a nut can be used twice while the clock never goes back: what is left of the promise that a
nut is accepted once. -/
namespace Sqrl.Server

variable {server : Server} {moments : List Moment} {history : List Entry} {s : State}

/-- A clock that never goes back: every reading can be held by a nut and is at least the reading
before it, and nothing is forgotten by a later reading than that of the call. -/
structure IsOrdered (moments : List Moment) : Prop where
  reading : ∀ m ∈ moments, m.time.IsReading
  ordered : moments.Pairwise fun a b => b.time.lt a.time = false
  prune : ∀ m ∈ moments, ∀ time, m.call = .prune (some time) →
    time.IsReading ∧ m.time.lt time = false

/-- What is stale was forgotten by a reading that is no later than that of the call. -/
theorem IsOrdered.prunedAt?_le {moments : List Moment} (h : IsOrdered moments) {e : Entry}
    {p : Number} (he : e.toMoment ∈ moments) (hp : e.prunedAt? = some p) :
    p.IsReading ∧ p.truncate ≤ e.time.truncate := by
  have hreading : e.time.IsReading := h.reading _ he
  have hself : e.time = p → p.IsReading ∧ p.truncate ≤ e.time.truncate := by
    intro htime
    rw [← htime]
    exact ⟨hreading, le_rfl⟩
  unfold Entry.prunedAt? at hp
  split at hp
  · exact hself (Option.some.inj hp)
  · next time answer hcall hresult =>
    cases time with
    | none => exact hself (Option.some.inj hp)
    | some time =>
      obtain rfl : time = p := Option.some.inj hp
      obtain ⟨htime, hle⟩ := h.prune _ he time hcall
      exact ⟨htime, Number.truncate_le htime hreading hle⟩
  · split at hp
    · exact hself (Option.some.inj hp)
    · cases hp

/-- What has been forgotten was kept for its time before the next call. -/
theorem IsForgotten.truncate_le {ttl : Nat} {nut : String} {before between after : List Entry}
    {use e : Entry} (hforgotten : IsForgotten (.int ttl) use.time between)
    (huse : LastUse nut before use between)
    (h : IsOrdered ((before ++ e :: after).map Entry.toMoment)) :
    use.time.truncate + ttl ≤ e.time.truncate := by
  obtain ⟨d, hd, p, hp, hstale⟩ := hforgotten
  obtain ⟨earlier, rfl⟩ := huse.split
  have hmem {d : Entry} (hd : d ∈ (earlier ++ use :: between) ++ e :: after) :
      d.toMoment ∈ ((earlier ++ use :: between) ++ e :: after).map Entry.toMoment :=
    List.mem_map_of_mem hd
  have hdmem : d ∈ earlier ++ use :: between := by simp [hd]
  have hdreading : d.time.IsReading := h.reading _ (hmem (List.mem_append_left _ hdmem))
  have hreading : e.time.IsReading := h.reading _ (hmem (by simp))
  obtain ⟨hpreading, hpd⟩ := h.prunedAt?_le (hmem (List.mem_append_left _ hdmem)) hp
  have hde : e.time.lt d.time = false :=
    (List.pairwise_append.mp (List.pairwise_map.mp h.ordered)).2.2 d hdmem e List.mem_cons_self
  calc use.time.truncate + ttl
    _ ≤ p.truncate := Number.truncate_add_le hpreading (h.reading _ (hmem (by simp))) hstale
    _ ≤ d.time.truncate := hpd
    _ ≤ e.time.truncate := Number.truncate_le hdreading hreading hde

/-- A nut that is made in a run and was processed is processed again only in one of two cases: it
was presented in an earlier second than that in which it was made, or consumed nuts are remembered
no longer than nuts are accepted, it was consumed in the second in which it was made, and it is
presented in the last second in which it is accepted. -/
theorem processed_again_iff {before after : List Entry} {e : Entry}
    (hrun : server.IsRun moments (before ++ e :: after) s)
    (hmoments : ∀ m ∈ moments, m.call.IsRecordable) (hordered : IsOrdered moments)
    {request : Request} {nut : String} {address : Option String}
    (hcall : e.call = .handle request nut address) {mint : Entry}
    (hmint : mint ∈ before ++ e :: after) (hnut : mint.minted? = some nut)
    (hagain : ∃ d ∈ before, d.spends nut = true) :
    e.isProcessed = true ↔
      request.ver = server.settings.version ∧
      Signature.check (some request.signedMessage) request.idk request.ids = .ok () ∧
      e.time.truncate - mint.time.truncate ≤ server.settings.nutExpiration ∧
      ∃ use between, LastUse nut before use between ∧
        IsForgotten (.int server.settings.sessionTtl) use.time between ∧
        (use.time.truncate < mint.time.truncate ∨
          (server.settings.nutExpiration = server.settings.sessionTtl ∧
            use.time.truncate = mint.time.truncate ∧
            e.time.truncate = mint.time.truncate + server.settings.nutExpiration)) := by
  obtain ⟨presented, hdecode, hcreated⟩ := hrun.created hmoments hmint hnut
  have htime : e.time.IsReading :=
    hordered.reading e.toMoment (hrun.map_toMoment ▸ List.mem_map_of_mem (by simp))
  rw [hrun.isProcessed_iff hmoments hcall htime, ← hcreated]
  constructor
  · intro ⟨⟨other, hgenuine, hfresh⟩, havailable⟩
    obtain ⟨use, between, huse, hforgotten⟩ := havailable.resolve_left fun hnever => by
      obtain ⟨d, hd, hspends⟩ := hagain
      rw [hnever d hd] at hspends
      cases hspends
    obtain rfl : other = presented := Except.ok.inj (hgenuine.decode.symm.trans hdecode)
    refine ⟨hgenuine.version, hgenuine.signature, hfresh, use, between, huse, hforgotten, ?_⟩
    have hlong := hforgotten.truncate_le huse (hrun.map_toMoment ▸ hordered)
    have hwindow := server.settings.nutExpiration_le_sessionTtl
    have hage : e.time.truncate - other.created ≤ server.settings.nutExpiration := hfresh
    omega
  · intro ⟨hversion, hsignature, hfresh, use, between, huse, hforgotten, _⟩
    refine ⟨⟨presented, ⟨hdecode, hversion, hsignature⟩, hfresh⟩, .inr ?_⟩
    exact ⟨use, between, huse, hforgotten⟩

section Sample

/-- Half a second after the last one in which a nut made at 1000 s is accepted. -/
def sampleLate : Number := .float (.ofRatio false (3201 * Binary64.one) 2)

def sampleReplay : List Moment :=
  [sampleIssue, sampleLogin (.int 1000) sampleNut, ⟨sampleLate, .prune none⟩,
    sampleLogin sampleLate sampleNut]

theorem isReading_sampleLate : sampleLate.IsReading := by decide +kernel

theorem isOrdered_sampleReplay : IsOrdered sampleReplay where
  reading := by
    simp [sampleReplay, sampleIssue, sampleLogin, isReading_thousand, isReading_sampleLate]
  ordered := by
    have h1 : sampleLate.lt (.int 1000) = false := by decide +kernel
    have h2 : sampleLate.lt sampleLate = false := by decide +kernel
    have h3 : (Number.int 1000).lt (.int 1000) = false := by decide +kernel
    simp [sampleReplay, sampleIssue, sampleLogin, h1, h2, h3]
  prune := by simp [sampleReplay, sampleIssue, sampleLogin]

theorem isRecordable_sampleReplay : ∀ m ∈ sampleReplay, m.call.IsRecordable := by
  simp [sampleReplay, sampleIssue, sampleLogin, Call.IsRecordable, isRecordable_sampleRequest]

/-- Where consumed nuts are remembered just as long as nuts are accepted, both requests are
processed. -/
theorem isRun_sampleReplay :
    ∃ issued first pruned second s,
      (sampleServer 600 le_rfl).IsRun sampleReplay [issued, first, pruned, second] s ∧
        issued.minted? = some sampleNut ∧
        LastUse sampleNut [issued, first, pruned] first [pruned] ∧
        IsForgotten (.int 600) first.time [pruned] ∧ second.spends sampleNut = true := by
  obtain ⟨issued, _, hrun, -, hminted, hunused⟩ := isRun_sampleIssue (le_refl 600)
  obtain ⟨first, s, hrun, hfirst, -, hspends⟩ := isRun_sampleLogin (le_refl 600) hrun
    (fun m hm => isRecordable_sampleReplay m (List.mem_append_left [_, _, _] hm))
    isReading_thousand (by decide) rfl (.inl (by simpa using hunused sampleNut))
  have hmoments (m : Moment) (hm : m ∈ [sampleIssue, sampleLogin (.int 1000) sampleNut]) :
      m.call.IsRecordable :=
    isRecordable_sampleReplay m (List.mem_append_left [_, _] hm)
  have hready := hrun.isReady hmoments
  obtain ⟨pruned, _, hstep, hrun, hpruned, -⟩ :=
    hrun.next hmoments ⟨sampleLate, .prune none⟩ trivial
  have huse : LastUse sampleNut [issued, first, pruned] first [pruned] := by
    refine ⟨⟨[issued], rfl⟩, hspends, fun d hd => ?_⟩
    rw [List.mem_singleton.mp hd]
    exact Entry.spends_of_prune (congrArg Moment.call hpruned) sampleNut
  have hforgotten : IsForgotten (.int 600) first.time [pruned] := by
    refine ⟨pruned, List.mem_singleton_self _, sampleLate, ?_, ?_⟩
    · rw [step_prune _ hready] at hstep
      rw [← (Prod.mk.inj hstep).1]
      rfl
    · rw [congrArg Moment.time hfirst, sampleLogin]
      decide +kernel
  obtain ⟨second, s, hrun, -, -, hagain⟩ := isRun_sampleLogin (le_refl 600) hrun
    (fun m hm => isRecordable_sampleReplay m (List.mem_append_left [_] hm))
    isReading_sampleLate (by decide +kernel) rfl (.inr ⟨first, [pruned], huse, hforgotten⟩)
  exact ⟨issued, first, pruned, second, s, hrun, hminted, huse, hforgotten, hagain⟩

/-- A nut that was made in a run can be processed twice. -/
theorem processed_twice :
    ¬ ∀ (server : Server) (moments : List Moment) (history : List Entry) (s : State),
      server.IsRun moments history s → (∀ m ∈ moments, m.call.IsRecordable) → IsOrdered moments →
        ∀ mint ∈ history, ∀ nut, mint.minted? = some nut →
          (history.filter fun e => e.spends nut).length ≤ 1 := by
  intro honce
  obtain ⟨issued, first, pruned, second, s, hrun, hminted, huse, -, hagain⟩ := isRun_sampleReplay
  have hone := honce _ _ _ _ hrun isRecordable_sampleReplay isOrdered_sampleReplay issued
    List.mem_cons_self sampleNut hminted
  have htwo : ([first, second].filter fun e => e.spends sampleNut).length = 2 := by
    simp [huse.spends, hagain]
  have hsub : List.Sublist [first, second] [issued, first, pruned, second] :=
    .cons _ (.cons_cons _ (.cons _ (.refl _)))
  have hle := (hsub.filter fun e => e.spends sampleNut).length_le
  omega

/-- The second request is processed because the nut was consumed as soon as it was made. -/
theorem processed_again_iff_late :
    ∃ before second s, (sampleServer 600 le_rfl).IsRun sampleReplay (before ++ second :: []) s ∧
      second.isProcessed = true := by
  obtain ⟨issued, first, pruned, second, s, hrun, hminted, huse, hforgotten, hagain⟩ :=
    isRun_sampleReplay
  have hmoments := hrun.map_toMoment
  simp only [sampleReplay, List.map_cons, List.map_nil, List.cons.injEq] at hmoments
  obtain ⟨hissued, hfirst, hpruned, hsecond, -⟩ := hmoments
  have hrun : (sampleServer 600 le_rfl).IsRun sampleReplay
      ([issued, first, pruned] ++ second :: []) s := hrun
  have hmint : issued ∈ [issued, first, pruned] ++ second :: [] := List.mem_cons_self
  refine ⟨_, _, _, hrun, (processed_again_iff hrun isRecordable_sampleReplay isOrdered_sampleReplay
    (congrArg Moment.call hsecond) hmint hminted ⟨first, by simp, huse.spends⟩).mpr
      ⟨rfl, check_sampleRequest, ?_, first, [pruned], huse, hforgotten, .inr ⟨rfl, ?_, ?_⟩⟩⟩
  all_goals simp only [hissued, hfirst, hsecond, sampleIssue, sampleLogin]
  all_goals decide +kernel

end Sample

theorem Entry.spends_iff {e : Entry} {nut : String} :
    e.spends nut = true ↔
      (∃ request address, e.call = .handle request nut address) ∧ e.isProcessed = true := by
  constructor
  · intro h
    refine ⟨?_, Entry.isProcessed_of_spends h⟩
    unfold Entry.spends at h
    split at h
    · next request presented address hcall =>
      obtain rfl : presented = nut := of_decide_eq_true (Bool.and_eq_true_iff.mp h).1
      exact ⟨request, address, hcall⟩
    · cases h
  · intro ⟨⟨request, address, hcall⟩, hprocessed⟩
    simp [Entry.spends_of_handle hcall, hprocessed]

/-- A nut that was processed in a run can be read. -/
theorem IsRun.exists_decode (hrun : server.IsRun moments history s)
    (hmoments : ∀ m ∈ moments, m.call.IsRecordable) {nut : String}
    (hspends : ∃ d ∈ history, d.spends nut = true) :
    ∃ presented, Nut.decode server.key nut = .ok presented := by
  obtain ⟨d, hd, hspends⟩ := hspends
  obtain ⟨before, after, rfl⟩ := List.append_of_mem hd
  obtain ⟨_, t, u, -, -, hspec⟩ := hrun.split_spec hmoments
  obtain ⟨⟨request, address, hcall⟩, hprocessed⟩ := Entry.spends_iff.mp hspends
  obtain ⟨presented, _, hgenuine, -⟩ := hspec.transition.of_isProcessed hcall hprocessed
  exact ⟨presented, hgenuine.decode⟩

/-- Where consumed nuts are remembered for longer than nuts are accepted, a nut that was processed
in one spelling is processed again exactly if this spelling of it was not consumed before, or was
consumed before the second in which the nut was made and has been forgotten. -/
theorem processed_spelling_iff {before after : List Entry} {e : Entry}
    (hrun : server.IsRun moments (before ++ e :: after) s)
    (hmoments : ∀ m ∈ moments, m.call.IsRecordable) (hordered : IsOrdered moments)
    (httl : server.settings.nutExpiration + 1 ≤ server.settings.sessionTtl)
    {request : Request} {nut spelling : String} {address : Option String}
    (hcall : e.call = .handle request nut address)
    (hspends : ∃ d ∈ before, d.spends spelling = true)
    (hsame : Base64.Url.decode spelling = Base64.Url.decode nut) :
    ∃ presented, Nut.decode server.key nut = .ok presented ∧
      (e.isProcessed = true ↔
        request.ver = server.settings.version ∧
        Signature.check (some request.signedMessage) request.idk request.ids = .ok () ∧
        e.time.truncate - presented.created ≤ server.settings.nutExpiration ∧
        ((∀ d ∈ before, d.spends nut = false) ∨
          ∃ use between, LastUse nut before use between ∧
            IsForgotten (.int server.settings.sessionTtl) use.time between ∧
            use.time.truncate < presented.created)) := by
  have htime : e.time.IsReading :=
    hordered.reading e.toMoment (hrun.map_toMoment ▸ List.mem_map_of_mem (by simp))
  obtain ⟨presented, hdecode⟩ := hrun.exists_decode hmoments
    (hspends.imp fun d hd => ⟨List.mem_append_left _ hd.1, hd.2⟩)
  rw [Nut.decode_congr server.key hsame] at hdecode
  refine ⟨presented, hdecode, ?_⟩
  rw [hrun.isProcessed_iff hmoments hcall htime]
  constructor
  · intro ⟨⟨other, hgenuine, hfresh⟩, havailable⟩
    obtain rfl : other = presented := Except.ok.inj (hgenuine.decode.symm.trans hdecode)
    refine ⟨hgenuine.version, hgenuine.signature, hfresh, ?_⟩
    refine havailable.imp_right fun ⟨use, between, huse, hforgotten⟩ => ?_
    have hlong := hforgotten.truncate_le huse (hrun.map_toMoment ▸ hordered)
    have hage : e.time.truncate - other.created ≤ server.settings.nutExpiration := hfresh
    exact ⟨use, between, huse, hforgotten, by omega⟩
  · intro ⟨hversion, hsignature, hfresh, havailable⟩
    refine ⟨⟨presented, ⟨hdecode, hversion, hsignature⟩, hfresh⟩, ?_⟩
    exact havailable.imp_right fun ⟨use, between, huse, hforgotten, _⟩ =>
      ⟨use, between, huse, hforgotten⟩

section Sample

def sampleSpellings : List Moment :=
  [sampleIssue, sampleLogin (.int 1000) sampleNut, sampleLogin (.int 1000) (" " ++ sampleNut)]

theorem isOrdered_sampleSpellings : IsOrdered sampleSpellings where
  reading := by simp [sampleSpellings, sampleIssue, sampleLogin, isReading_thousand]
  ordered := by
    have h : (Number.int 1000).lt (.int 1000) = false := by decide +kernel
    simp [sampleSpellings, sampleIssue, sampleLogin, h]
  prune := by simp [sampleSpellings, sampleIssue, sampleLogin]

theorem isRecordable_sampleSpellings : ∀ m ∈ sampleSpellings, m.call.IsRecordable := by
  simp [sampleSpellings, sampleIssue, sampleLogin, Call.IsRecordable, isRecordable_sampleRequest]

theorem decode_sampleNut :
    Base64.Url.decode sampleNut = Base64.Url.decode (" " ++ sampleNut) :=
  (Base64.Url.decode_blank_append sampleNut).symm

theorem isRun_sampleSpellings :
    ∃ issued first second s,
      (sampleServer 900 (by decide)).IsRun sampleSpellings [issued, first, second] s ∧
        (∀ d ∈ [issued, first], d.spends (" " ++ sampleNut) = false) ∧
        first.spends sampleNut = true ∧ second.spends (" " ++ sampleNut) = true := by
  obtain ⟨issued, _, hrun, -, -, hnever⟩ := isRun_sampleIssue (by decide : 600 ≤ 900)
  obtain ⟨first, _, hrun, hfirst, -, hspends⟩ := isRun_sampleLogin (by decide : 600 ≤ 900) hrun
    (fun m hm => isRecordable_sampleSpellings m (List.mem_append_left [_, _] hm))
    isReading_thousand (by decide) rfl (.inl (by simpa using hnever sampleNut))
  have hother : sampleNut ≠ " " ++ sampleNut := by
    intro h
    have hlength := congrArg String.length h
    simp at hlength
  have hunused : ∀ d ∈ [issued, first], d.spends (" " ++ sampleNut) = false := by
    simp [hnever, Entry.spends_of_handle (congrArg Moment.call hfirst), hother]
  obtain ⟨second, s, hrun, -, -, hagain⟩ := isRun_sampleLogin (by decide : 600 ≤ 900) hrun
    (fun m hm => isRecordable_sampleSpellings m (List.mem_append_left [_] hm))
    isReading_thousand (by decide) decode_sampleNut (.inl hunused)
  exact ⟨issued, first, second, s, hrun, hunused, hspends, hagain⟩

/-- Two requests can be processed that present the same bytes. -/
theorem processed_spellings :
    ¬ ∀ (server : Server) (moments : List Moment) (history : List Entry) (s : State),
      server.IsRun moments history s → (∀ m ∈ moments, m.call.IsRecordable) → IsOrdered moments →
        server.settings.nutExpiration + 1 ≤ server.settings.sessionTtl →
          history.Pairwise fun d e => ∀ a b, d.spends a = true → e.spends b = true →
            Base64.Url.decode a ≠ Base64.Url.decode b := by
  intro hdistinctBytes
  obtain ⟨issued, first, second, s, hrun, -, hfirst, hsecond⟩ := isRun_sampleSpellings
  have hdistinct := hdistinctBytes _ _ _ _ hrun isRecordable_sampleSpellings isOrdered_sampleSpellings
    (by decide)
  have hpair : List.Sublist [first, second] [issued, first, second] := .cons _ (.refl _)
  have hneither := (List.pairwise_cons.mp (hdistinct.sublist hpair)).1 second
    (List.mem_singleton_self second)
  exact hneither _ _ hfirst hsecond decode_sampleNut

/-- The second spelling is processed because it was not consumed. -/
theorem processed_spelling_iff_blank :
    ∃ before second s,
      (sampleServer 900 (by decide)).IsRun sampleSpellings (before ++ second :: []) s ∧
        second.isProcessed = true := by
  obtain ⟨issued, first, second, s, hrun, hunused, hfirst, -⟩ := isRun_sampleSpellings
  have hmoments := hrun.map_toMoment
  simp only [sampleSpellings, List.map_cons, List.map_nil, List.cons.injEq] at hmoments
  obtain ⟨-, -, hsecond, -⟩ := hmoments
  have hrun : (sampleServer 900 (by decide)).IsRun sampleSpellings
      ([issued, first] ++ second :: []) s := hrun
  obtain ⟨presented, hdecode, hiff⟩ := processed_spelling_iff hrun isRecordable_sampleSpellings
    isOrdered_sampleSpellings (by decide) (congrArg Moment.call hsecond) ⟨first, by simp, hfirst⟩
    decode_sampleNut
  obtain ⟨other, hcreated, hgenuine⟩ := isGenuine_sample (by decide : 600 ≤ 900) decode_sampleNut
  obtain rfl : other = presented := Except.ok.inj (hgenuine.decode.symm.trans hdecode)
  refine ⟨_, _, _, hrun, hiff.mpr ⟨rfl, check_sampleRequest, ?_, .inl hunused⟩⟩
  rw [hcreated, hsecond]
  decide

end Sample

end Sqrl.Server
