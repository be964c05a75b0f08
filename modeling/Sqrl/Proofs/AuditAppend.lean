import Sqrl.Proofs.AuditTamper
import Sqrl.Proofs.AuditVerdict

/-! What appending does to a log that was there before, when log and head need not belong together. An
event is chained to the head that is read, so the log goes on being a chain just if that is the head
of the log; a log that is refuted stays refuted. -/
namespace Sqrl.Audit

variable {depth limit : Nat} {head mid last prev hash : String} {event : Event}
  {lines before after : List Bytes} {t : Trail}

theorem isChain_append_iff : IsChain depth head (before ++ after) last ↔
    ∃ mid, IsChain depth head before mid ∧ IsChain depth mid after last := by
  induction before generalizing head with
  | nil => simp [IsChain]
  | cons line before ih =>
    simp only [List.cons_append, IsChain, ih]
    constructor
    · rintro ⟨next, hline, mid, hbefore, hafter⟩
      exact ⟨mid, ⟨next, hline, hbefore⟩, hafter⟩
    · rintro ⟨mid, ⟨next, hline, hbefore⟩, hafter⟩
      exact ⟨next, hline, mid, hbefore, hafter⟩

theorem isChain_nil_line (head : String) : IsChain depth head [[]] head :=
  ⟨head, .blank rfl, rfl⟩

/-- An unfinished line of nothing at the end of a log has no part in its verdict. -/
theorem verifyFrom_append_nil_line_eq_true_iff :
    verifyFrom depth head (lines ++ [[]]) = .ok true ↔ ∃ last, IsChain depth head lines last := by
  refine ⟨fun h => ?_, fun ⟨last, hlines⟩ => ?_⟩
  · obtain ⟨last, hchain⟩ := verifyFrom_eq_true_iff.mp h
    obtain ⟨mid, hlines, -⟩ := isChain_append_iff.mp hchain
    exact ⟨mid, hlines⟩
  · exact verifyFrom_of_isChain (isChain_append_iff.mpr ⟨last, hlines, isChain_nil_line last⟩)

theorem verifyFrom_append_nil_line_eq_false_iff :
    verifyFrom depth head (lines ++ [[]]) = .ok false ↔
      BreaksAt depth (Refutes depth) head lines := by
  refine ⟨fun h => ?_, fun h => ?_⟩
  · rcases isChain_or_breaksAt depth head lines with hchain | hrefutes | hstops
    · cases h.symm.trans (verifyFrom_append_nil_line_eq_true_iff.mpr hchain)
    · exact hrefutes
    · obtain ⟨fault, hfault⟩ := exists_verifyFrom_of_stops (hstops.append [[]])
      cases h.symm.trans hfault
  · exact verifyFrom_of_refutes (h.append [[]])

theorem lineEvent?_of_holdsValue {line : Bytes} (h : HoldsValue depth line (.object event)) :
    lineEvent? depth line = some event := by
  rw [lineEvent?]
  split
  · next hblank => exact absurd hblank h.not_isBlank
  · rw [readLine_eq_of_holdsValue h]

/-- The head after lines is the hash of their last event. -/
theorem IsChain.last_eq (h : IsChain depth head lines last) :
    match (lines.filterMap (lineEvent? depth)).getLast? with
    | none => last = head
    | some event => Dictionary.get? event hashField = some (.text last) := by
  induction lines generalizing head with
  | nil => exact Eq.symm h
  | cons line lines ih =>
    obtain ⟨next, hline, hrest⟩ := h
    have hlast := ih hrest
    cases hline with
    | blank hblank =>
      -- A blank line is no event, and keeps the head.
      have hnone : lineEvent? depth line = none := by rw [lineEvent?, hblank]
      rw [List.filterMap_cons_none hnone]
      exact hlast
    | @event event _ hline hnext =>
      rw [List.filterMap_cons_some (lineEvent?_of_holdsValue hline), List.getLast?_cons]
      cases hrests : (lines.filterMap (lineEvent? depth)).getLast? with
      | none =>
        rw [hrests] at hlast
        obtain rfl : last = next := hlast
        exact hnext.hash
      | some event =>
        rw [hrests] at hlast
        exact hlast

namespace Trail

/-- Is the log empty, or does it end with the end of a line? -/
def IsEnded (t : Trail) : Prop := ∀ b ∈ (t.log.getD []).getLast?, b = 0x0A

/-- Is it the head of the log: the hash that its last event holds, or what stands for the digest before
the first event? -/
def HasHead (depth : Nat) (t : Trail) (hash : String) : Prop :=
  match (t.events depth).getLast? with
  | none => hash = genesis
  | some event => Dictionary.get? event hashField = some (.text hash)

theorem HasHead.unique {other : String} (h : t.HasHead depth hash) (hother : t.HasHead depth other) :
    hash = other := by
  unfold HasHead at h hother
  split at h
  · next hnone =>
    rw [hnone] at hother
    exact h.trans hother.symm
  · next event hevent =>
    rw [hevent] at hother
    exact CodePoint.ofString_injective (Json.string.inj (Option.some.inj (h.symm.trans hother)))

/-- The lines of a log that is ended come before those of what is added to it. -/
theorem IsEnded.exists_splitOn_eq (h : t.IsEnded) : ∃ lines,
    Text.splitOn 0x0A (t.log.getD []) = lines ++ [[]] ∧
      ∀ more, Text.splitOn 0x0A (t.log.getD [] ++ more) = lines ++ Text.splitOn 0x0A more := by
  unfold IsEnded at h
  generalize t.log.getD [] = log at h
  rcases List.eq_nil_or_concat' log with rfl | ⟨body, b, rfl⟩
  · exact ⟨[], rfl, fun more => rfl⟩
  · obtain rfl : b = 0x0A := h b (by simp)
    refine ⟨Text.splitOn 0x0A body, Text.splitOn_append_sep body [], fun more => ?_⟩
    rw [List.append_assoc, List.singleton_append, Text.splitOn_append_sep]

/-- What an event adds to the log: its line, or nothing. -/
theorem exists_log_appendWithin (depth : Nat) (t : Trail) (event : Event) : ∃ more,
    (t.appendWithin depth event).2.log.getD [] = t.log.getD [] ++ more ∧
      ∀ b ∈ more.getLast?, b = 0x0A := by
  have hnothing : ∃ more, t.log.getD [] = t.log.getD [] ++ more ∧ ∀ b ∈ more.getLast?, b = 0x0A :=
    ⟨[], (List.append_nil _).symm, by simp⟩
  rw [appendWithin]
  split
  · exact hnothing
  · next head _ =>
    split
    · exact hnothing
    · next hash _ => exact ⟨line (chained head hash event), rfl, by simp [line]⟩

theorem IsEnded.append {more : Bytes} {after : Trail} (h : t.IsEnded)
    (hlog : after.log.getD [] = t.log.getD [] ++ more) (hmore : ∀ b ∈ more.getLast?, b = 0x0A) :
    after.IsEnded := by
  rcases List.eq_nil_or_concat' more with rfl | ⟨body, b, rfl⟩
  · rwa [IsEnded, hlog, List.append_nil]
  · rw [IsEnded, hlog, ← List.append_assoc, List.getLast?_concat]
    simpa using hmore

theorem IsEnded.appendWithin (h : t.IsEnded) (depth : Nat) (event : Event) :
    (t.appendWithin depth event).2.IsEnded := by
  obtain ⟨more, hlog, hmore⟩ := exists_log_appendWithin depth t event
  exact h.append hlog hmore

theorem verifyWithin_append_of_eq_false {more : Bytes} {after : Trail} (hended : t.IsEnded)
    (h : t.verifyWithin limit = .ok false) (hlog : after.log.getD [] = t.log.getD [] ++ more) :
    after.verifyWithin limit = .ok false := by
  obtain ⟨lines, hlines, hmore⟩ := hended.exists_splitOn_eq
  rw [verifyWithin_eq, hlines, verifyFrom_append_nil_line_eq_false_iff] at h
  rw [verifyWithin_eq, hlog, hmore]
  -- The line that refutes the log is still the first one that does not go on with the chain.
  exact verifyFrom_of_refutes (h.append _)

/-- Appends events one after the other, each time with the given file of the head. -/
def appendEach (depth : Nat) (t : Trail) : List (Option Bytes × Event) → Trail
  | [] => t
  | (state, event) :: rest =>
    appendEach depth (appendWithin depth { t with state := state } event).2 rest

theorem verifyWithin_appendEach (hended : t.IsEnded) (h : t.verifyWithin limit = .ok false)
    (steps : List (Option Bytes × Event)) :
    (t.appendEach depth steps).verifyWithin limit = .ok false := by
  induction steps generalizing t with
  | nil => exact h
  | cons step steps ih =>
    obtain ⟨state, event⟩ := step
    have hstate : IsEnded { t with state := state } := hended
    obtain ⟨more, hlog, -⟩ := exists_log_appendWithin depth { t with state := state } event
    exact ih (hstate.appendWithin depth event) (verifyWithin_append_of_eq_false hended h hlog)

theorem appendWithin_of_body_error {fault : Json.CanonicalFault}
    (h : body depth event = .error fault) : ∃ refusal after,
      t.appendWithin depth event = (.error refusal, after) ∧ after.log = t.log ∧
        after.state = t.state := by
  have hdigest (head : String) : digest depth head event = .error fault := by
    rw [body] at h
    rw [digest, h]
    rfl
  simp only [appendWithin, hdigest]
  split
  · exact ⟨_, _, rfl, rfl, rfl⟩
  · exact ⟨_, _, rfl, rfl, rfl⟩

theorem splitOn_line (htext : (Json.object event).HasText) :
    Text.splitOn 0x0A (line event) = [Utf8.encode (lineText event), []] :=
  Text.splitOn_append_cons (not_mem_encode_lineText htext) []

/-- From a head on, the line of an event that was chained to another one refutes the log. -/
theorem verifyFrom_line_chained (hform : (Json.object event).IsWellFormed)
    (hdigest : digest depth prev event = .ok hash) (head : String) :
    verifyFrom depth head (Text.splitOn 0x0A (line (chained prev hash event))) =
      .ok (decide (prev = head)) := by
  obtain ⟨hwritable, hdepth⟩ := isWritable_chained prev hash hform ⟨hash, hdigest⟩
  rw [splitOn_line hwritable.hasText]
  by_cases hsame : prev = head
  · subst hsame
    rw [verifyFrom_cons hform hdigest, decide_eq_true rfl]
    rfl
  · rw [verifyFrom_line hwritable hdepth, follow_chained_of_ne hform (Ne.symm hsame),
      decide_eq_false hsame]

/-- A log that verifies has a head, and goes on verifying after an event just if it is the head that
the event was chained to. -/
theorem exists_hasHead_of_verifyWithin (hended : t.IsEnded) (h : t.verifyWithin limit = .ok true) :
    ∃ head, t.HasHead limit head ∧ ∀ {prev hash : String} {event : Event} {after : Trail},
      (Json.object event).IsWellFormed → digest limit prev event = .ok hash →
        after.log = some (t.log.getD [] ++ line (chained prev hash event)) →
          after.verifyWithin limit = .ok (decide (prev = head)) := by
  obtain ⟨lines, hlines, hmore⟩ := hended.exists_splitOn_eq
  rw [verifyWithin_eq, hlines, verifyFrom_append_nil_line_eq_true_iff] at h
  obtain ⟨head, hchain⟩ := h
  have hevents : t.events limit = lines.filterMap (lineEvent? limit) := by
    rw [events, hlines, List.filterMap_append]
    exact List.append_nil _
  refine ⟨head, by rw [HasHead, hevents]; exact hchain.last_eq, ?_⟩
  intro prev hash event after hform hdigest hlog
  rw [verifyWithin_eq, hlog, Option.getD_some, hmore, hchain.verifyFrom_append,
    verifyFrom_line_chained hform hdigest]

theorem head_eq_of_state {s : Option (List Char)} (h : t.state = s.map Utf8.encode) :
    t.head = .ok (s.elim genesis headOfText) := by
  cases s with
  | none => rw [head, h]; rfl
  | some s => simp only [head, h, Option.map_some, Utf8.decode_encode]; rfl

/-- What appending does to a log that is ended, whatever the file of the head holds. If the log
verifies, an event that can be written is appended, and the log then verifies just if the head that
was read is that of the log. If it is refuted, it stays refuted. An event that cannot be written
changes neither file. -/
theorem append_verdict (hlimit : depth ≤ limit) (hended : t.IsEnded) :
    (t.verifyWithin limit = .ok true → ∃ head, t.HasHead limit head ∧
      ∀ (s : Option (List Char)) (event : Event), t.state = s.map Utf8.encode →
        (Json.object event).IsWellFormed → (∃ bytes, body depth event = .ok bytes) →
          ∃ hash after, t.appendWithin depth event = (.ok hash, after) ∧
            after.verifyWithin limit = .ok (decide (s.elim genesis headOfText = head))) ∧
    (t.verifyWithin limit = .ok false → ∀ steps : List (Option Bytes × Event),
      (t.appendEach depth steps).verifyWithin limit = .ok false) ∧
    ∀ (event : Event) (fault : Json.CanonicalFault), body depth event = .error fault →
      ∃ refusal after, t.appendWithin depth event = (.error refusal, after) ∧
        after.log = t.log ∧ after.state = t.state := by
  refine ⟨fun h => ?_, verifyWithin_appendEach hended, fun _ _ => appendWithin_of_body_error⟩
  obtain ⟨head, hhead, hverify⟩ := exists_hasHead_of_verifyWithin hended h
  refine ⟨head, hhead, fun s event hstate hform hbody => ?_⟩
  obtain ⟨hash, hdigest⟩ := exists_digest_iff_canonical.mpr hbody
  exact ⟨hash, _, appendWithin_ok (head_eq_of_state hstate) hdigest,
    hverify hform (digest_mono hlimit hdigest) rfl⟩

theorem IsWritten.hasHead {appended : List (Event × String)} (h : IsWritten depth t appended) :
    t.HasHead depth (headAfter genesis appended) := by
  have hhead := h.isHead_before (List.append_nil appended).symm
  rw [← h.events_eq] at hhead
  rw [HasHead]
  split
  · next hnone =>
    rw [List.getLast?_eq_none_iff.mp hnone] at hhead
    exact hhead
  · next event hevent =>
    obtain ⟨older, holder⟩ := List.getLast?_eq_some_iff.mp hevent
    rw [holder, List.reverse_append] at hhead
    exact hhead.get?_hashField

theorem IsWritten.isEnded {appended : List (Event × String)} (h : IsWritten depth t appended) :
    t.IsEnded := by
  rw [IsEnded, h.log]
  rcases List.eq_nil_or_concat' (links genesis appended) with hnil | ⟨older, event, hlast⟩
  · simp [hnil]
  · simp [hlast, line]

section Sample

def sampleReading : Event :=
  [(CodePoint.ofString "ts", .number (.float (.finite ((1000 : Nat) * Binary64.one))))]

def sampleSurrogate : Event := [(CodePoint.ofString "agent", .string [CodePoint.ofNat 0xD800])]

theorem isWellFormed_sampleReading : (Json.object sampleReading).IsWellFormed := by
  have hdouble : Binary64.IsDouble (.finite ((1000 : Nat) * Binary64.one)) :=
    Binary64.ofInt_natCast (by decide)
  exact Json.isWellFormed_object_iff.mpr ⟨by decide,
    List.forall_mem_singleton.mpr (Json.throughout_number_iff.mpr hdouble)⟩

theorem exists_body_sampleReading : ∃ bytes, body Json.maxDepth sampleReading = .ok bytes := by
  refine ⟨_, Json.canonicalWithin_eq_ok_iff.mpr ⟨⟨by decide, ?_, ?_⟩, rfl⟩⟩
  · exact Json.hasShortNumbers_object_iff.mpr
      (List.forall_mem_singleton.mpr (Json.throughout_number_iff.mpr trivial))
  · exact Json.hasText_object_iff.mpr (List.forall_mem_singleton.mpr
      ⟨CodePoint.isScalar_ofChars _, Json.throughout_number_iff.mpr trivial⟩)

def sampleHead : String := "2dccbf9e14fd79240fc9444d2d17dc113ec7938472b0baf34a030781c490029a"

def sampleStaleHead : String := "4d6f4c1284c54019042a37a7330dea921744596fb0be73ebb18f1e203900fa29"

def withState (t : Trail) (s : List Char) : Trail := { t with state := some (Utf8.encode s) }

/-- The head of the log was not stored after its last event, that of the first one is still there: the
next event refutes the log for good. With the head stored it goes on verifying. -/
theorem append_verdict_stale : ∃ t : Trail, t.verify = .ok true ∧ t.IsEnded ∧
    (∃ hash after, (t.withState (sampleStaleHead.toList ++ ['\n'])).append sampleReading =
        (.ok hash, after) ∧ after.verify = .ok false ∧
        (after.appendEach Json.maxDepth [(none, sampleReading)]).verify = .ok false) ∧
    (∃ hash after, (t.withState (sampleHead.toList ++ ['\n'])).append sampleReading =
        (.ok hash, after) ∧ after.verify = .ok true) ∧
    ∃ refusal after, t.append sampleSurrogate = (.error refusal, after) ∧
      after.log = t.log ∧ after.state = t.state := by
  obtain ⟨t, -, hwritten⟩ := exists_sampleTrail
  have hended : t.IsEnded := hwritten.isEnded
  have hverify : t.verify = .ok true := hwritten.verifyWithin_eq
  have hhead : t.HasHead Json.maxDepth sampleHead := hwritten.hasHead
  have hchain (s : List Char) : ∃ hash after,
      (t.withState s).append sampleReading = (.ok hash, after) ∧
        after.verify = .ok (decide (headOfText s = sampleHead)) := by
    have hstate : IsEnded (t.withState s) := hended
    obtain ⟨head, hfound, happend⟩ := (append_verdict (Nat.le_refl Json.maxDepth) hstate).1 hverify
    obtain rfl := hhead.unique hfound
    exact happend (some s) sampleReading rfl isWellFormed_sampleReading exists_body_sampleReading
  refine ⟨t, hverify, hended, ?_, ?_, ?_⟩
  · obtain ⟨hash, after, happend, hafter⟩ := hchain (sampleStaleHead.toList ++ ['\n'])
    have hrefuted : after.verify = .ok false := hafter.trans (by decide +kernel)
    have hstate : IsEnded (t.withState (sampleStaleHead.toList ++ ['\n'])) := hended
    have hsame : ((t.withState (sampleStaleHead.toList ++ ['\n'])).append sampleReading).2 = after :=
      congrArg Prod.snd happend
    have hafterEnded : after.IsEnded := hsame ▸ hstate.appendWithin Json.maxDepth sampleReading
    exact ⟨hash, after, happend, hrefuted,
      (append_verdict (Nat.le_refl Json.maxDepth) hafterEnded).2.1 hrefuted _⟩
  · obtain ⟨hash, after, happend, hafter⟩ := hchain (sampleHead.toList ++ ['\n'])
    exact ⟨hash, after, happend, hafter.trans (by decide +kernel)⟩
  · have hsurrogate : body Json.maxDepth sampleSurrogate =
        .error (.surrogates ⟨10, [CodePoint.ofNat 0xD800]⟩) := by
      decide +kernel
    exact (append_verdict (Nat.le_refl Json.maxDepth) hended).2.2 _ _ hsurrogate

end Sample

end Trail

end Sqrl.Audit
