import Sqrl.Proofs.Audit
import Sqrl.Proofs.JsonText

/-! The log after any events have been appended to an empty trail: it is a chain, and it holds the
events that were appended, in their order. What is hashed is the event as it is given, what is
verified is the line that was read, and the two have one canonical text. -/
namespace Sqrl

namespace Audit

variable {depth limit : Nat} {head hash prev : String} {event : Event}

/-! Digests. -/

theorem exists_of_digest (h : digest depth head event = .ok hash) :
    ∃ message, hash = Bytes.toHex (sha3 message) := by
  rw [digest] at h
  cases hcanonical : (Json.object (bare event)).canonicalWithin depth with
  | error fault => simp [hcanonical, Except.map] at h
  | ok bytes =>
    simp only [hcanonical, Except.map, Except.ok.injEq] at h
    exact ⟨_, h.symm⟩

theorem digest_mono (hlimit : depth ≤ limit) (h : digest depth head event = .ok hash) :
    digest limit head event = .ok hash := by
  obtain ⟨bytes, hbytes⟩ := exists_digest_iff_canonical.mp ⟨hash, h⟩
  obtain ⟨⟨hdepth, hplain⟩, htext⟩ := Json.canonicalWithin_eq_ok_iff.mp hbytes
  have hmore : (Json.object (bare event)).canonicalWithin limit = .ok bytes :=
    Json.canonicalWithin_eq_ok_iff.mpr ⟨⟨hdepth.trans hlimit, hplain⟩, htext⟩
  rwa [digest, hmore, ← hbytes, ← digest]

/-! The event of a line. -/

theorem not_mem_bare {field : List CodePoint} (h : field = previousField ∨ field = hashField) :
    field ∉ (bare event).map Prod.fst := by
  intro hmem
  obtain ⟨e, he, rfl⟩ := List.mem_map.mp hmem
  simp only [bare, Dictionary.erase, List.mem_filter, decide_eq_true_eq] at he
  exact h.elim he.1.2 he.2

theorem chained_eq (head hash : String) (event : Event) :
    chained head hash event =
      bare event ++ [(previousField, .text head), (hashField, .text hash)] := by
  have hne : hashField ≠ previousField := by decide
  rw [chained, Dictionary.put_of_not_mem (not_mem_bare (.inl rfl)), Dictionary.put_of_not_mem,
    List.append_assoc]
  · rfl
  · simpa [hne] using not_mem_bare (.inr rfl)

theorem bare_chained : bare (chained head hash event) = bare event := by
  have hkeep : ∀ e ∈ bare event, e.1 ≠ previousField ∧ e.1 ≠ hashField := by
    intro e he
    exact ⟨fun heq => not_mem_bare (.inl heq) (List.mem_map_of_mem he),
      fun heq => not_mem_bare (.inr heq) (List.mem_map_of_mem he)⟩
  have hsame : bare (bare event) = bare event := by
    rw [bare, Dictionary.erase, Dictionary.erase, List.filter_filter, List.filter_eq_self]
    intro e he
    simp [hkeep e he]
  rw [chained_eq, bare, Dictionary.erase, Dictionary.erase, List.filter_append,
    List.filter_append]
  exact (congrArg (· ++ []) hsame).trans (List.append_nil _)

theorem forall_mem_chained_iff {p : List CodePoint × Json → Prop} :
    (∀ e ∈ chained head hash event, p e) ↔
      (∀ e ∈ bare event, p e) ∧ p (previousField, .text head) ∧ p (hashField, .text hash) := by
  rw [chained_eq, List.forall_mem_append, List.forall_mem_cons, List.forall_mem_singleton]

theorem nodup_chained (head hash : String) (h : ((bare event).map Prod.fst).Nodup) :
    ((chained head hash event).map Prod.fst).Nodup := by
  have hne : previousField ≠ hashField := by decide
  rw [chained_eq, List.map_append]
  refine h.append (by simpa using hne) fun k hk hfield => ?_
  have hfield : k = previousField ∨ k = hashField := by simpa using hfield
  exact not_mem_bare hfield hk

theorem isData_chained (head hash : String) (hdata : (Json.object event).IsData) :
    (Json.object (chained head hash event)).IsData := by
  obtain ⟨hkeys, hmembers⟩ := isData_bare hdata
  refine ⟨nodup_chained head hash hkeys, Json.membersAreData_iff.mpr ?_⟩
  exact forall_mem_chained_iff.mpr ⟨Json.membersAreData_iff.mp hmembers,
    ⟨CodePoint.isScalar_ofChars _, Json.isPlain_text head⟩,
    CodePoint.isScalar_ofChars _, Json.isPlain_text hash⟩

theorem isWellFormed_chained (head hash : String) (hform : (Json.object event).IsWellFormed) :
    (Json.object (chained head hash event)).IsWellFormed := by
  obtain ⟨hkeys, hmembers⟩ := Json.isWellFormed_object_iff.mp (isWellFormed_bare hform)
  refine Json.isWellFormed_object_iff.mpr ⟨nodup_chained head hash hkeys, ?_⟩
  exact forall_mem_chained_iff.mpr ⟨hmembers, (Json.isWritable_text head).isWellFormed,
    (Json.isWritable_text hash).isWellFormed⟩

theorem nesting_chained_le (head hash : String)
    (h : (Json.object (bare event)).nesting ≤ depth) :
    (Json.object (chained head hash event)).nesting ≤ depth := by
  refine Nat.le_trans (Nat.add_le_add_right ?_ 1) h
  rw [Json.membersNesting_le_iff]
  exact forall_mem_chained_iff.mpr
    ⟨Json.membersNesting_le_iff.mp le_rfl, Nat.zero_le _, Nat.zero_le _⟩

theorem isWritable_chained (head hash : String) (hform : (Json.object event).IsWellFormed)
    (hdigest : ∃ next, digest depth prev event = .ok next) :
    (Json.object (chained head hash event)).IsWritable ∧
      (Json.object (chained head hash event)).nesting ≤ depth := by
  obtain ⟨bytes, hbytes⟩ := exists_digest_iff_canonical.mp hdigest
  obtain ⟨⟨hdepth, hshort, htext⟩, -⟩ := Json.canonicalWithin_eq_ok_iff.mp hbytes
  refine ⟨⟨isWellFormed_chained head hash hform, ?_, ?_⟩, nesting_chained_le head hash hdepth⟩
  · exact Json.hasShortNumbers_object_iff.mpr (forall_mem_chained_iff.mpr
      ⟨Json.hasShortNumbers_object_iff.mp hshort, (Json.isWritable_text head).hasShortNumbers,
        (Json.isWritable_text hash).hasShortNumbers⟩)
  · exact Json.hasText_object_iff.mpr (forall_mem_chained_iff.mpr
      ⟨Json.hasText_object_iff.mp htext,
        ⟨CodePoint.isScalar_ofChars _, (Json.isWritable_text head).hasText⟩,
        CodePoint.isScalar_ofChars _, (Json.isWritable_text hash).hasText⟩)

theorem sortedMembers_bare {members : Event} (hform : (Json.object members).IsWellFormed) :
    Json.sortedMembers (bare (Json.sortedMembers members)) = Json.sortedMembers (bare members) := by
  simp only [bare, Dictionary.erase, List.filter_filter]
  exact Json.sortedMembers_filter (fun k => decide (k ≠ hashField) && decide (k ≠ previousField))
    hform

/-- The digest of an event does not depend on the order of its members. -/
theorem digest_sortedMembers {members : Event} (hform : (Json.object members).IsWellFormed) :
    digest depth head (Json.sortedMembers members) = digest depth head members := by
  have hsorted : (Json.object (bare (Json.sortedMembers members))).sorted =
      (Json.object (bare members)).sorted := by
    rw [Json.sorted, Json.sorted, sortedMembers_bare hform]
  simp only [digest, Json.canonicalWithin, Json.canonicalText, hsorted]

theorem holds_sortedMembers {members : Event} {field : List CodePoint} {s : String}
    (hkeys : (members.map Prod.fst).Nodup) (h : (field, Json.text s) ∈ members) :
    holds field s (Json.sortedMembers members) = true := by
  have hmem : (field, Json.text s) ∈ Json.sortedMembers members :=
    Json.mem_sortedMembers.mpr ⟨_, h, rfl⟩
  rw [holds, Dictionary.get?_of_mem (Json.nodup_sortedMembers hkeys) hmem]
  exact beq_self_eq_true _

/-- An event that is read back follows the head that it was chained to. -/
theorem follow_chained (hform : (Json.object event).IsWellFormed)
    (h : digest depth head event = .ok hash) :
    follow depth head (Json.sortedMembers (chained head hash event)) = .ok (some hash) := by
  have hchained := isWellFormed_chained head hash hform
  have hkeys := (Json.isWellFormed_object_iff.mp hchained).1
  have hprevious : (previousField, Json.text head) ∈ chained head hash event := by
    simp [chained_eq]
  have hhash : (hashField, Json.text hash) ∈ chained head hash event := by
    simp [chained_eq]
  have hdigest : digest depth head (chained head hash event) = .ok hash := by
    rw [digest, bare_chained, ← digest, h]
  rw [follow, if_pos (holds_sortedMembers hkeys hprevious), digest_sortedMembers hchained,
    hdigest]
  simp only [holds_sortedMembers hkeys hhash, if_true]

/-! Lines. -/

def lineText (event : Event) : List Char := Json.compactText (Json.object event).sorted

theorem line_eq (event : Event) : Trail.line event = Utf8.encode (lineText event ++ ['\n']) := by
  rw [Utf8.encode_append]
  rfl

theorem exists_lineText_eq (event : Event) :
    ∃ s, lineText event = '\x7b' :: (s ++ ['\x7d']) :=
  Json.exists_compactText_object_eq _

theorem not_mem_lineText (htext : (Json.object event).HasText) {c : Char} (hc : c.toNat < 0x20) :
    c ∉ lineText event := by
  intro hmem
  have hplain := ((Json.hasText_sorted_iff _).mpr htext).hasNoControl_compactText
  exact Nat.not_le.mpr hc (Json.hasNoControl_iff.mp hplain c hmem)

theorem not_mem_encode_lineText (htext : (Json.object event).HasText) :
    0x0A ∉ Utf8.encode (lineText event) := by
  intro hmem
  obtain ⟨c, hc, hbyte⟩ := Utf8.exists_of_mem_encode hmem (by decide)
  exact not_mem_lineText htext (hbyte ▸ by decide) hc

theorem exists_encode_lineText_eq (event : Event) :
    ∃ bytes, Utf8.encode (lineText event) = 0x7B :: (bytes ++ [0x7D]) := by
  obtain ⟨s, hs⟩ := exists_lineText_eq event
  refine ⟨Utf8.encode s, ?_⟩
  rw [hs, ← List.singleton_append, Utf8.encode_append, Utf8.encode_append]
  rfl

theorem readWithin_lineText (hwritable : (Json.object event).IsWritable)
    (hdepth : (Json.object event).nesting ≤ depth) :
    Json.readWithin depth (lineText event) = .ok (Json.object event).sorted :=
  hwritable.sorted.readWithin_compactText ((Json.nesting_sorted_le_iff _).mpr hdepth)

theorem readLine_lineText (hwritable : (Json.object event).IsWritable)
    (hdepth : (Json.object event).nesting ≤ depth) :
    readLine depth (Utf8.encode (lineText event)) =
      .ok (some (.object (Json.sortedMembers event))) := by
  rw [readLine, Utf8.decode_encode]
  simp only [readWithin_lineText hwritable hdepth, Json.sorted]

theorem trim_lineText (event : Event) :
    Text.trim isBlankByte (Utf8.encode (lineText event)) = Utf8.encode (lineText event) := by
  obtain ⟨bytes, hbytes⟩ := exists_encode_lineText_eq event
  rw [hbytes, Text.trim_eq_self (by decide) (by decide)]

/-- The verdict on a line that holds an event depends on whether the event follows the head. -/
theorem verifyFrom_line (hwritable : (Json.object event).IsWritable)
    (hdepth : (Json.object event).nesting ≤ depth) (head : String) (rest : List Bytes) :
    verifyFrom depth head (Utf8.encode (lineText event) :: rest) =
      match follow depth head (Json.sortedMembers event) with
      | .error fault => .error fault
      | .ok none => .ok false
      | .ok (some hash) => verifyFrom depth hash rest := by
  have hread := readLine_lineText hwritable hdepth
  have htrim := trim_lineText event
  obtain ⟨bytes, hbytes⟩ := exists_encode_lineText_eq event
  rw [hbytes] at hread htrim ⊢
  rw [verifyFrom, htrim]
  cases hfollow : follow depth head (Json.sortedMembers event) with
  | error fault => simp only [hread, hfollow]
  | ok hash => cases hash <;> simp only [hread, hfollow]

theorem verifyFrom_cons (hform : (Json.object event).IsWellFormed)
    (h : digest depth head event = .ok hash) (rest : List Bytes) :
    verifyFrom depth head (Utf8.encode (lineText (chained head hash event)) :: rest) =
      verifyFrom depth hash rest := by
  obtain ⟨hwritable, hdepth⟩ := isWritable_chained head hash hform ⟨hash, h⟩
  rw [verifyFrom_line hwritable hdepth, follow_chained hform h]

namespace Trail

theorem unifyLineEnds_of_not_mem {s : List Char} (h : '\r' ∉ s) : unifyLineEnds s = s := by
  induction s with
  | nil => rfl
  | cons c s ih =>
    rw [List.mem_cons, not_or] at h
    simp [unifyLineEnds, Ne.symm h.1, ih h.2]

theorem readLines_cons (hdata : (Json.object event).IsData)
    (hdepth : (Json.object event).nesting ≤ depth) (rest : List (List Char)) :
    readLines depth (lineText event :: rest) =
      ((Json.object event).sorted :: ·) <$> readLines depth rest := by
  obtain ⟨s, hs⟩ := exists_lineText_eq event
  have hstrip : Text.strip (lineText event) ≠ [] := by
    rw [hs, Text.strip, Text.trim_eq_self (by decide) (by decide)]
    exact List.cons_ne_nil _ _
  rw [readLines, if_neg hstrip, readWithin_lineText hdata.isWritable hdepth]

theorem headOfText_toHex (message : Bytes) :
    headOfText ((Bytes.toHex (sha3 message)).toList ++ ['\n']) = Bytes.toHex (sha3 message) := by
  have hdigit : ∀ n < 16, Text.isBlank (Bytes.hexDigit n) = false ∧ Bytes.hexDigit n ≠ '\r' ∧
      (Bytes.hexDigit n).toLower = Bytes.hexDigit n := by
    decide
  have hhex : ∀ c ∈ Bytes.hex (sha3 message),
      Text.isBlank c = false ∧ c ≠ '\r' ∧ c.toLower = c := by
    intro c hc
    obtain ⟨n, hn, rfl⟩ := Bytes.mem_hex hc
    exact hdigit n hn
  have hends : '\r' ∉ Bytes.hex (sha3 message) ++ ['\n'] := by
    simpa using fun hmem => (hhex _ hmem).2.1 rfl
  have hlower : (Bytes.hex (sha3 message)).map Char.toLower = Bytes.hex (sha3 message) :=
    (List.map_congr_left fun c hc => (hhex c hc).2.2).trans (List.map_id _)
  rw [Bytes.toHex, String.toList_ofList, headOfText, unifyLineEnds_of_not_mem hends,
    Text.strip_append_newline fun c hc => (hhex c hc).1]
  simp [Bytes.readHex?_hex, hlower]

end Trail

/-! Chains. -/

/-- Is each hash the digest of its event after the hash before? -/
def Linked (depth : Nat) : String → List (Event × String) → Prop
  | _, [] => True
  | head, (event, hash) :: rest => digest depth head event = .ok hash ∧ Linked depth hash rest

/-- The events with the fields of the chain, from a head on: each one holds the hash before it and
its own. -/
def links : String → List (Event × String) → List Event
  | _, [] => []
  | head, (event, hash) :: rest => chained head hash event :: links hash rest

variable {appended : List (Event × String)}

theorem Linked.mono (hlimit : depth ≤ limit) (h : Linked depth head appended) :
    Linked limit head appended := by
  induction appended generalizing head with
  | nil => trivial
  | cons e appended ih => exact ⟨digest_mono hlimit h.1, ih h.2⟩

theorem verifyFrom_links (hdata : ∀ e ∈ appended, (Json.object e.1).IsData)
    (h : Linked depth head appended) :
    verifyFrom depth head (Text.splitOn 0x0A ((links head appended).flatMap Trail.line)) =
      .ok true := by
  induction appended generalizing head with
  | nil => rfl
  | cons e appended ih =>
    obtain ⟨hfirst, hrest⟩ := List.forall_mem_cons.mp hdata
    obtain ⟨hdigest, hlinked⟩ := h
    have hpiece := Text.splitOn_append_cons
      (not_mem_encode_lineText (isData_chained head e.2 hfirst).isWritable.hasText)
    have hline (event : Event) (rest : Bytes) :
        Trail.line event ++ rest = Utf8.encode (lineText event) ++ 0x0A :: rest := by
      simp [Trail.line, lineText, Json.compactText, Json.canonicalText]
    rw [links, List.flatMap_cons, hline, hpiece, verifyFrom_cons hfirst.isWritable.isWellFormed hdigest]
    exact ih hrest hlinked

theorem isData_links (hdata : ∀ e ∈ appended, (Json.object e.1).IsData)
    (h : Linked depth head appended) : ∀ event ∈ links head appended,
      (Json.object event).IsData ∧ (Json.object event).nesting ≤ depth := by
  induction appended generalizing head with
  | nil => simp [links]
  | cons e appended ih =>
    obtain ⟨hfirst, hrest⟩ := List.forall_mem_cons.mp hdata
    have hdepth := (exists_digest_iff hfirst).mp ⟨_, h.1⟩
    exact List.forall_mem_cons.mpr
      ⟨⟨isData_chained head e.2 hfirst, nesting_chained_le head e.2 hdepth⟩, ih hrest h.2⟩

namespace Trail

theorem readLines_lineTexts {events : List Event}
    (h : ∀ event ∈ events, (Json.object event).IsData ∧ (Json.object event).nesting ≤ depth) :
    readLines depth (Text.splitOn '\n' (events.flatMap fun event => lineText event ++ ['\n'])) =
      .ok (events.map fun event => (Json.object event).sorted) := by
  induction events with
  | nil => rfl
  | cons event events ih =>
    obtain ⟨⟨hdata, hdepth⟩, hevents⟩ := List.forall_mem_cons.mp h
    rw [List.flatMap_cons, List.append_assoc, List.singleton_append,
      Text.splitOn_append_cons (not_mem_lineText hdata.isWritable.hasText (by decide)),
      readLines_cons hdata hdepth, ih hevents]
    rfl

theorem readLog_lines {events : List Event}
    (h : ∀ event ∈ events, (Json.object event).IsData ∧ (Json.object event).nesting ≤ depth) :
    readLog depth (events.flatMap line) =
      .ok (events.map fun event => (Json.object event).sorted) := by
  have hbytes : events.flatMap line =
      Utf8.encode (events.flatMap fun event => lineText event ++ ['\n']) := by
    simp only [Utf8.encode, List.flatMap_assoc]
    exact List.flatMap_congr fun event _ => line_eq event
  have hends : '\r' ∉ events.flatMap fun event => lineText event ++ ['\n'] := by
    intro hmem
    obtain ⟨event, hevent, hmem⟩ := List.mem_flatMap.mp hmem
    have hmem : '\r' ∈ lineText event := by simpa using hmem
    exact not_mem_lineText (h event hevent).1.isWritable.hasText (by decide) hmem
  rw [hbytes, readLog, Utf8.decode_encode]
  simp only [unifyLineEnds_of_not_mem hends]
  exact readLines_lineTexts h

/-- What an event does to a trail with a head: it follows the head and its hash is the next one,
or it is nested too deeply and changes neither log nor head. -/
inductive AppendSpec (depth : Nat) (t : Trail) (head : String) (event : Event) :
    Except AppendFault String × Trail → Prop
  | appended {hash : String} {after : Trail} (hdigest : digest depth head event = .ok hash)
      (hhead : after.head = .ok hash)
      (hlog : after.log = some (t.log.getD [] ++ line (chained head hash event)))
      (hstate : after.state = some (Utf8.encode hash.toList ++ [0x0A])) :
      AppendSpec depth t head event (.ok hash, after)
  | refused (fault : AppendFault) {after : Trail}
      (hdeep : ¬ (Json.object (bare event)).nesting ≤ depth) (hhead : after.head = .ok head)
      (hlog : after.log = t.log) (hstate : after.state = t.state) :
      AppendSpec depth t head event (.error fault, after)

theorem appendWithin_spec (depth : Nat) {t : Trail} (hhead : t.head = .ok head)
    (hdata : (Json.object event).IsData) :
    AppendSpec depth t head event (t.appendWithin depth event) := by
  cases hdigest : digest depth head event with
  | ok hash =>
    rw [appendWithin_ok hhead hdigest]
    refine .appended hdigest ?_ rfl rfl
    obtain ⟨message, rfl⟩ := exists_of_digest hdigest
    rw [head_write, headOfText_toHex]
  | error fault =>
    rw [appendWithin_error hhead hdigest]
    refine .refused _ ?_ hhead rfl rfl
    intro hdepth
    obtain ⟨hash, hok⟩ := (exists_digest_iff hdata).mpr hdepth
    cases hdigest.symm.trans hok

/-- Appends events one after the other. The events that were appended come with the hashes that
were returned for them. -/
def appendAll (depth : Nat) (t : Trail) : List Event → List (Event × String) × Trail
  | [] => ([], t)
  | event :: rest =>
    match t.appendWithin depth event with
    | (.ok hash, t) => ((event, hash) :: (t.appendAll depth rest).1, (t.appendAll depth rest).2)
    | (.error _, t) => t.appendAll depth rest

/-- What is left of events that were appended to a trail with a head. -/
structure AppendAllSpec (depth : Nat) (t : Trail) (head : String) (events : List Event)
    (appended : List (Event × String)) (after : Trail) : Prop where
  linked : Linked depth head appended
  events : appended.map Prod.fst =
    events.filter fun event => (Json.object (bare event)).nesting ≤ depth
  log : after.log.getD [] = t.log.getD [] ++ (links head appended).flatMap line
  state : after.state = match appended.getLast? with
    | none => t.state
    | some last => some (Utf8.encode last.2.toList ++ [0x0A])

theorem appendAll_spec (depth : Nat) {t : Trail} (hhead : t.head = .ok head) {events : List Event}
    (hdata : ∀ event ∈ events, (Json.object event).IsData) :
    AppendAllSpec depth t head events (t.appendAll depth events).1
      (t.appendAll depth events).2 := by
  induction events generalizing t head with
  | nil => exact ⟨trivial, rfl, (List.append_nil _).symm, rfl⟩
  | cons event events ih =>
    obtain ⟨hfirst, hrest⟩ := List.forall_mem_cons.mp hdata
    have hspec := appendWithin_spec depth hhead hfirst
    rw [appendAll]
    generalize t.appendWithin depth event = result at hspec
    cases hspec with
    | @appended hash after hdigest hnext hlog hstate =>
      have hdepth := (exists_digest_iff hfirst).mp ⟨hash, hdigest⟩
      have hall := ih hnext hrest
      refine ⟨⟨hdigest, hall.linked⟩, ?_, ?_, ?_⟩
      · rw [List.map_cons, hall.events, List.filter_cons_of_pos (by simpa using hdepth)]
      · rw [hall.log, hlog, links, List.flatMap_cons, ← List.append_assoc]
        rfl
      · rw [hall.state, List.getLast?_cons, hstate]
        cases (after.appendAll depth events).1.getLast? <;> rfl
    | @refused fault after hdeep hsame hlog hstate =>
      have hall := ih hsame hrest
      refine ⟨hall.linked, ?_, ?_, ?_⟩
      · rw [hall.events, List.filter_cons_of_neg (by simpa using hdeep)]
      · rw [hall.log, hlog]
      · rw [hall.state, hstate]

theorem verifyWithin_eq (t : Trail) :
    t.verifyWithin depth = verifyFrom depth genesis (Text.splitOn 0x0A (t.log.getD [])) := by
  rw [verifyWithin]
  cases t.log <;> rfl

theorem readWithin_eq (t : Trail) : t.readWithin depth = readLog depth (t.log.getD []) := by
  rw [readWithin]
  cases t.log <;> rfl

/-- Any events that can be recorded, appended one after the other to an empty trail, are a chain,
and read as they were appended: each with the hash that was returned for the event before it, and
with its own. All are appended but those that are nested too deeply. -/
theorem appended_events (hlimit : depth ≤ limit) {events : List Event}
    (hdata : ∀ event ∈ events, (Json.object event).IsData) :
    ∃ appended after, empty.appendAll depth events = (appended, after) ∧
      (appended.map Prod.fst =
        events.filter fun event => (Json.object (bare event)).nesting ≤ depth) ∧
      after.verifyWithin limit = .ok true ∧
      after.readWithin limit =
        .ok ((links genesis appended).map fun event => (Json.object event).sorted) ∧
      after.state =
        appended.getLast?.map fun last => Utf8.encode last.2.toList ++ [0x0A] := by
  have hhead : empty.head = .ok genesis := rfl
  obtain ⟨hlinked, hevents, hlog, hstate⟩ := appendAll_spec depth hhead hdata
  have hlog : (empty.appendAll depth events).2.log.getD [] =
      (links genesis (empty.appendAll depth events).1).flatMap line := hlog
  have hfirst : ∀ e ∈ (empty.appendAll depth events).1, (Json.object e.1).IsData := by
    intro e he
    have hmem : e.1 ∈ (empty.appendAll depth events).1.map Prod.fst := List.mem_map_of_mem he
    rw [hevents] at hmem
    exact hdata e.1 (List.mem_of_mem_filter hmem)
  have hlinked := hlinked.mono hlimit
  refine ⟨_, _, rfl, hevents, ?_, ?_, ?_⟩
  · rw [verifyWithin_eq, hlog, verifyFrom_links hfirst hlinked]
  · rw [readWithin_eq, hlog, readLog_lines (isData_links hfirst hlinked)]
  · rw [hstate]
    cases (empty.appendAll depth events).1.getLast? <;> rfl

def sampleEvents : List Event :=
  [[(CodePoint.ofString "result", .text "denied"), (hashField, .text "beef"),
      (previousField, .null)],
    [(CodePoint.ofString "detail", .array [.text "a line\nwith \"quotes\" and é", .int (-30)]),
      (CodePoint.ofString "at", .object [(CodePoint.ofString "", .bool true)])]]

theorem isData_sampleEvents : ∀ event ∈ sampleEvents, (Json.object event).IsData := by
  have htext := Json.isPlain_text
  have hkey := fun s : String => CodePoint.isScalar_ofChars s.toList
  have hnumber : Json.IsData (.int (-30)) := Json.isPlain_int (Number.lt_pow_maxDigits (by decide))
  simp only [sampleEvents, List.forall_mem_cons]
  refine ⟨⟨by decide, ⟨hkey _, htext _⟩, ⟨hkey _, htext _⟩, ⟨hkey _, trivial⟩, trivial⟩,
    ⟨by decide, ⟨hkey _, htext _, hnumber, trivial⟩,
      ⟨hkey _, by decide, ⟨hkey _, trivial⟩, trivial⟩, trivial⟩, by simp⟩

theorem appended_events_sample :
    ∃ appended after, empty.appendAll Json.maxDepth sampleEvents = (appended, after) ∧
      appended.map Prod.fst = sampleEvents ∧ after.verify = .ok true ∧
      after.read = .ok ((links genesis appended).map fun event => (Json.object event).sorted) ∧
      after.state =
        appended.getLast?.map fun last => Utf8.encode last.2.toList ++ [0x0A] := by
  obtain ⟨appended, after, hrun, hevents, hchain⟩ :=
    appended_events (Nat.le_refl Json.maxDepth) isData_sampleEvents
  have hshallow : (sampleEvents.filter fun event =>
      (Json.object (bare event)).nesting ≤ Json.maxDepth) = sampleEvents :=
    List.filter_eq_self.mpr (by decide)
  exact ⟨appended, after, hrun, hevents.trans hshallow, hchain⟩

end Trail

end Audit

end Sqrl
