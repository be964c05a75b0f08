import Sqrl.Proofs.AuditLog

/-! The last hash of a log that is a chain stands for all its events. Whoever wants to show another
chain with that hash has to show two messages with one digest, or a message whose digest is the one
that the first event is chained to. This is so for any bytes that are read as a chain, however they
came about. -/
namespace Sqrl

namespace CodePoint

theorem ofString_injective {s t : String} (h : ofString s = ofString t) : s = t := by
  have hchars := congrArg (List.map toChar) h
  rw [map_toChar_ofString, map_toChar_ofString] at hchars
  exact String.ext hchars

end CodePoint

namespace Bytes

theorem toHex_injective {a b : Bytes} (h : toHex a = toHex b) : a = b := by
  have hread := congrArg (fun s => readHex? s.toList) h
  simpa only [toHex, String.toList_ofList, readHex?_hex, Option.some.injEq] using hread

end Bytes

namespace Audit

variable {depth : Nat} {head hash : String} {event a b : Event} {first second past : List Event}
  {lines : List Bytes} {message : Bytes} {before after : List (Event × String)}

def body (depth : Nat) (event : Event) : Except Json.CanonicalFault Bytes :=
  (Json.object (bare event)).canonicalWithin depth

/-- Is it what is hashed for an event: the digest that the event holds for the one before, and its
own canonical bytes? -/
def IsHashed (depth : Nat) (event : Event) (message : Bytes) : Prop :=
  ∃ head bytes, holds previousField head event = true ∧ body depth event = .ok bytes ∧
    message = (Bytes.readHex? head.toList).getD [] ++ bytes

def lineEvent? (depth : Nat) (line : Bytes) : Option Event :=
  match Text.trim isBlankByte line with
  | [] => none
  | line =>
    match readLine depth line with
    | .ok (some (.object event)) => some event
    | _ => none

def Trail.events (depth : Nat) (t : Trail) : List Event :=
  (Text.splitOn 0x0A (t.log.getD [])).filterMap (lineEvent? depth)

/-- Is a hash the head after events, the last of them first? -/
def IsHead (depth : Nat) : String → List Event → Prop
  | hash, [] => hash = genesis
  | hash, event :: older =>
    ∃ head, follow depth head event = .ok (some hash) ∧ IsHead depth head older

theorem holds_iff {field : List CodePoint} {s : String} :
    holds field s event = true ↔ Dictionary.get? event field = some (.text s) := by
  rw [holds]
  split
  · next t ht => simp [ht, Json.text]
  · next hother =>
    simp only [Bool.false_eq_true, false_iff]
    exact hother _

theorem digest_eq_ok_iff : digest depth head event = .ok hash ↔
    ∃ bytes, body depth event = .ok bytes ∧
      hash = Bytes.toHex (sha3 ((Bytes.readHex? head.toList).getD [] ++ bytes)) := by
  rw [digest, body]
  cases (Json.object (bare event)).canonicalWithin depth with
  | error fault => simp [Except.map]
  | ok bytes => simp [Except.map, eq_comm]

theorem follow_eq_some_iff : follow depth head event = .ok (some hash) ↔
    holds previousField head event = true ∧ digest depth head event = .ok hash ∧
      holds hashField hash event = true := by
  rw [follow]
  split
  · next hprevious =>
    cases digest depth head event with
    | error fault => simp
    | ok next =>
      by_cases hholds : holds hashField next event = true
      · simp only [hprevious, hholds, if_true, Except.ok.injEq, Option.some.injEq, true_and]
        constructor
        · rintro rfl
          exact ⟨rfl, hholds⟩
        · exact And.left
      · simp only [hprevious, hholds, if_false, Except.ok.injEq, true_and, reduceCtorEq, false_iff]
        rintro ⟨rfl, h⟩
        exact hholds h
  · next hprevious => simp [hprevious]

theorem exists_isHashed_of_follow (h : follow depth head event = .ok (some hash)) :
    ∃ bytes, body depth event = .ok bytes ∧
      IsHashed depth event ((Bytes.readHex? head.toList).getD [] ++ bytes) ∧
      hash = Bytes.toHex (sha3 ((Bytes.readHex? head.toList).getD [] ++ bytes)) := by
  obtain ⟨hprevious, hdigest, -⟩ := follow_eq_some_iff.mp h
  obtain ⟨bytes, hbytes, hhash⟩ := digest_eq_ok_iff.mp hdigest
  exact ⟨bytes, hbytes, ⟨head, bytes, hprevious, hbytes, rfl⟩, hhash⟩

theorem IsHashed.unique {other : Bytes} (h : IsHashed depth event message)
    (hother : IsHashed depth event other) : message = other := by
  obtain ⟨head, bytes, hprevious, hbytes, rfl⟩ := h
  obtain ⟨head', bytes', hprevious', hbytes', rfl⟩ := hother
  have hheads := Option.some.inj ((holds_iff.mp hprevious).symm.trans (holds_iff.mp hprevious'))
  obtain rfl := CodePoint.ofString_injective (Json.string.inj hheads)
  obtain rfl := Except.ok.inj (hbytes.symm.trans hbytes')
  rfl

theorem IsHashed.eq_toHex (h : IsHashed depth event message)
    (hfollow : follow depth head event = .ok (some hash)) : hash = Bytes.toHex (sha3 message) := by
  obtain ⟨bytes, -, hhashed, hhash⟩ := exists_isHashed_of_follow hfollow
  rw [h.unique hhashed, hhash]

theorem genesis_eq : genesis = Bytes.toHex (List.replicate 32 0) := by
  decide +kernel

theorem IsHead.exists_digest (h : IsHead depth hash past) :
    ∃ digest : Bytes, hash = Bytes.toHex digest ∧ digest.length = 32 := by
  cases past with
  | nil => exact ⟨_, Eq.trans h genesis_eq, by simp⟩
  | cons event older =>
    obtain ⟨head, hfollow, -⟩ := h
    obtain ⟨bytes, -, -, hhash⟩ := exists_isHashed_of_follow hfollow
    exact ⟨_, hhash, length_sha3 _⟩

theorem isHead_of_verifyFrom (h : verifyFrom depth head lines = .ok true)
    (hpast : IsHead depth head past) :
    ∃ hash, IsHead depth hash ((lines.filterMap (lineEvent? depth)).reverse ++ past) := by
  -- The events of the lines that are read go to `past`, the newest first.
  induction lines generalizing head past with
  | nil => exact ⟨head, hpast⟩
  | cons line lines ih =>
    rw [verifyFrom] at h
    split at h
    · next hblank =>
      have hnone : lineEvent? depth line = none := by rw [lineEvent?, hblank]
      rw [List.filterMap_cons_none hnone]
      exact ih h hpast
    · next hline =>
      split at h
      · cases h
      · cases h
      · next event hread =>
        have hevent : lineEvent? depth line = some event := by
          rw [lineEvent?]
          split
          · next hblank => exact absurd hblank hline
          · rw [hread]
        split at h
        · cases h
        · cases h
        · next hash hfollow =>
          rw [List.filterMap_cons_some hevent, List.reverse_cons, List.append_assoc]
          exact ih h ⟨head, hfollow, hpast⟩
      · cases h

theorem Trail.exists_isHead {t : Trail} (h : t.verifyWithin depth = .ok true) :
    ∃ hash, IsHead depth hash (t.events depth).reverse := by
  rw [verifyWithin_eq] at h
  have hgenesis : IsHead depth genesis [] := rfl
  obtain ⟨hash, hhead⟩ := isHead_of_verifyFrom h hgenesis
  exact ⟨hash, List.append_nil (Trail.events depth t).reverse ▸ hhead⟩

def SameBody (depth : Nat) (a b : Event) : Prop :=
  ∃ bytes, body depth a = .ok bytes ∧ body depth b = .ok bytes

/-- Are there two messages with one digest, one hashed for an event of the first list and the other
for one of the second? -/
def Collide (depth : Nat) (first second : List Event) : Prop :=
  ∃ a ∈ first, ∃ b ∈ second, ∃ m n : Bytes, IsHashed depth a m ∧ IsHashed depth b n ∧ m ≠ n ∧
    sha3 m = sha3 n

/-- Is a message hashed for one of the events whose digest is all zero? -/
def HasZeroDigest (depth : Nat) (events : List Event) : Prop :=
  ∃ a ∈ events, ∃ m : Bytes, IsHashed depth a m ∧ sha3 m = List.replicate 32 0

theorem hasZeroDigest_of_isHead_genesis (h : IsHead depth genesis (event :: past)) :
    HasZeroDigest depth (event :: past) := by
  obtain ⟨head, hfollow, -⟩ := h
  obtain ⟨bytes, -, hhashed, hhash⟩ := exists_isHashed_of_follow hfollow
  rw [genesis_eq] at hhash
  exact ⟨event, List.mem_cons_self, _, hhashed, (Bytes.toHex_injective hhash).symm⟩

/-- Events with one head are the same, unless there is a collision or a digest that is all zero. The
induction goes back from the last events, and stops where two of them differ. -/
theorem IsHead.sameBody_or (hfirst : IsHead depth hash first) (hsecond : IsHead depth hash second) :
    List.Forall₂ (SameBody depth) first second ∨ Collide depth first second ∨
      HasZeroDigest depth first ∨ HasZeroDigest depth second := by
  induction first generalizing hash second with
  | nil =>
    obtain rfl : hash = genesis := hfirst
    cases second with
    | nil => exact .inl .nil
    | cons b second => exact .inr (.inr (.inr (hasZeroDigest_of_isHead_genesis hsecond)))
  | cons a first ih =>
    cases second with
    | nil =>
      obtain rfl : hash = genesis := hsecond
      exact .inr (.inr (.inl (hasZeroDigest_of_isHead_genesis hfirst)))
    | cons b second =>
      obtain ⟨head, hfollow, hfirst⟩ := hfirst
      obtain ⟨head', hfollow', hsecond⟩ := hsecond
      obtain ⟨bytes, hbytes, hhashed, hhash⟩ := exists_isHashed_of_follow hfollow
      obtain ⟨bytes', hbytes', hhashed', hhash'⟩ := exists_isHashed_of_follow hfollow'
      have hdigest := Bytes.toHex_injective (hhash.symm.trans hhash')
      by_cases hmessage : (Bytes.readHex? head.toList).getD [] ++ bytes =
          (Bytes.readHex? head'.toList).getD [] ++ bytes'
      case neg =>
        exact .inr (.inl ⟨a, List.mem_cons_self, b, List.mem_cons_self, _, _, hhashed, hhashed',
          hmessage, hdigest⟩)
      -- One message: the digests before are as long as each other, so they are the same.
      obtain ⟨digest, rfl, hlength⟩ := hfirst.exists_digest
      obtain ⟨digest', rfl, hlength'⟩ := hsecond.exists_digest
      simp only [Bytes.toHex, String.toList_ofList, Bytes.readHex?_hex, Option.getD_some]
        at hmessage
      obtain ⟨rfl, rfl⟩ := List.append_inj hmessage (hlength.trans hlength'.symm)
      rcases ih hfirst hsecond with hsame | ⟨a', ha', b', hb', hcollide⟩ | ⟨a', ha', hzero⟩ |
        ⟨b', hb', hzero⟩
      · exact .inl (.cons ⟨bytes, hbytes, hbytes'⟩ hsame)
      · exact .inr (.inl ⟨a', List.mem_cons_of_mem a ha', b', List.mem_cons_of_mem b hb', hcollide⟩)
      · exact .inr (.inr (.inl ⟨a', List.mem_cons_of_mem a ha', hzero⟩))
      · exact .inr (.inr (.inr ⟨b', List.mem_cons_of_mem b hb', hzero⟩))

theorem IsHead.get?_hashField (h : IsHead depth hash (event :: past)) :
    Dictionary.get? event hashField = some (.text hash) := by
  obtain ⟨head, hfollow, -⟩ := h
  exact holds_iff.mp (follow_eq_some_iff.mp hfollow).2.2

/-! Events that were written. -/

theorem length_links (head : String) (appended : List (Event × String)) :
    (links head appended).length = appended.length := by
  induction appended generalizing head with
  | nil => rfl
  | cons e appended ih => rw [links, List.length_cons, ih, List.length_cons]

def headAfter : String → List (Event × String) → String
  | head, [] => head
  | _, e :: appended => headAfter e.2 appended

theorem headAfter_append (head : String) (before after : List (Event × String)) :
    headAfter head (before ++ after) = headAfter (headAfter head before) after := by
  induction before generalizing head with
  | nil => rfl
  | cons e before ih => exact ih e.2

theorem links_append (head : String) (before after : List (Event × String)) :
    links head (before ++ after) = links head before ++ links (headAfter head before) after := by
  induction before generalizing head with
  | nil => rfl
  | cons e before ih => exact congrArg (chained head e.2 e.1 :: ·) (ih e.2)

theorem linked_append : Linked depth head (before ++ after) ↔
    Linked depth head before ∧ Linked depth (headAfter head before) after := by
  induction before generalizing head with
  | nil => simp [Linked, headAfter]
  | cons e before ih => simp only [List.cons_append, Linked, headAfter, ih, and_assoc]

theorem lineEvent?_lineText (hwritable : (Json.object event).IsWritable)
    (hdepth : (Json.object event).nesting ≤ depth) :
    lineEvent? depth (Utf8.encode (lineText event)) = some (Json.sortedMembers event) := by
  have hread := readLine_lineText hwritable hdepth
  have htrim := trim_lineText event
  obtain ⟨bytes, hbytes⟩ := exists_encode_lineText_eq event
  rw [hbytes] at hread htrim ⊢
  rw [lineEvent?, htrim]
  simp only [hread]

namespace Trail

theorem splitOn_lines (h : ∀ line ∈ lines, 0x0A ∉ line) :
    Text.splitOn 0x0A (lines.flatMap (· ++ [0x0A])) = lines ++ [[]] := by
  induction lines with
  | nil => rfl
  | cons line lines ih =>
    obtain ⟨hline, hlines⟩ := List.forall_mem_cons.mp h
    rw [List.flatMap_cons, List.append_assoc, List.singleton_append,
      Text.splitOn_append_cons hline, ih hlines, List.cons_append]

/-- A trail as it is left by events that were appended, each with the hash that was returned for
it. -/
structure IsWritten (depth : Nat) (t : Trail) (appended : List (Event × String)) : Prop where
  linked : Linked depth genesis appended
  isData : ∀ e ∈ appended, (Json.object e.1).IsData
  log : t.log.getD [] = (links genesis appended).flatMap line

theorem isWritten_appendAll {limit : Nat} (hlimit : depth ≤ limit) {events : List Event}
    (hdata : ∀ event ∈ events, (Json.object event).IsData) :
    IsWritten limit (empty.appendAll depth events).2 (empty.appendAll depth events).1 := by
  obtain ⟨hlinked, hevents, hlog, -⟩ := appendAll_spec depth (t := empty) rfl hdata
  have hfirst : ∀ e ∈ (empty.appendAll depth events).1, (Json.object e.1).IsData := by
    intro e he
    have hmem : e.1 ∈ (empty.appendAll depth events).1.map Prod.fst := List.mem_map_of_mem he
    rw [hevents] at hmem
    exact hdata e.1 (List.mem_of_mem_filter hmem)
  exact ⟨hlinked.mono hlimit, hfirst, hlog⟩

namespace IsWritten

variable {t : Trail} {appended : List (Event × String)}

theorem verifyWithin_eq (h : IsWritten depth t appended) : t.verifyWithin depth = .ok true := by
  rw [Trail.verifyWithin_eq, h.log, verifyFrom_links h.isData h.linked]

theorem readWithin_eq (h : IsWritten depth t appended) :
    t.readWithin depth =
      .ok (((links genesis appended).map Json.sortedMembers).map Json.object) := by
  rw [Trail.readWithin_eq, h.log, readLog_lines (isData_links h.isData h.linked), List.map_map]
  rfl

theorem not_mem_line (h : IsWritten depth t appended) :
    ∀ line ∈ (links genesis appended).map fun event => Utf8.encode (lineText event),
      0x0A ∉ line := by
  simp only [List.forall_mem_map]
  exact fun event hevent =>
    not_mem_encode_lineText (isData_links h.isData h.linked event hevent).1.isWritable.hasText

theorem splitOn_log (h : IsWritten depth t appended) :
    Text.splitOn 0x0A (t.log.getD []) =
      ((links genesis appended).map fun event => Utf8.encode (lineText event)) ++ [[]] := by
  have hlog : t.log.getD [] = ((links genesis appended).map fun event =>
      Utf8.encode (lineText event)).flatMap (· ++ [0x0A]) := by
    rw [h.log, List.flatMap_map]
    rfl
  rw [hlog, splitOn_lines h.not_mem_line]

/-- The events of a log are those that were written, with their members in order. -/
theorem events_eq (h : IsWritten depth t appended) :
    t.events depth = (links genesis appended).map Json.sortedMembers := by
  have hreadable := isData_links h.isData h.linked
  have hlast : lineEvent? depth [] = none := rfl
  rw [events, h.splitOn_log, List.filterMap_append, List.filterMap_map,
    List.filterMap_cons_none hlast, List.filterMap_nil, List.append_nil, ← List.filterMap_eq_map]
  exact List.filterMap_congr fun event hevent =>
    lineEvent?_lineText (hreadable event hevent).1.isWritable (hreadable event hevent).2

theorem append (h : IsWritten depth t appended) (hhead : t.head = .ok (headAfter genesis appended))
    (hdata : (Json.object event).IsData) (hdepth : (Json.object (bare event)).nesting ≤ depth) :
    ∃ hash, (t.appendWithin depth event).2.head = .ok hash ∧
      IsWritten depth (t.appendWithin depth event).2 (appended ++ [(event, hash)]) := by
  have hspec := appendWithin_spec depth hhead hdata
  generalize t.appendWithin depth event = result at hspec
  cases hspec with
  | @appended hash after hdigest hnext hlog hstate =>
    refine ⟨hash, hnext, linked_append.mpr ⟨h.linked, hdigest, trivial⟩, ?_, ?_⟩
    · exact List.forall_mem_append.mpr ⟨h.isData, by simpa using hdata⟩
    · rw [hlog, h.log, links_append, List.flatMap_append, Option.getD_some, links, links,
        List.flatMap_singleton]
  | refused fault hdeep => exact absurd hdepth hdeep

end IsWritten

theorem head_of_getLast? {t : Trail} (h : IsHead depth hash (t.events depth).reverse)
    (ha : (t.events depth).getLast? = some a) :
    Dictionary.get? a hashField = some (.text hash) := by
  obtain ⟨older, hevents⟩ := List.getLast?_eq_some_iff.mp ha
  rw [hevents, List.reverse_append, List.reverse_singleton, List.singleton_append] at h
  exact h.get?_hashField

/-- Two logs that verify, and whose last events hold one hash, hold as many events, with the same
canonical bytes one by one, unless they show two messages with one digest or a message whose digest
is all zero. -/
theorem last_hash_commits {t u : Trail} (ht : t.verifyWithin depth = .ok true)
    (hu : u.verifyWithin depth = .ok true) (ha : (t.events depth).getLast? = some a)
    (hb : (u.events depth).getLast? = some b)
    (hsame : Dictionary.get? a hashField = Dictionary.get? b hashField) :
    List.Forall₂ (SameBody depth) (t.events depth) (u.events depth) ∨
      Collide depth (t.events depth) (u.events depth) ∨
        HasZeroDigest depth (t.events depth) ∨ HasZeroDigest depth (u.events depth) := by
  obtain ⟨hash, hhead⟩ := exists_isHead ht
  obtain ⟨hash', hhead'⟩ := exists_isHead hu
  rw [head_of_getLast? hhead ha, head_of_getLast? hhead' hb] at hsame
  obtain rfl : hash = hash' :=
    CodePoint.ofString_injective (Json.string.inj (Option.some.inj hsame))
  have hor := hhead.sameBody_or hhead'
  simpa only [List.forall₂_reverse_iff, Collide, HasZeroDigest, List.mem_reverse] using hor

section Sample

variable {t : Trail}

def spaced (t : Trail) : Trail := { t with log := some (0x0A :: t.log.getD []) }

theorem splitOn_spaced (t : Trail) :
    Text.splitOn 0x0A (t.spaced.log.getD []) = [] :: Text.splitOn 0x0A (t.log.getD []) := by
  rw [spaced, Option.getD_some, Text.splitOn, if_pos rfl]

theorem exists_isWritten_sampleEvents :
    ∃ t appended, (empty.appendAll Json.maxDepth sampleEvents).2 = t ∧
      IsWritten Json.maxDepth t appended ∧ appended.map Prod.fst = sampleEvents := by
  have hwritten := isWritten_appendAll (Nat.le_refl Json.maxDepth) isData_sampleEvents
  obtain ⟨-, hevents, -, -⟩ := appendAll_spec Json.maxDepth (t := empty) rfl isData_sampleEvents
  exact ⟨_, _, rfl, hwritten, hevents.trans (List.filter_eq_self.mpr (by decide))⟩

/-- Two different logs that verify, with one last hash. -/
theorem last_hash_commits_sample :
    ∃ (t u : Trail) (a : Event), t.verify = .ok true ∧ u.verify = .ok true ∧
      t.log.getD [] ≠ u.log.getD [] ∧
      (t.events Json.maxDepth).getLast? = some a ∧ (u.events Json.maxDepth).getLast? = some a ∧
      (List.Forall₂ (SameBody Json.maxDepth) (t.events Json.maxDepth) (u.events Json.maxDepth) ∨
        Collide Json.maxDepth (t.events Json.maxDepth) (u.events Json.maxDepth) ∨
        HasZeroDigest Json.maxDepth (t.events Json.maxDepth) ∨
        HasZeroDigest Json.maxDepth (u.events Json.maxDepth)) := by
  obtain ⟨t, appended, -, hwritten, hevents⟩ := exists_isWritten_sampleEvents
  have hverify : t.verify = .ok true := hwritten.verifyWithin_eq
  have hspaced : t.spaced.verify = .ok true := by
    have hblank : Text.trim isBlankByte [] = [] := rfl
    rw [← hverify, verify, verify, verifyWithin_eq, verifyWithin_eq, splitOn_spaced, verifyFrom,
      hblank]
  have hsame : t.spaced.events Json.maxDepth = t.events Json.maxDepth := by
    rw [events, splitOn_spaced, List.filterMap_cons_none rfl, events]
  have hdiffers : t.log.getD [] ≠ t.spaced.log.getD [] :=
    fun h => List.cons_ne_self _ _ h.symm
  obtain ⟨a, ha⟩ : ∃ a, (t.events Json.maxDepth).getLast? = some a := by
    refine Option.ne_none_iff_exists'.mp fun hnone => ?_
    have hlength := congrArg List.length hevents
    rw [List.getLast?_eq_none_iff] at hnone
    rw [List.length_map, ← length_links genesis, ← List.length_map Json.sortedMembers,
      ← hwritten.events_eq, hnone] at hlength
    cases hlength
  have hb : (t.spaced.events Json.maxDepth).getLast? = some a := hsame ▸ ha
  exact ⟨t, t.spaced, a, hverify, hspaced, hdiffers, ha, hb,
    last_hash_commits hverify hspaced ha hb rfl⟩

end Sample

end Trail

end Audit

end Sqrl
