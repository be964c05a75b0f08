import Sqrl.Proofs.AuditChain
import Sqrl.Proofs.JsonReader

/-! The verdict on a log of any bytes. Its lines are followed as long as each one is chained to those
before it, and the first one that is not decides. Such a line refutes the log, unless it stops the
check: then there is no verdict. -/
namespace Sqrl.Audit

variable {depth : Nat} {head next mid last : String} {event : Event} {line : Bytes}
  {lines before after : List Bytes} {v : Json}

/-! What a line can be. -/

def IsBlank (line : Bytes) : Prop := Text.trim isBlankByte line = []

/-- Is the line, without the blanks around it, the text of a value? -/
def HoldsValue (depth : Nat) (line : Bytes) (v : Json) : Prop :=
  ∃ s, Utf8.decode (Text.trim isBlankByte line) = .ok s ∧ Json.readWithin depth s = .ok v

/-- Does an event name the head before it, and as its own hash the digest after that head? -/
structure Follows (depth : Nat) (head : String) (event : Event) (hash : String) : Prop where
  previous : Dictionary.get? event previousField = some (.text head)
  digest : digest depth head event = .ok hash
  hash : Dictionary.get? event hashField = some (.text hash)

/-- A line that goes on with the chain: a blank one, or an event that follows the head. -/
inductive Extends (depth : Nat) (head : String) (line : Bytes) : String → Prop
  | blank (h : IsBlank line) : Extends depth head line head
  | event {event : Event} {next : String} (hline : HoldsValue depth line (.object event))
      (h : Follows depth head event next) : Extends depth head line next

/-- A line that refutes the chain: it is no text or not JSON, or an event that names another head
or another hash. -/
inductive Refutes (depth : Nat) (head : String) (line : Bytes) : Prop
  | notText {fault : Utf8.Fault} (hblank : ¬ IsBlank line)
      (h : Utf8.decode (Text.trim isBlankByte line) = .error fault)
  | notJson {s : List Char} {fault : Json.Fault} (hblank : ¬ IsBlank line)
      (htext : Utf8.decode (Text.trim isBlankByte line) = .ok s)
      (h : Json.readWithin depth s = .error fault) (hshallow : ∀ c, fault ≠ .tooDeep c)
  | otherHead {event : Event} (hline : HoldsValue depth line (.object event))
      (h : Dictionary.get? event previousField ≠ some (.text head))
  | otherHash {event : Event} {hash : String} (hline : HoldsValue depth line (.object event))
      (hhead : Dictionary.get? event previousField = some (.text head))
      (hdigest : Audit.digest depth head event = .ok hash)
      (h : Dictionary.get? event hashField ≠ some (.text hash))

/-- A line that stops the check: a value that is no object or too deep, or an event that names the
head and has a string that is no text. -/
inductive Stops (depth : Nat) (head : String) (line : Bytes) : Prop
  | notObject {v : Json} (hline : HoldsValue depth line v) (h : ∀ event, v ≠ .object event)
  | tooDeep {s : List Char} {container : Json.Container}
      (htext : Utf8.decode (Text.trim isBlankByte line) = .ok s)
      (h : Json.readWithin depth s = .error (.tooDeep container))
  | notText {event : Event} (hline : HoldsValue depth line (.object event))
      (hhead : Dictionary.get? event previousField = some (.text head))
      (h : ¬ (Json.object (bare event)).HasText)

/-- Are lines a chain from one head to another? -/
def IsChain (depth : Nat) : String → List Bytes → String → Prop
  | head, [], last => head = last
  | head, line :: rest, last => ∃ next, Extends depth head line next ∧ IsChain depth next rest last

theorem follows_iff {hash : String} :
    Follows depth head event hash ↔ follow depth head event = .ok (some hash) := by
  rw [follow_eq_some_iff, holds_iff, holds_iff]
  exact ⟨fun h => ⟨h.previous, h.digest, h.hash⟩, fun h => ⟨h.1, h.2.1, h.2.2⟩⟩

theorem eq_nil_of_isBlank {s : List Char} (h : IsBlank line)
    (htext : Utf8.decode (Text.trim isBlankByte line) = .ok s) : s = [] := by
  rw [h] at htext
  exact (Except.ok.inj htext).symm

theorem readLine_eq_of_holdsValue (h : HoldsValue depth line v) :
    readLine depth (Text.trim isBlankByte line) = .ok (some v) := by
  obtain ⟨s, hdecode, hread⟩ := h
  simp only [readLine, hdecode, hread]

theorem HoldsValue.not_isBlank (h : HoldsValue depth line v) : ¬ IsBlank line := by
  obtain ⟨s, hdecode, hread⟩ := h
  intro hblank
  obtain rfl := eq_nil_of_isBlank hblank hdecode
  cases hread

/-- What a line with anything in it does to the check. -/
theorem verifyFrom_cons_of_not_isBlank (hblank : ¬ IsBlank line) (rest : List Bytes) :
    verifyFrom depth head (line :: rest) =
      match readLine depth (Text.trim isBlankByte line) with
      | .error fault => .error fault
      | .ok none => .ok false
      | .ok (some (.object event)) =>
        match follow depth head event with
        | .error fault => .error fault
        | .ok none => .ok false
        | .ok (some hash) => verifyFrom depth hash rest
      | .ok (some v) => .error (.notObject v.typeName) := by
  rw [verifyFrom]
  split
  · next h => exact absurd h hblank
  · rfl

theorem verifyFrom_cons_of_holdsValue (h : HoldsValue depth line (.object event)) (rest : List Bytes) :
    verifyFrom depth head (line :: rest) =
      match follow depth head event with
      | .error fault => .error fault
      | .ok none => .ok false
      | .ok (some hash) => verifyFrom depth hash rest := by
  rw [verifyFrom_cons_of_not_isBlank h.not_isBlank, readLine_eq_of_holdsValue h]

theorem Extends.verifyFrom_eq (h : Extends depth head line next) (rest : List Bytes) :
    verifyFrom depth head (line :: rest) = verifyFrom depth next rest := by
  cases h with
  | blank h => rw [verifyFrom, h]
  | event hline h => rw [verifyFrom_cons_of_holdsValue hline, follows_iff.mp h]

theorem Refutes.verifyFrom_eq (h : Refutes depth head line) (rest : List Bytes) :
    verifyFrom depth head (line :: rest) = .ok false := by
  cases h with
  | notText hblank h => simp only [verifyFrom_cons_of_not_isBlank hblank, readLine, h]
  | @notJson s fault hblank htext h hshallow =>
    have hread : readLine depth (Text.trim isBlankByte line) = .ok none := by
      cases fault with
      | tooDeep container => exact absurd rfl (hshallow container)
      | notJson => simp only [readLine, htext, h]
      | oversizedInteger digits => simp only [readLine, htext, h]
    simp only [verifyFrom_cons_of_not_isBlank hblank, hread]
  | otherHead hline h =>
    rw [verifyFrom_cons_of_holdsValue hline, follow, if_neg (mt holds_iff.mp h)]
  | otherHash hline hhead hdigest h =>
    rw [verifyFrom_cons_of_holdsValue hline, follow, if_pos (holds_iff.mpr hhead), hdigest]
    simp only [if_neg (mt holds_iff.mp h)]

/-- An event that was read has canonical bytes unless it has a string that is no text. -/
theorem exists_digest_iff_of_holdsValue (h : HoldsValue depth line (.object event)) :
    (∃ hash, digest depth head event = .ok hash) ↔ (Json.object (bare event)).HasText := by
  obtain ⟨s, -, hread⟩ := h
  -- Of the three obstacles to canonical bytes, depth and long numbers stop the reader first.
  obtain ⟨hdepth, hshort⟩ := Json.fits_of_readWithin hread
  have hmembers := Json.hasShortNumbers_object_iff.mp hshort
  have hbare : (Json.object (bare event)).HasShortNumbers :=
    Json.hasShortNumbers_object_iff.mpr fun e he => hmembers e (mem_of_mem_bare he)
  simp only [exists_digest_iff_canonical, Json.canonicalWithin_eq_ok_iff, nesting_bare_le hdepth,
    hbare, true_and, exists_and_left, exists_eq, and_true]

theorem Stops.exists_verifyFrom_eq (h : Stops depth head line) (rest : List Bytes) :
    ∃ fault, verifyFrom depth head (line :: rest) = .error fault := by
  cases h with
  | @notObject v hline h =>
    refine ⟨.notObject v.typeName, ?_⟩
    rw [verifyFrom_cons_of_not_isBlank hline.not_isBlank, readLine_eq_of_holdsValue hline]
    cases v with
    | object members => exact absurd rfl (h members)
    | _ => rfl
  | @tooDeep s container htext h =>
    have hblank : ¬ IsBlank line := by
      intro hblank
      obtain rfl := eq_nil_of_isBlank hblank htext
      cases h
    refine ⟨.tooDeep container, ?_⟩
    simp only [verifyFrom_cons_of_not_isBlank hblank, readLine, htext, h]
  | @notText event hline hhead h =>
    rw [verifyFrom_cons_of_holdsValue hline, follow, if_pos (holds_iff.mpr hhead)]
    cases hdigest : digest depth head event with
    | error fault => exact ⟨.canonical fault, rfl⟩
    | ok hash => exact absurd ((exists_digest_iff_of_holdsValue hline).mp ⟨hash, hdigest⟩) h

/-- A line goes on with the chain, refutes it or stops the check. -/
theorem extends_or_refutes_or_stops (depth : Nat) (head : String) (line : Bytes) :
    (∃ next, Extends depth head line next) ∨ Refutes depth head line ∨ Stops depth head line := by
  by_cases hblank : IsBlank line
  · exact .inl ⟨head, .blank hblank⟩
  cases htext : Utf8.decode (Text.trim isBlankByte line) with
  | error fault => exact .inr (.inl (.notText hblank htext))
  | ok s =>
    cases hread : Json.readWithin depth s with
    | error fault =>
      by_cases hdeep : ∃ container, fault = .tooDeep container
      · obtain ⟨container, rfl⟩ := hdeep
        exact .inr (.inr (.tooDeep htext hread))
      · exact .inr (.inl (.notJson hblank htext hread (not_exists.mp hdeep)))
    | ok v =>
      have hline : HoldsValue depth line v := ⟨s, htext, hread⟩
      by_cases hobject : ∃ event, v = .object event
      · obtain ⟨event, rfl⟩ := hobject
        by_cases hhead : Dictionary.get? event previousField = some (.text head)
        · by_cases hplain : (Json.object (bare event)).HasText
          · obtain ⟨hash, hdigest⟩ := (exists_digest_iff_of_holdsValue hline).mpr hplain
            by_cases hhash : Dictionary.get? event hashField = some (.text hash)
            · exact .inl ⟨hash, .event hline ⟨hhead, hdigest, hhash⟩⟩
            · exact .inr (.inl (.otherHash hline hhead hdigest hhash))
          · exact .inr (.inr (.notText hline hhead hplain))
        · exact .inr (.inl (.otherHead hline hhead))
      · exact .inr (.inr (.notObject hline (not_exists.mp hobject)))

/-! Lines. -/

theorem IsChain.verifyFrom_append (h : IsChain depth head before mid) (after : List Bytes) :
    verifyFrom depth head (before ++ after) = verifyFrom depth mid after := by
  induction before generalizing head with
  | nil =>
    obtain rfl : head = mid := h
    rfl
  | cons line before ih =>
    obtain ⟨next, hline, hrest⟩ := h
    rw [List.cons_append, hline.verifyFrom_eq, ih hrest]

/-- Is a line of this kind the first one that does not go on with the chain? The kind may depend on
the head before the line. -/
def BreaksAt (depth : Nat) (kind : String → Bytes → Prop) (head : String) (lines : List Bytes) :
    Prop :=
  ∃ before line after mid, lines = before ++ line :: after ∧ IsChain depth head before mid ∧
    kind mid line

theorem BreaksAt.cons {kind : String → Bytes → Prop} (hline : Extends depth head line next)
    (h : BreaksAt depth kind next lines) : BreaksAt depth kind head (line :: lines) := by
  obtain ⟨before, broken, after, mid, rfl, hchain, hkind⟩ := h
  exact ⟨line :: before, broken, after, mid, rfl, ⟨next, hline, hchain⟩, hkind⟩

theorem BreaksAt.append {kind : String → Bytes → Prop} (h : BreaksAt depth kind head lines)
    (more : List Bytes) : BreaksAt depth kind head (lines ++ more) := by
  obtain ⟨before, line, after, mid, rfl, hchain, hkind⟩ := h
  exact ⟨before, line, after ++ more, mid, by simp, hchain, hkind⟩

theorem isChain_or_breaksAt (depth : Nat) (head : String) (lines : List Bytes) :
    (∃ last, IsChain depth head lines last) ∨ BreaksAt depth (Refutes depth) head lines ∨
      BreaksAt depth (Stops depth) head lines := by
  induction lines generalizing head with
  | nil => exact .inl ⟨head, rfl⟩
  | cons line lines ih =>
    rcases extends_or_refutes_or_stops depth head line with ⟨next, hline⟩ | hrefutes | hstops
    · refine (ih next).imp ?_ (Or.imp (BreaksAt.cons hline) (BreaksAt.cons hline))
      rintro ⟨last, hchain⟩
      exact ⟨last, next, hline, hchain⟩
    · exact .inr (.inl ⟨[], line, lines, head, rfl, rfl, hrefutes⟩)
    · exact .inr (.inr ⟨[], line, lines, head, rfl, rfl, hstops⟩)

theorem verifyFrom_of_isChain (h : IsChain depth head lines last) :
    verifyFrom depth head lines = .ok true := by
  have happend := h.verifyFrom_append []
  rwa [List.append_nil] at happend

theorem verifyFrom_of_refutes (h : BreaksAt depth (Refutes depth) head lines) :
    verifyFrom depth head lines = .ok false := by
  obtain ⟨before, line, after, mid, rfl, hchain, hrefutes⟩ := h
  rw [hchain.verifyFrom_append, hrefutes.verifyFrom_eq]

theorem exists_verifyFrom_of_stops (h : BreaksAt depth (Stops depth) head lines) :
    ∃ fault, verifyFrom depth head lines = .error fault := by
  obtain ⟨before, line, after, mid, rfl, hchain, hstops⟩ := h
  rw [hchain.verifyFrom_append]
  exact hstops.exists_verifyFrom_eq after

theorem verifyFrom_eq_true_iff :
    verifyFrom depth head lines = .ok true ↔ ∃ last, IsChain depth head lines last := by
  refine ⟨fun h => ?_, fun ⟨last, h⟩ => verifyFrom_of_isChain h⟩
  rcases isChain_or_breaksAt depth head lines with hchain | hrefutes | hstops
  · exact hchain
  · cases h.symm.trans (verifyFrom_of_refutes hrefutes)
  · obtain ⟨fault, hfault⟩ := exists_verifyFrom_of_stops hstops
    cases h.symm.trans hfault

theorem verifyFrom_eq_false_iff :
    verifyFrom depth head lines = .ok false ↔ BreaksAt depth (Refutes depth) head lines := by
  refine ⟨fun h => ?_, verifyFrom_of_refutes⟩
  rcases isChain_or_breaksAt depth head lines with ⟨last, hchain⟩ | hrefutes | hstops
  · cases h.symm.trans (verifyFrom_of_isChain hchain)
  · exact hrefutes
  · obtain ⟨fault, hfault⟩ := exists_verifyFrom_of_stops hstops
    cases h.symm.trans hfault

theorem exists_verifyFrom_eq_error_iff :
    (∃ fault, verifyFrom depth head lines = .error fault) ↔
      BreaksAt depth (Stops depth) head lines := by
  refine ⟨fun ⟨fault, h⟩ => ?_, exists_verifyFrom_of_stops⟩
  rcases isChain_or_breaksAt depth head lines with ⟨last, hchain⟩ | hrefutes | hstops
  · cases h.symm.trans (verifyFrom_of_isChain hchain)
  · cases h.symm.trans (verifyFrom_of_refutes hrefutes)
  · exact hstops

namespace Trail

/-- The verdict on a log of any bytes: true if its lines are a chain, and otherwise as the first line
that does not go on with the chain has it. The check is stopped by a value that is no object or is
nested too deeply, and by an event that names the head before it and has a surrogate in one of its
strings outside the fields of the chain. -/
theorem verdict_iff (depth : Nat) (t : Trail) :
    (t.verifyWithin depth = .ok true ↔
        ∃ last, IsChain depth genesis (Text.splitOn 0x0A (t.log.getD [])) last) ∧
      (t.verifyWithin depth = .ok false ↔
        BreaksAt depth (Refutes depth) genesis (Text.splitOn 0x0A (t.log.getD []))) ∧
      ((∃ fault, t.verifyWithin depth = .error fault) ↔
        BreaksAt depth (Stops depth) genesis (Text.splitOn 0x0A (t.log.getD []))) := by
  rw [verifyWithin_eq]
  exact ⟨verifyFrom_eq_true_iff, verifyFrom_eq_false_iff, exists_verifyFrom_eq_error_iff⟩

/-- A log of one line, an empty array, has no verdict. -/
theorem not_forall_verify_ok : ¬ ∀ t : Trail, ∃ verdict, t.verify = .ok verdict := by
  intro h
  obtain ⟨verdict, hverdict⟩ := h { empty with log := some (Utf8.encode "[]\n".toList) }
  have hstop : verify { empty with log := some (Utf8.encode "[]\n".toList) } =
      .error (.notObject "list") := by
    decide +kernel
  cases hstop.symm.trans hverdict

end Trail

end Sqrl.Audit
