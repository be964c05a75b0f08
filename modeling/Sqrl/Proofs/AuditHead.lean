import Sqrl.Proofs.AuditAppend

/-! The head that an event is chained to, as it is read from a file of any bytes. What is 64 characters
long and reads as hexadecimal is taken for a digest; but blanks may stand between pairs of digits, and
such a text is no digest. A file that is no text stops the event. -/
namespace Sqrl

namespace Bytes

variable {s : List Char}

def IsHexDigit (c : Char) : Prop := (hexValue? c).isSome = true

instance (c : Char) : Decidable (IsHexDigit c) := inferInstanceAs (Decidable (_ = true))

/-- The blanks that may stand before a pair of digits. -/
def IsHexBlank (c : Char) : Prop := c = ' ' ∨ ('\t' ≤ c ∧ c ≤ '\r')

instance (c : Char) : Decidable (IsHexBlank c) := inferInstanceAs (Decidable (_ ∨ _))

/-- Pairs of hexadecimal digits with blanks around them. -/
inductive IsHexPairs : List Char → Prop
  | nil : IsHexPairs []
  | blank {c : Char} {s : List Char} (hc : IsHexBlank c) (h : IsHexPairs s) : IsHexPairs (c :: s)
  | pair {c d : Char} {s : List Char} (hc : IsHexDigit c) (hd : IsHexDigit d) (h : IsHexPairs s) :
      IsHexPairs (c :: d :: s)

theorem toNat_lt_of_isHexDigit {c : Char} (h : IsHexDigit c) : c.toNat < 0x67 := by
  rw [IsHexDigit, hexValue?] at h
  split_ifs at h with hdecimal hlower hupper
  · exact Nat.lt_of_le_of_lt (Text.toNat_le_toNat hdecimal.2) (by decide)
  · exact Nat.lt_of_le_of_lt (Text.toNat_le_toNat hlower.2) (by decide)
  · exact Nat.lt_of_le_of_lt (Text.toNat_le_toNat hupper.2) (by decide)
  · cases h

/-- What holds of each hexadecimal digit by its code. -/
theorem of_isHexDigit {p : Char → Prop} {c : Char}
    (h : ∀ n < 0x67, IsHexDigit (Char.ofNat n) → p (Char.ofNat n)) (hc : IsHexDigit c) : p c := by
  exact Text.of_codes (p := fun c => IsHexDigit c → p c) h (toNat_lt_of_isHexDigit hc) hc

theorem not_isHexBlank_of_isHexDigit {c : Char} (h : IsHexDigit c) : ¬ IsHexBlank c := by
  have hcode : ∀ n < 0x67, IsHexDigit (Char.ofNat n) → ¬ IsHexBlank (Char.ofNat n) := by decide
  exact of_isHexDigit (p := fun c => ¬ IsHexBlank c) hcode h

theorem isSome_readHex?_iff : (readHex? s).isSome = true ↔ IsHexPairs s := by
  constructor
  · intro h
    fun_induction readHex? s with
    | case1 => exact .nil
    | case2 c rest hc ih => exact .blank hc (ih h)
    | case3 c hc high d rest hhigh low hlow ih =>
      refine .pair (Option.isSome_of_eq_some hhigh) (Option.isSome_of_eq_some hlow) (ih ?_)
      simpa using h
    | case4 => cases h
    | case5 => cases h
  · intro h
    induction h with
    | nil => rfl
    | @blank c s hc _ ih =>
      have hblank : c = ' ' ∨ ('\t' ≤ c ∧ c ≤ '\r') := hc
      rw [readHex?.eq_def]
      simp only [if_pos hblank, ih]
    | @pair c d s hc hd _ ih =>
      obtain ⟨high, hhigh⟩ := Option.isSome_iff_exists.mp hc
      obtain ⟨low, hlow⟩ := Option.isSome_iff_exists.mp hd
      -- The reader tries blanks first, and a digit is none.
      have hplain : ¬ (c = ' ' ∨ ('\t' ≤ c ∧ c ≤ '\r')) := not_isHexBlank_of_isHexDigit hc
      rw [readHex?.eq_def]
      simp only [if_neg hplain, hhigh, hlow]
      simpa using ih

theorem IsHexPairs.isHexDigit_or (h : IsHexPairs s) : ∀ c ∈ s, IsHexDigit c ∨ IsHexBlank c := by
  induction h with
  | nil => simp
  | blank hc _ ih => exact List.forall_mem_cons.mpr ⟨.inr hc, ih⟩
  | pair hc hd _ ih =>
    exact List.forall_mem_cons.mpr ⟨.inl hc, List.forall_mem_cons.mpr ⟨.inl hd, ih⟩⟩

theorem isHexPairs_of_isHexDigit {k : Nat} (hlength : s.length = 2 * k)
    (h : ∀ c ∈ s, IsHexDigit c) : IsHexPairs s := by
  induction k generalizing s with
  | zero =>
    rw [List.eq_nil_of_length_eq_zero hlength]
    exact .nil
  | succ k ih =>
    match s with
    | [] => exact .nil
    | [c] => simp at hlength; omega
    | c :: d :: s =>
      obtain ⟨hc, hrest⟩ := List.forall_mem_cons.mp h
      obtain ⟨hd, hs⟩ := List.forall_mem_cons.mp hrest
      refine .pair hc hd (ih ?_ hs)
      simp only [List.length_cons] at hlength
      omega

end Bytes

namespace Audit

variable {depth limit : Nat} {event : Event} {t : Trail} {s : List Char}

/-- A digest as it is written: 64 hexadecimal digits in lower case. -/
def IsDigest (s : String) : Prop :=
  s.toList.length = 64 ∧ ∀ c ∈ s.toList, c ∈ "0123456789abcdef".toList

instance (s : String) : Decidable (IsDigest s) :=
  decidable_of_iff
    (s.toList.length = 64 ∧ s.toList.all (fun c => "0123456789abcdef".toList.contains c) = true)
    (by simp only [IsDigest, List.all_eq_true, List.contains_iff_mem])

theorem isDigest_genesis : IsDigest genesis := by
  decide

namespace Trail

def content (s : List Char) : List Char := Text.strip (unifyLineEnds s)

def lowered (s : List Char) : String := String.ofList (s.map Char.toLower)

/-- The head that a state file stands for, if its bytes are a text or it is missing: that of a chain
without events, unless the text is 64 characters long and holds pairs of hexadecimal digits. -/
inductive StoredHead : Option Bytes → String → Prop
  | missing : StoredHead none genesis
  | digest {bytes : Bytes} {s : List Char} (htext : Utf8.decode bytes = .ok s)
      (hlength : (content s).length = 64) (hdigits : ∀ c ∈ content s, Bytes.IsHexDigit c) :
      StoredHead (some bytes) (lowered (content s))
  | spaced {bytes : Bytes} {s : List Char} (htext : Utf8.decode bytes = .ok s)
      (hlength : (content s).length = 64) (hpairs : Bytes.IsHexPairs (content s))
      (hblank : ∃ c ∈ content s, Bytes.IsHexBlank c) :
      StoredHead (some bytes) (lowered (content s))
  | other {bytes : Bytes} {s : List Char} (htext : Utf8.decode bytes = .ok s)
      (h : ¬ ((content s).length = 64 ∧ Bytes.IsHexPairs (content s))) :
      StoredHead (some bytes) genesis

/-- Does a state file hold 64 characters that are pairs of hexadecimal digits and blanks between
them? -/
def IsSpaced (state : Option Bytes) : Prop :=
  ∃ bytes s, state = some bytes ∧ Utf8.decode bytes = .ok s ∧ (content s).length = 64 ∧
    Bytes.IsHexPairs (content s) ∧ ∃ c ∈ content s, Bytes.IsHexBlank c

theorem isSpaced_some_iff {bytes : Bytes} (htext : Utf8.decode bytes = .ok s) :
    IsSpaced (some bytes) ↔ (content s).length = 64 ∧ Bytes.IsHexPairs (content s) ∧
      ∃ c ∈ content s, Bytes.IsHexBlank c := by
  constructor
  · rintro ⟨other, s', hstate, hother, h⟩
    obtain rfl := Option.some.inj hstate
    obtain rfl := Except.ok.inj (htext.symm.trans hother)
    exact h
  · exact fun h => ⟨bytes, s, rfl, htext, h⟩

theorem headOfText_eq (s : List Char) : headOfText s =
    if (content s).length = 64 ∧ (Bytes.readHex? (content s)).isSome then lowered (content s)
    else genesis :=
  rfl

theorem storedHead_headOfText {bytes : Bytes} (htext : Utf8.decode bytes = .ok s) :
    StoredHead (some bytes) (headOfText s) := by
  rw [headOfText_eq]
  split
  · next h =>
    have hpairs := Bytes.isSome_readHex?_iff.mp h.2
    by_cases hblank : ∃ c ∈ content s, Bytes.IsHexBlank c
    · exact .spaced htext h.1 hpairs hblank
    · refine .digest htext h.1 fun c hc => (hpairs.isHexDigit_or c hc).resolve_right ?_
      exact fun hb => hblank ⟨c, hc, hb⟩
  · next h => exact .other htext fun hother => h (hother.imp_right Bytes.isSome_readHex?_iff.mpr)

theorem head_eq_ok_iff {head : String} : t.head = .ok head ↔ StoredHead t.state head := by
  rw [Trail.head]
  constructor
  · intro h
    cases hstate : t.state with
    | none =>
      rw [hstate] at h
      exact Except.ok.inj h ▸ .missing
    | some bytes =>
      rw [hstate] at h
      cases htext : Utf8.decode bytes with
      | error fault => simp [htext, Except.map] at h
      | ok s =>
        simp only [htext, Except.map, Except.ok.injEq] at h
        exact h ▸ storedHead_headOfText htext
  · intro h
    generalize t.state = state at h
    cases h with
    | missing => rfl
    | digest htext hlength hdigits =>
      have hpairs := Bytes.isHexPairs_of_isHexDigit (k := 32) hlength hdigits
      simp only [htext, Except.map, headOfText_eq,
        if_pos (And.intro hlength (Bytes.isSome_readHex?_iff.mpr hpairs))]
    | spaced htext hlength hpairs _ =>
      simp only [htext, Except.map, headOfText_eq,
        if_pos (And.intro hlength (Bytes.isSome_readHex?_iff.mpr hpairs))]
    | other htext h =>
      have hnone := mt (And.imp_right Bytes.isSome_readHex?_iff.mp) h
      simp only [htext, Except.map, headOfText_eq, if_neg hnone]

theorem mem_digits_of_isHexDigit {c : Char} (h : Bytes.IsHexDigit c) :
    c.toLower ∈ "0123456789abcdef".toList := by
  have hcode : ∀ n < 0x67, Bytes.IsHexDigit (Char.ofNat n) →
      (Char.ofNat n).toLower ∈ "0123456789abcdef".toList := by
    decide
  exact Bytes.of_isHexDigit (p := fun c => c.toLower ∈ "0123456789abcdef".toList) hcode h

theorem not_mem_digits_of_isHexBlank {c : Char} (h : Bytes.IsHexBlank c) :
    c.toLower ∉ "0123456789abcdef".toList := by
  have hcode : ∀ n < 0x21, (Char.ofNat n).toLower ∉ "0123456789abcdef".toList := by decide
  have hlt : c.toNat < 0x21 := by
    rcases h with rfl | ⟨-, hle⟩
    · decide
    · exact Nat.lt_of_le_of_lt (Text.toNat_le_toNat hle) (by decide)
  exact Text.of_codes (p := fun c => c.toLower ∉ "0123456789abcdef".toList) hcode hlt

/-- The head is a digest unless blanks stand between its digits. -/
theorem StoredHead.isDigest_iff {state : Option Bytes} {head : String} (h : StoredHead state head) :
    IsDigest head ↔ ¬ IsSpaced state := by
  cases h with
  | missing =>
    refine iff_of_true isDigest_genesis ?_
    rintro ⟨bytes, s, hstate, -⟩
    cases hstate
  | digest htext hlength hdigits =>
    rw [isSpaced_some_iff htext]
    refine iff_of_true ⟨by simpa [lowered] using hlength, ?_⟩ ?_
    · intro d hd
      rw [lowered, String.toList_ofList] at hd
      obtain ⟨c, hc, rfl⟩ := List.mem_map.mp hd
      exact mem_digits_of_isHexDigit (hdigits c hc)
    · rintro ⟨-, -, c, hc, hblank⟩
      exact Bytes.not_isHexBlank_of_isHexDigit (hdigits c hc) hblank
  | spaced htext hlength hpairs hblank =>
    rw [isSpaced_some_iff htext]
    refine iff_of_false ?_ (not_not.mpr ⟨hlength, hpairs, hblank⟩)
    rintro ⟨-, hdigits⟩
    obtain ⟨c, hc, hblank⟩ := hblank
    refine not_mem_digits_of_isHexBlank hblank (hdigits _ ?_)
    rw [lowered, String.toList_ofList]
    exact List.mem_map_of_mem hc
  | other htext h =>
    rw [isSpaced_some_iff htext]
    exact iff_of_true isDigest_genesis fun ⟨hlength, hpairs, _⟩ => h ⟨hlength, hpairs⟩

theorem exists_head_iff :
    (∃ head, t.head = .ok head) ↔ ∀ bytes ∈ t.state, ∃ s, Utf8.decode bytes = .ok s := by
  rw [Trail.head]
  cases t.state with
  | none => simp
  | some bytes => cases htext : Utf8.decode bytes <;> simp [Except.map, htext]

theorem appendWithin_eq_ok_iff {hash : String} {after : Trail} :
    t.appendWithin depth event = (.ok hash, after) ↔ ∃ head, t.head = .ok head ∧
      digest depth head event = .ok hash ∧
        after = write { t with hasDirectory := true, hasLock := true } head hash event := by
  constructor
  · intro h
    rw [appendWithin] at h
    split at h
    · cases h
    · next head hhead =>
      split at h
      · cases h
      · next found hdigest =>
        obtain ⟨hhash, rfl⟩ := Prod.mk.inj h
        obtain rfl := Except.ok.inj hhash
        exact ⟨head, hhead, hdigest, rfl⟩
  · rintro ⟨head, hhead, hdigest, rfl⟩
    exact appendWithin_ok hhead hdigest

/-- An event that can be written is appended just if the state file is missing or a text. It names the
head that is stored, in lower case, or that of a chain without events; and this is a digest unless
the file holds blanks between digits. -/
theorem append_head_iff (hbody : ∃ bytes, body depth event = .ok bytes) (t : Trail) :
    ((∃ hash after, t.appendWithin depth event = (.ok hash, after)) ↔
        ∀ bytes ∈ t.state, ∃ s, Utf8.decode bytes = .ok s) ∧
      ∀ hash after, t.appendWithin depth event = (.ok hash, after) → ∃ head,
        StoredHead t.state head ∧
          after.log = some (t.log.getD [] ++ line (chained head hash event)) ∧
          (IsDigest head ↔ ¬ IsSpaced t.state) := by
  rw [← exists_head_iff]
  refine ⟨⟨?_, ?_⟩, ?_⟩
  · rintro ⟨hash, after, happend⟩
    obtain ⟨head, hhead, -⟩ := appendWithin_eq_ok_iff.mp happend
    exact ⟨head, hhead⟩
  · rintro ⟨head, hhead⟩
    obtain ⟨hash, hdigest⟩ : ∃ hash, digest depth head event = .ok hash :=
      exists_digest_iff_canonical.mpr hbody
    exact ⟨hash, _, appendWithin_ok hhead hdigest⟩
  · intro hash after happend
    obtain ⟨head, hhead, -, rfl⟩ := appendWithin_eq_ok_iff.mp happend
    have hstored := head_eq_ok_iff.mp hhead
    exact ⟨head, hstored, rfl, hstored.isDigest_iff⟩

section Sample

def sampleLoudState : List Char :=
  ['\r', '\n', ' '] ++ sampleHead.toList.map Char.toUpper ++ ['\x85', '\n']

def sampleSpacedState : List Char :=
  List.replicate 30 '7' ++ [' ', '\t'] ++ List.replicate 32 '7' ++ ['\n']

theorem head_withState (t : Trail) (s : List Char) :
    (t.withState s).head = .ok (headOfText s) :=
  head_eq_of_state (s := some s) rfl

theorem forall_mem_state_withState (t : Trail) (s : List Char) :
    ∀ bytes ∈ (t.withState s).state, ∃ s, Utf8.decode bytes = .ok s :=
  exists_head_iff.mp ⟨_, head_withState t s⟩

/-- The stored digest is named in lower case. -/
theorem append_head_iff_loud : ∃ hash after,
    (empty.withState sampleLoudState).append sampleReading = (.ok hash, after) ∧
      after.log = some (line (chained sampleHead hash sampleReading)) ∧ IsDigest sampleHead := by
  obtain ⟨happended, hwritten⟩ :=
    append_head_iff exists_body_sampleReading (empty.withState sampleLoudState)
  obtain ⟨hash, after, happend⟩ := happended.mpr (forall_mem_state_withState _ _)
  obtain ⟨head, hstored, hlog, -⟩ := hwritten hash after happend
  have hsame := (head_withState empty sampleLoudState).symm.trans (head_eq_ok_iff.mpr hstored)
  obtain rfl := Except.ok.inj hsame
  have hhead : headOfText sampleLoudState = sampleHead := by decide +kernel
  exact ⟨hash, after, happend, hhead ▸ hlog, by decide⟩

/-- With blanks between the stored digits, the head that is written to the log is no digest. -/
theorem append_head_spaced : ∃ head hash after event,
    (empty.withState sampleSpacedState).append sampleReading = (.ok hash, after) ∧
      after.events Json.maxDepth = [event] ∧
      Dictionary.get? event previousField = some (.text head) ∧ ¬ IsDigest head := by
  have hread := head_withState empty sampleSpacedState
  obtain ⟨hash, hdigest⟩ : ∃ hash,
      digest Json.maxDepth (headOfText sampleSpacedState) sampleReading = .ok hash :=
    exists_digest_iff_canonical.mpr exists_body_sampleReading
  have hform := isWellFormed_sampleReading
  obtain ⟨hwritable, hdepth⟩ :=
    isWritable_chained (headOfText sampleSpacedState) hash hform ⟨hash, hdigest⟩
  refine ⟨headOfText sampleSpacedState, hash, _, _, appendWithin_ok hread hdigest, ?_,
    get?_previousField_chained _ hash hform, by decide +kernel⟩
  have hlog : (write { empty.withState sampleSpacedState with hasDirectory := true, hasLock := true }
      (headOfText sampleSpacedState) hash sampleReading).log.getD [] =
        line (chained (headOfText sampleSpacedState) hash sampleReading) := rfl
  rw [events, hlog, splitOn_line hwritable.hasText,
    List.filterMap_cons_some (lineEvent?_lineText hwritable hdepth)]
  rfl

end Sample

end Trail

end Audit

end Sqrl
