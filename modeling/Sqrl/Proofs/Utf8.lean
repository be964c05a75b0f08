import Mathlib.Data.List.TakeWhile
import Mathlib.Tactic.IntervalCases
import Sqrl.Text.CodePoint

/-! Every text is read back from its UTF-8 form, and what is read is that form of a text. Text of
characters only is the same in characters and in code points. -/
namespace Sqrl

namespace Utf8

variable {run : Bytes} {lead : Lead} {n d : Nat}

theorem readFrom_of_step {pending next : Pending} {b : UInt8} {read : List Piece}
    (h : step pending b = (read, next)) (rest : Bytes) :
    readFrom pending (b :: rest) = read ++ readFrom next rest := by
  cases pending <;> simp only [readFrom, h]

theorem toNat_ofNat_of_lt (hn : n < 256) : (UInt8.ofNat n).toNat = n := by
  simp [Nat.mod_eq_of_lt hn]

theorem step_ascii (hn : n < 0x80) :
    step none (UInt8.ofNat n) = ([.char (Char.ofNat n)], none) := by
  simp only [step, start, toNat_ofNat_of_lt (show n < 256 by omega), hn, if_true]

theorem step_lead (hn : n < 256) (hhigh : 0x80 ≤ n) (hlead : lead? n = some lead) :
    step none (UInt8.ofNat n) = ([], some ([UInt8.ofNat n], lead)) := by
  simp only [step, start, toNat_ofNat_of_lt hn, hlead, if_neg (Nat.not_lt.mpr hhigh)]

theorem step_next (hd : d < 64) (hlow : lead.low ≤ 0x80 + d) (hhigh : 0x80 + d ≤ lead.high)
    (hfollow : lead.follow ≠ 1) :
    step (some (run, lead)) (UInt8.ofNat (0x80 + d)) =
      ([], some (UInt8.ofNat (0x80 + d) :: run,
        ⟨lead.follow - 1, 0x80, 0xBF, 64 * lead.bits + d⟩)) := by
  simp only [step, toNat_ofNat_of_lt (show 0x80 + d < 256 by omega), hlow, hhigh, hfollow, and_self,
    if_true, if_false, Nat.add_sub_cancel_left]

theorem step_last (hd : d < 64) (hlow : lead.low ≤ 0x80 + d) (hhigh : 0x80 + d ≤ lead.high)
    (hfollow : lead.follow = 1) :
    step (some (run, lead)) (UInt8.ofNat (0x80 + d)) =
      ([.char (Char.ofNat (64 * lead.bits + d))], none) := by
  simp only [step, toNat_ofNat_of_lt (show 0x80 + d < 256 by omega), hlow, hhigh, hfollow, and_self,
    if_true, Nat.add_sub_cancel_left]

theorem lead?_two (hlow : 2 ≤ n) (hhigh : n < 32) :
    lead? (0xC0 + n) = some ⟨1, 0x80, 0xBF, n⟩ := by
  interval_cases n <;> rfl

/-- The second of three bytes is neither that of a longer form than needed nor a surrogate's. -/
theorem lead?_three (hn : n < 16) (hd : d < 64) (hshort : n = 0 → 32 ≤ d)
    (hsurrogate : n = 13 → d < 32) :
    ∃ low high, lead? (0xE0 + n) = some ⟨2, low, high, n⟩ ∧ low ≤ 0x80 + d ∧ 0x80 + d ≤ high := by
  interval_cases n <;> exact ⟨_, _, rfl, by omega, by omega⟩

theorem lead?_four (hn : n < 5) (hd : d < 64) (hshort : n = 0 → 16 ≤ d) (hlast : n = 4 → d < 16) :
    ∃ low high, lead? (0xF0 + n) = some ⟨3, low, high, n⟩ ∧ low ≤ 0x80 + d ∧ 0x80 + d ≤ high := by
  interval_cases n <;> exact ⟨_, _, rfl, by omega, by omega⟩

theorem readFrom_encodeChar (c : Char) (rest : Bytes) :
    readFrom none (encodeChar c ++ rest) = .char c :: readFrom none rest := by
  have hvalid : c.toNat < 0xD800 ∨ (0xDFFF < c.toNat ∧ c.toNat < 0x110000) := c.valid
  have hchar {m : Nat} (hm : m = c.toNat) : Char.ofNat m = c := hm ▸ Char.ofNat_toNat c
  simp only [encodeChar]
  split_ifs with h1 h2 h3
  · rw [List.singleton_append, readFrom_of_step (step_ascii h1), hchar rfl, List.singleton_append]
  · have hlead := lead?_two (n := c.toNat / 64) (by omega) (by omega)
    simp only [List.cons_append, List.nil_append]
    rw [readFrom_of_step (step_lead (by omega) (by omega) hlead),
      readFrom_of_step (step_last (by omega) (by simp) (by simp only; omega) rfl),
      hchar (by simp only; omega)]
    rfl
  · obtain ⟨low, high, hlead, hlow, hhigh⟩ :=
      lead?_three (n := c.toNat / 4096) (d := c.toNat / 64 % 64) (by omega) (by omega) (by omega)
        (by omega)
    simp only [List.cons_append, List.nil_append]
    rw [readFrom_of_step (step_lead (by omega) (by omega) hlead),
      readFrom_of_step (step_next (by omega) hlow hhigh (by simp)),
      readFrom_of_step (step_last (by omega) (by simp) (by simp only; omega) rfl),
      hchar (by simp only; omega)]
    rfl
  · obtain ⟨low, high, hlead, hlow, hhigh⟩ :=
      lead?_four (n := c.toNat / 262144) (d := c.toNat / 4096 % 64) (by omega) (by omega)
        (by omega) (by omega)
    simp only [List.cons_append, List.nil_append]
    rw [readFrom_of_step (step_lead (by omega) (by omega) hlead),
      readFrom_of_step (step_next (by omega) hlow hhigh (by simp)),
      readFrom_of_step (step_next (by omega) (by simp) (by simp only; omega) (by simp)),
      readFrom_of_step (step_last (by omega) (by simp) (by simp only; omega) rfl),
      hchar (by simp only; omega)]
    rfl

theorem pieces_encode (s : List Char) : pieces (encode s) = s.map .char := by
  induction s with
  | nil => rfl
  | cons c s ih =>
    rw [pieces, encode, List.flatMap_cons, readFrom_encodeChar, List.map_cons, ← ih]
    rfl

theorem collect_map_char (s : List Char) (position : Nat) :
    collect position (s.map .char) = .ok s := by
  induction s generalizing position with
  | nil => rfl
  | cons c s ih =>
    rw [List.map_cons, collect, ih]
    rfl

theorem decode_encode (s : List Char) : decode (encode s) = .ok s := by
  rw [decode, pieces_encode, collect_map_char]

theorem encode_append (s t : List Char) : encode (s ++ t) = encode s ++ encode t :=
  List.flatMap_append

theorem toNat_of_mem_encodeChar {c : Char} {b : UInt8} (h : b ∈ encodeChar c)
    (hb : b.toNat < 0x80) : c.toNat = b.toNat := by
  have hlt : c.toNat < 0x110000 := by
    have hvalid : c.toNat < 0xD800 ∨ (0xDFFF < c.toNat ∧ c.toNat < 0x110000) := c.valid
    omega
  -- The bytes of longer forms all have their highest bit set.
  have hhigh {n : Nat} (hn : n < 256) (hset : 0x80 ≤ n) : b ≠ UInt8.ofNat n := by
    rintro rfl
    rw [toNat_ofNat_of_lt hn] at hb
    omega
  simp only [encodeChar] at h
  split_ifs at h <;> simp only [List.mem_cons, List.not_mem_nil, or_false] at h
  · rw [h, toNat_ofNat_of_lt (by omega)]
  · rcases h with h | h <;> exact absurd h (hhigh (by omega) (by omega))
  · rcases h with h | h | h <;> exact absurd h (hhigh (by omega) (by omega))
  · rcases h with h | h | h | h <;> exact absurd h (hhigh (by omega) (by omega))

/-- A byte of ASCII stands for a character. -/
theorem exists_of_mem_encode {s : List Char} {b : UInt8} (h : b ∈ encode s) (hb : b.toNat < 0x80) :
    ∃ c ∈ s, c.toNat = b.toNat := by
  obtain ⟨c, hc, hmem⟩ := List.mem_flatMap.mp h
  exact ⟨c, hc, toNat_of_mem_encodeChar hmem hb⟩

theorem ofNat_eq {x : UInt8} (h : n = x.toNat) : UInt8.ofNat n = x := by
  rw [h, UInt8.ofNat_toNat]

/-! What is read is the text that was written. -/

theorem lead?_cases (h : lead? n = some lead) :
    lead.follow = 1 ∧ 0xC2 ≤ n ∧ n < 0xE0 ∧ lead.bits = n - 0xC0 ∧ lead.low = 0x80 ∧
      lead.high = 0xBF ∨
    lead.follow = 2 ∧ 0xE0 ≤ n ∧ n < 0xF0 ∧ lead.bits = n - 0xE0 ∧ 0x80 ≤ lead.low ∧
      lead.high ≤ 0xBF ∧ (n = 0xE0 → lead.low = 0xA0) ∧ (n = 0xED → lead.high = 0x9F) ∨
    lead.follow = 3 ∧ 0xF0 ≤ n ∧ n < 0xF5 ∧ lead.bits = n - 0xF0 ∧ 0x80 ≤ lead.low ∧
      lead.high ≤ 0xBF ∧ (n = 0xF0 → lead.low = 0x90) ∧ (n = 0xF4 → lead.high = 0x8F) := by
  rw [lead?] at h
  split_ifs at h <;> obtain rfl := Option.some.inj h
  · exact .inl ⟨rfl, by omega, by omega, rfl, rfl, rfl⟩
  · exact .inr (.inl ⟨rfl, by omega, by omega, by simp only; omega, by decide, by decide,
      fun _ => rfl, by omega⟩)
  · exact .inr (.inl ⟨rfl, by omega, by omega, by simp only; omega, by decide, by decide,
      by omega, fun _ => rfl⟩)
  · exact .inr (.inl ⟨rfl, by omega, by omega, rfl, Nat.le_refl _, Nat.le_refl _, by omega,
      by omega⟩)
  · exact .inr (.inr ⟨rfl, by omega, by omega, by simp only; omega, by decide, by decide,
      fun _ => rfl, by omega⟩)
  · exact .inr (.inr ⟨rfl, by omega, by omega, rfl, Nat.le_refl _, Nat.le_refl _, by omega,
      by omega⟩)
  · exact .inr (.inr ⟨rfl, by omega, by omega, by simp only; omega, by decide, by decide,
      by omega, fun _ => rfl⟩)

theorem toNat_char_ofNat (h : n < 0xD800 ∨ (0xDFFF < n ∧ n < 0x110000)) :
    (Char.ofNat n).toNat = n := by
  rw [Char.ofNat, dif_pos h]
  rfl

variable {x y z w : UInt8}

theorem encodeChar_two (hx : 0xC2 ≤ x.toNat ∧ x.toNat < 0xE0)
    (hy : 0x80 ≤ y.toNat ∧ y.toNat ≤ 0xBF) :
    encodeChar (Char.ofNat (64 * (x.toNat - 0xC0) + (y.toNat - 0x80))) = [x, y] := by
  simp only [encodeChar]
  rw [toNat_char_ofNat (by omega), if_neg (by omega), if_pos (by omega),
    ofNat_eq (x := x) (by omega), ofNat_eq (x := y) (by omega)]

theorem encodeChar_three (hx : 0xE0 ≤ x.toNat ∧ x.toNat < 0xF0)
    (hy : 0x80 ≤ y.toNat ∧ y.toNat ≤ 0xBF) (hz : 0x80 ≤ z.toNat ∧ z.toNat ≤ 0xBF)
    (hshort : x.toNat = 0xE0 → 0xA0 ≤ y.toNat) (hsurrogate : x.toNat = 0xED → y.toNat ≤ 0x9F) :
    encodeChar (Char.ofNat
      (64 * (64 * (x.toNat - 0xE0) + (y.toNat - 0x80)) + (z.toNat - 0x80))) = [x, y, z] := by
  simp only [encodeChar]
  rw [toNat_char_ofNat (by omega), if_neg (by omega), if_neg (by omega), if_pos (by omega),
    ofNat_eq (x := x) (by omega), ofNat_eq (x := y) (by omega), ofNat_eq (x := z) (by omega)]

theorem encodeChar_four (hx : 0xF0 ≤ x.toNat ∧ x.toNat < 0xF5)
    (hy : 0x80 ≤ y.toNat ∧ y.toNat ≤ 0xBF) (hz : 0x80 ≤ z.toNat ∧ z.toNat ≤ 0xBF)
    (hw : 0x80 ≤ w.toNat ∧ w.toNat ≤ 0xBF) (hshort : x.toNat = 0xF0 → 0x90 ≤ y.toNat)
    (hlast : x.toNat = 0xF4 → y.toNat ≤ 0x8F) :
    encodeChar (Char.ofNat (64 * (64 * (64 * (x.toNat - 0xF0) + (y.toNat - 0x80)) +
      (z.toNat - 0x80)) + (w.toNat - 0x80))) = [x, y, z, w] := by
  simp only [encodeChar]
  rw [toNat_char_ofNat (by omega), if_neg (by omega), if_neg (by omega), if_neg (by omega),
    ofNat_eq (x := x) (by omega), ofNat_eq (x := y) (by omega), ofNat_eq (x := z) (by omega),
    ofNat_eq (x := w) (by omega)]

theorem map_char_of_collect {position : Nat} {read : List Piece} {s : List Char}
    (h : collect position read = .ok s) : read = s.map .char := by
  induction read generalizing position s with
  | nil =>
    obtain rfl := Except.ok.inj h
    rfl
  | cons piece read ih =>
    cases piece with
    | illFormed bytes reason => cases h
    | char c =>
      rw [collect] at h
      cases hrest : collect (position + (encodeChar c).length) read with
      | error fault => simp [hrest, Functor.map, Except.map] at h
      | ok t =>
        simp only [hrest, Functor.map, Except.map, Except.ok.injEq] at h
        rw [← h, List.map_cons, ih hrest]

/-- A character begun goes on with a byte of its range, or the text is at fault. -/
theorem exists_of_readFrom_pending {rest : Bytes} {s : List Char}
    (h : readFrom (some (run, lead)) rest = s.map .char) : ∃ y tail, rest = y :: tail ∧
      (lead.low ≤ y.toNat ∧ y.toNat ≤ lead.high) ∧
      if lead.follow = 1 then ∃ t, s = Char.ofNat (64 * lead.bits + (y.toNat - 0x80)) :: t ∧
        readFrom none tail = t.map .char
      else readFrom (some (y :: run, ⟨lead.follow - 1, 0x80, 0xBF,
        64 * lead.bits + (y.toNat - 0x80)⟩)) tail = s.map .char := by
  cases rest with
  | nil => cases s <;> simp [readFrom] at h
  | cons y tail =>
    rw [readFrom, step] at h
    split at h
    · next hrange =>
      refine ⟨y, tail, rfl, hrange, ?_⟩
      split at h
      · next hlast =>
        rw [if_pos hlast]
        cases s with
        | nil => cases h
        | cons c t =>
          obtain ⟨hc, htail⟩ := List.cons_eq_cons.mp h
          exact ⟨t, by rw [Piece.char.inj hc], htail⟩
      · next hlast =>
        rw [if_neg hlast]
        exact h
    · cases s <;> simp at h

theorem eq_encode_of_readFrom {bytes : Bytes} {s : List Char}
    (h : readFrom none bytes = s.map .char) : bytes = encode s := by
  -- The induction is on the bytes, which a character takes one to four of.
  induction hlength : bytes.length using Nat.strong_induction_on generalizing bytes s with
  | _ length ih =>
    cases bytes with
    | nil =>
      cases s with
      | nil => rfl
      | cons c s => cases h
    | cons x rest =>
      have hcons {c : Char} {t : List Char} {tail : Bytes}
          (htail : readFrom none tail = t.map .char) (hshort : tail.length < length) :
          encodeChar c ++ tail = encode (c :: t) := by
        rw [ih _ hshort htail rfl]
        rfl
      rw [readFrom, step, start] at h
      split at h
      · next hascii =>
        cases s with
        | nil => cases h
        | cons c t =>
          obtain ⟨hc, htail⟩ := List.cons_eq_cons.mp h
          have hchar : encodeChar (Char.ofNat x.toNat) = [x] := by
            simp only [encodeChar]
            rw [toNat_char_ofNat (by omega), if_pos hascii, UInt8.ofNat_toNat]
          rw [← Piece.char.inj hc, ← hcons htail (by simp [← hlength]), hchar]
          rfl
      · split at h
        · next lead hlead =>
          simp only [List.length_cons] at hlength
          rw [List.nil_append] at h
          obtain ⟨y, tail, rfl, hy, h⟩ := exists_of_readFrom_pending h
          simp only [List.length_cons] at hlength
          rcases lead?_cases hlead with ⟨hfollow, hlow, hhigh, hbits, hl, hh⟩ |
            ⟨hfollow, hlow, hhigh, hbits, hl, hh, hshort, hsurrogate⟩ |
            ⟨hfollow, hlow, hhigh, hbits, hl, hh, hshort, hlast⟩
          · rw [if_pos hfollow] at h
            obtain ⟨t, rfl, htail⟩ := h
            rw [← hcons htail (by omega), hbits, encodeChar_two ⟨hlow, hhigh⟩ (by omega)]
            rfl
          · rw [if_neg (by omega)] at h
            obtain ⟨z, tail, rfl, hz, h⟩ := exists_of_readFrom_pending h
            simp only [List.length_cons] at hlength
            rw [if_pos (by simp only; omega)] at h
            obtain ⟨t, rfl, htail⟩ := h
            rw [← hcons htail (by omega), hbits, encodeChar_three ⟨hlow, hhigh⟩ (by omega) hz
              (by omega) (by omega)]
            rfl
          · rw [if_neg (by omega)] at h
            obtain ⟨z, tail, rfl, hz, h⟩ := exists_of_readFrom_pending h
            simp only [List.length_cons] at hlength
            rw [if_neg (by simp only; omega)] at h
            obtain ⟨w, tail, rfl, hw, h⟩ := exists_of_readFrom_pending h
            simp only [List.length_cons] at hlength
            rw [if_pos (by simp only; omega)] at h
            obtain ⟨t, rfl, htail⟩ := h
            rw [← hcons htail (by omega), hbits, encodeChar_four ⟨hlow, hhigh⟩ (by omega) hz hw
              (by omega) (by omega)]
            rfl
        · cases s <;> simp at h

/-- Bytes are read as the text of which they are the form. -/
theorem decode_eq_ok_iff {bytes : Bytes} {s : List Char} :
    decode bytes = .ok s ↔ bytes = encode s := by
  constructor
  · intro h
    exact eq_encode_of_readFrom (map_char_of_collect h)
  · rintro rfl
    exact decode_encode s

end Utf8

namespace CodePoint

def IsScalar (s : List CodePoint) : Prop := ∀ p ∈ s, p.isSurrogate = false

theorem val_ofChar (c : Char) : (ofChar c).val = c.toNat := by
  have hvalid : c.toNat < 0xD800 ∨ (0xDFFF < c.toNat ∧ c.toNat < 0x110000) := c.valid
  simp only [ofChar, ofNat, Fin.val_ofNat]
  omega

theorem isSurrogate_ofChar (c : Char) : (ofChar c).isSurrogate = false := by
  have hvalid : c.toNat < 0xD800 ∨ (0xDFFF < c.toNat ∧ c.toNat < 0x110000) := c.valid
  simp only [isSurrogate, val_ofChar, Bool.and_eq_false_iff, decide_eq_false_iff_not]
  omega

theorem isScalar_ofChars (s : List Char) : IsScalar (ofChars s) := by
  intro p hp
  obtain ⟨c, -, rfl⟩ := List.mem_map.mp hp
  exact isSurrogate_ofChar c

theorem IsScalar.append {s t : List CodePoint} (hs : IsScalar s) (ht : IsScalar t) :
    IsScalar (s ++ t) :=
  fun p hp => (List.mem_append.mp hp).elim (hs p) (ht p)

theorem IsScalar.cons {s : List CodePoint} (c : Char) (hs : IsScalar s) :
    IsScalar (ofChar c :: s) :=
  (isScalar_ofChars [c]).append hs

theorem IsScalar.encode_eq {s : List CodePoint} (h : IsScalar s) :
    encode s = .ok (Utf8.encode (s.map toChar)) := by
  have hhead : s.takeWhile (fun p => !p.isSurrogate) = s :=
    List.takeWhile_eq_self_iff.mpr fun p hp => by simp [h p hp]
  simp only [encode, hhead, List.drop_length, List.takeWhile_nil, Utf8.encode, List.flatMap_map]

theorem isScalar_append_iff {s t : List CodePoint} :
    IsScalar (s ++ t) ↔ IsScalar s ∧ IsScalar t :=
  List.forall_mem_append

theorem isScalar_ofChar_cons_iff {s : List CodePoint} {c : Char} :
    IsScalar (ofChar c :: s) ↔ IsScalar s :=
  ⟨fun h => (List.forall_mem_cons.mp h).2, IsScalar.cons c⟩

/-- Just text of characters has a UTF-8 form. -/
theorem IsScalar.of_encode {s : List CodePoint} {bytes : Bytes} (h : encode s = .ok bytes) :
    IsScalar s := by
  have hsplit := List.takeWhile_append_dropWhile (p := fun p : CodePoint => !p.isSurrogate) (l := s)
  have hdrop : s.drop (s.takeWhile fun p => !p.isSurrogate).length =
      s.dropWhile fun p => !p.isSurrogate :=
    (congrArg (List.drop _) hsplit).symm.trans List.drop_left
  rw [encode, hdrop] at h
  cases hrest : s.dropWhile fun p => !p.isSurrogate with
  | nil =>
    intro p hp
    simpa using List.dropWhile_eq_nil_iff.mp hrest p hp
  | cons p rest =>
    have hp : p.isSurrogate = true := by
      have hhead := List.head_dropWhile_not (fun p : CodePoint => !p.isSurrogate)
        (l := s) (by simp [hrest])
      simpa [hrest] using hhead
    simp [hrest, hp] at h

@[simp] theorem toChar_ofChar (c : Char) : toChar (ofChar c) = c := by
  simp [toChar, isSurrogate_ofChar, val_ofChar]

@[simp] theorem map_toChar_ofChars (s : List Char) : (ofChars s).map toChar = s := by
  simp [ofChars, Function.comp_def]

@[simp] theorem map_toChar_ofString (s : String) : (ofString s).map toChar = s.toList :=
  map_toChar_ofChars s.toList

theorem toNat_toChar {p : CodePoint} (h : p.isSurrogate = false) : p.toChar.toNat = p.val := by
  have hvalid : p.val.isValidChar := by
    have hlt := p.isLt
    simp only [isSurrogate, Bool.and_eq_false_iff, decide_eq_false_iff_not] at h
    simp only [Nat.isValidChar]
    omega
  rw [toChar, if_neg (by simp [h]), Char.ofNat, dif_pos hvalid]
  rfl

theorem ofChar_toChar {p : CodePoint} (h : p.isSurrogate = false) : ofChar p.toChar = p :=
  Fin.ext ((val_ofChar _).trans (toNat_toChar h))

end CodePoint

end Sqrl
