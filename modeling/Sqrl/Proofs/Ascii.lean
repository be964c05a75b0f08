import Sqrl.Proofs.Text
import Sqrl.Proofs.Utf8

/-! Characters of ASCII stand for themselves in the bytes of a text. To cut the bytes at one of
them, or to remove blanks of ASCII at their ends, is to do so to the text. -/
namespace Sqrl

namespace Utf8

open Text (join splitOn trim trimEnd)

variable {s t : List Char} {c : Char} {b : UInt8}

theorem encode_injective (h : encode s = encode t) : s = t := by
  have hread := congrArg decode h
  rw [decode_encode, decode_encode] at hread
  exact Except.ok.inj hread

theorem encodeChar_ascii (h : c.toNat < 0x80) : encodeChar c = [UInt8.ofNat c.toNat] := by
  simp [encodeChar, h]

theorem encodeChar_ne_nil (c : Char) : encodeChar c ≠ [] := by
  simp only [encodeChar]
  split_ifs <;> simp

theorem exists_eq_encode {bytes : Bytes} (h : ∀ b ∈ bytes, b.toNat < 0x80) :
    ∃ s, bytes = encode s := by
  induction bytes with
  | nil => exact ⟨[], rfl⟩
  | cons b bytes ih =>
    obtain ⟨hb, hbytes⟩ := List.forall_mem_cons.mp h
    obtain ⟨s, rfl⟩ := ih hbytes
    have hc : (Char.ofNat b.toNat).toNat = b.toNat := toNat_char_ofNat (by omega)
    refine ⟨Char.ofNat b.toNat :: s, ?_⟩
    rw [encode, encode, List.flatMap_cons, encodeChar_ascii (by omega), hc, UInt8.ofNat_toNat,
      List.singleton_append]

/-- Are a class of bytes and one of characters the same characters of ASCII? -/
structure IsAscii (p : UInt8 → Bool) (q : Char → Bool) : Prop where
  ascii : ∀ c : Char, c.toNat < 0x80 → p (UInt8.ofNat c.toNat) = q c
  byte : ∀ b, p b = true → b.toNat < 0x80
  char : ∀ c, q c = true → c.toNat < 0x80

section

variable {p : UInt8 → Bool} {q : Char → Bool} (h : IsAscii p q)

include h

theorem IsAscii.eq_of_mem (hb : b ∈ encodeChar c) : p b = q c := by
  by_cases hc : c.toNat < 0x80
  · rw [encodeChar_ascii hc, List.mem_singleton] at hb
    rw [hb, h.ascii c hc]
  · have hp : p b = false := by
      by_contra hne
      exact hc (toNat_of_mem_encodeChar hb (h.byte b (by simpa using hne)) ▸
        h.byte b (by simpa using hne))
    have hq : q c = false := by
      by_contra hne
      exact hc (h.char c (by simpa using hne))
    rw [hp, hq]

theorem dropWhile_encode (s : List Char) : (encode s).dropWhile p = encode (s.dropWhile q) := by
  induction s with
  | nil => rfl
  | cons c s ih =>
    rw [encode, List.flatMap_cons]
    cases hq : q c with
    | true =>
      rw [List.dropWhile_append_of_pos fun b hb => (h.eq_of_mem hb).trans hq,
        List.dropWhile_cons_of_pos hq]
      exact ih
    | false =>
      obtain ⟨b, more, hc⟩ := List.exists_cons_of_ne_nil (encodeChar_ne_nil c)
      have hb : p b = false := (h.eq_of_mem (hc ▸ List.mem_cons_self)).trans hq
      rw [List.dropWhile_cons_of_neg (by simp [hq]), hc, List.cons_append,
        List.dropWhile_cons_of_neg (by simp [hb]), ← List.cons_append, ← hc, encode,
        List.flatMap_cons]

theorem trimEnd_encode (s : List Char) : trimEnd p (encode s) = encode (trimEnd q s) := by
  induction s using List.reverseRecOn with
  | nil => rfl
  | append_singleton s c ih =>
    have hlast : encode [c] = encodeChar c := List.flatMap_singleton encodeChar c
    rw [encode_append, hlast, trimEnd, trimEnd, List.reverse_append, List.reverse_append,
      List.reverse_singleton, List.singleton_append]
    cases hq : q c with
    | true =>
      rw [List.dropWhile_cons_of_pos hq, List.dropWhile_append_of_pos
        fun b hb => (h.eq_of_mem (List.mem_reverse.mp hb)).trans hq]
      exact ih
    | false =>
      obtain ⟨b, more, hc⟩ := List.exists_cons_of_ne_nil
        (List.reverse_eq_nil_iff.not.mpr (encodeChar_ne_nil c))
      have hmem : b ∈ encodeChar c := List.mem_reverse.mp (hc ▸ List.mem_cons_self)
      have hb : p b = false := (h.eq_of_mem hmem).trans hq
      rw [List.dropWhile_cons_of_neg (by simp [hq]), hc, List.cons_append,
        List.dropWhile_cons_of_neg (by simp [hb]), ← List.cons_append, ← hc, List.reverse_append,
        List.reverse_reverse, List.reverse_reverse, List.reverse_cons, List.reverse_reverse,
        encode_append, hlast]

theorem trim_encode (s : List Char) : trim p (encode s) = encode (trim q s) := by
  rw [trim, trim, dropWhile_encode h, trimEnd_encode h]

end

theorem encode_join (lines : List (List Char)) (hc : c.toNat < 0x80) :
    encode (join [c] lines) = join [UInt8.ofNat c.toNat] (lines.map encode) := by
  have hsep : encode [c] = [UInt8.ofNat c.toNat] :=
    (List.flatMap_singleton encodeChar c).trans (encodeChar_ascii hc)
  induction lines using Text.join.induct with
  | case1 => rfl
  | case2 line => rfl
  | case3 line lines hmore ih =>
    rw [join, encode_append, encode_append, hsep, ih, List.map_cons, join]
    · exact fun h => hmore (List.map_eq_nil_iff.mp h)
    · exact hmore

theorem splitOn_encode (s : List Char) (hc : c.toNat < 0x80) :
    splitOn (UInt8.ofNat c.toNat) (encode s) = (splitOn c s).map encode := by
  have hbyte : (UInt8.ofNat c.toNat).toNat = c.toNat := toNat_ofNat_of_lt (by omega)
  have hpieces : ∀ piece ∈ (splitOn c s).map encode, UInt8.ofNat c.toNat ∉ piece := by
    rw [List.forall_mem_map]
    intro piece hpiece hmem
    obtain ⟨d, hd, heq⟩ := exists_of_mem_encode hmem (by omega)
    exact Text.not_mem_of_mem_splitOn hpiece (Char.toNat_inj.mp (heq.trans hbyte) ▸ hd)
  calc splitOn (UInt8.ofNat c.toNat) (encode s)
      = splitOn (UInt8.ofNat c.toNat) (encode (join [c] (splitOn c s))) := by
        rw [Text.join_splitOn c s]
    _ = splitOn (UInt8.ofNat c.toNat) (join [UInt8.ofNat c.toNat] ((splitOn c s).map encode)) := by
        rw [encode_join _ hc]
    _ = (splitOn c s).map encode :=
        Text.splitOn_join (List.map_eq_nil_iff.not.mpr (Text.splitOn_ne_nil c s)) hpieces

end Utf8

end Sqrl
