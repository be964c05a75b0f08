import Sqrl.Proofs.Base64
import Sqrl.Proofs.Decimal
import Sqrl.Proofs.Flag
import Sqrl.Proofs.Text
import Sqrl.Proofs.Utf8
import Sqrl.Response

/-! What a client reads in a response. Each field stands on a line of its own, and is read back if
nothing in it ends that line. A response is written unless its bitmask has too many digits, and those
of a server have three at most. -/
namespace Sqrl

theorem not_mem_intText {c : Char} (hminus : c ≠ '-') (hdigit : c.isDigit = false) (n : Int) :
    c ∉ intText n := by
  have hdigits (m : Nat) : c ∉ Nat.toDigits 10 m := by
    intro hc
    have hisDigit := Nat.isDigit_of_mem_toDigits (by decide) (by decide) hc
    rw [hdigit] at hisDigit
    cases hisDigit
  rw [intText]
  split <;> simp [hminus, hdigits]

theorem ofList_intText (n : Int) : String.ofList (intText n) = toString n := by
  cases n with
  | ofNat n =>
    have hsign : ¬ Int.ofNat n < 0 := Int.not_lt.mpr (Int.natCast_nonneg n)
    rw [intText, if_neg hsign, ← Nat.toString_eq_ofList_toDigits]
    rfl
  | negSucc n =>
    have hsign : Int.negSucc n < 0 := Int.negSucc_lt_zero n
    have htext : toString (Int.negSucc n) = "-" ++ toString (n + 1) := rfl
    rw [intText, if_pos hsign, Int.natAbs_negSucc, htext, Nat.toString_eq_ofList_toDigits,
      ← String.toList_inj]
    simp

theorem isOneLine_toString_int (n : Int) : Text.IsOneLine (toString n).toList := by
  rw [← ofList_intText, String.toList_ofList]
  exact Text.isOneLine_of_not_mem (not_mem_intText (by decide) (by decide) n)

namespace Response

open Text (IsOneLine)

/-- A bitmask is written in digits as long as these are not too many. -/
theorem Mask.text_int (n : Int) :
    (Mask.int n).text =
      if n.natAbs < 10 ^ Number.maxDigits then .ok (toString n) else .error .oversizedMask := by
  have hdigits := Nat.length_toDigits_le_iff (b := 10) (n := n.natAbs) (k := Number.maxDigits)
    (by decide) (by decide)
  rw [text, ofList_intText, ← ite_not]
  simp only [Nat.not_lt, hdigits]

/-- Can a client read the fields? Their names differ and hold no equals sign, and nothing in them
ends a line. -/
structure IsReadable (fields : List (String × String)) : Prop where
  oneLine : ∀ e ∈ fields, IsOneLine e.1.toList ∧ IsOneLine e.2.toList
  plain : ∀ e ∈ fields, '=' ∉ e.1.toList
  distinct : (fields.map Prod.fst).Nodup

theorem readLine_line {name : String} (h : '=' ∉ name.toList) (value : String) :
    readLine (line name value) = (name, value) := by
  rw [readLine, line, Text.cut?_append_cons h]
  simp

variable {fields : List (String × String)}

theorem IsReadable.lines (h : IsReadable fields) :
    ∀ l ∈ fields.map fun (name, value) => line name value, IsOneLine l ∧ l ≠ [] := by
  intro _ hl
  obtain ⟨e, he, rfl⟩ := List.mem_map.mp hl
  have hapart : '=' ≠ '\r' ∧ '=' ≠ '\n' := by decide
  exact ⟨(Text.isOneLine_append_cons hapart.1 hapart.2).mpr (h.oneLine e he), by simp [line]⟩

theorem IsReadable.readText_textOf (h : IsReadable fields) : readText (textOf fields) = fields := by
  have hread : (fields.map fun (name, value) => line name value).map readLine = fields := by
    rw [List.map_map]
    exact (List.map_congr_left fun e he => readLine_line (h.plain e he) e.2).trans (List.map_id _)
  rw [readText, textOf, String.toList_ofList, Text.filter_splitCrLf_join h.lines, hread,
    Dictionary.ofEntries_of_nodup h.distinct]

/-- No line looks like that of a field that is not there. -/
theorem IsReadable.mem_of_line (h : IsReadable fields) {name value : String}
    (hname : '=' ∉ name.toList)
    (hline : line name value ∈ Text.splitCrLf (textOf fields).toList) : (name, value) ∈ fields := by
  have hmem : line name value ∈
      (Text.splitCrLf (textOf fields).toList).filter fun line => line ≠ [] :=
    List.mem_filter.mpr ⟨hline, by simp [line]⟩
  rw [textOf, String.toList_ofList, Text.filter_splitCrLf_join h.lines] at hmem
  obtain ⟨e, he, hsame⟩ := List.mem_map.mp hmem
  have hread := congrArg readLine hsame
  rw [readLine_line (h.plain e he), readLine_line hname] at hread
  exact hread ▸ he

theorem IsReadable.read_encodeText (h : IsReadable fields) :
    read (Base64.Url.encodeText (textOf fields)) = .ok fields := by
  rw [read, Base64.Url.decodeText_encodeText]
  exact congrArg Except.ok h.readText_textOf

variable {r : Response}

theorem present_of_text {tif : String} (h : r.mask.text = .ok tif) :
    r.present = .ok (filled (r.fieldsWith tif)) := by
  rw [present, Response.fields, h]
  rfl

theorem text_of_present (h : r.present = .ok fields) : r.text = .ok (textOf fields) := by
  rw [text, h]
  rfl

theorem encoded_of_present (h : r.present = .ok fields) :
    r.encoded = .ok (Base64.Url.encodeText (textOf fields)) := by
  rw [encoded, text_of_present h]
  rfl

variable {version baseUri nut : String}

def builtFields (version baseUri nut : String) (flags : FlagSet) : List (String × String) :=
  [("ver", version), ("nut", nut), ("tif", toString flags.mask), ("qry", queryUrl baseUri nut)]

theorem present_build (version baseUri nut : String) (flags : FlagSet) :
    (build version baseUri nut none flags).present =
      .ok (builtFields version baseUri nut flags) := by
  have hshort : ((flags.mask : Nat) : Int).natAbs < 10 ^ Number.maxDigits :=
    Number.lt_pow_maxDigits (flags.mask_lt.trans (by decide))
  have htif : (build version baseUri nut none flags).mask.text = .ok (toString flags.mask) := by
    rw [build, Mask.text_int, if_pos hshort]
    rfl
  exact present_of_text htif

theorem map_fst_builtFields (version baseUri nut : String) (flags : FlagSet) :
    (builtFields version baseUri nut flags).map Prod.fst = ["ver", "nut", "tif", "qry"] :=
  rfl

theorem isReadable_builtFields (hversion : IsOneLine version.toList)
    (hbaseUri : IsOneLine baseUri.toList) (hnut : IsOneLine nut.toList) (flags : FlagSet) :
    IsReadable (builtFields version baseUri nut flags) := by
  have htif : IsOneLine (toString flags.mask).toList := isOneLine_toString_int flags.mask
  have hqry : IsOneLine (queryUrl baseUri nut).toList := by
    have hsplit : (queryUrl baseUri nut).toList =
        baseUri.toList ++ '?' :: (['n', 'u', 't'] ++ '=' :: nut.toList) := by
      simp [queryUrl]
    rw [hsplit, Text.isOneLine_append_cons (by decide) (by decide),
      Text.isOneLine_append_cons (by decide) (by decide)]
    exact ⟨hbaseUri, Text.isOneLine_of_not_mem (by decide), hnut⟩
  have hvalue : ∀ e ∈ builtFields version baseUri nut flags, IsOneLine e.2.toList := by
    simp only [builtFields, List.forall_mem_cons]
    exact ⟨hversion, hnut, htif, hqry, List.forall_mem_nil _⟩
  have hname : ∀ e ∈ builtFields version baseUri nut flags, '\r' ∉ e.1.toList ∧ '=' ∉ e.1.toList := by
    intro e he
    have hall : ∀ name ∈ ["ver", "nut", "tif", "qry"], '\r' ∉ name.toList ∧ '=' ∉ name.toList := by
      decide
    exact hall e.1 (List.mem_map_of_mem (f := Prod.fst) he)
  exact {
    oneLine := fun e he => ⟨Text.isOneLine_of_not_mem (hname e he).1, hvalue e he⟩
    plain := fun e he => (hname e he).2
    distinct := by
      rw [map_fst_builtFields]
      decide }

end Response

end Sqrl
