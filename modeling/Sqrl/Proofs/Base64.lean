import Mathlib.Data.List.TakeWhile
import Sqrl.Base64.Url
import Sqrl.Proofs.Utf8

/-! Every byte string and every text is read back from its base64url text. -/
namespace Sqrl

namespace Base64

theorem sextets_lt (b : Bytes) : ∀ v ∈ sextets b, v < 64 := by
  induction b using sextets.induct with
  | case1 x y z rest ih =>
    have hx := x.toNat_lt
    have hy := y.toNat_lt
    have hz := z.toNat_lt
    simp only [sextets, List.mem_cons]
    intro v hv
    rcases hv with rfl | rfl | rfl | rfl | hv
    · omega
    · omega
    · omega
    · omega
    · exact ih v hv
  | case2 x y =>
    have hx := x.toNat_lt
    have hy := y.toNat_lt
    simp only [sextets, List.mem_cons, List.not_mem_nil, or_false]
    omega
  | case3 x =>
    have hx := x.toNat_lt
    simp only [sextets, List.mem_cons, List.not_mem_nil, or_false]
    omega
  | case4 => simp [sextets]

/-- No group has a single character. -/
theorem length_sextets_mod (b : Bytes) : (sextets b).length % 4 ≠ 1 := by
  induction b using sextets.induct with
  | case1 x y z rest ih =>
    simp only [sextets, List.length_cons]
    omega
  | case2 x y => simp [sextets]
  | case3 x => simp [sextets]
  | case4 => simp [sextets]

theorem length_sextets (b : Bytes) : (sextets b).length = (4 * b.length + 2) / 3 := by
  induction b using sextets.induct with
  | case1 x y z rest ih =>
    simp only [sextets, List.length_cons, ih]
    omega
  | case2 x y => simp [sextets]
  | case3 x => simp [sextets]
  | case4 => rfl

theorem ofSextets_sextets (b : Bytes) : ofSextets (sextets b) = b := by
  induction b using sextets.induct with
  | case1 x y z rest ih =>
    have hx := x.toNat_lt
    have hy := y.toNat_lt
    have hz := z.toNat_lt
    rw [sextets, ofSextets, ih, Utf8.ofNat_eq (x := x) (by omega),
      Utf8.ofNat_eq (x := y) (by omega), Utf8.ofNat_eq (x := z) (by omega)]
  | case2 x y =>
    have hx := x.toNat_lt
    have hy := y.toNat_lt
    rw [sextets, ofSextets, Utf8.ofNat_eq (x := x) (by omega), Utf8.ofNat_eq (x := y) (by omega)]
  | case3 x =>
    have hx := x.toNat_lt
    rw [sextets, ofSextets, Utf8.ofNat_eq (x := x) (by omega)]
  | case4 => rfl

namespace Url

theorem value?_digit {n : Nat} (h : n < 64) : value? (digit n) = some n := by
  have hall : ∀ n : Fin 64, value? (digit n) = some n.val := by decide
  exact hall ⟨n, h⟩

theorem digit_plain {n : Nat} (h : n < 64) :
    digit n ≠ '=' ∧ digit n ≠ '+' ∧ digit n ≠ '/' ∧ isForeign (digit n) = false ∧
      Text.isBlank (digit n) = false := by
  have hall : ∀ n : Fin 64, digit n ≠ '=' ∧ digit n ≠ '+' ∧ digit n ≠ '/' ∧
      isForeign (digit n) = false ∧ Text.isBlank (digit n) = false := by decide
  exact hall ⟨n, h⟩

theorem scan_map_digit {vs : List Nat} (hvs : ∀ v ∈ vs, v < 64) (count : Nat) (tail : List Char) :
    scan value? count 0 false (vs.map digit ++ tail) =
      (vs ++ ·) <$> scan value? (count + vs.length) 0 false tail := by
  induction vs generalizing count with
  | nil => cases h : scan value? count 0 false tail <;> simp [h, Functor.map, Except.map]
  | cons v vs ih =>
    have hv : v < 64 := hvs v List.mem_cons_self
    have hrest := ih (fun w hw => hvs w (List.mem_cons_of_mem v hw)) (count + 1)
    have hcount : count + 1 + vs.length = count + (vs.length + 1) := by omega
    rw [List.map_cons, List.cons_append, scan, if_neg (digit_plain hv).1, value?_digit hv]
    simp only [Bool.false_eq_true, if_false, hrest, List.length_cons, hcount]
    cases scan value? (count + (vs.length + 1)) 0 false tail <;> rfl

theorem scan_padding {count : Nat} (h : count % 4 ≠ 1) :
    scan value? count 0 false (List.replicate ((4 - count % 4) % 4) '=') = .ok [] := by
  have hcases : count % 4 = 0 ∨ count % 4 = 2 ∨ count % 4 = 3 := by omega
  rcases hcases with h | h | h <;> simp [h, scan, List.replicate]

theorem strip_eq_self {s : List Char} (h : ∀ c ∈ s, Text.isBlank c = false) : Text.strip s = s := by
  have hdrop {t : List Char} (ht : ∀ c ∈ t, Text.isBlank c = false) :
      t.dropWhile Text.isBlank = t := by
    cases t with
    | nil => rfl
    | cons c t => simp [ht c List.mem_cons_self]
  rw [Text.strip, Text.trim, Text.trimEnd, hdrop h, hdrop (by simpa using h), List.reverse_reverse]

/-- A text without characters of the other alphabet or outside ASCII is read by the scan. -/
theorem decode_of_plain {s : String}
    (h : ∀ c ∈ pad (Text.strip s.toList), c ≠ '+' ∧ c ≠ '/' ∧ isForeign c = false) :
    decode s = ((Base64.read value? (pad (Text.strip s.toList))).map ofSextets).mapError .scan := by
  have hother : (pad (Text.strip s.toList)).any (fun c => c = '+' || c = '/') = false := by
    simp only [List.any_eq_false, Bool.or_eq_true, decide_eq_true_eq, not_or]
    exact fun c hc => ⟨(h c hc).1, (h c hc).2.1⟩
  have hascii : (pad (Text.strip s.toList)).takeWhile (fun c => !isForeign c) =
      pad (Text.strip s.toList) := by
    rw [List.takeWhile_eq_self_iff]
    exact fun c hc => by simp [(h c hc).2.2]
  simp only [decode, hother, hascii, List.drop_length, List.takeWhile_nil, Bool.false_eq_true,
    if_false]

theorem plain_of_mem_pad {vs : List Nat} (h : ∀ v ∈ vs, v < 64) {k : Nat} {c : Char}
    (hc : c ∈ vs.map digit ++ List.replicate k '=') : c ≠ '+' ∧ c ≠ '/' ∧ isForeign c = false := by
  simp only [List.mem_append, List.mem_map, List.mem_replicate] at hc
  rcases hc with ⟨v, hv, rfl⟩ | ⟨_, rfl⟩
  · exact ⟨(digit_plain (h v hv)).2.1, (digit_plain (h v hv)).2.2.1, (digit_plain (h v hv)).2.2.2.1⟩
  · decide

theorem decode_encode (b : Bytes) : decode (encode b) = .ok b := by
  have hlt := sextets_lt b
  have hblank : ∀ c ∈ (sextets b).map digit, Text.isBlank c = false := by
    simp only [List.mem_map]
    intro c ⟨v, hv, hc⟩
    exact hc ▸ (digit_plain (hlt v hv)).2.2.2.2
  have htext : Text.strip (encode b).toList = (sextets b).map digit := by
    rw [encode, String.toList_ofList, strip_eq_self hblank]
  have hhead : (pad ((sextets b).map digit)).head? ≠ some '=' := by
    cases hs : sextets b with
    | nil => simp [pad]
    | cons v vs => simpa [pad] using (digit_plain (hlt v (by simp [hs]))).1
  have hread : Base64.read value? (pad ((sextets b).map digit)) = .ok (sextets b) := by
    rw [Base64.read, if_neg hhead, pad, scan_map_digit hlt, Nat.zero_add, List.length_map,
      scan_padding (length_sextets_mod b)]
    simp [Functor.map, Except.map]
  rw [decode_of_plain, htext, hread]
  · simp [Except.map, Except.mapError, ofSextets_sextets]
  · rw [htext]
    exact fun c hc => plain_of_mem_pad hlt hc

theorem decodeText_eq_ok_iff {s text : String} :
    decodeText s = .ok text ↔ decode s = .ok (Utf8.encode text.toList) := by
  constructor
  · intro h
    rw [decodeText] at h
    cases hbytes : decode s with
    | error fault => simp [hbytes, Except.mapError, bind, Except.bind] at h
    | ok bytes =>
      cases hchars : Utf8.decode bytes with
      | error fault => simp [hbytes, hchars, Except.mapError, bind, Except.bind] at h
      | ok chars =>
        simp only [hbytes, hchars, Except.mapError, bind, Except.bind, pure, Except.pure,
          Except.ok.injEq] at h
        rw [← h, String.toList_ofList, ← Utf8.decode_eq_ok_iff.mp hchars]
  · intro h
    rw [decodeText, h]
    simp [Except.mapError, bind, Except.bind, pure, Except.pure, Utf8.decode_encode]

theorem decodeText_encodeText (s : String) : decodeText (encodeText s) = .ok s :=
  decodeText_eq_ok_iff.mpr (decode_encode _)

theorem not_isBlank_of_mem_encode {b : Bytes} {c : Char} (h : c ∈ (encode b).toList) :
    Text.isBlank c = false := by
  rw [encode, String.toList_ofList, List.mem_map] at h
  obtain ⟨v, hv, rfl⟩ := h
  exact (digit_plain (sextets_lt b v hv)).2.2.2.2

def isSafe (c : Char) : Bool := c.isAlphanum || c = '-' || c = '_'

theorem isSafe_digit {n : Nat} (h : n < 64) : isSafe (digit n) = true := by
  have hall : ∀ n : Fin 64, isSafe (digit n) = true := by decide
  exact hall ⟨n, h⟩

theorem isSafe_of_mem_encode {b : Bytes} {c : Char} (h : c ∈ (encode b).toList) :
    isSafe c = true := by
  rw [encode, String.toList_ofList] at h
  obtain ⟨v, hv, rfl⟩ := List.mem_map.mp h
  exact isSafe_digit (sextets_lt b v hv)

/-- Four characters for three bytes, and none for padding. -/
theorem length_encode (b : Bytes) : (encode b).length = (4 * b.length + 2) / 3 := by
  rw [encode, String.length_ofList, List.length_map, length_sextets]

theorem decode_blank_append (s : String) : decode (" " ++ s) = decode s := by
  have hstrip : Text.strip (" " ++ s).toList = Text.strip s.toList := by
    rw [String.toList_append]
    rfl
  simp only [decode, hstrip]

end Url

end Base64

end Sqrl
