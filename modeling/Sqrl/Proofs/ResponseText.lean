import Sqrl.Proofs.Response

/-! A response is read as it was written. Its own fields come first and in their order, the further
ones after them, and those without a value are left out. A value may be empty, and anything may stand in
it but the end of a line. A bitmask that is too long is not written at all, and a truth value in its
place not in digits. The answers to a question come apart again. -/
namespace Sqrl

namespace Response

open Text (IsOneLine)

variable {r : Response} {message button1 button2 : String}

def ownNames : List String := ["ver", "nut", "tif", "qry", "url", "suk", "ask"]

def given (name : String) (value : Option String) : List (String × String) :=
  (value.map (name, ·)).toList

/-- What a response tells: its own fields in their order and then the further ones, as far as they have
values. -/
def toldWith (r : Response) (tif : String) : List (String × String) :=
  given "ver" r.ver ++ given "nut" r.nut ++ [("tif", tif)] ++ given "qry" r.qry ++
    given "url" r.url ++ given "suk" r.suk ++ given "ask" r.ask ++
      r.additional.flatMap fun e => given e.1 e.2

def told (r : Response) : List (String × String) := r.toldWith (toString r.tif)

def IsReadBack (r : Response) : Prop := ∃ text, r.encoded = .ok text ∧ read text = .ok r.told

theorem filled_fieldsWith (r : Response) (tif : String) :
    filled (r.fieldsWith tif) = r.toldWith tif := by
  have hfilled (fields : List (String × Option String)) :
      filled fields = fields.flatMap fun e => given e.1 e.2 :=
    List.filterMap_eq_flatMap_toList ..
  have htif : given "tif" (some tif) = [("tif", tif)] := rfl
  simp only [hfilled, fieldsWith, List.flatMap_append, List.flatMap_cons, List.flatMap_nil, htif,
    toldWith, List.append_assoc, List.append_nil]

/-- Does no name and no value end a line, and can no further field be taken for another one? -/
structure IsPlain (r : Response) : Prop where
  own : ∀ value ∈ [r.ver, r.nut, r.qry, r.url, r.suk, r.ask], ∀ v ∈ value, IsOneLine v.toList
  additional : ∀ e ∈ r.additional, IsOneLine e.1.toList ∧ ∀ v ∈ e.2, IsOneLine v.toList
  apart : ∀ e ∈ r.additional, '=' ∉ e.1.toList ∧ e.1 ∉ ownNames
  distinct : (r.additional.map Prod.fst).Nodup

variable {tif : String} {fields : List (String × Option String)}

theorem mem_filled_iff {e : String × String} : e ∈ filled fields ↔ (e.1, some e.2) ∈ fields := by
  rw [filled, List.mem_filterMap]
  constructor
  · rintro ⟨⟨name, value⟩, hfield, hvalue⟩
    obtain ⟨v, rfl, rfl⟩ := Option.map_eq_some_iff.mp hvalue
    exact hfield
  · intro hfield
    exact ⟨_, hfield, rfl⟩

theorem map_fst_fieldsWith (r : Response) (tif : String) :
    (r.fieldsWith tif).map Prod.fst = ownNames ++ r.additional.map Prod.fst := by
  rw [fieldsWith, List.map_append]
  rfl

theorem map_fst_filled_sublist (fields : List (String × Option String)) :
    ((filled fields).map Prod.fst).Sublist (fields.map Prod.fst) := by
  rw [filled]
  induction fields with
  | nil => exact List.Sublist.slnil
  | cons e fields ih =>
    obtain ⟨name, value⟩ := e
    cases value with
    | none => exact ih.cons name
    | some v => exact ih.cons_cons name

theorem Mask.isOneLine_text {m : Mask} (h : m.text = .ok tif) : IsOneLine tif.toList := by
  cases m with
  | int n =>
    rw [text_int] at h
    split at h
    · exact Except.ok.inj h ▸ isOneLine_toString_int n
    · cases h
  | truth b =>
    obtain rfl := Except.ok.inj h
    exact Text.isOneLine_of_not_mem (by cases b <;> decide)

theorem IsPlain.isOneLine_value (h : r.IsPlain) (htif : IsOneLine tif.toList)
    {name value : String} (hfield : (name, some value) ∈ r.fieldsWith tif) :
    IsOneLine value.toList := by
  have hown (field : Option String) (hmem : field ∈ [r.ver, r.nut, r.qry, r.url, r.suk, r.ask])
      (hvalue : some value = field) : IsOneLine value.toList :=
    h.own field hmem value hvalue.symm
  simp only [fieldsWith, List.mem_append, List.mem_cons, Prod.mk.injEq, List.not_mem_nil,
    or_false] at hfield
  rcases hfield with (⟨-, hver⟩ | ⟨-, hnut⟩ | ⟨-, hvalue⟩ | ⟨-, hqry⟩ | ⟨-, hurl⟩ | ⟨-, hsuk⟩ |
    ⟨-, hask⟩) | hmore
  · exact hown _ (by simp) hver
  · exact hown _ (by simp) hnut
  · exact Option.some.inj hvalue ▸ htif
  · exact hown _ (by simp) hqry
  · exact hown _ (by simp) hurl
  · exact hown _ (by simp) hsuk
  · exact hown _ (by simp) hask
  · exact (h.additional _ hmore).2 value rfl

theorem IsPlain.name (h : r.IsPlain) {e : String × Option String} (hfield : e ∈ r.fieldsWith tif) :
    IsOneLine e.1.toList ∧ '=' ∉ e.1.toList := by
  have hname : e.1 ∈ ownNames ++ r.additional.map Prod.fst :=
    map_fst_fieldsWith r tif ▸ List.mem_map_of_mem hfield
  rcases List.mem_append.mp hname with hown | hmore
  · have hplain : ∀ name ∈ ownNames, '\r' ∉ name.toList ∧ '=' ∉ name.toList := by decide
    exact ⟨Text.isOneLine_of_not_mem (hplain _ hown).1, (hplain _ hown).2⟩
  · obtain ⟨d, hd, hsame⟩ := List.mem_map.mp hmore
    exact hsame ▸ ⟨(h.additional d hd).1, (h.apart d hd).1⟩

theorem IsPlain.isReadable (h : r.IsPlain) (htif : IsOneLine tif.toList) :
    IsReadable (filled (r.fieldsWith tif)) where
  oneLine e he :=
    ⟨(h.name (mem_filled_iff.mp he)).1, h.isOneLine_value htif (mem_filled_iff.mp he)⟩
  plain e he := (h.name (mem_filled_iff.mp he)).2
  distinct := by
    refine (map_fst_filled_sublist _).nodup ?_
    rw [map_fst_fieldsWith]
    refine List.Nodup.append (by decide) h.distinct fun name hown hmore => ?_
    obtain ⟨e, he, rfl⟩ := List.mem_map.mp hmore
    exact (h.apart e he).2 hown

/-- A plain response is read as it was written, whatever stands for its bitmask. -/
theorem IsPlain.read_encoded (h : r.IsPlain) (htif : r.mask.text = .ok tif) :
    ∃ text, r.encoded = .ok text ∧ read text = .ok (r.toldWith tif) := by
  refine ⟨_, encoded_of_present (present_of_text htif), ?_⟩
  rw [(h.isReadable (Mask.isOneLine_text htif)).read_encodeText, filled_fieldsWith]

theorem encoded_of_error {fault : WriteFault} (h : r.mask.text = .error fault) :
    r.encoded = .error fault := by
  rw [encoded, text, present, Response.fields, h]
  rfl

theorem not_mem_encodeText {c : Char} (h : Base64.Url.isSafe c = false) (s : String) :
    c ∉ (Base64.Url.encodeText s).toList := by
  intro hc
  rw [Base64.Url.isSafe_of_mem_encode hc] at h
  cases h

theorem toList_askText (message button1 button2 : String) :
    (askText message button1 button2).toList = Text.join ['~'] ([message, button1, button2].map
      fun part => (Base64.Url.encodeText part).toList) := by
  simp [askText, Text.join]

theorem splitOn_askText (message button1 button2 : String) :
    Text.splitOn '~' (askText message button1 button2).toList =
      [message, button1, button2].map fun part => (Base64.Url.encodeText part).toList := by
  rw [toList_askText, Text.splitOn_join (by simp)]
  rw [List.forall_mem_map]
  exact fun part _ => not_mem_encodeText (by decide) part

theorem isOneLine_askText (message button1 button2 : String) :
    IsOneLine (askText message button1 button2).toList := by
  rw [toList_askText]
  refine Text.isOneLine_of_not_mem fun hreturn => ?_
  have hpieces : ∀ piece ∈ [message, button1, button2].map
      fun part => (Base64.Url.encodeText part).toList, ∀ c ∈ piece, c ≠ '\r' := by
    rw [List.forall_mem_map]
    exact fun part _ c hc hsame => not_mem_encodeText (by decide) part (hsame ▸ hc)
  exact (Text.forall_mem_join (by decide)).mpr hpieces '\r' hreturn rfl

theorem IsPlain.withAsk (h : r.IsPlain) (message button1 button2 : String) :
    (r.withAsk message button1 button2).IsPlain where
  own := by
    have hown := h.own
    simp only [List.forall_mem_cons, Response.withAsk] at hown ⊢
    obtain ⟨hver, hnut, hqry, hurl, hsuk, -⟩ := hown
    refine ⟨hver, hnut, hqry, hurl, hsuk, fun ask hask => ?_, List.forall_mem_nil _⟩
    exact Option.some.inj hask ▸ isOneLine_askText message button1 button2
  additional := h.additional
  apart := h.apart
  distinct := h.distinct

/-- What a plain response tells is what a client reads in it, if its bitmask is a number that is not
too long to be written. One that is too long keeps the whole response from being written, and a truth
value is read by its name. A question changes nothing else in the response and leaves it plain, and its
parts are read back one by one. -/
theorem read_encoded_told (r : Response) (message button1 button2 : String) :
    (r.IsPlain → ∀ n, r.mask = .int n → n.natAbs < 10 ^ Number.maxDigits → r.IsReadBack) ∧
    (∀ n, r.mask = .int n → 10 ^ Number.maxDigits ≤ n.natAbs →
      r.encoded = .error .oversizedMask) ∧
    (r.IsPlain → ∀ b, r.mask = .truth b → ∃ text, r.encoded = .ok text ∧
      read text = .ok (r.toldWith (if b then "True" else "False"))) ∧
    { r.withAsk message button1 button2 with ask := r.ask } = r ∧
    (r.IsPlain → (r.withAsk message button1 button2).IsPlain) ∧
    ∃ ask, (r.withAsk message button1 button2).ask = some ask ∧
      (Text.splitOn '~' ask.toList).map (fun part => Base64.Url.decodeText (String.ofList part)) =
        [.ok message, .ok button1, .ok button2] := by
  refine ⟨fun h n hmask hshort => ?_, fun n hmask hlong => encoded_of_error ?_,
    fun h b hmask => h.read_encoded ?_, rfl, fun h => h.withAsk message button1 button2, _, rfl, ?_⟩
  · have htif : r.mask.text = .ok (toString r.tif) := by
      rw [tif, hmask, Mask.text_int, if_pos hshort, Mask.value]
    exact h.read_encoded htif
  · rw [hmask, Mask.text_int, if_neg (Nat.not_lt.mpr hlong)]
  · rw [hmask, Mask.text]
  · rw [splitOn_askText, List.map_map]
    simp [Function.comp_def, Base64.Url.decodeText_encodeText]

/-- A response with an empty key and values in which parts of the separators stand. -/
def sample (mask : Mask) : Response where
  ver := some "1"
  nut := some "a\r"
  qry := some "\n=q~"
  mask := mask
  url := none
  suk := some ""
  ask := none
  additional := [("", some "=\r"), ("sin", none), ("\ncan", some "")]

theorem isPlain_sample (mask : Mask) : (sample mask).IsPlain where
  own := by
    have hplain : ∀ value ∈ [some "1", some "a\r", some "\n=q~", none, some "", none],
        ∀ v ∈ value, ¬ ['\r', '\n'] <:+: v.toList := by decide
    exact hplain
  additional := by
    have hplain : ∀ e ∈ [("", some "=\r"), ("sin", none), ("\ncan", some "")],
        ¬ ['\r', '\n'] <:+: e.1.toList ∧ ∀ v ∈ e.2, ¬ ['\r', '\n'] <:+: v.toList := by decide
    exact hplain
  apart := by
    have hapart : ∀ e ∈ [("", some "=\r"), ("sin", none), ("\ncan", some "")],
        '=' ∉ e.1.toList ∧ e.1 ∉ ownNames := by decide
    exact hapart
  distinct := by
    have hdistinct : ["", "sin", "\ncan"].Nodup := by decide
    exact hdistinct

theorem read_encoded_told_sample :
    (sample (.int (-33))).IsPlain ∧ (-33 : Int).natAbs < 10 ^ Number.maxDigits ∧
      ∃ text, (sample (.int (-33))).encoded = .ok text ∧
        read text = .ok [("ver", "1"), ("nut", "a\r"), ("tif", "-33"), ("qry", "\n=q~"),
          ("suk", ""), ("", "=\r"), ("\ncan", "")] := by
  have htold : (sample (.int (-33))).told = [("ver", "1"), ("nut", "a\r"), ("tif", "-33"),
      ("qry", "\n=q~"), ("suk", ""), ("", "=\r"), ("\ncan", "")] := by decide +kernel
  have hshort : (-33 : Int).natAbs < 10 ^ Number.maxDigits := Number.lt_pow_maxDigits (by decide)
  exact ⟨isPlain_sample _, hshort, htold ▸
    (read_encoded_told (sample (.int (-33))) "" "" "").1 (isPlain_sample _) (-33) rfl hshort⟩

/-- With the first number of 4301 digits the response is not written, and with a truth value it is read
as something else. -/
theorem not_isReadBack_sample :
    ((sample (.int (10 ^ Number.maxDigits))).IsPlain ∧
      ¬ (sample (.int (10 ^ Number.maxDigits))).IsReadBack) ∧
    (sample (.truth true)).IsPlain ∧ ¬ (sample (.truth true)).IsReadBack := by
  refine ⟨⟨isPlain_sample _, ?_⟩, isPlain_sample _, ?_⟩
  · rintro ⟨text, hencoded, -⟩
    have hlong : ¬ (10 ^ Number.maxDigits : Int).natAbs < 10 ^ Number.maxDigits := by
      have hten : (10 : Int).natAbs = 10 := rfl
      rw [Int.natAbs_pow, hten]
      exact Nat.lt_irrefl _
    have hfault : (sample (.int (10 ^ Number.maxDigits))).encoded = .error .oversizedMask :=
      encoded_of_error ((Mask.text_int _).trans (if_neg hlong))
    rw [hencoded] at hfault
    cases hfault
  · rintro ⟨text, hencoded, hread⟩
    obtain ⟨text', hencoded', hread'⟩ := (isPlain_sample (.truth true)).read_encoded rfl
    obtain rfl := Except.ok.inj (hencoded.symm.trans hencoded')
    have hsame := Except.ok.inj (hread.symm.trans hread')
    exact absurd hsame (by decide +kernel)

end Response

end Sqrl
