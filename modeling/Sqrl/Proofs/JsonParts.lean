import Sqrl.Json
import Sqrl.Proofs.Decimal
import Sqrl.Proofs.Utf8

/-! What holds of a value and of every value in it. Whether a value can be written is such a question:
it is one of its whole numbers and of its texts, wherever they stand. -/
namespace Sqrl

namespace Json

open CodePoint (IsScalar)

/-- Induction along the values that a value is made of. -/
theorem rec_mem {motive : Json → Prop} (null : motive .null) (bool : ∀ b, motive (.bool b))
    (number : ∀ n, motive (.number n)) (string : ∀ s, motive (.string s))
    (array : ∀ items, (∀ v ∈ items, motive v) → motive (.array items))
    (object : ∀ members, (∀ e ∈ members, motive e.2) → motive (.object members)) (v : Json) :
    motive v :=
  @Json.rec motive (fun items => ∀ v ∈ items, motive v)
    (fun members => ∀ e ∈ members, motive e.2) (fun e => motive e.2)
    null bool number string array object (by simp)
    (fun _ _ hv hitems => List.forall_mem_cons.mpr ⟨hv, hitems⟩) (by simp)
    (fun _ _ he hmembers => List.forall_mem_cons.mpr ⟨he, hmembers⟩) (fun _ _ hv => hv) v

/-- Is the first value the second, or one that is in it? -/
inductive IsPart : Json → Json → Prop
  | self (v : Json) : IsPart v v
  | item {v w : Json} {items : List Json} (hw : w ∈ items) (h : IsPart v w) :
      IsPart v (.array items)
  | member {v : Json} {e : List CodePoint × Json} {members : List (List CodePoint × Json)}
      (he : e ∈ members) (h : IsPart v e.2) : IsPart v (.object members)

/-- Does something hold of a value and of every value in it? -/
def Throughout (p : Json → Prop) (v : Json) : Prop := ∀ w, IsPart w v → p w

section Throughout

variable {p q : Json → Prop} {v : Json} {items : List Json}
  {members : List (List CodePoint × Json)}

theorem Throughout.self (h : Throughout p v) : p v := h v (.self v)

theorem throughout_array_iff :
    Throughout p (.array items) ↔ p (.array items) ∧ ∀ v ∈ items, Throughout p v := by
  constructor
  · exact fun h => ⟨h.self, fun v hv w hw => h w (.item hv hw)⟩
  · rintro ⟨hself, hitems⟩ w hw
    cases hw with
    | self => exact hself
    | item hv hw => exact hitems _ hv w hw

theorem throughout_object_iff :
    Throughout p (.object members) ↔ p (.object members) ∧ ∀ e ∈ members, Throughout p e.2 := by
  constructor
  · exact fun h => ⟨h.self, fun e he w hw => h w (.member he hw)⟩
  · rintro ⟨hself, hmembers⟩ w hw
    cases hw with
    | self => exact hself
    | member he hw => exact hmembers _ he w hw

theorem throughout_iff_self (h : ∀ w, IsPart w v → w = v) : Throughout p v ↔ p v :=
  ⟨Throughout.self, fun hv w hw => h w hw ▸ hv⟩

@[simp] theorem throughout_null_iff : Throughout p .null ↔ p .null :=
  throughout_iff_self fun _ hw => by cases hw; rfl

@[simp] theorem throughout_bool_iff {b : Bool} : Throughout p (.bool b) ↔ p (.bool b) :=
  throughout_iff_self fun _ hw => by cases hw; rfl

@[simp] theorem throughout_number_iff {n : Number} : Throughout p (.number n) ↔ p (.number n) :=
  throughout_iff_self fun _ hw => by cases hw; rfl

@[simp] theorem throughout_string_iff {s : List CodePoint} :
    Throughout p (.string s) ↔ p (.string s) :=
  throughout_iff_self fun _ hw => by cases hw; rfl

end Throughout

/-- Whole numbers that can be written: those that are not too long. -/
def HasShortNumbers : Json → Prop :=
  Throughout fun
    | .number (.int n) => n.natAbs < 10 ^ Number.maxDigits
    | _ => True

/-- Are its strings and keys texts, without surrogates? -/
def HasText : Json → Prop :=
  Throughout fun
    | .string s => IsScalar s
    | .object members => ∀ e ∈ members, IsScalar e.1
    | _ => True

/-- Do the keys of each object differ, and is each number that is not whole one of double
precision? -/
def IsWellFormed : Json → Prop :=
  Throughout fun
    | .number (.float x) => x.IsDouble
    | .object members => (members.map Prod.fst).Nodup
    | _ => True

/-- Is it a well-formed value that can be written? -/
structure IsWritable (v : Json) : Prop where
  isWellFormed : v.IsWellFormed
  hasShortNumbers : v.HasShortNumbers
  hasText : v.HasText

variable {v : Json} {items : List Json} {members : List (List CodePoint × Json)}

theorem hasShortNumbers_array_iff :
    HasShortNumbers (.array items) ↔ ∀ v ∈ items, v.HasShortNumbers :=
  throughout_array_iff.trans (true_and _).to_iff

theorem hasShortNumbers_object_iff :
    HasShortNumbers (.object members) ↔ ∀ e ∈ members, e.2.HasShortNumbers :=
  throughout_object_iff.trans (true_and _).to_iff

theorem hasText_string_iff {s : List CodePoint} : HasText (.string s) ↔ IsScalar s := by
  rw [HasText, throughout_string_iff]

theorem hasText_array_iff : HasText (.array items) ↔ ∀ v ∈ items, v.HasText :=
  throughout_array_iff.trans (true_and _).to_iff

theorem hasText_object_iff :
    HasText (.object members) ↔ ∀ e ∈ members, IsScalar e.1 ∧ e.2.HasText :=
  throughout_object_iff.trans forall₂_and.symm

theorem isWellFormed_array_iff : IsWellFormed (.array items) ↔ ∀ v ∈ items, v.IsWellFormed :=
  throughout_array_iff.trans (true_and _).to_iff

theorem isWellFormed_object_iff : IsWellFormed (.object members) ↔
    (members.map Prod.fst).Nodup ∧ ∀ e ∈ members, e.2.IsWellFormed :=
  throughout_object_iff

theorem isWritable_text (s : String) : (text s).IsWritable := by
  have htext : IsScalar (CodePoint.ofString s) := CodePoint.isScalar_ofChars _
  exact ⟨by simp [text, IsWellFormed], by simp [text, HasShortNumbers], hasText_string_iff.mpr htext⟩

namespace IsWritable

theorem item (h : IsWritable (.array items)) (hv : v ∈ items) : v.IsWritable :=
  ⟨isWellFormed_array_iff.mp h.isWellFormed v hv,
    hasShortNumbers_array_iff.mp h.hasShortNumbers v hv, hasText_array_iff.mp h.hasText v hv⟩

theorem member {e : List CodePoint × Json} (h : IsWritable (.object members))
    (he : e ∈ members) : e.2.IsWritable :=
  ⟨(isWellFormed_object_iff.mp h.isWellFormed).2 e he,
    hasShortNumbers_object_iff.mp h.hasShortNumbers e he, (hasText_object_iff.mp h.hasText e he).2⟩

end IsWritable

end Json

end Sqrl
