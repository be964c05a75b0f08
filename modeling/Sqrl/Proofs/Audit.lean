import Sqrl.Audit.Trail
import Sqrl.Proofs.Json

/-! An event can be appended to every trail whose head can be read, unless it is nested too deeply,
and leaves one whose head can be read. Events of a server hold texts, truth values and small whole
numbers, and are always appended. -/
namespace Sqrl

namespace Json

open CodePoint (IsScalar isScalar_ofChars)

/-- A value that can be recorded and is neither array nor object. -/
def IsPlain : Json → Prop
  | .null | .bool _ => True
  | .number (.int n) => n.natAbs < 10 ^ Number.maxDigits
  | .string s => IsScalar s
  | .number (.float _) | .array _ | .object _ => False

/-- Keys of characters that differ, and plain values. -/
def ArePlain (members : List (List CodePoint × Json)) : Prop :=
  (members.map Prod.fst).Nodup ∧ ∀ e ∈ members, IsScalar e.1 ∧ e.2.IsPlain

theorem isPlain_text (s : String) : (text s).IsPlain := isScalar_ofChars s.toList

theorem isPlain_optional (s : Option String) : (optional s).IsPlain := by
  cases s with
  | none => trivial
  | some s => exact isPlain_text s

theorem isPlain_int {n : Int} (h : n.natAbs < 10 ^ Number.maxDigits) : (int n).IsPlain := h

theorem IsPlain.isData {v : Json} (h : v.IsPlain) : v.IsData := by
  cases v with
  | number n =>
    cases n with
    | int n => exact h
    | float x => exact h.elim
  | array items => exact h.elim
  | object members => exact h.elim
  | null => trivial
  | bool b => trivial
  | string s => exact h

theorem IsPlain.nesting_eq {v : Json} (h : v.IsPlain) : v.nesting = 0 := by
  cases v with
  | array items => exact h.elim
  | object members => exact h.elim
  | null => rfl
  | bool b => rfl
  | number n => rfl
  | string s => rfl

theorem ArePlain.isData {members : List (List CodePoint × Json)} (h : ArePlain members) :
    IsData (.object members) :=
  ⟨h.1, membersAreData_iff.mpr fun e he => ⟨(h.2 e he).1, (h.2 e he).2.isData⟩⟩

theorem ArePlain.nesting_le {members : List (List CodePoint × Json)} (h : ArePlain members) :
    nesting (.object members) ≤ 1 :=
  Nat.add_le_add_right
    (membersNesting_le_iff.mpr fun e he => (h.2 e he).2.nesting_eq.le) 1

theorem arePlain_ofEntries {entries : List (List CodePoint × Json)}
    (h : ∀ e ∈ entries, IsScalar e.1 ∧ e.2.IsPlain) : ArePlain (Dictionary.ofEntries entries) :=
  ⟨Dictionary.nodup_ofEntries entries, fun e he => h e (Dictionary.mem_of_mem_ofEntries he)⟩

end Json

namespace Audit

variable {event : Event} {depth : Nat} {head : String}

theorem mem_of_mem_bare {e : List CodePoint × Json} (he : e ∈ bare event) : e ∈ event :=
  List.mem_of_mem_filter (List.mem_of_mem_filter he)

theorem isData_bare (h : (Json.object event).IsData) : (Json.object (bare event)).IsData :=
  ⟨h.1.sublist ((List.filter_sublist.trans List.filter_sublist).map _),
    Json.membersAreData_iff.mpr fun e he => Json.membersAreData_iff.mp h.2 e (mem_of_mem_bare he)⟩

theorem isWellFormed_bare (h : (Json.object event).IsWellFormed) :
    (Json.object (bare event)).IsWellFormed := by
  obtain ⟨hkeys, hmembers⟩ := Json.isWellFormed_object_iff.mp h
  exact Json.isWellFormed_object_iff.mpr
    ⟨hkeys.sublist ((List.filter_sublist.trans List.filter_sublist).map _),
      fun e he => hmembers e (mem_of_mem_bare he)⟩

theorem nesting_bare_le (h : (Json.object event).nesting ≤ depth) :
    (Json.object (bare event)).nesting ≤ depth := by
  refine Nat.le_trans (Nat.add_le_add_right ?_ 1) h
  rw [Json.membersNesting_le_iff]
  exact fun e he => Json.membersNesting_le_iff.mp le_rfl e (mem_of_mem_bare he)

theorem exists_digest_iff_canonical : (∃ hash, digest depth head event = .ok hash) ↔
    ∃ bytes, (Json.object (bare event)).canonicalWithin depth = .ok bytes := by
  rw [digest]
  cases (Json.object (bare event)).canonicalWithin depth <;> simp [Except.map]

/-- Just an event that is nested too deeply has no digest. -/
theorem exists_digest_iff (hdata : (Json.object event).IsData) :
    (∃ hash, digest depth head event = .ok hash) ↔
      (Json.object (bare event)).nesting ≤ depth :=
  exists_digest_iff_canonical.trans (isData_bare hdata).isWritable.canonicalWithin_eq_ok_iff

namespace Trail

def IsReadable (t : Trail) : Prop := ∃ head, t.head = .ok head

theorem isReadable_empty : empty.IsReadable := ⟨genesis, rfl⟩

theorem head_write (t : Trail) (head hash : String) (event : Event) :
    (t.write head hash event).head = .ok (headOfText (hash.toList ++ ['\n'])) := by
  have hstate : Utf8.encode hash.toList ++ [0x0A] = Utf8.encode (hash.toList ++ ['\n']) := by
    rw [Utf8.encode_append]
    rfl
  simp only [Trail.head, write, hstate, Utf8.decode_encode]
  rfl

theorem appendWithin_ok {t : Trail} {hash : String} (hhead : t.head = .ok head)
    (hdigest : digest depth head event = .ok hash) :
    t.appendWithin depth event =
      (.ok hash, write { t with hasDirectory := true, hasLock := true } head hash event) := by
  have hhead : Trail.head { t with hasDirectory := true, hasLock := true } = .ok head := hhead
  simp only [appendWithin, hhead, hdigest]

theorem appendWithin_error {t : Trail} {fault : Json.CanonicalFault}
    (hhead : t.head = .ok head) (hdigest : digest depth head event = .error fault) :
    t.appendWithin depth event =
      (.error (.event fault), { t with hasDirectory := true, hasLock := true }) := by
  have hhead : Trail.head { t with hasDirectory := true, hasLock := true } = .ok head := hhead
  simp only [appendWithin, hhead, hdigest]

theorem append_ok {t : Trail} (ht : t.IsReadable) (h : Json.ArePlain event) :
    ∃ hash after, t.append event = (.ok hash, after) ∧ after.IsReadable := by
  obtain ⟨head, hhead⟩ := ht
  have hdepth : (Json.object (bare event)).nesting ≤ Json.maxDepth :=
    nesting_bare_le (h.nesting_le.trans (by decide))
  obtain ⟨hash, hdigest⟩ := (exists_digest_iff h.isData).mpr hdepth
  exact ⟨hash, _, appendWithin_ok hhead hdigest, _, head_write _ head hash event⟩

end Trail

end Audit

end Sqrl
