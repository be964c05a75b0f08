import Mathlib.Tactic.SplitIfs
import Sqrl.Json.Printer
import Sqrl.Proofs.JsonParts
import Sqrl.Proofs.Text

/-! Values that can be recorded: made of texts, truth values and whole numbers, without fractions.
Their members are the same in whichever order they stand, and the canonical text is that of the
sorted value. A value has canonical bytes if it is not nested too deeply, its whole numbers are not
too long and its strings are texts. -/
namespace Sqrl

namespace Json

open CodePoint (IsScalar isScalar_ofChars isScalar_append_iff isScalar_ofChar_cons_iff)

mutual

/-- Is a value made of texts, truth values and whole numbers that can be written? The keys of an
object are texts and differ. -/
def IsData : Json → Prop
  | .null | .bool _ => True
  | .number (.int n) => n.natAbs < 10 ^ Number.maxDigits
  | .number (.float _) => False
  | .string s => IsScalar s
  | .array items => AreData items
  | .object members => (members.map Prod.fst).Nodup ∧ MembersAreData members

def AreData : List Json → Prop
  | [] => True
  | v :: rest => IsData v ∧ AreData rest

def MembersAreData : List (List CodePoint × Json) → Prop
  | [] => True
  | (k, v) :: rest => (IsScalar k ∧ IsData v) ∧ MembersAreData rest

end

mutual

/-- How many arrays and objects are open at once in the text of a value, at most. -/
def nesting : Json → Nat
  | .array items => itemsNesting items + 1
  | .object members => membersNesting members + 1
  | _ => 0

def itemsNesting : List Json → Nat
  | [] => 0
  | v :: rest => max (nesting v) (itemsNesting rest)

def membersNesting : List (List CodePoint × Json) → Nat
  | [] => 0
  | (_, v) :: rest => max (nesting v) (membersNesting rest)

end

variable {items : List Json} {members : List (List CodePoint × Json)} {depth : Nat}

theorem areData_iff : AreData items ↔ ∀ v ∈ items, v.IsData := by
  induction items with
  | nil => simp [AreData]
  | cons v items ih => simp [AreData, ih]

theorem membersAreData_iff :
    MembersAreData members ↔ ∀ e ∈ members, IsScalar e.1 ∧ e.2.IsData := by
  induction members with
  | nil => simp [MembersAreData]
  | cons e members ih => simp [MembersAreData, ih]

theorem itemsNesting_le_iff : itemsNesting items ≤ depth ↔ ∀ v ∈ items, v.nesting ≤ depth := by
  induction items with
  | nil => simp [itemsNesting]
  | cons v items ih => simp [itemsNesting, ih]

theorem membersNesting_le_iff :
    membersNesting members ≤ depth ↔ ∀ e ∈ members, e.2.nesting ≤ depth := by
  induction members with
  | nil => simp [membersNesting]
  | cons e members ih => simp [membersNesting, ih]

theorem itemsObstacle?_eq_none_iff :
    itemsObstacle? depth items = none ↔ ∀ v ∈ items, v.obstacle? depth = none := by
  induction items with
  | nil => simp [itemsObstacle?]
  | cons v items ih => simp [itemsObstacle?, ih]

theorem membersObstacle?_eq_none_iff :
    membersObstacle? depth members = none ↔ ∀ e ∈ members, e.2.obstacle? depth = none := by
  induction members with
  | nil => simp [membersObstacle?]
  | cons e members ih => simp [membersObstacle?, ih]

/-- Only what is nested too deeply or a number that is too long stops a value from being written. -/
theorem obstacle?_eq_none_iff {v : Json} :
    v.obstacle? depth = none ↔ v.nesting ≤ depth ∧ v.HasShortNumbers := by
  induction v using rec_mem generalizing depth with
  | null => simp [obstacle?, nesting, HasShortNumbers]
  | bool b => simp [obstacle?, nesting, HasShortNumbers]
  | string s => simp [obstacle?, nesting, HasShortNumbers]
  | number n =>
    cases n with
    | float x => simp [obstacle?, nesting, HasShortNumbers]
    | int n =>
      have hdigits := Nat.length_toDigits_le_iff (b := 10) (n := n.natAbs) (k := Number.maxDigits)
        (by decide) (by decide)
      simp [obstacle?, nesting, HasShortNumbers, hdigits]
  | array items ih =>
    cases depth with
    | zero => simp [obstacle?, nesting]
    | succ depth =>
      rw [obstacle?, nesting, itemsObstacle?_eq_none_iff, Nat.add_le_add_iff_right,
        itemsNesting_le_iff, hasShortNumbers_array_iff, ← forall₂_and]
      exact forall₂_congr fun v hv => ih v hv
  | object members ih =>
    cases depth with
    | zero => simp [obstacle?, nesting]
    | succ depth =>
      rw [obstacle?, nesting, membersObstacle?_eq_none_iff, Nat.add_le_add_iff_right,
        membersNesting_le_iff, hasShortNumbers_object_iff, ← forall₂_and]
      exact forall₂_congr fun e he => ih e he

theorem IsData.isWritable {v : Json} (h : v.IsData) : v.IsWritable := by
  induction v using rec_mem with
  | null => exact ⟨by simp [IsWellFormed], by simp [HasShortNumbers], by simp [HasText]⟩
  | bool b => exact ⟨by simp [IsWellFormed], by simp [HasShortNumbers], by simp [HasText]⟩
  | string s => exact ⟨by simp [IsWellFormed], by simp [HasShortNumbers], by simpa [HasText]⟩
  | number n =>
    cases n with
    | float x => exact h.elim
    | int n => exact ⟨by simp [IsWellFormed], by simpa [HasShortNumbers], by simp [HasText]⟩
  | array items ih =>
    have hitems := fun v hv => ih v hv (areData_iff.mp h v hv)
    exact ⟨isWellFormed_array_iff.mpr fun v hv => (hitems v hv).isWellFormed,
      hasShortNumbers_array_iff.mpr fun v hv => (hitems v hv).hasShortNumbers,
      hasText_array_iff.mpr fun v hv => (hitems v hv).hasText⟩
  | object members ih =>
    have hdata := membersAreData_iff.mp h.2
    have hmembers := fun e he => ih e he (hdata e he).2
    exact ⟨isWellFormed_object_iff.mpr ⟨h.1, fun e he => (hmembers e he).isWellFormed⟩,
      hasShortNumbers_object_iff.mpr fun e he => (hmembers e he).hasShortNumbers,
      hasText_object_iff.mpr fun e he => ⟨(hdata e he).1, (hmembers e he).hasText⟩⟩

/-! The order of members. -/

theorem precedes_cons_iff {a b : CodePoint} {s t : List CodePoint} :
    precedes (a :: s) (b :: t) = true ↔ a.val < b.val ∨ a.val = b.val ∧ precedes s t = true := by
  by_cases hab : a = b
  · simp [precedes, hab]
  · have hval : a.val ≠ b.val := fun h => hab (Fin.ext h)
    simp only [precedes, if_neg hab, decide_eq_true_eq, hval, false_and, or_false]
    exact Fin.lt_def

theorem precedes_total (s t : List CodePoint) : precedes s t = true ∨ precedes t s = true := by
  induction s generalizing t with
  | nil => exact .inl rfl
  | cons a s ih =>
    cases t with
    | nil => exact .inr rfl
    | cons b t =>
      simp only [precedes_cons_iff]
      rcases Nat.lt_trichotomy a.val b.val with hlt | heq | hgt
      · exact .inl (.inl hlt)
      · exact (ih t).imp (fun h => .inr ⟨heq, h⟩) (fun h => .inr ⟨heq.symm, h⟩)
      · exact .inr (.inl hgt)

theorem precedes_trans {s t u : List CodePoint} (hst : precedes s t = true)
    (htu : precedes t u = true) : precedes s u = true := by
  induction s generalizing t u with
  | nil => rfl
  | cons a s ih =>
    cases t with
    | nil => cases hst
    | cons b t =>
      cases u with
      | nil => cases htu
      | cons c u =>
        rw [precedes_cons_iff] at hst htu ⊢
        rcases hst with hlt | ⟨heq, hst⟩
        · exact .inl (by omega)
        · exact htu.imp (heq ▸ ·) fun h => ⟨heq.trans h.1, ih hst h.2⟩

theorem precedes_antisymm {s t : List CodePoint} (hst : precedes s t = true)
    (hts : precedes t s = true) : s = t := by
  induction s generalizing t with
  | nil =>
    cases t with
    | nil => rfl
    | cons b t => cases hts
  | cons a s ih =>
    cases t with
    | nil => cases hst
    | cons b t =>
      rw [precedes_cons_iff] at hst hts
      have hab : a = b := Fin.ext (by omega)
      rw [hab, ih (hst.resolve_left (by omega)).2 (hts.resolve_left (by omega)).2]

theorem perm_insertSorted (key : List CodePoint) (value : Json) (members : Members) :
    (insertSorted key value members).Perm ((key, value) :: members) := by
  induction members with
  | nil => exact .refl _
  | cons e members ih =>
    rw [insertSorted]
    split
    · exact .refl _
    · exact (ih.cons e).trans (.swap _ _ _)

/-- Sorting changes no member but within its value, and their order. -/
theorem perm_sortedMembers (members : List (List CodePoint × Json)) :
    (sortedMembers members).Perm (members.map fun e => (e.1, sorted e.2)) := by
  induction members with
  | nil => exact .refl _
  | cons e members ih => exact (perm_insertSorted ..).trans (ih.cons _)

/-- Do the keys stand in order? -/
def InOrder (members : List (List CodePoint × Json)) : Prop :=
  members.Pairwise fun d e => precedes d.1 e.1 = true

theorem InOrder.insertSorted {key : List CodePoint} {value : Json} {members : Members}
    (h : InOrder members) : InOrder (insertSorted key value members) := by
  induction members with
  | nil => simp [Json.insertSorted, InOrder]
  | cons e members ih =>
    obtain ⟨hfirst, hrest⟩ := List.pairwise_cons.mp h
    rw [Json.insertSorted]
    by_cases hkey : precedes key e.1 = true
    · rw [if_pos hkey]
      refine List.pairwise_cons.mpr ⟨?_, h⟩
      intro d hd
      cases List.mem_cons.mp hd with
      | inl heq => exact heq ▸ hkey
      | inr hd => exact precedes_trans hkey (hfirst d hd)
    · rw [if_neg hkey]
      have hle : precedes e.1 key = true := (precedes_total e.1 key).resolve_right hkey
      refine List.pairwise_cons.mpr ⟨?_, ih hrest⟩
      intro d hd
      cases List.mem_cons.mp ((perm_insertSorted ..).mem_iff.mp hd) with
      | inl heq => exact heq ▸ hle
      | inr hd => exact hfirst d hd

theorem inOrder_sortedMembers (members : List (List CodePoint × Json)) :
    InOrder (sortedMembers members) := by
  induction members with
  | nil => exact List.Pairwise.nil
  | cons e members ih => exact ih.insertSorted

/-- Members with keys that differ have one order. -/
theorem InOrder.eq_of_perm {first second : List (List CodePoint × Json)} (hfirst : InOrder first)
    (hsecond : InOrder second) (hperm : first.Perm second) (hkeys : (first.map Prod.fst).Nodup) :
    first = second := by
  refine hperm.eq_of_pairwise ?_ hfirst hsecond
  intro d e hd he hde hed
  have hkey : d.1 = e.1 := precedes_antisymm hde hed
  exact List.inj_on_of_nodup_map hkeys hd (hperm.mem_iff.mpr he) hkey

theorem map_fst_sorted (members : List (List CodePoint × Json)) :
    (members.map fun e => (e.1, sorted e.2)).map Prod.fst = members.map Prod.fst := by
  rw [List.map_map]
  rfl

theorem nodup_sortedMembers (h : (members.map Prod.fst).Nodup) :
    ((sortedMembers members).map Prod.fst).Nodup := by
  rw [((perm_sortedMembers members).map Prod.fst).nodup_iff, map_fst_sorted]
  exact h

theorem mem_sortedMembers {e : List CodePoint × Json} :
    e ∈ sortedMembers members ↔ ∃ d ∈ members, e = (d.1, sorted d.2) := by
  rw [(perm_sortedMembers members).mem_iff, List.mem_map]
  simp only [eq_comm]

theorem sortedItems_eq_map (items : List Json) : sortedItems items = items.map sorted := by
  induction items with
  | nil => rfl
  | cons v items ih => rw [sortedItems, ih, List.map_cons]

/-- What does not depend on the order of members holds throughout a value if it does so once the
value is sorted. -/
theorem throughout_sorted_iff {p : Json → Prop} (h : ∀ v : Json, p v.sorted ↔ p v) (v : Json) :
    Throughout p v.sorted ↔ Throughout p v := by
  induction v using rec_mem with
  | null => rfl
  | bool b => rfl
  | number n => rfl
  | string s => rfl
  | array items ih =>
    rw [Json.sorted, throughout_array_iff, throughout_array_iff, ← Json.sorted, h,
      sortedItems_eq_map, List.forall_mem_map]
    exact and_congr_right' (forall₂_congr ih)
  | object members ih =>
    have hmembers : (∀ e ∈ sortedMembers members, Throughout p e.2) ↔
        ∀ e ∈ members, Throughout p (sorted e.2) := by
      simp only [(perm_sortedMembers members).mem_iff, List.forall_mem_map]
    rw [Json.sorted, throughout_object_iff, throughout_object_iff, ← Json.sorted, h, hmembers]
    exact and_congr_right' (forall₂_congr ih)

theorem hasShortNumbers_sorted_iff (v : Json) : v.sorted.HasShortNumbers ↔ v.HasShortNumbers :=
  throughout_sorted_iff (fun v => by cases v <;> rfl) v

theorem hasText_sorted_iff (v : Json) : v.sorted.HasText ↔ v.HasText := by
  refine throughout_sorted_iff (fun v => ?_) v
  cases v with
  | object members =>
    simp only [Json.sorted, (perm_sortedMembers members).mem_iff, List.forall_mem_map]
  | _ => rfl

theorem isWellFormed_sorted_iff (v : Json) : v.sorted.IsWellFormed ↔ v.IsWellFormed := by
  refine throughout_sorted_iff (fun v => ?_) v
  cases v with
  | object members =>
    simp only [Json.sorted, ((perm_sortedMembers members).map Prod.fst).nodup_iff, map_fst_sorted]
  | _ => rfl

theorem IsWritable.sorted {v : Json} (h : v.IsWritable) : v.sorted.IsWritable :=
  ⟨(isWellFormed_sorted_iff v).mpr h.isWellFormed,
    (hasShortNumbers_sorted_iff v).mpr h.hasShortNumbers, (hasText_sorted_iff v).mpr h.hasText⟩

theorem nesting_sorted_le_iff (v : Json) : v.sorted.nesting ≤ depth ↔ v.nesting ≤ depth := by
  induction v using rec_mem generalizing depth with
  | null => rfl
  | bool b => rfl
  | number n => rfl
  | string s => rfl
  | array items ih =>
    cases depth with
    | zero => simp [Json.sorted, nesting]
    | succ depth =>
      simp only [Json.sorted, nesting, Nat.add_le_add_iff_right, itemsNesting_le_iff,
        sortedItems_eq_map, List.forall_mem_map]
      exact forall₂_congr fun v hv => ih v hv
  | object members ih =>
    cases depth with
    | zero => simp [Json.sorted, nesting]
    | succ depth =>
      simp only [Json.sorted, nesting, Nat.add_le_add_iff_right, membersNesting_le_iff,
        (perm_sortedMembers members).mem_iff, List.forall_mem_map]
      exact forall₂_congr fun e he => ih e he

/-- The same members in two orders are sorted alike. -/
theorem sortedMembers_congr {other : List (List CodePoint × Json)}
    (hkeys : (members.map Prod.fst).Nodup)
    (h : (members.map fun e => (e.1, sorted e.2)).Perm (other.map fun e => (e.1, sorted e.2))) :
    sortedMembers members = sortedMembers other :=
  (inOrder_sortedMembers members).eq_of_perm (inOrder_sortedMembers other)
    ((perm_sortedMembers members).trans (h.trans (perm_sortedMembers other).symm))
    (nodup_sortedMembers hkeys)

theorem sorted_sorted {v : Json} (h : v.IsWellFormed) : v.sorted.sorted = v.sorted := by
  induction v using rec_mem with
  | null => rfl
  | bool b => rfl
  | number n => rfl
  | string s => rfl
  | array items ih =>
    simp only [Json.sorted, sortedItems_eq_map, List.map_map, array.injEq]
    exact List.map_congr_left fun v hv => ih v hv (isWellFormed_array_iff.mp h v hv)
  | object members ih =>
    obtain ⟨hkeys, hmembers⟩ := isWellFormed_object_iff.mp h
    rw [Json.sorted, Json.sorted, object.injEq]
    refine sortedMembers_congr (nodup_sortedMembers hkeys) ?_
    refine ((perm_sortedMembers members).map _).trans (.of_eq ?_)
    rw [List.map_map]
    refine List.map_congr_left fun e he => ?_
    exact Prod.ext rfl (ih e he (hmembers e he))

/-- Sorting leaves out members as well before it as after it. -/
theorem sortedMembers_filter (keep : List CodePoint → Bool) (h : IsWellFormed (.object members)) :
    sortedMembers ((sortedMembers members).filter fun e => keep e.1) =
      sortedMembers (members.filter fun e => keep e.1) := by
  obtain ⟨hkeys, hmembers⟩ := isWellFormed_object_iff.mp h
  have hkept : (((sortedMembers members).filter fun e => keep e.1).map Prod.fst).Nodup :=
    (nodup_sortedMembers hkeys).sublist (List.filter_sublist.map _)
  refine sortedMembers_congr hkept ?_
  refine (((perm_sortedMembers members).filter _).map _).trans (.of_eq ?_)
  rw [List.filter_map, List.map_map]
  refine List.map_congr_left fun e he => ?_
  exact Prod.ext rfl (sorted_sorted (hmembers e (List.mem_of_mem_filter he)))

/-! The canonical text. -/

theorem isScalar_writePoint_iff {style : Style} (hstyle : style.ascii = false) (p : CodePoint) :
    IsScalar (writePoint style p) ↔ p.isSurrogate = false := by
  have hlow (h : p.val < 0xD800) : p.isSurrogate = false := by
    simp only [CodePoint.isSurrogate, Bool.and_eq_false_iff, decide_eq_false_iff_not]
    omega
  simp only [writePoint, hstyle, Bool.false_and, Bool.false_eq_true, if_false]
  split_ifs
  -- What is escaped stands in ASCII.
  case neg => exact List.forall_mem_singleton
  all_goals exact iff_of_true (isScalar_ofChars _) (hlow (by omega))

theorem isScalar_writeString_iff {style : Style} (hstyle : style.ascii = false)
    {s : List CodePoint} : IsScalar (writeString style s) ↔ IsScalar s := by
  have hpoints : IsScalar (s.flatMap (writePoint style)) ↔ IsScalar s := by
    induction s with
    | nil => exact Iff.rfl
    | cons p s ih =>
      rw [List.flatMap_cons, isScalar_append_iff, isScalar_writePoint_iff hstyle, ih, IsScalar,
        IsScalar, List.forall_mem_cons]
  rw [writeString, isScalar_ofChar_cons_iff, isScalar_append_iff, hpoints]
  exact and_iff_left (isScalar_ofChars ['"'])

theorem isScalar_writeItems_iff {style : Style} :
    IsScalar (writeItems style items) ↔ ∀ v ∈ items, IsScalar (write style v) := by
  induction items with
  | nil => exact iff_of_true (isScalar_ofChars [']']) (by simp)
  | cons v items ih =>
    rw [writeItems, isScalar_append_iff, isScalar_append_iff, ih, List.forall_mem_cons]
    exact and_congr_left' (and_iff_right (isScalar_ofChars _))

theorem isScalar_writeMembers_iff {style : Style} :
    IsScalar (writeMembers style members) ↔
      ∀ e ∈ members, IsScalar (writeString style e.1) ∧ IsScalar (write style e.2) := by
  induction members with
  | nil => exact iff_of_true (isScalar_ofChars ['\x7d']) (by simp)
  | cons e members ih =>
    have hcomma : IsScalar (CodePoint.ofString style.comma) := isScalar_ofChars _
    have hcolon : IsScalar (CodePoint.ofString style.colon) := isScalar_ofChars _
    simp only [writeMembers, isScalar_append_iff, ih, List.forall_mem_cons, hcomma, hcolon,
      true_and, and_true]

/-- The text of a value is one of characters if its strings are. -/
theorem isScalar_write_iff {style : Style} (hstyle : style.ascii = false) {v : Json} :
    IsScalar (write style v) ↔ v.HasText := by
  induction v using rec_mem with
  | null => exact iff_of_true (isScalar_ofChars _) (by simp [HasText])
  | bool b => cases b <;> exact iff_of_true (isScalar_ofChars _) (by simp [HasText])
  | number n => exact iff_of_true (isScalar_ofChars _) (by simp [HasText])
  | string s => exact (isScalar_writeString_iff hstyle).trans hasText_string_iff.symm
  | array items ih =>
    rw [hasText_array_iff, ← forall₂_congr ih]
    cases items with
    | nil => exact iff_of_true (isScalar_ofChars _) (by simp)
    | cons v items =>
      rw [write, isScalar_ofChar_cons_iff, isScalar_append_iff, isScalar_writeItems_iff,
        List.forall_mem_cons]
  | object members ih =>
    have hmembers : (∀ e ∈ members, IsScalar (writeString style e.1) ∧
        IsScalar (write style e.2)) ↔ ∀ e ∈ members, IsScalar e.1 ∧ e.2.HasText :=
      forall₂_congr fun e he => and_congr (isScalar_writeString_iff hstyle) (ih e he)
    rw [hasText_object_iff, ← hmembers]
    cases members with
    | nil => exact iff_of_true (isScalar_ofChars _) (by simp)
    | cons e members =>
      have hcolon : IsScalar (CodePoint.ofString style.colon) := isScalar_ofChars _
      simp only [write, isScalar_ofChar_cons_iff, isScalar_append_iff, isScalar_writeMembers_iff,
        List.forall_mem_cons, hcolon, and_true]

/-- The values with canonical bytes, and what these are. -/
theorem canonicalWithin_eq_ok_iff {v : Json} {bytes : Bytes} :
    v.canonicalWithin depth = .ok bytes ↔
      (v.nesting ≤ depth ∧ v.HasShortNumbers ∧ v.HasText) ∧
        bytes = Utf8.encode (v.canonicalText.map CodePoint.toChar) := by
  have hobstacle : v.sorted.obstacle? depth = none ↔ v.nesting ≤ depth ∧ v.HasShortNumbers := by
    rw [obstacle?_eq_none_iff, nesting_sorted_le_iff, hasShortNumbers_sorted_iff]
  have htext : IsScalar v.canonicalText ↔ v.HasText := by
    rw [canonicalText, isScalar_write_iff rfl, hasText_sorted_iff]
  rw [← and_assoc, ← hobstacle, ← htext, canonicalWithin]
  constructor
  · intro h
    split at h
    · cases h
    · next hnone =>
      cases hencode : CodePoint.encode v.canonicalText with
      | error fault => simp [hencode, Except.mapError] at h
      | ok found =>
        have hscalar := IsScalar.of_encode hencode
        rw [hscalar.encode_eq, Except.mapError, Except.ok.injEq] at h
        exact ⟨⟨hnone, hscalar⟩, h.symm⟩
  · rintro ⟨⟨hnone, hscalar⟩, rfl⟩
    rw [hnone, hscalar.encode_eq]
    rfl

theorem IsWritable.canonicalWithin_eq_ok_iff {v : Json} (h : v.IsWritable) :
    (∃ bytes, v.canonicalWithin depth = .ok bytes) ↔ v.nesting ≤ depth := by
  simp only [Json.canonicalWithin_eq_ok_iff, h.hasShortNumbers, h.hasText, and_true,
    exists_and_left, exists_eq]

end Json

end Sqrl
