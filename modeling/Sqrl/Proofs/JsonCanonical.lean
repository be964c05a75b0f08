import Sqrl.Proofs.Ascii
import Sqrl.Proofs.Audit
import Sqrl.Proofs.JsonText

/-! The canonical bytes of a value. They are the same for two values just if these differ in no more
than the order in which the members of objects stand, and reading them gives the value back up to
that order. -/
namespace Sqrl

namespace Json

/-- Are two values the same but for the order of the members of objects, at every level? -/
inductive IsReordering : Json → Json → Prop
  | null : IsReordering .null .null
  | bool (b : Bool) : IsReordering (.bool b) (.bool b)
  | number (n : Number) : IsReordering (.number n) (.number n)
  | string (s : List CodePoint) : IsReordering (.string s) (.string s)
  | array {items others : List Json} (hlength : items.length = others.length)
      (hitems : ∀ e ∈ items.zip others, IsReordering e.1 e.2) :
      IsReordering (.array items) (.array others)
  | object {members others : List (List CodePoint × Json)}
      (hkeys : (members.map Prod.fst).Perm (others.map Prod.fst))
      (hmembers : ∀ d ∈ members, ∀ e ∈ others, d.1 = e.1 → IsReordering d.2 e.2) :
      IsReordering (.object members) (.object others)

variable {v w : Json} {items others : List Json}

theorem map_eq_map_iff_zip {α β : Type} {f : α → β} {s t : List α} :
    s.map f = t.map f ↔ s.length = t.length ∧ ∀ e ∈ s.zip t, f e.1 = f e.2 := by
  induction s generalizing t with
  | nil => cases t <;> simp
  | cons a s ih =>
    cases t with
    | nil => simp
    | cons b t =>
      simp only [List.map_cons, List.cons.injEq, ih, List.length_cons, Nat.add_right_cancel_iff,
        List.zip_cons_cons, List.forall_mem_cons]
      exact and_left_comm

/-- Members with the same keys and, under each key, values that are sorted alike are sorted alike. -/
theorem sortedMembers_eq {members others : List (List CodePoint × Json)}
    (hnodup : (members.map Prod.fst).Nodup)
    (hkeys : (members.map Prod.fst).Perm (others.map Prod.fst))
    (hmembers : ∀ d ∈ members, ∀ e ∈ others, d.1 = e.1 → d.2.sorted = e.2.sorted) :
    sortedMembers members = sortedMembers others := by
  have hnodup' : (others.map Prod.fst).Nodup := hkeys.nodup_iff.mp hnodup
  refine sortedMembers_congr hnodup ((List.perm_ext_iff_of_nodup ?_ ?_).mpr fun e => ?_)
  · exact .of_map Prod.fst (by rwa [map_fst_sorted])
  · exact .of_map Prod.fst (by rwa [map_fst_sorted])
  · simp only [List.mem_map]
    constructor
    · rintro ⟨d, hd, rfl⟩
      obtain ⟨e, he, hkey⟩ := List.mem_map.mp (hkeys.subset (List.mem_map_of_mem hd))
      exact ⟨e, he, Prod.ext hkey (hmembers d hd e he hkey.symm).symm⟩
    · rintro ⟨d, hd, rfl⟩
      obtain ⟨e, he, hkey⟩ := List.mem_map.mp (hkeys.symm.subset (List.mem_map_of_mem hd))
      exact ⟨e, he, Prod.ext hkey (hmembers e he d hd hkey)⟩

theorem IsReordering.sorted_eq (h : IsReordering v w) (hv : v.IsWellFormed) :
    v.sorted = w.sorted := by
  induction h with
  | null | bool b | number n | string s => rfl
  | array hlength hitems ih =>
    rw [Json.sorted, Json.sorted, sortedItems_eq_map, sortedItems_eq_map]
    refine congrArg Json.array (map_eq_map_iff_zip.mpr ⟨hlength, fun e he => ih e he ?_⟩)
    exact isWellFormed_array_iff.mp hv e.1 (List.of_mem_zip he).1
  | object hkeys hmembers ih =>
    obtain ⟨hnodup, hvalues⟩ := isWellFormed_object_iff.mp hv
    rw [Json.sorted, Json.sorted]
    refine congrArg Json.object (sortedMembers_eq hnodup hkeys fun d hd e he hkey => ?_)
    exact ih d hd e he hkey (hvalues d hd)

theorem isReordering_of_sorted_eq (hv : v.IsWellFormed) (h : v.sorted = w.sorted) :
    IsReordering v w := by
  induction v using rec_mem generalizing w with
  | null => cases w <;> simp only [Json.sorted, reduceCtorEq] at h; exact .null
  | bool b => cases w <;> simp only [Json.sorted, reduceCtorEq] at h; exact h ▸ .bool b
  | number n => cases w <;> simp only [Json.sorted, reduceCtorEq] at h; exact h ▸ .number n
  | string s => cases w <;> simp only [Json.sorted, reduceCtorEq] at h; exact h ▸ .string s
  | array items ih =>
    cases w <;> simp only [Json.sorted, reduceCtorEq, array.injEq, sortedItems_eq_map] at h
    obtain ⟨hlength, hitems⟩ := map_eq_map_iff_zip.mp h
    refine .array hlength fun e he => ?_
    have hmem := (List.of_mem_zip he).1
    exact ih e.1 hmem (isWellFormed_array_iff.mp hv e.1 hmem) (hitems e he)
  | object members ih =>
    cases w <;> simp only [Json.sorted, reduceCtorEq, object.injEq] at h
    next others =>
    obtain ⟨hnodup, hvalues⟩ := isWellFormed_object_iff.mp hv
    have hkeys : ((sortedMembers members).map Prod.fst).Perm (members.map Prod.fst) := by
      simpa only [map_fst_sorted] using (perm_sortedMembers members).map Prod.fst
    have hothers : ((sortedMembers members).map Prod.fst).Perm (others.map Prod.fst) := by
      simpa only [h, map_fst_sorted] using (perm_sortedMembers others).map Prod.fst
    refine .object (hkeys.symm.trans hothers) fun d hd e he hkey => ?_
    have hfirst : (d.1, d.2.sorted) ∈ sortedMembers members := mem_sortedMembers.mpr ⟨d, hd, rfl⟩
    have hsecond : (e.1, e.2.sorted) ∈ sortedMembers members :=
      h ▸ mem_sortedMembers.mpr ⟨e, he, rfl⟩
    have hsame := List.inj_on_of_nodup_map (nodup_sortedMembers hnodup) hfirst hsecond hkey
    exact ih d hd (hvalues d hd) (Prod.mk.inj hsame).2

/-- Values are sorted alike just if they are the same up to the order of members. -/
theorem sorted_eq_iff (hv : v.IsWellFormed) : v.sorted = w.sorted ↔ IsReordering v w :=
  ⟨isReordering_of_sorted_eq hv, fun h => h.sorted_eq hv⟩

/-- A value is read back from its text, so different values have different ones. -/
theorem IsWritable.compactText_inj (hv : v.IsWritable) (hw : w.IsWritable) :
    compactText v = compactText w ↔ v = w := by
  refine ⟨fun h => ?_, congrArg compactText⟩
  have hread := hv.readWithin_compactText (Nat.le_max_left v.nesting w.nesting)
  rw [h, hw.readWithin_compactText (Nat.le_max_right v.nesting w.nesting)] at hread
  exact (Except.ok.inj hread).symm

/-! What stops a value from being written. -/

variable {depth : Nat} {fault : CanonicalFault}

theorem exists_of_mem_itemsObstacle? (h : fault ∈ itemsObstacle? depth items) :
    ∃ v ∈ items, fault ∈ v.obstacle? depth := by
  induction items with
  | nil => cases h
  | cons v items ih =>
    rw [itemsObstacle?, Option.mem_def, Option.or_eq_some_iff] at h
    rcases h with hv | ⟨-, hitems⟩
    · exact ⟨v, List.mem_cons_self, hv⟩
    · obtain ⟨w, hw, hfault⟩ := ih hitems
      exact ⟨w, List.mem_cons_of_mem _ hw, hfault⟩

theorem exists_of_mem_membersObstacle? {members : List (List CodePoint × Json)}
    (h : fault ∈ membersObstacle? depth members) : ∃ e ∈ members, fault ∈ e.2.obstacle? depth := by
  induction members with
  | nil => cases h
  | cons e members ih =>
    rw [membersObstacle?, Option.mem_def, Option.or_eq_some_iff] at h
    rcases h with he | ⟨-, hmembers⟩
    · exact ⟨e, List.mem_cons_self, he⟩
    · obtain ⟨d, hd, hfault⟩ := ih hmembers
      exact ⟨d, List.mem_cons_of_mem _ hd, hfault⟩

theorem HasShortNumbers.eq_tooDeep (h : v.HasShortNumbers) (hfault : fault ∈ v.obstacle? depth) :
    fault = .tooDeep := by
  induction v using rec_mem generalizing depth with
  | null | bool b | string s => simp [obstacle?] at hfault
  | number n =>
    have hnone : (Json.number n).obstacle? depth = none :=
      obstacle?_eq_none_iff.mpr ⟨Nat.zero_le depth, h⟩
    simp [hnone] at hfault
  | array items ih =>
    cases depth with
    | zero => simpa [obstacle?, eq_comm] using hfault
    | succ depth =>
      obtain ⟨v, hv, hfault⟩ := exists_of_mem_itemsObstacle? hfault
      exact ih v hv (hasShortNumbers_array_iff.mp h v hv) hfault
  | object members ih =>
    cases depth with
    | zero => simpa [obstacle?, eq_comm] using hfault
    | succ depth =>
      obtain ⟨e, he, hfault⟩ := exists_of_mem_membersObstacle? hfault
      exact ih e he (hasShortNumbers_object_iff.mp h e he) hfault

/-! The bytes. -/

/-- The canonical bytes of a value, however deeply it is nested. -/
def canonicalBytes (v : Json) : Bytes := Utf8.encode (compactText v.sorted)

theorem IsWritable.canonicalWithin_eq (h : v.IsWritable) (depth : Nat) :
    v.canonicalWithin depth =
      if v.nesting ≤ depth then .ok v.canonicalBytes else .error .tooDeep := by
  split
  · next hdepth =>
    exact Json.canonicalWithin_eq_ok_iff.mpr ⟨⟨hdepth, h.hasShortNumbers, h.hasText⟩, rfl⟩
  · next hdeep =>
    have hshort : v.sorted.HasShortNumbers := (hasShortNumbers_sorted_iff v).mpr h.hasShortNumbers
    have hobstacle : v.sorted.obstacle? depth ≠ none := fun hnone =>
      hdeep ((nesting_sorted_le_iff v).mp (obstacle?_eq_none_iff.mp hnone).1)
    obtain ⟨fault, hfault⟩ := Option.ne_none_iff_exists'.mp hobstacle
    rw [canonicalWithin, hfault, hshort.eq_tooDeep hfault]

theorem canonicalBytes_eq_iff (hv : v.IsWritable) (hw : w.IsWritable) :
    v.canonicalBytes = w.canonicalBytes ↔ IsReordering v w := by
  have hbytes : v.canonicalBytes = w.canonicalBytes ↔
      compactText v.sorted = compactText w.sorted :=
    ⟨fun h => Utf8.encode_injective h, congrArg Utf8.encode⟩
  rw [hbytes, hv.sorted.compactText_inj hw.sorted, sorted_eq_iff hv.isWellFormed]

theorem HasText.le_of_mem_canonicalBytes {b : UInt8} (h : v.HasText) (hb : b ∈ v.canonicalBytes) :
    0x20 ≤ b.toNat := by
  by_contra hlow
  obtain ⟨c, hc, hbyte⟩ := Utf8.exists_of_mem_encode hb (by omega)
  have hplain := ((hasText_sorted_iff v).mpr h).hasNoControl_compactText
  have hle := hasNoControl_iff.mp hplain c hc
  omega

/-- The canonical bytes of a value are written wherever so many arrays and objects may be open at
once as it is nested. Reading them gives the value back up to the order of members, two values have
the same bytes just if they are the same up to that order, and no byte is a control character. -/
theorem canonicalBytes_exact (hv : v.IsData) :
    (∀ depth, v.canonicalWithin depth =
        if v.nesting ≤ depth then .ok v.canonicalBytes else .error .tooDeep) ∧
      (∃ s w, Utf8.decode v.canonicalBytes = .ok s ∧ IsReordering v w ∧
        ∀ depth, v.nesting ≤ depth → readWithin depth s = .ok w) ∧
      (∀ w : Json, w.IsData → (v.canonicalBytes = w.canonicalBytes ↔ IsReordering v w)) ∧
      ∀ b ∈ v.canonicalBytes, 0x20 ≤ b.toNat := by
  have hwritable := hv.isWritable
  have hform := hwritable.isWellFormed
  refine ⟨hwritable.canonicalWithin_eq, ⟨compactText v.sorted, v.sorted, ?_, ?_, ?_⟩, ?_, ?_⟩
  · exact Utf8.decode_encode _
  · exact (sorted_eq_iff hform).mp (sorted_sorted hform).symm
  · intro depth hdepth
    exact hwritable.sorted.readWithin_compactText ((nesting_sorted_le_iff v).mpr hdepth)
  · exact fun w hw => canonicalBytes_eq_iff hwritable hw.isWritable
  · exact fun b hb => hwritable.hasText.le_of_mem_canonicalBytes hb

def sampleNested : Json × Json :=
  let list : Json := .array [.null, .int (-1), .text "é\n\""]
  let first := CodePoint.ofString "b"
  let second := CodePoint.ofString "a"
  (.object [(first, .object [(first, .bool true), (second, list)]), (second, .text "")],
    .object [(second, .text ""), (first, .object [(second, list), (first, .bool true)])])

theorem isData_sampleNested : sampleNested.1.IsData ∧ sampleNested.2.IsData := by
  have hkey := fun s : String => CodePoint.isScalar_ofChars s.toList
  have hlist : IsData (.array [.null, .int (-1), .text "é\n\""]) :=
    ⟨trivial, isPlain_int (Number.lt_pow_maxDigits (by decide)), isPlain_text _, trivial⟩
  have hbool : IsData (.bool true) := trivial
  have htext : IsData (.text "") := isPlain_text _
  exact ⟨⟨by decide, ⟨hkey _, by decide, ⟨hkey _, hbool⟩, ⟨hkey _, hlist⟩, trivial⟩,
      ⟨hkey _, htext⟩, trivial⟩,
    ⟨by decide, ⟨hkey _, htext⟩, ⟨hkey _, by decide, ⟨hkey _, hlist⟩, ⟨hkey _, hbool⟩, trivial⟩,
      trivial⟩⟩

theorem canonicalBytes_exact_nested :
    sampleNested.1.IsData ∧ sampleNested.2.IsData ∧
      sampleNested.1.canonical = .ok sampleNested.2.canonicalBytes ∧
      IsReordering sampleNested.1 sampleNested.2 := by
  obtain ⟨hfirst, hsecond⟩ := isData_sampleNested
  obtain ⟨hwrite, -, hsame, -⟩ := canonicalBytes_exact hfirst
  have hbytes : sampleNested.1.canonicalBytes = sampleNested.2.canonicalBytes := by decide
  refine ⟨hfirst, hsecond, ?_, (hsame _ hsecond).mp hbytes⟩
  rw [canonical, hwrite, if_pos (by decide), hbytes]

end Json

end Sqrl
