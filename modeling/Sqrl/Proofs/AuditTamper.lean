import Sqrl.Proofs.AuditChain

/-! What becomes of a log whose lines are deleted, moved or repeated. It verifies just if what is
left is the beginning of the log: each line names the hash before it, and a hash stands in one place
as long as no two messages have one digest. Nothing names the last hash but the file of the head, and
that is not read. -/
namespace Sqrl.Audit

variable {depth : Nat} {head hash : String} {event : Event} {past : List Event} {e e' : Event × String}
  {appended before after before' after' earlier later : List (Event × String)}

theorem exists_of_mem_links (h : event ∈ links head appended) :
    ∃ before e after, appended = before ++ e :: after ∧
      event = chained (headAfter head before) e.2 e.1 := by
  induction appended generalizing head with
  | nil => cases h
  | cons e appended ih =>
    rcases List.mem_cons.mp h with rfl | h
    · exact ⟨[], e, appended, rfl, rfl⟩
    · obtain ⟨before, d, after, rfl, hevent⟩ := ih h
      exact ⟨e :: before, d, after, rfl, hevent⟩

/-- What was appended after a head leads to the head after it. -/
theorem isHead_links (hdata : ∀ e ∈ appended, (Json.object e.1).IsData)
    (hlinked : Linked depth head appended) (hpast : IsHead depth head past) :
    IsHead depth (headAfter head appended)
      (((links head appended).map Json.sortedMembers).reverse ++ past) := by
  induction appended generalizing head past with
  | nil => exact hpast
  | cons e appended ih =>
    obtain ⟨hfirst, hrest⟩ := List.forall_mem_cons.mp hdata
    rw [links, List.map_cons, List.reverse_cons, List.append_assoc]
    exact ih hrest hlinked.2 ⟨head, follow_chained hfirst.isWritable.isWellFormed hlinked.1, hpast⟩

theorem get?_previousField_chained (head hash : String)
    (hform : (Json.object event).IsWellFormed) :
    Dictionary.get? (Json.sortedMembers (chained head hash event)) previousField =
      some (.text head) :=
  holds_iff.mp (holds_sortedMembers
    (Json.isWellFormed_object_iff.mp (isWellFormed_chained head hash hform)).1
    (by simp [chained_eq]))

theorem follow_chained_of_ne {other : String} (hform : (Json.object event).IsWellFormed)
    (hne : other ≠ head) :
    follow depth other (Json.sortedMembers (chained head hash event)) = .ok none := by
  rw [follow, if_neg]
  intro hholds
  have hsame := (holds_iff.mp hholds).symm.trans (get?_previousField_chained head hash hform)
  exact hne (CodePoint.ofString_injective (Json.string.inj (Option.some.inj hsame)))

/-- A line tells which head its event was chained to. -/
theorem head_eq_of_line_eq {a b : Event × String} {head' : String}
    (ha : (Json.object a.1).IsData) (hb : (Json.object b.1).IsData)
    (hdepth : (Json.object (chained head a.2 a.1)).nesting ≤ depth)
    (hdepth' : (Json.object (chained head' b.2 b.1)).nesting ≤ depth)
    (hsame : Utf8.encode (lineText (chained head a.2 a.1)) =
      Utf8.encode (lineText (chained head' b.2 b.1))) : head = head' := by
  have hread := lineEvent?_lineText (isData_chained head a.2 ha).isWritable hdepth
  rw [hsame, lineEvent?_lineText (isData_chained head' b.2 hb).isWritable hdepth',
    Option.some.injEq] at hread
  have hfield := get?_previousField_chained head a.2 ha.isWritable.isWellFormed
  rw [← hread, get?_previousField_chained head' b.2 hb.isWritable.isWellFormed] at hfield
  exact CodePoint.ofString_injective (Json.string.inj (Option.some.inj hfield.symm))

theorem eq_of_nodup_hashes (hnodup : (appended.map Prod.snd).Nodup)
    (hsplit : appended = before ++ e :: after) (hsplit' : appended = before' ++ e' :: after')
    (hsame : e.2 = e'.2) : before = before' ∧ e = e' := by
  have hmap := congrArg (List.map Prod.snd) (hsplit.symm.trans hsplit')
  rw [hsplit] at hnodup
  simp only [List.map_append, List.map_cons, hsame] at hmap hnodup
  have hother := (List.nodup_middle.mp hnodup).notMem
  rw [List.mem_append, not_or] at hother
  have hearlier := ((List.append_cons_inj_of_notMem hother.1 hother.2).mp hmap).1
  have hlength : before.length = before'.length := by simpa using congrArg List.length hearlier
  obtain ⟨rfl, hrest⟩ := List.append_inj (hsplit.symm.trans hsplit') hlength
  exact ⟨rfl, (List.cons.inj hrest).1⟩

namespace Trail

variable {t : Trail} {kept : List Bytes} {a : Event}

/-- The lines of a log that are ended. -/
def lines (t : Trail) : List Bytes := (Text.splitOn 0x0A (t.log.getD [])).dropLast

def withLines (t : Trail) (lines : List Bytes) : Trail :=
  { t with log := some (lines.flatMap (· ++ [0x0A])) }

/-- Are the messages that are hashed for the events of a trail told apart by their digests, and from
the digest that the first of them is chained to? -/
structure IsCollisionFree (depth : Nat) (t : Trail) : Prop where
  unique : ¬ Collide depth (t.events depth) (t.events depth)
  nonzero : ¬ HasZeroDigest depth (t.events depth)

namespace IsWritten

variable (h : IsWritten depth t appended)
include h

theorem lines_eq :
    t.lines = (links genesis appended).map fun event => Utf8.encode (lineText event) := by
  rw [lines, h.splitOn_log, List.dropLast_concat]

theorem isHead_before (hsplit : appended = before ++ after) :
    IsHead depth (headAfter genesis before)
      ((links genesis before).map Json.sortedMembers).reverse := by
  subst hsplit
  rw [← List.append_nil (List.reverse _)]
  exact isHead_links (fun e he => h.isData e (List.mem_append_left _ he))
    (linked_append.mp h.linked).1 rfl

theorem mem_events_of_before (hsplit : appended = before ++ after)
    (ha : a ∈ ((links genesis before).map Json.sortedMembers).reverse) : a ∈ t.events depth := by
  rw [h.events_eq, hsplit, links_append, List.map_append]
  exact List.mem_append_left _ (List.mem_reverse.mp ha)

/-- As long as no digest comes twice, a head stands in one place of the chain. -/
theorem eq_of_headAfter (hfree : t.IsCollisionFree depth) (hsplit : appended = before ++ after)
    (hsplit' : appended = before' ++ after')
    (hhead : headAfter genesis before = headAfter genesis before') : before = before' := by
  rcases (h.isHead_before hsplit).sameBody_or (hhead ▸ h.isHead_before hsplit') with
    hsame | ⟨a, ha, b, hb, hcollide⟩ | ⟨a, ha, hzero⟩ | ⟨b, hb, hzero⟩
  · have hlength := hsame.length_eq
    simp only [List.length_reverse, List.length_map, length_links] at hlength
    exact (List.append_inj (hsplit.symm.trans hsplit') hlength).1
  · exact absurd ⟨a, h.mem_events_of_before hsplit ha, b, h.mem_events_of_before hsplit' hb,
      hcollide⟩ hfree.unique
  · exact absurd ⟨a, h.mem_events_of_before hsplit ha, hzero⟩ hfree.nonzero
  · exact absurd ⟨b, h.mem_events_of_before hsplit' hb, hzero⟩ hfree.nonzero

/-- An event of the trail stands in a place of the chain, and what is hashed for it has the digest
that was returned there. -/
theorem exists_of_mem_events (ha : a ∈ t.events depth) : ∃ before e after,
    appended = before ++ e :: after ∧
      a = Json.sortedMembers (chained (headAfter genesis before) e.2 e.1) ∧
        ∀ m, IsHashed depth a m → e.2 = Bytes.toHex (sha3 m) := by
  rw [h.events_eq] at ha
  obtain ⟨event, hevent, rfl⟩ := List.mem_map.mp ha
  obtain ⟨before, e, after, hsplit, rfl⟩ := exists_of_mem_links hevent
  have hlinked : Linked depth genesis (before ++ e :: after) := hsplit ▸ h.linked
  have hdata : (Json.object e.1).IsData := h.isData e (by simp [hsplit])
  have hfollow := follow_chained hdata.isWritable.isWellFormed (linked_append.mp hlinked).2.1
  exact ⟨before, e, after, hsplit, rfl, fun m hm => hm.eq_toHex hfollow⟩

theorem isCollisionFree_of_nodup (hnodup : (genesis :: appended.map Prod.snd).Nodup) :
    t.IsCollisionFree depth := by
  obtain ⟨hgenesis, hhashes⟩ := List.nodup_cons.mp hnodup
  constructor
  · rintro ⟨a, ha, b, hb, m, n, hm, hn, hne, hsame⟩
    obtain ⟨before, e, after, hsplit, rfl, hhash⟩ := h.exists_of_mem_events ha
    obtain ⟨before', e', after', hsplit', rfl, hhash'⟩ := h.exists_of_mem_events hb
    have hsnd : e.2 = e'.2 := by rw [hhash m hm, hhash' n hn, hsame]
    obtain ⟨rfl, rfl⟩ := eq_of_nodup_hashes hhashes hsplit hsplit' hsnd
    exact hne (hm.unique hn)
  · rintro ⟨a, ha, m, hm, hzero⟩
    obtain ⟨before, e, after, rfl, -, hhash⟩ := h.exists_of_mem_events ha
    refine hgenesis (List.mem_map.mpr ⟨e, by simp, ?_⟩)
    rw [hhash m hm, hzero, genesis_eq]

theorem isPrefixOf_of_headAfter_ne (hsplit : appended = before ++ after)
    (hplace : appended = earlier ++ e :: later)
    (hhead : headAfter genesis before ≠ headAfter genesis earlier) :
    (Utf8.encode (lineText (chained (headAfter genesis earlier) e.2 e.1)) :: kept).isPrefixOf
      ((links (headAfter genesis before) after).map fun event =>
        Utf8.encode (lineText event)) = false := by
  cases after with
  | nil => rfl
  | cons d after =>
    have hd : chained (headAfter genesis before) d.2 d.1 ∈ links genesis appended := by
      rw [hsplit, links_append]
      exact List.mem_append_right _ List.mem_cons_self
    have he : chained (headAfter genesis earlier) e.2 e.1 ∈ links genesis appended := by
      rw [hplace, links_append]
      exact List.mem_append_right _ List.mem_cons_self
    have hreadable := isData_links h.isData h.linked
    rw [links, List.map_cons, List.isPrefixOf_cons_cons, Bool.and_eq_false_iff, beq_eq_false_iff_ne]
    exact .inl fun hsame => hhead (head_eq_of_line_eq (h.isData d (by simp [hsplit]))
      (h.isData e (by simp [hplace])) (hreadable _ hd).2 (hreadable _ he).2 hsame.symm)

/-- From a head of the chain on, lines of the log verify just if they are those that follow it. -/
theorem verifyFrom_kept (hfree : t.IsCollisionFree depth) (hkept : kept ⊆ t.lines)
    (hsplit : appended = before ++ after) :
    verifyFrom depth (headAfter genesis before) (kept ++ [[]]) =
      .ok (kept.isPrefixOf ((links (headAfter genesis before) after).map fun event =>
        Utf8.encode (lineText event))) := by
  -- By induction on the lines that are kept; what has verified so far is `before`.
  induction kept generalizing before after with
  | nil => rfl
  | cons line kept ih =>
    obtain ⟨hline, hrest⟩ := List.cons_subset.mp hkept
    rw [h.lines_eq] at hline
    obtain ⟨event, hevent, rfl⟩ := List.mem_map.mp hline
    have hreadable := isData_links h.isData h.linked event hevent
    obtain ⟨earlier, e, later, hplace, rfl⟩ := exists_of_mem_links hevent
    have hform := (h.isData e (by simp [hplace])).isWritable.isWellFormed
    by_cases hhead : headAfter genesis before = headAfter genesis earlier
    · -- The same head stands in the same place, so the line is the one that follows.
      obtain rfl := h.eq_of_headAfter hfree hsplit hplace hhead
      obtain rfl : after = e :: later := List.append_cancel_left (hsplit.symm.trans hplace)
      have hlinked : Linked depth genesis (before ++ e :: later) := hplace ▸ h.linked
      have hnext : headAfter genesis (before ++ [e]) = e.2 := headAfter_append ..
      have hafter := ih hrest ((List.append_cons before e later).subst hplace)
      rw [hnext] at hafter
      rw [List.cons_append, verifyFrom_cons hform (linked_append.mp hlinked).2.1, hafter, links,
        List.map_cons, List.isPrefixOf_cons_cons, beq_self_eq_true, Bool.true_and]
    · -- The line names another head, and so does not follow.
      rw [List.cons_append, verifyFrom_line hreadable.1.isWritable hreadable.2,
        follow_chained_of_ne hform hhead, h.isPrefixOf_of_headAfter_ne hsplit hplace hhead]

theorem verify_withLines (hfree : t.IsCollisionFree depth) (hkept : kept ⊆ t.lines) :
    (t.withLines kept).verifyWithin depth = .ok (kept.isPrefixOf t.lines) := by
  have hends : ∀ line ∈ kept, 0x0A ∉ line := fun line hline =>
    h.not_mem_line line (h.lines_eq ▸ hkept hline)
  rw [Trail.verifyWithin_eq, withLines, Option.getD_some, splitOn_lines hends, h.lines_eq]
  exact h.verifyFrom_kept hfree hkept (List.nil_append _).symm

end IsWritten

/-- As long as no digest comes twice, a log that was written to an empty trail, with lines deleted,
moved or repeated, verifies just if what is left are its first lines. The file of the head has no
part in it. -/
theorem verify_lines {limit : Nat} (hlimit : depth ≤ limit) {events : List Event}
    (hdata : ∀ event ∈ events, (Json.object event).IsData)
    (hfree : (empty.appendAll depth events).2.IsCollisionFree limit)
    (hkept : kept ⊆ (empty.appendAll depth events).2.lines) :
    ((empty.appendAll depth events).2.withLines kept).verifyWithin limit =
      .ok (kept.isPrefixOf (empty.appendAll depth events).2.lines) :=
  (isWritten_appendAll hlimit hdata).verify_withLines hfree hkept

section Sample

theorem digest_sampleEvents :
    digest Json.maxDepth genesis sampleEvents[0] =
        .ok "4d6f4c1284c54019042a37a7330dea921744596fb0be73ebb18f1e203900fa29" ∧
      digest Json.maxDepth "4d6f4c1284c54019042a37a7330dea921744596fb0be73ebb18f1e203900fa29"
        sampleEvents[1] =
          .ok "2dccbf9e14fd79240fc9444d2d17dc113ec7938472b0baf34a030781c490029a" := by
  constructor <;> decide +kernel

theorem exists_sampleTrail :
    ∃ t, (empty.appendAll Json.maxDepth sampleEvents).2 = t ∧ IsWritten Json.maxDepth t
      [(sampleEvents[0], "4d6f4c1284c54019042a37a7330dea921744596fb0be73ebb18f1e203900fa29"),
        (sampleEvents[1], "2dccbf9e14fd79240fc9444d2d17dc113ec7938472b0baf34a030781c490029a")] := by
  obtain ⟨t, appended, ht, hwritten, hevents⟩ := exists_isWritten_sampleEvents
  have hlinked := hwritten.linked
  obtain ⟨hfirst, hsecond⟩ := digest_sampleEvents
  refine ⟨t, ht, ?_⟩
  have hevents : appended.map Prod.fst = [sampleEvents[0], sampleEvents[1]] := hevents
  match appended with
  | [] => cases hevents
  | [_] => simp at hevents
  | [(_, hash), (_, hash')] =>
    simp only [List.map_cons, List.map_nil, List.cons.injEq, and_true] at hevents
    obtain ⟨rfl, rfl⟩ := hevents
    obtain ⟨hlinked, hlinked', -⟩ := hlinked
    obtain rfl := Except.ok.inj (hlinked.symm.trans hfirst)
    obtain rfl := Except.ok.inj (hlinked'.symm.trans hsecond)
    exact hwritten
  | _ :: _ :: _ :: _ => simp at hevents

/-- The two lines of a log, one in the place of the other, do not verify. -/
theorem verify_lines_swapped :
    ∃ t, (empty.appendAll Json.maxDepth sampleEvents).2 = t ∧ t.IsCollisionFree Json.maxDepth ∧
      t.lines.length = 2 ∧ (t.withLines t.lines.reverse).verify = .ok false := by
  obtain ⟨t, ht, hwritten⟩ := exists_sampleTrail
  have hfree := hwritten.isCollisionFree_of_nodup (by decide)
  have hkept : t.lines.reverse ⊆ t.lines := List.reverse_subset.mpr (List.Subset.refl _)
  have hverify := verify_lines (Nat.le_refl Json.maxDepth) isData_sampleEvents (ht.symm ▸ hfree)
    (ht.symm ▸ hkept)
  rw [ht] at hverify
  have hlines := hwritten.lines_eq
  refine ⟨t, ht, hfree, by rw [hlines, List.length_map, length_links]; rfl, ?_⟩
  rw [verify, hverify, Except.ok.injEq, Bool.eq_false_iff]
  intro hprefix
  have hsame := (List.isPrefixOf_iff_prefix.mp hprefix).eq_of_length List.length_reverse
  have hdata := hwritten.isData
  have hreadable := isData_links hdata hwritten.linked
  rw [hlines] at hsame
  simp only [links, List.map_cons, List.map_nil, List.reverse_cons, List.reverse_nil,
    List.nil_append, List.singleton_append, List.cons.injEq] at hsame
  rw [links, links, List.forall_mem_cons, List.forall_mem_cons] at hreadable
  rw [List.forall_mem_cons, List.forall_mem_cons] at hdata
  have hhead := head_eq_of_line_eq hdata.2.1 hdata.1 hreadable.2.1.2 hreadable.1.2 hsame.1
  exact absurd hhead (by decide)

/-- Without its last line a log verifies, though the head is still that of the line that was
deleted. -/
theorem verify_deleted_line :
    ∃ t, (empty.appendAll Json.maxDepth sampleEvents).2 = t ∧ t.IsCollisionFree Json.maxDepth ∧
      t.lines.length = 2 ∧ (t.withLines t.lines.dropLast).state = t.state ∧
        (t.withLines t.lines.dropLast).verify = .ok true := by
  obtain ⟨t, ht, hwritten⟩ := exists_sampleTrail
  have hfree := hwritten.isCollisionFree_of_nodup (by decide)
  refine ⟨t, ht, hfree, by rw [hwritten.lines_eq, List.length_map, length_links]; rfl, rfl, ?_⟩
  rw [verify, hwritten.verify_withLines hfree (List.dropLast_subset _), Except.ok.injEq,
    List.isPrefixOf_iff_prefix]
  exact List.dropLast_prefix _

end Sample

end Trail

end Sqrl.Audit
