import Sqrl.Proofs.Text
import Sqrl.Settings

/-! The normal form of the base URI. Blanks are removed before the query and the slashes are, so a
blank that stood before these is left at the end. -/
namespace Sqrl

namespace Settings

open Text (isBlank strip)

variable {s r : String} {u path : List Char}

/-- What stands before the query, without the slashes at its end. A single character stays. -/
def cutUri (u : List Char) : List Char :=
  if 1 < (Text.before '?' u).length then dropSlashes (Text.before '?' u) else Text.before '?' u

/-- With a slash in front of what is neither a path nor a URL. -/
def rootUri (path : List Char) : List Char :=
  if !isAbsolute path && path.head? ≠ some '/' then '/' :: path else path

/-- Is it a path or a URL with no query, no blank in front and no slash at its end? The path of the
root is its slash. -/
structure IsRooted (u : List Char) : Prop where
  query : '?' ∉ u
  head : ∀ c ∈ u.head?, isBlank c = false
  slash : '/' ∈ u.getLast? → u = ['/']
  root : '/' ∈ u.head? ∨ isAbsolute u = true

/-- Is there no blank at its end either? -/
structure IsNormal (u : List Char) : Prop extends IsRooted u where
  last : ∀ c ∈ u.getLast?, isBlank c = false

/-- Does a blank stand before the query or the end of the text, with no more than slashes between
them? -/
def HidesBlank (u : List Char) : Prop :=
  ∃ before blank slashes after, u = before ++ blank :: (slashes ++ after) ∧ '?' ∉ before ∧
    isBlank blank = true ∧ (∀ c ∈ slashes, c = '/') ∧ ∀ c ∈ after.head?, c = '?'

theorem normalizeBaseUri_eq_ok_iff : normalizeBaseUri s = .ok r ↔
    strip s.toList ≠ [] ∧ r.toList = rootUri (cutUri (strip s.toList)) := by
  rw [normalizeBaseUri]
  split
  · next hnil => simp [hnil]
  · next hne =>
    rw [Except.ok.injEq, and_iff_right hne, ← String.toList_inj, String.toList_ofList]
    exact eq_comm

theorem isPrefix_cutUri (u : List Char) : cutUri u <+: u := by
  rw [cutUri]
  split
  · exact (Text.isPrefix_trimEnd _ _).trans (Text.isPrefix_before '?' u)
  · exact Text.isPrefix_before '?' u

theorem not_mem_cutUri (u : List Char) : '?' ∉ cutUri u := by
  have hpath := Text.not_mem_before '?' u
  rw [cutUri]
  split
  · exact fun h => hpath ((Text.isPrefix_trimEnd _ _).subset h)
  · exact hpath

theorem cutUri_slash (h : '/' ∈ (cutUri u).getLast?) : cutUri u = ['/'] := by
  rw [cutUri] at h ⊢
  split at h
  · simpa using Text.of_mem_getLast?_trimEnd h
  · next hshort =>
    rw [if_neg hshort]
    obtain ⟨front, hfront⟩ := List.getLast?_eq_some_iff.mp h
    rw [hfront] at hshort ⊢
    obtain rfl : front = [] := by simpa using hshort
    rfl

theorem cutUri_eq_self (hquery : '?' ∉ u) (hslash : '/' ∈ u.getLast? → u = ['/']) :
    cutUri u = u := by
  rw [cutUri, Text.before_eq_self hquery]
  split
  · next hlong =>
    rw [dropSlashes, Text.trimEnd_eq_self_iff]
    intro c hc
    rw [decide_eq_false_iff_not]
    rintro rfl
    simp [hslash hc] at hlong
  · rfl

/-- Of a blank, slashes and a query at the end of a text the blank is left. -/
theorem cutUri_append {before slashes after : List Char} {blank : Char} (hne : before ≠ [])
    (hbefore : '?' ∉ before) (hblank : isBlank blank = true) (hslashes : ∀ c ∈ slashes, c = '/')
    (hafter : ∀ c ∈ after.head?, c = '?') :
    cutUri (before ++ blank :: (slashes ++ after)) = before ++ [blank] := by
  have hpath : Text.before '?' (before ++ blank :: (slashes ++ after)) =
      before ++ blank :: slashes := by
    rw [← List.cons_append, ← List.append_assoc]
    apply Text.before_append _ hafter
    simp only [List.mem_append, List.mem_cons, not_or]
    refine ⟨hbefore, ?_, fun hmem => absurd (hslashes _ hmem) (by decide)⟩
    rintro rfl
    cases hblank
  have hlong : 1 < (before ++ blank :: slashes).length := by
    have hpos := List.length_pos_iff.mpr hne
    rw [List.length_append, List.length_cons]
    omega
  have hlast : ∀ c ∈ (before ++ [blank]).getLast?, decide (c = '/') = false := by
    intro c hc
    rw [List.getLast?_concat, Option.mem_some_iff] at hc
    rw [← hc, decide_eq_false_iff_not]
    rintro rfl
    cases hblank
  rw [cutUri, hpath, if_pos hlong, dropSlashes, ← List.singleton_append, ← List.append_assoc,
    Text.trimEnd_append_blanks (by simpa using hslashes), Text.trimEnd_eq_self_iff.mpr hlast]

/-- The blank that a text hides is what is left at its end. -/
theorem exists_blank_cutUri_iff (hfirst : ∀ c ∈ u.head?, isBlank c = false) :
    (∃ c ∈ (cutUri u).getLast?, isBlank c = true) ↔ HidesBlank u := by
  constructor
  · rintro ⟨blank, hlast, hblank⟩
    obtain ⟨before, hcut⟩ := List.getLast?_eq_some_iff.mp hlast
    obtain ⟨after, hafter, hquery⟩ := Text.exists_eq_before '?' u
    obtain ⟨slashes, hpath, hslashes⟩ : ∃ slashes,
        Text.before '?' u = before ++ blank :: slashes ∧ ∀ c ∈ slashes, c = '/' := by
      rw [cutUri] at hcut
      split at hcut
      · obtain ⟨slashes, hpath, hslashes⟩ :=
          Text.exists_eq_trimEnd (fun c : Char => decide (c = '/')) (Text.before '?' u)
        rw [dropSlashes] at hcut
        rw [hcut, List.append_assoc, List.singleton_append] at hpath
        exact ⟨slashes, hpath, fun c hc => of_decide_eq_true (hslashes c hc)⟩
      · exact ⟨[], hcut, by simp⟩
    refine ⟨before, blank, slashes, after, ?_, ?_, hblank, hslashes, hquery⟩
    · rw [hpath, List.append_assoc, List.cons_append] at hafter
      exact hafter
    · intro hmem
      exact Text.not_mem_before '?' u (hpath ▸ List.mem_append_left _ hmem)
  · rintro ⟨before, blank, slashes, after, rfl, hbefore, hblank, hslashes, hafter⟩
    have hne : before ≠ [] := by
      rintro rfl
      simp [hfirst blank rfl] at hblank
    rw [cutUri_append hne hbefore hblank hslashes hafter, List.getLast?_concat]
    exact ⟨blank, rfl, hblank⟩

theorem mem_getLast?_rootUri_iff {c : Char} (h : c ≠ '/') :
    c ∈ (rootUri path).getLast? ↔ c ∈ path.getLast? := by
  rw [rootUri]
  split
  · cases path with
    | nil => simp [Ne.symm h]
    | cons d path => rw [List.getLast?_cons_cons]
  · rfl

theorem length_rootUri_le (path : List Char) : (rootUri path).length ≤ path.length + 1 := by
  rw [rootUri]
  split
  · exact le_rfl
  · exact Nat.le_succ _

theorem rootUri_eq_self (h : '/' ∈ path.head? ∨ isAbsolute path = true) : rootUri path = path := by
  rw [rootUri, if_neg]
  rcases h with h | h
  · simp [Option.mem_def.mp h]
  · simp [h]

theorem isRooted_rootUri (hquery : '?' ∉ path) (hhead : ∀ c ∈ path.head?, isBlank c = false)
    (hslash : '/' ∈ path.getLast? → path = ['/']) : IsRooted (rootUri path) := by
  rw [rootUri]
  split
  · next hadd =>
    have hroot : path.head? ≠ some '/' := by
      simp only [Bool.and_eq_true, decide_eq_true_eq] at hadd
      exact hadd.2
    refine ⟨by simp [hquery], by simp; decide, fun hlast => ?_, .inl rfl⟩
    cases path with
    | nil => rfl
    | cons d path =>
      rw [List.getLast?_cons_cons] at hlast
      rw [hslash hlast] at hroot
      exact absurd rfl hroot
  · next hkeep =>
    refine ⟨hquery, hhead, hslash, ?_⟩
    simp only [Bool.and_eq_true, decide_eq_true_eq, Bool.not_eq_true'] at hkeep
    grind

theorem head_strip (s : List Char) : ∀ c ∈ (strip s).head?, isBlank c = false :=
  (Text.trim_eq_self_iff.mp (Text.trim_trim isBlank s)).1

theorem last_strip (s : List Char) : ∀ c ∈ (strip s).getLast?, isBlank c = false :=
  (Text.trim_eq_self_iff.mp (Text.trim_trim isBlank s)).2

theorem isRooted_of_ok (h : normalizeBaseUri s = .ok r) : IsRooted r.toList := by
  obtain ⟨-, hr⟩ := normalizeBaseUri_eq_ok_iff.mp h
  rw [hr]
  refine isRooted_rootUri (not_mem_cutUri _) (fun c hc => ?_) cutUri_slash
  exact head_strip _ c (Text.mem_head?_of_isPrefix (isPrefix_cutUri _) hc)

/-- Just the texts in normal form stay as they are. -/
theorem normalizeBaseUri_eq_self_iff : normalizeBaseUri r = .ok r ↔ IsNormal r.toList := by
  constructor
  · intro h
    refine ⟨isRooted_of_ok h, fun c hc => ?_⟩
    obtain ⟨-, hr⟩ := normalizeBaseUri_eq_ok_iff.mp h
    -- No more than one slash is put in front, so the cuts or the blanks took nothing away.
    have hlength := length_rootUri_le (cutUri (strip r.toList))
    rw [← hr] at hlength
    rcases Nat.lt_or_ge (cutUri (strip r.toList)).length (strip r.toList).length with hcut | hcut
    · have hsame := (Text.isInfix_trim isBlank r.toList).eq_of_length_le
        (Nat.le_trans hlength hcut)
      exact last_strip _ c (hsame.symm ▸ hc)
    · have hsame := (isPrefix_cutUri (strip r.toList)).eq_of_length_le hcut
      by_cases hslash : c = '/'
      · rw [hslash]
        decide
      · rw [hr, mem_getLast?_rootUri_iff hslash, hsame] at hc
        exact last_strip _ c hc
  · intro h
    have hstrip : strip r.toList = r.toList := Text.trim_eq_self_iff.mpr ⟨h.head, h.last⟩
    rw [normalizeBaseUri_eq_ok_iff, hstrip, cutUri_eq_self h.query h.slash, rootUri_eq_self h.root]
    refine ⟨?_, rfl⟩
    intro hnil
    have hroot := h.root
    rw [hnil] at hroot
    rcases hroot with hroot | hroot <;> cases hroot

/-- What a text becomes is in normal form unless the text hides a blank. -/
theorem isNormal_iff (h : normalizeBaseUri s = .ok r) :
    IsNormal r.toList ↔ ¬ HidesBlank (strip s.toList) := by
  obtain ⟨-, hr⟩ := normalizeBaseUri_eq_ok_iff.mp h
  rw [← exists_blank_cutUri_iff (head_strip s.toList)]
  constructor
  · rintro hnormal ⟨c, hc, hblank⟩
    have hslash : c ≠ '/' := by
      rintro rfl
      cases hblank
    have hlast := hnormal.last c (by rwa [hr, mem_getLast?_rootUri_iff hslash])
    rw [hblank] at hlast
    cases hlast
  · intro hnone
    refine ⟨isRooted_of_ok h, fun c hc => ?_⟩
    by_cases hslash : c = '/'
    · rw [hslash]
      decide
    · rw [hr, mem_getLast?_rootUri_iff hslash] at hc
      exact Bool.eq_false_iff.mpr fun hblank => hnone ⟨c, hc, hblank⟩

theorem exists_normalizeBaseUri_iff :
    (∃ r, normalizeBaseUri s = .ok r) ↔ ∃ c ∈ s.toList, isBlank c = false := by
  have hnil : strip s.toList = [] ↔ ∀ c ∈ s.toList, isBlank c = true := Text.trim_eq_nil_iff
  constructor
  · rintro ⟨r, hr⟩
    have hne := (normalizeBaseUri_eq_ok_iff.mp hr).1
    rw [ne_eq, hnil] at hne
    simpa using hne
  · rintro ⟨c, hc, hplain⟩
    refine ⟨_, normalizeBaseUri_eq_ok_iff.mpr ⟨fun h => ?_, String.toList_ofList⟩⟩
    rw [hnil.mp h c hc] at hplain
    cases hplain

/-- A text is accepted just if not all of it is blank. It becomes a path or a URL, and it is one in
normal form unless the text hides a blank before its query or its last slashes. In normal form it
stays as it is when it is normalized again, and otherwise it does not. -/
theorem normalizeBaseUri_normal (s : String) :
    ((∃ r, normalizeBaseUri s = .ok r) ↔ ∃ c ∈ s.toList, isBlank c = false) ∧
      ∀ r, normalizeBaseUri s = .ok r →
        IsRooted r.toList ∧ (IsNormal r.toList ↔ ¬ HidesBlank (strip s.toList)) ∧
          (normalizeBaseUri r = .ok r ↔ ¬ HidesBlank (strip s.toList)) := by
  refine ⟨exists_normalizeBaseUri_iff, fun r hr => ⟨isRooted_of_ok hr, isNormal_iff hr, ?_⟩⟩
  exact normalizeBaseUri_eq_self_iff.trans (isNormal_iff hr)

theorem normalizeBaseUri_normal_sample :
    normalizeBaseUri " sqrl/?x=1" = .ok "/sqrl" ∧ IsNormal "/sqrl".toList ∧
      normalizeBaseUri "/sqrl" = .ok "/sqrl" := by
  have hfirst : normalizeBaseUri " sqrl/?x=1" = .ok "/sqrl" := by decide +kernel
  have hagain : normalizeBaseUri "/sqrl" = .ok "/sqrl" := by decide +kernel
  obtain ⟨-, hnormal, hstays⟩ := (normalizeBaseUri_normal " sqrl/?x=1").2 _ hfirst
  exact ⟨hfirst, hnormal.mpr (hstays.mp hagain), hagain⟩

/-- A blank before the query is left at the end, and only removed when the path is normalized
again. -/
theorem not_forall_isNormal :
    ¬ ∀ s r : String, normalizeBaseUri s = .ok r →
      IsNormal r.toList ∧ normalizeBaseUri r = .ok r := by
  intro hnormal
  have hfirst : normalizeBaseUri "/sqrl ?x=1" = .ok "/sqrl " := by decide +kernel
  have hagain : normalizeBaseUri "/sqrl " = .ok "/sqrl" := by decide +kernel
  have hsame := (hnormal _ _ hfirst).2
  rw [hagain] at hsame
  revert hsame
  decide

end Settings

end Sqrl
