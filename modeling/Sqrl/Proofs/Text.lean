import Mathlib.Data.List.Infix
import Mathlib.Data.List.Nodup
import Mathlib.Data.List.TakeWhile
import Sqrl.Bytes
import Sqrl.Dictionary
import Sqrl.Text.Blank
import Sqrl.Text.Split

/-! Characters by their codes, text cut at separators and without the blanks at its ends, the
entries of dictionaries, and hexadecimal digits. -/
namespace Sqrl

namespace Text

def IsOneLine (s : List Char) : Prop := ¬ ['\r', '\n'] <:+: s

variable {s t line : List Char} {c : Char}

theorem toNat_le_toNat {d : Char} (h : c ≤ d) : c.toNat ≤ d.toNat := by
  rwa [Char.le_def, UInt32.le_iff_toNat_le] at h

/-- What is decided of all codes below a bound holds of their characters. -/
theorem of_codes {p : Char → Prop} {bound : Nat} (h : ∀ n < bound, p (Char.ofNat n))
    (hc : c.toNat < bound) : p c := by
  have hcode := h c.toNat hc
  rwa [Char.ofNat_toNat] at hcode

theorem isOneLine_nil : IsOneLine [] := by
  simp [IsOneLine]

theorem isOneLine_cons : IsOneLine (c :: s) ↔ ¬ (c = '\r' ∧ ['\n'] <+: s) ∧ IsOneLine s := by
  rw [IsOneLine, List.infix_cons_iff, List.cons_prefix_cons, not_or, eq_comm]
  rfl

theorem isOneLine_of_not_mem (h : '\r' ∉ s) : IsOneLine s :=
  fun hoccurs => h (hoccurs.subset List.mem_cons_self)

theorem prefix_append_cons_iff (h : c ≠ '\n') : ['\n'] <+: s ++ c :: t ↔ ['\n'] <+: s := by
  cases s with
  | nil => simpa [List.cons_prefix_cons] using Ne.symm h
  | cons d s => simp [List.cons_prefix_cons]

theorem isOneLine_append_cons (hreturn : c ≠ '\r') (hfeed : c ≠ '\n') :
    IsOneLine (s ++ c :: t) ↔ IsOneLine s ∧ IsOneLine t := by
  induction s with
  | nil => simp [isOneLine_cons, isOneLine_nil, hreturn]
  | cons d s ih =>
    rw [List.cons_append, isOneLine_cons, isOneLine_cons, prefix_append_cons_iff hfeed, ih,
      and_assoc]

theorem splitCrLf_cons (h : ¬ (c = '\r' ∧ ['\n'] <+: s)) :
    splitCrLf (c :: s) = consHead c (splitCrLf s) := by
  rw [splitCrLf]
  intro rest hc hs
  exact h ⟨hc, hs ▸ ⟨rest, rfl⟩⟩

theorem splitCrLf_append (h : IsOneLine line) (rest : List Char) :
    splitCrLf (line ++ '\r' :: '\n' :: rest) = line :: splitCrLf rest := by
  induction line with
  | nil => rw [List.nil_append, splitCrLf]
  | cons c line ih =>
    obtain ⟨hc, hline⟩ := isOneLine_cons.mp h
    rw [← prefix_append_cons_iff (t := '\n' :: rest) (by decide : '\r' ≠ '\n')] at hc
    rw [List.cons_append, splitCrLf_cons hc, ih hline, consHead]

theorem splitCrLf_of_isOneLine (h : IsOneLine line) : splitCrLf line = [line] := by
  induction line with
  | nil => rw [splitCrLf]
  | cons c line ih =>
    obtain ⟨hc, hline⟩ := isOneLine_cons.mp h
    rw [splitCrLf_cons hc, ih hline, consHead]

/-- Lines that are joined are the lines of the text. -/
theorem splitCrLf_join {lines : List (List Char)} (hne : lines ≠ [])
    (h : ∀ line ∈ lines, IsOneLine line) : splitCrLf (join ['\r', '\n'] lines) = lines := by
  induction lines using join.induct with
  | case1 => exact absurd rfl hne
  | case2 line => rw [join, splitCrLf_of_isOneLine (h line List.mem_cons_self)]
  | case3 line lines hmore ih =>
    have hlines := ih hmore fun l hl => h l (List.mem_cons_of_mem line hl)
    rw [join, List.append_assoc, List.cons_append, List.singleton_append,
      splitCrLf_append (h line List.mem_cons_self), hlines]
    exact hmore

theorem filter_splitCrLf_join {lines : List (List Char)}
    (h : ∀ line ∈ lines, IsOneLine line ∧ line ≠ []) :
    (splitCrLf (join ['\r', '\n'] lines)).filter (fun line => line ≠ []) = lines := by
  by_cases hne : lines = []
  · subst hne
    rfl
  · rw [splitCrLf_join hne fun line hline => (h line hline).1, List.filter_eq_self]
    exact fun line hline => by simpa using (h line hline).2

/-- Joined pieces hold what the pieces hold, and separators. -/
theorem forall_mem_join {α : Type} {p : α → Prop} {sep : α} (hsep : p sep)
    {pieces : List (List α)} :
    (∀ c ∈ join [sep] pieces, p c) ↔ ∀ piece ∈ pieces, ∀ c ∈ piece, p c := by
  induction pieces using join.induct with
  | case1 => simp [join]
  | case2 piece => simp [join]
  | case3 piece pieces hmore ih =>
    rw [join, List.forall_mem_append, List.forall_mem_append, List.forall_mem_singleton, ih,
      List.forall_mem_cons, and_iff_left hsep]
    exact hmore

section

variable {α : Type} [DecidableEq α] {sep : α} {s : List α}

theorem cut?_append_cons (h : sep ∉ s) (t : List α) : cut? sep (s ++ sep :: t) = some (s, t) := by
  induction s with
  | nil => simp [cut?]
  | cons c s ih =>
    rw [List.mem_cons, not_or] at h
    simp [cut?, Ne.symm h.1, ih h.2]

theorem splitOn_append_cons (h : sep ∉ s) (t : List α) :
    splitOn sep (s ++ sep :: t) = s :: splitOn sep t := by
  induction s with
  | nil => simp [splitOn]
  | cons c s ih =>
    rw [List.mem_cons, not_or] at h
    rw [List.cons_append, splitOn, if_neg (Ne.symm h.1), ih h.2, consHead]

theorem splitOn_ne_nil (sep : α) (s : List α) : splitOn sep s ≠ [] := by
  cases s with
  | nil => simp [splitOn]
  | cons c s =>
    rw [splitOn]
    split
    · simp
    · cases splitOn sep s <;> simp [consHead]

theorem splitOn_append_sep (s t : List α) :
    splitOn sep (s ++ sep :: t) = splitOn sep s ++ splitOn sep t := by
  induction s with
  | nil => simp [splitOn]
  | cons c s ih =>
    rw [List.cons_append, splitOn, splitOn, ih]
    split
    · rfl
    · obtain ⟨piece, pieces, hs⟩ := List.exists_cons_of_ne_nil (splitOn_ne_nil sep s)
      rw [hs]
      rfl

theorem join_splitOn (sep : α) (s : List α) : join [sep] (splitOn sep s) = s := by
  induction s with
  | nil => rfl
  | cons c s ih =>
    obtain ⟨piece, pieces, hs⟩ := List.exists_cons_of_ne_nil (splitOn_ne_nil sep s)
    rw [hs] at ih
    rw [splitOn, hs]
    split
    · next hc => simp [join, ih, hc]
    · cases pieces with
      | nil => simpa [consHead, join] using ih
      | cons next pieces => simpa [consHead, join] using ih

theorem not_mem_of_mem_splitOn {piece : List α} (h : piece ∈ splitOn sep s) : sep ∉ piece := by
  induction s generalizing piece with
  | nil => simp_all [splitOn]
  | cons c s ih =>
    obtain ⟨first, pieces, hs⟩ := List.exists_cons_of_ne_nil (splitOn_ne_nil sep s)
    rw [hs] at ih
    rw [splitOn, hs] at h
    split at h
    · rcases List.mem_cons.mp h with rfl | h
      · exact List.not_mem_nil
      · exact ih h
    · next hc =>
      rcases List.mem_cons.mp h with rfl | h
      · simpa [Ne.symm hc] using ih List.mem_cons_self
      · exact ih (List.mem_cons_of_mem first h)

theorem splitOn_of_not_mem (h : sep ∉ s) : splitOn sep s = [s] := by
  induction s with
  | nil => rfl
  | cons c s ih =>
    rw [List.mem_cons, not_or] at h
    rw [splitOn, if_neg (Ne.symm h.1), ih h.2, consHead]

theorem splitOn_join {pieces : List (List α)} (hne : pieces ≠ [])
    (h : ∀ piece ∈ pieces, sep ∉ piece) : splitOn sep (join [sep] pieces) = pieces := by
  induction pieces using join.induct with
  | case1 => exact absurd rfl hne
  | case2 piece => rw [join, splitOn_of_not_mem (h piece List.mem_cons_self)]
  | case3 piece pieces hmore ih =>
    have hpieces := ih hmore fun l hl => h l (List.mem_cons_of_mem piece hl)
    rw [join, List.append_assoc, List.singleton_append,
      splitOn_append_cons (h piece List.mem_cons_self), hpieces]
    exact hmore

theorem cut?_eq_none_iff : cut? sep s = none ↔ sep ∉ s := by
  induction s with
  | nil => simp [cut?]
  | cons c s ih =>
    by_cases hc : c = sep
    · simp [cut?, hc]
    · simp [cut?, hc, ih, Ne.symm hc]

theorem cut?_eq_some_iff {before after : List α} :
    cut? sep s = some (before, after) ↔ s = before ++ sep :: after ∧ sep ∉ before := by
  constructor
  · intro h
    induction s generalizing before with
    | nil => cases h
    | cons c s ih =>
      rw [cut?] at h
      split at h
      · next hc =>
        obtain ⟨rfl, rfl⟩ := Prod.mk.inj (Option.some.inj h)
        simp [hc]
      · next hc =>
        obtain ⟨⟨first, last⟩, hcut, hparts⟩ := Option.map_eq_some_iff.mp h
        obtain ⟨rfl, rfl⟩ := Prod.mk.inj hparts
        obtain ⟨rfl, hfirst⟩ := ih hcut
        exact ⟨rfl, by simp [Ne.symm hc, hfirst]⟩
  · rintro ⟨rfl, hbefore⟩
    exact cut?_append_cons hbefore after

theorem length_of_cut? {before after : List α} (h : cut? sep s = some (before, after)) :
    before.length + after.length < s.length := by
  obtain ⟨rfl, -⟩ := cut?_eq_some_iff.mp h
  rw [List.length_append, List.length_cons]
  omega

theorem length_le_of_mem_splitOn {piece : List α} (h : piece ∈ splitOn sep s) :
    piece.length ≤ s.length := by
  induction s generalizing piece with
  | nil => simp_all [splitOn]
  | cons c s ih =>
    rw [splitOn] at h
    split at h
    · rcases List.mem_cons.mp h with rfl | h
      · simp
      · exact (ih h).trans (Nat.le_succ _)
    · -- The first piece grows by the character, the others are as they were.
      cases hpieces : splitOn sep s with
      | nil =>
        rw [hpieces, consHead, List.mem_singleton] at h
        simp [h]
      | cons first pieces =>
        rw [hpieces, consHead] at h
        rcases List.mem_cons.mp h with rfl | h
        · simpa using ih (hpieces ▸ List.mem_cons_self)
        · exact (ih (hpieces ▸ List.mem_cons_of_mem first h)).trans (Nat.le_succ _)

end

/-- A text without blanks at its ends stays as it is when they are removed. -/
theorem trim_eq_self {α : Type} {blank : α → Bool} {first last : α} (hfirst : blank first = false)
    (hlast : blank last = false) (s : List α) :
    trim blank (first :: (s ++ [last])) = first :: (s ++ [last]) := by
  simp [trim, trimEnd, List.dropWhile, hfirst, hlast]

theorem dropWhile_eq_self_iff {α : Type} {blank : α → Bool} {s : List α} :
    s.dropWhile blank = s ↔ ∀ c ∈ s.head?, blank c = false := by
  rw [List.dropWhile_eq_self_iff]
  cases s <;> simp

theorem trimEnd_eq_self_iff {α : Type} {blank : α → Bool} {s : List α} :
    trimEnd blank s = s ↔ ∀ c ∈ s.getLast?, blank c = false := by
  rw [trimEnd, List.reverse_eq_iff, dropWhile_eq_self_iff, List.head?_reverse]

theorem isPrefix_trimEnd {α : Type} (blank : α → Bool) (s : List α) : trimEnd blank s <+: s := by
  rw [trimEnd, ← List.reverse_suffix, List.reverse_reverse]
  exact List.dropWhile_suffix blank

theorem mem_head?_of_isPrefix {α : Type} {s t : List α} {c : α} (h : s <+: t)
    (hc : c ∈ s.head?) : c ∈ t.head? := by
  obtain ⟨more, rfl⟩ := h
  rw [List.head?_append, Option.mem_def.mp hc]
  rfl

theorem of_mem_head?_dropWhile {α : Type} {blank : α → Bool} {s : List α} {c : α}
    (h : c ∈ (s.dropWhile blank).head?) : blank c = false := by
  have hfirst := List.head?_dropWhile_not blank s
  rw [Option.mem_def.mp h] at hfirst
  simpa using hfirst

theorem of_mem_getLast?_trimEnd {α : Type} {blank : α → Bool} {s : List α} {c : α}
    (h : c ∈ (trimEnd blank s).getLast?) : blank c = false := by
  rw [trimEnd, List.getLast?_reverse] at h
  exact of_mem_head?_dropWhile h

/-- Just a text with no blank at either end stays as it is. -/
theorem trim_eq_self_iff {α : Type} {blank : α → Bool} {s : List α} : trim blank s = s ↔
    (∀ c ∈ s.head?, blank c = false) ∧ ∀ c ∈ s.getLast?, blank c = false := by
  constructor
  · intro h
    have hshort : s.length ≤ (s.dropWhile blank).length := by
      conv_lhs => rw [← h]
      exact (isPrefix_trimEnd blank _).length_le
    have hfirst : s.dropWhile blank = s :=
      (List.dropWhile_suffix blank).eq_of_length_le hshort
    rw [trim, hfirst] at h
    exact ⟨dropWhile_eq_self_iff.mp hfirst, trimEnd_eq_self_iff.mp h⟩
  · rintro ⟨hfirst, hlast⟩
    rw [trim, dropWhile_eq_self_iff.mpr hfirst, trimEnd_eq_self_iff.mpr hlast]

theorem trim_trim {α : Type} (blank : α → Bool) (s : List α) :
    trim blank (trim blank s) = trim blank s := by
  rw [trim_eq_self_iff]
  constructor
  · exact fun c hc => of_mem_head?_dropWhile (mem_head?_of_isPrefix (isPrefix_trimEnd blank _) hc)
  · exact fun c hc => of_mem_getLast?_trimEnd hc

theorem strip_strip (s : List Char) : strip (strip s) = strip s := trim_trim isBlank s

theorem trimEnd_eq_nil_iff {α : Type} {blank : α → Bool} {s : List α} :
    trimEnd blank s = [] ↔ ∀ c ∈ s, blank c = true := by
  rw [trimEnd, List.reverse_eq_nil_iff, List.dropWhile_eq_nil_iff]
  simp only [List.mem_reverse]

theorem trim_eq_nil_iff {α : Type} {blank : α → Bool} {s : List α} :
    trim blank s = [] ↔ ∀ c ∈ s, blank c = true := by
  rw [trim, trimEnd_eq_nil_iff]
  constructor
  · intro h
    -- What is not dropped at the front would begin with a character that is no blank.
    have hnil : s.dropWhile blank = [] := by
      by_contra hne
      exact absurd (h _ (List.head_mem hne)) (by simp [List.head_dropWhile_not])
    exact fun c hc => List.dropWhile_eq_nil_iff.mp hnil c hc
  · exact fun h c hc => h c ((List.dropWhile_sublist blank).subset hc)

theorem exists_of_trim_ne_nil {α : Type} {blank : α → Bool} {s : List α}
    (h : trim blank s ≠ []) :
    ∃ before c rest, s = before ++ c :: rest ∧ (∀ d ∈ before, blank d = true) ∧
      blank c = false := by
  cases hfound : s.find? fun c => !blank c with
  | none =>
    refine absurd (trim_eq_nil_iff.mpr fun c hc => ?_) h
    simpa using List.find?_eq_none.mp hfound c hc
  | some c =>
    obtain ⟨hc, before, rest, rfl, hbefore⟩ := List.find?_eq_some_iff_append.mp hfound
    exact ⟨before, c, rest, rfl, fun d hd => by simpa using hbefore d hd, by simpa using hc⟩

theorem exists_eq_trimEnd {α : Type} (blank : α → Bool) (s : List α) :
    ∃ after, s = trimEnd blank s ++ after ∧ ∀ c ∈ after, blank c = true := by
  refine ⟨(s.reverse.takeWhile blank).reverse, ?_, ?_⟩
  · rw [trimEnd, ← List.reverse_append, List.takeWhile_append_dropWhile, List.reverse_reverse]
  · exact fun c hc => List.mem_takeWhile_imp (List.mem_reverse.mp hc)

/-- A text is what is left of it between blanks. -/
theorem exists_eq_trim {α : Type} (blank : α → Bool) (s : List α) :
    ∃ before after, s = before ++ trim blank s ++ after ∧ (∀ c ∈ before, blank c = true) ∧
      ∀ c ∈ after, blank c = true := by
  obtain ⟨after, hend, hafter⟩ := exists_eq_trimEnd blank (s.dropWhile blank)
  refine ⟨s.takeWhile blank, after, ?_, fun c hc => List.mem_takeWhile_imp hc, hafter⟩
  rw [trim, List.append_assoc, ← hend, List.takeWhile_append_dropWhile]

theorem trim_blanks_append {α : Type} {blank : α → Bool} {before : List α}
    (h : ∀ c ∈ before, blank c = true) (s : List α) : trim blank (before ++ s) = trim blank s := by
  rw [trim, List.dropWhile_append_of_pos h, trim]

theorem trimEnd_append_blanks {α : Type} {blank : α → Bool} {after : List α}
    (h : ∀ c ∈ after, blank c = true) (s : List α) :
    trimEnd blank (s ++ after) = trimEnd blank s := by
  rw [trimEnd, List.reverse_append, List.dropWhile_append_of_pos fun c hc =>
    h c (List.mem_reverse.mp hc), trimEnd]

theorem trimEnd_append {α : Type} {blank : α → Bool} {after : List α}
    (h : trimEnd blank after ≠ []) (s : List α) :
    trimEnd blank (s ++ after) = s ++ trimEnd blank after := by
  have hplain : after.reverse.dropWhile blank ≠ [] := List.reverse_eq_nil_iff.not.mp h
  rw [trimEnd, List.reverse_append, List.dropWhile_append, if_neg (by simpa using hplain),
    List.reverse_append, List.reverse_reverse, trimEnd]

theorem trim_cons {α : Type} {blank : α → Bool} {c : α} (h : blank c = false) (s : List α) :
    trim blank (c :: s) = c :: trimEnd blank s := by
  rw [trim, List.dropWhile_cons_of_neg (by simp [h])]
  by_cases hs : trimEnd blank s = []
  · rw [hs, ← List.singleton_append, trimEnd_append_blanks (trimEnd_eq_nil_iff.mp hs)]
    simp [trimEnd, h]
  · rw [← List.singleton_append, trimEnd_append hs, List.singleton_append]

theorem exists_of_trimEnd_ne_nil {α : Type} {blank : α → Bool} {s : List α}
    (h : trimEnd blank s ≠ []) : ∃ c ∈ trimEnd blank s, blank c = false := by
  have hplain : s.reverse.dropWhile blank ≠ [] := List.reverse_eq_nil_iff.not.mp h
  exact ⟨_, List.mem_reverse.mpr (List.head_mem hplain), List.head_dropWhile_not _ hplain⟩

theorem isInfix_trim {α : Type} (blank : α → Bool) (s : List α) : trim blank s <:+: s := by
  obtain ⟨before, after, hs, -, -⟩ := exists_eq_trim blank s
  exact ⟨before, after, hs.symm⟩

theorem trim_subset {α : Type} (blank : α → Bool) (s : List α) : trim blank s ⊆ s :=
  (isInfix_trim blank s).subset

theorem trim_append_append {α : Type} {blank : α → Bool} {before s after : List α}
    (hbefore : ∀ c ∈ before, blank c = true) (hs : trim blank s = s) (hne : s ≠ [])
    (hafter : ∀ c ∈ after, blank c = true) : trim blank (before ++ s ++ after) = s := by
  obtain ⟨c, rest, rfl⟩ := List.exists_cons_of_ne_nil hne
  have hc : blank c = false := (trim_eq_self_iff.mp hs).1 c rfl
  rw [List.append_assoc, trim_blanks_append hbefore, List.cons_append, trim_cons hc,
    trimEnd_append_blanks hafter, ← trim_cons hc, hs]

theorem trim_append_blanks {α : Type} {blank : α → Bool} {after : List α}
    (h : ∀ c ∈ after, blank c = true) (s : List α) : trim blank (s ++ after) = trim blank s := by
  by_cases hnil : trim blank s = []
  · rw [hnil, trim_eq_nil_iff]
    exact List.forall_mem_append.mpr ⟨trim_eq_nil_iff.mp hnil, h⟩
  · obtain ⟨before, rest, hs, hbefore, hrest⟩ := exists_eq_trim blank s
    have hall := trim_append_append hbefore (trim_trim blank s) hnil
      (List.forall_mem_append.mpr ⟨hrest, h⟩)
    rwa [← List.append_assoc, ← hs] at hall

theorem strip_append_newline {s : List Char} (h : ∀ c ∈ s, isBlank c = false) :
    strip (s ++ ['\n']) = s := by
  have hkeep (s : List Char) (h : ∀ c ∈ s, isBlank c = false) :
      s.dropWhile isBlank = s :=
    List.dropWhile_eq_self_iff.mpr fun hs => by simp [h _ (List.getElem_mem hs)]
  cases s with
  | nil => rfl
  | cons c s =>
    have hc : isBlank c = false := h c List.mem_cons_self
    have hnewline : isBlank '\n' = true := by decide
    rw [strip, trim, List.cons_append, List.dropWhile_cons, hc, trimEnd]
    simp only [Bool.false_eq_true, if_false, List.reverse_cons, List.reverse_append,
      List.reverse_nil, List.nil_append, List.cons_append, List.dropWhile_cons, hnewline, if_true]
    rw [← List.reverse_cons, hkeep _ fun d hd => h d (List.mem_reverse.mp hd),
      List.reverse_reverse]

section

variable {α : Type} [DecidableEq α] {sep : α} {s after : List α}

theorem not_mem_before (sep : α) (s : List α) : sep ∉ before sep s := by
  intro h
  simpa using List.mem_takeWhile_imp h

theorem isPrefix_before (sep : α) (s : List α) : before sep s <+: s := List.takeWhile_prefix _

/-- What follows the part before a separator is empty or begins with it. -/
theorem exists_eq_before (sep : α) (s : List α) :
    ∃ after, s = before sep s ++ after ∧ ∀ c ∈ after.head?, c = sep := by
  refine ⟨s.dropWhile (· ≠ sep), (List.takeWhile_append_dropWhile).symm, fun c hc => ?_⟩
  simpa using of_mem_head?_dropWhile hc

theorem before_append (hs : sep ∉ s) (hafter : ∀ c ∈ after.head?, c = sep) :
    before sep (s ++ after) = s := by
  have hkeep : ∀ c ∈ s, decide (c ≠ sep) = true := by
    intro c hc
    simp only [ne_eq, decide_not, Bool.not_eq_true', decide_eq_false_iff_not]
    exact fun hsame => hs (hsame ▸ hc)
  rw [before, List.takeWhile_append_of_pos hkeep]
  cases after with
  | nil => simp
  | cons c after => simp [hafter c rfl]

theorem before_eq_self (h : sep ∉ s) : before sep s = s := by
  have hall : before sep (s ++ []) = s := before_append h (by simp)
  rwa [List.append_nil] at hall

theorem cutLast?_eq_none_iff : cutLast? sep s = none ↔ sep ∉ s := by
  rw [cutLast?, Option.map_eq_none_iff, cut?_eq_none_iff, List.mem_reverse]

theorem cutLast?_eq_some_iff {before after : List α} :
    cutLast? sep s = some (before, after) ↔ s = before ++ sep :: after ∧ sep ∉ after := by
  have hsame : cutLast? sep s = some (before, after) ↔
      cut? sep s.reverse = some (after.reverse, before.reverse) := by
    rw [cutLast?, Option.map_eq_some_iff]
    constructor
    · rintro ⟨⟨last, first⟩, hcut, hparts⟩
      obtain ⟨rfl, rfl⟩ := Prod.mk.inj hparts
      simpa using hcut
    · exact fun hcut => ⟨_, hcut, by simp⟩
  rw [hsame, cut?_eq_some_iff, List.mem_reverse, List.reverse_eq_iff]
  simp

end

end Text

namespace Dictionary

variable {κ α : Type} [DecidableEq κ] {key : κ} {value : α} {d entries : List (κ × α)}

theorem put_of_not_mem (h : key ∉ d.map Prod.fst) : put key value d = d ++ [(key, value)] := by
  induction d with
  | nil => rfl
  | cons e d ih =>
    rw [List.map_cons, List.mem_cons, not_or] at h
    rw [put, if_neg (Ne.symm h.1), ih h.2, List.cons_append]

theorem foldl_put (h : ((d ++ entries).map Prod.fst).Nodup) :
    entries.foldl (fun d e => put e.1 e.2 d) d = d ++ entries := by
  induction entries generalizing d with
  | nil => simp
  | cons e entries ih =>
    have hkey : e.1 ∉ d.map Prod.fst := by
      rw [List.map_append, List.nodup_append] at h
      intro hmem
      exact h.2.2 _ hmem e.1 List.mem_cons_self rfl
    rw [List.foldl_cons, put_of_not_mem hkey, ih (by simpa using h), List.append_assoc]
    rfl

theorem ofEntries_of_nodup (h : (entries.map Prod.fst).Nodup) : ofEntries entries = entries :=
  foldl_put (d := []) h

theorem map_fst_put_of_mem (h : key ∈ d.map Prod.fst) :
    (put key value d).map Prod.fst = d.map Prod.fst := by
  induction d with
  | nil => simp at h
  | cons e d ih =>
    rw [put]
    split
    · rfl
    · next hne =>
      have hrest := (List.mem_cons.mp h).resolve_left (Ne.symm hne)
      rw [List.map_cons, ih hrest, List.map_cons]

theorem nodup_put (h : (d.map Prod.fst).Nodup) : ((put key value d).map Prod.fst).Nodup := by
  by_cases hkey : key ∈ d.map Prod.fst
  · rwa [map_fst_put_of_mem hkey]
  · rw [put_of_not_mem hkey, List.map_append]
    exact h.append (List.nodup_singleton key) (by simpa using hkey)

theorem nodup_ofEntries (entries : List (κ × α)) : ((ofEntries entries).map Prod.fst).Nodup :=
  List.foldlRecOn (motive := fun d : List (κ × α) => (d.map Prod.fst).Nodup) entries _
    List.nodup_nil fun _ h _ _ => nodup_put h

theorem mem_of_mem_put {e : κ × α} (h : e ∈ put key value d) : e = (key, value) ∨ e ∈ d := by
  induction d with
  | nil => simpa [put] using h
  | cons first d ih =>
    rw [put] at h
    split at h
    · next hkey =>
      rcases List.mem_cons.mp h with rfl | h
      · exact .inl (hkey ▸ rfl)
      · exact .inr (List.mem_cons_of_mem first h)
    · rcases List.mem_cons.mp h with rfl | h
      · exact .inr List.mem_cons_self
      · exact (ih h).imp_right (List.mem_cons_of_mem first)

theorem mem_of_mem_foldl_put {e : κ × α}
    (h : e ∈ entries.foldl (fun d e => put e.1 e.2 d) d) : e ∈ d ∨ e ∈ entries := by
  induction entries generalizing d with
  | nil => exact .inl h
  | cons first entries ih =>
    rcases ih h with h | h
    · rcases mem_of_mem_put h with rfl | h
      · exact .inr List.mem_cons_self
      · exact .inl h
    · exact .inr (List.mem_cons_of_mem first h)

theorem mem_of_mem_ofEntries {e : κ × α} (h : e ∈ ofEntries entries) : e ∈ entries :=
  (mem_of_mem_foldl_put h).resolve_left List.not_mem_nil

theorem get?_of_mem (hkeys : (d.map Prod.fst).Nodup) (h : (key, value) ∈ d) :
    get? d key = some value := by
  induction d with
  | nil => cases h
  | cons e d ih =>
    obtain ⟨hfirst, hrest⟩ := List.nodup_cons.mp hkeys
    cases List.mem_cons.mp h with
    | inl heq => simp [get?, ← heq]
    | inr hmem =>
      have hne : key ≠ e.1 := fun heq => hfirst (heq ▸ List.mem_map_of_mem hmem)
      rw [get?, List.lookup_cons, beq_false_of_ne hne]
      exact ih hrest hmem

theorem get?_eq_some_iff : get? d key = some value ↔
    ∃ before after, d = before ++ (key, value) :: after ∧ key ∉ before.map Prod.fst := by
  rw [get?, List.lookup_eq_some_iff]
  simp only [bne_iff_ne, List.mem_map, not_exists, not_and, ne_comm, ne_eq]

theorem mem_of_get? (h : get? d key = some value) : (key, value) ∈ d := by
  obtain ⟨before, after, rfl, -⟩ := get?_eq_some_iff.mp h
  simp

theorem get?_eq_of_perm {e : Dictionary κ α} (hkeys : (d.map Prod.fst).Nodup) (h : d.Perm e)
    (k : κ) : get? d k = get? e k := by
  have hkeys' : (e.map Prod.fst).Nodup := (h.map Prod.fst).nodup_iff.mp hkeys
  ext value
  exact ⟨fun hd => get?_of_mem hkeys' (h.mem_iff.mp (mem_of_get? hd)),
    fun he => get?_of_mem hkeys (h.mem_iff.mpr (mem_of_get? he))⟩

theorem get?_cons (e : κ × α) (d : Dictionary κ α) (k : κ) :
    get? (e :: d) k = if e.1 = k then some e.2 else get? d k := by
  rw [get?, List.lookup_cons]
  by_cases h : k = e.1
  · rw [if_pos h.symm, h, beq_self_eq_true]
  · rw [if_neg (Ne.symm h), beq_false_of_ne h, get?]

theorem get?_append (d e : Dictionary κ α) (k : κ) :
    get? (d ++ e) k = (get? d k).or (get? e k) :=
  List.lookup_append

theorem get?_put (d : Dictionary κ α) (key k : κ) (value : α) :
    get? (put key value d) k = if key = k then some value else get? d k := by
  induction d with
  | nil => rw [put, get?_cons]
  | cons e d ih =>
    rw [put]
    split
    · next hkey =>
      rw [get?_cons, get?_cons, hkey]
      split <;> rfl
    · next hkey =>
      rw [get?_cons, get?_cons, ih]
      split
      · next he => rw [if_neg (fun h => hkey (he.trans h.symm))]
      · rfl

theorem get?_erase_of_ne {d : Dictionary κ α} {key k : κ} (h : key ≠ k) :
    get? (erase key d) k = get? d k := by
  induction d with
  | nil => rfl
  | cons e d ih =>
    rw [erase] at ih ⊢
    by_cases hkey : e.1 = key
    · rw [List.filter_cons_of_neg (by simpa using hkey), ih, get?_cons,
        if_neg (fun he => h (hkey.symm.trans he))]
    · rw [List.filter_cons_of_pos (by simpa using hkey), get?_cons, get?_cons, ih]

/-- Of the entries with one key the last counts. -/
theorem get?_ofEntries (entries : List (κ × α)) (k : κ) :
    get? (ofEntries entries) k = get? entries.reverse k := by
  induction entries using List.reverseRecOn with
  | nil => rfl
  | append_singleton entries e ih =>
    rw [List.reverse_append, List.reverse_singleton, List.singleton_append, get?_cons, ← ih,
      ← get?_put, ofEntries, List.foldl_append]
    rfl

theorem get?_ofEntries_eq_some_iff {entries : List (κ × α)} :
    get? (ofEntries entries) key = some value ↔
      ∃ before after, entries = before ++ (key, value) :: after ∧ key ∉ after.map Prod.fst := by
  rw [get?_ofEntries, get?_eq_some_iff]
  constructor
  · rintro ⟨after, before, hreverse, hlast⟩
    refine ⟨before.reverse, after.reverse, ?_, by simpa using hlast⟩
    rw [← List.reverse_reverse entries, hreverse]
    simp
  · rintro ⟨before, after, rfl, hlast⟩
    exact ⟨after.reverse, before.reverse, by simp, by simpa using hlast⟩

end Dictionary

namespace Bytes

theorem hexValue?_hexDigit : ∀ n < 16, hexValue? (hexDigit n) = some n := by
  decide

theorem mem_hex {bytes : Bytes} {c : Char} (h : c ∈ hex bytes) : ∃ n < 16, c = hexDigit n := by
  induction bytes with
  | nil => cases h
  | cons b bytes ih =>
    have hb : b.toNat < 256 := b.toNat_lt
    simp only [hex, List.mem_cons] at h
    rcases h with rfl | rfl | h
    · exact ⟨_, by omega, rfl⟩
    · exact ⟨_, by omega, rfl⟩
    · exact ih h

theorem readHex?_cons_cons {high low : Nat} (hhigh : high < 16) (hlow : low < 16)
    (rest : List Char) :
    readHex? (hexDigit high :: hexDigit low :: rest) =
      (UInt8.ofNat (16 * high + low) :: ·) <$> readHex? rest := by
  have hplain : ∀ n < 16,
      ¬ (hexDigit n = ' ' ∨ ('\t' ≤ hexDigit n ∧ hexDigit n ≤ '\r')) := by
    decide
  rw [readHex?.eq_def]
  simp only [if_neg (hplain high hhigh), hexValue?_hexDigit high hhigh,
    hexValue?_hexDigit low hlow]

theorem readHex?_hex (bytes : Bytes) : readHex? (hex bytes) = some bytes := by
  induction bytes with
  | nil => rfl
  | cons b bytes ih =>
    have hhigh : b.toNat / 16 < 16 := by
      have hb : b.toNat < 256 := b.toNat_lt
      omega
    have hlow : b.toNat % 16 < 16 := Nat.mod_lt _ (by decide)
    have hvalue : 16 * (b.toNat / 16) + b.toNat % 16 = b.toNat := Nat.div_add_mod _ 16
    rw [hex, readHex?_cons_cons hhigh hlow, ih, hvalue, UInt8.ofNat_toNat]
    rfl

end Bytes

end Sqrl
