import Sqrl.Proofs.Case
import Sqrl.Url

/-! What the parts of a URL can hold, and how a scheme with nothing but an authority is read. Small
letters bring no character into a host that is none of its letters, so what holds of the characters
of an authority holds of the host in it. -/
namespace Sqrl

namespace Url

open Text (IsSmall IsUncased before cut? cutLast?)

variable {u : Url} {s a raw host scheme : List Char} {c sep : Char} {n : Nat}

def IsAuthorityChar (c : Char) : Prop :=
  isDelimiter c = false ∧ standsForDelimiter c = false ∧ c ∉ ['\t', '\r', '\n']

instance (c : Char) : Decidable (IsAuthorityChar c) := inferInstanceAs (Decidable (_ ∧ _))

def IsWeb (scheme : List Char) : Prop := scheme = "http".toList ∨ scheme = "https".toList

structure IsHost (host : List Char) : Prop where
  ne_nil : host ≠ []
  chars : ∀ c ∈ host, IsAuthorityChar c
  sign : '@' ∉ host

def bare (scheme authority : List Char) : Url := ⟨scheme, authority, [], [], [], []⟩

/-- A host as it is written, with its address in small letters. -/
def lowerHost (raw : List Char) : List Char :=
  Text.lower (before '%' raw) ++ raw.drop (before '%' raw).length

/-- Characters that cannot stand in an authority have no case. -/
theorem isUncased_of_not_isAuthorityChar (h : ¬ IsAuthorityChar c) : IsUncased c := by
  have hcodes : ∀ n ∈ [0x2047, 0x2048, 0x2049, 0x2100, 0x2101, 0x2105, 0x2106, 0x2A74, 0xFE13, 0xFE16,
      0xFE55, 0xFE56, 0xFE5F, 0xFE6B, 0xFF03, 0xFF0F, 0xFF1A, 0xFF1F, 0xFF20],
      IsUncased (Char.ofNat n) := by
    decide
  have hchars : ['/', '?', '#', '\t', '\r', '\n'].all (fun c => decide (IsUncased c)) = true := by
    decide
  have hchar (hc : c ∈ ['/', '?', '#', '\t', '\r', '\n']) : IsUncased c :=
    of_decide_eq_true (List.all_eq_true.mp hchars c hc)
  by_cases hdelimiter : isDelimiter c = true
  · exact hchar (List.mem_append_left ['\t', '\r', '\n'] (of_decide_eq_true hdelimiter))
  by_cases hforms : standsForDelimiter c = true
  · have hcode := hcodes c.toNat (of_decide_eq_true hforms)
    rwa [Char.ofNat_toNat] at hcode
  · apply hchar (List.mem_append_right ['/', '?', '#'] _)
    by_contra hlines
    exact h ⟨Bool.eq_false_iff.mpr hdelimiter, Bool.eq_false_iff.mpr hforms, hlines⟩

theorem isWeb_iff : IsWeb scheme ↔ String.ofList scheme ∈ ["http", "https"] := by
  simp [IsWeb, ← String.toList_inj]

theorem split_of_not_mem (h : sep ∉ s) : split sep s = (s, []) := by
  rw [split, Text.cut?_eq_none_iff.mpr h, Option.getD_none]

theorem split_append_cons (h : sep ∉ s) (t : List Char) : split sep (s ++ sep :: t) = (s, t) := by
  rw [split, Text.cut?_append_cons h, Option.getD_some]

theorem split_fst (sep : Char) (s : List Char) : (split sep s).1 = before sep s := by
  cases hcut : cut? sep s with
  | none =>
    have hnot := Text.cut?_eq_none_iff.mp hcut
    rw [split_of_not_mem hnot, Text.before_eq_self hnot]
  | some parts =>
    obtain ⟨rfl, hnot⟩ := Text.cut?_eq_some_iff.mp hcut
    rw [split_append_cons hnot, Text.before_append hnot (by simp)]

/-! Reading. -/

theorem of_mem_cleaned (h : c ∈ cleaned s) : c ∉ ['\t', '\r', '\n'] := by
  rw [cleaned, List.mem_filter] at h
  exact of_decide_eq_true h.2

theorem cutScheme_subset (s : List Char) : (cutScheme s).2 ⊆ s := by
  rw [cutScheme]
  split
  · next c before after hcut =>
    obtain ⟨rfl, -⟩ := Text.cut?_eq_some_iff.mp hcut
    split
    · exact fun d hd => List.mem_append_right _ (List.mem_cons_of_mem _ hd)
    · exact List.Subset.refl _
  · exact List.Subset.refl _

theorem of_mem_cutAuthority (h : c ∈ (cutAuthority s).1) : isDelimiter c = false ∧ c ∈ s := by
  rw [cutAuthority.eq_def] at h
  split at h
  · next rest =>
    have hplain := List.mem_takeWhile_imp h
    have hmem := (List.takeWhile_prefix _).subset h
    exact ⟨by simpa using hplain, List.mem_cons_of_mem _ (List.mem_cons_of_mem _ hmem)⟩
  · cases h

theorem authority_of_parse (h : parse s = .ok u) :
    checkBrackets u.authority = .ok () ∧ ∀ c ∈ u.authority, IsAuthorityChar c := by
  obtain ⟨hauthority, hbrackets, hforms⟩ : u.authority = (cutAuthority (cutScheme (cleaned s)).2).1 ∧
      checkBrackets u.authority = .ok () ∧ u.authority.any standsForDelimiter = false := by
    rw [parse] at h
    cases hbrackets : checkBrackets (cutAuthority (cutScheme (cleaned s)).2).1 with
    | error fault =>
      simp only [hbrackets] at h
      cases h
    | ok =>
      cases hforms : (cutAuthority (cutScheme (cleaned s)).2).1.any standsForDelimiter with
      | true =>
        simp only [hbrackets, hforms] at h
        cases h
      | false =>
        simp only [hbrackets, hforms] at h
        cases h
        exact ⟨rfl, hbrackets, hforms⟩
  refine ⟨hbrackets, fun c hc => ?_⟩
  obtain ⟨hdelimiter, hrest⟩ := of_mem_cutAuthority (hauthority ▸ hc)
  exact ⟨hdelimiter, by simpa using List.any_eq_false.mp hforms c hc,
    of_mem_cleaned (cutScheme_subset _ hrest)⟩

theorem cutScheme_originText (hscheme : IsWeb scheme) (a : List Char) :
    cutScheme (originText scheme a) = (scheme, '/' :: '/' :: a) := by
  rcases hscheme with rfl | rfl <;> rfl

theorem cutAuthority_of_forall (h : ∀ c ∈ a, isDelimiter c = false) :
    cutAuthority ('/' :: '/' :: a) = (a, []) := by
  have hkeep : ∀ c ∈ a, (!isDelimiter c) = true := fun c hc => by rw [h c hc]; rfl
  rw [cutAuthority, List.takeWhile_eq_self_iff.mpr hkeep, List.dropWhile_eq_nil_iff.mpr hkeep]

theorem cleaned_originText (hscheme : IsWeb scheme) (h : ∀ c ∈ a, IsAuthorityChar c) :
    cleaned (originText scheme a) = originText scheme a := by
  have hsplit : originText scheme a = (scheme ++ [':', '/', '/']) ++ a := by simp [originText]
  have hdrop : (originText scheme a).dropWhile (fun c => c ≤ ' ') = originText scheme a := by
    rcases hscheme with rfl | rfl <;> rfl
  have hfront : (scheme ++ [':', '/', '/']).filter (fun c => c ∉ ['\t', '\r', '\n']) =
      scheme ++ [':', '/', '/'] := by
    rcases hscheme with rfl | rfl <;> rfl
  rw [cleaned, hdrop, hsplit, List.filter_append, hfront,
    List.filter_eq_self.mpr fun c hc => decide_eq_true (h c hc).2.2]

theorem parse_originText (hscheme : IsWeb scheme) (h : ∀ c ∈ a, IsAuthorityChar c) :
    parse (originText scheme a) = (checkBrackets a).map fun _ => bare scheme a := by
  have hforms : a.any standsForDelimiter = false :=
    List.any_eq_false.mpr fun c hc => by simp [(h c hc).2.1]
  have hparameters : String.ofList scheme ∈ schemesWithParameters := by
    rcases hscheme with rfl | rfl <;> decide
  have hcut := cutAuthority_of_forall fun c hc => (h c hc).1
  rw [parse, cleaned_originText hscheme h, cutScheme_originText hscheme]
  cases hbrackets : checkBrackets a with
  | error fault =>
    simp only [hcut, hbrackets]
    rfl
  | ok =>
    simp only [hcut, hbrackets, hforms, if_pos hparameters]
    rfl

/-- A scheme for the web and an authority make a URL of just these if the brackets are in order. -/
theorem parse_originText_eq_ok_iff (hscheme : IsWeb scheme) (h : ∀ c ∈ a, IsAuthorityChar c) :
    parse (originText scheme a) = .ok u ↔ checkBrackets a = .ok () ∧ bare scheme a = u := by
  rw [parse_originText hscheme h]
  cases checkBrackets a with
  | error fault => simp [Except.map]
  | ok => simp [Except.map]

/-! The host. -/

theorem of_mem_location (h : c ∈ location a) : c ∈ a ∧ c ≠ '@' := by
  rw [location] at h
  cases hcut : cutLast? '@' a with
  | none =>
    rw [hcut] at h
    have hnot := Text.cutLast?_eq_none_iff.mp hcut
    exact ⟨h, fun heq => hnot (heq ▸ h)⟩
  | some parts =>
    rw [hcut] at h
    obtain ⟨rfl, hnot⟩ := Text.cutLast?_eq_some_iff.mp hcut
    exact ⟨List.mem_append_right _ (List.mem_cons_of_mem _ h), fun heq => hnot (heq ▸ h)⟩

theorem location_eq_self (h : '@' ∉ a) : location a = a := by
  rw [location, Text.cutLast?_eq_none_iff.mpr h]
  rfl

theorem of_mem_hostAndPort (h : c ∈ (hostAndPort a).1) : c ∈ a ∧ c ≠ '@' := by
  apply of_mem_location
  rw [hostAndPort] at h
  split at h
  · next first after hcut =>
    obtain ⟨hall, -⟩ := Text.cut?_eq_some_iff.mp hcut
    rw [hall]
    rw [split_fst] at h
    exact List.mem_append_right _ (List.mem_cons_of_mem _ ((Text.isPrefix_before _ _).subset h))
  · rw [split_fst] at h
    exact (Text.isPrefix_before _ _).subset h

/-- No host has both brackets: it ends before a closing one if an opening one stands before it. -/
theorem not_mem_hostAndPort (a : List Char) :
    '[' ∉ (hostAndPort a).1 ∨ ']' ∉ (hostAndPort a).1 := by
  rw [hostAndPort]
  split
  · rw [split_fst]
    exact .inr (Text.not_mem_before _ _)
  · next hcut =>
    rw [split_fst]
    exact .inl fun h => Text.cut?_eq_none_iff.mp hcut ((Text.isPrefix_before _ _).subset h)

theorem hostAndPort_of_not_mem (hbracket : '[' ∉ a) (hat : '@' ∉ a) :
    hostAndPort a = split ':' a := by
  rw [hostAndPort, location_eq_self hat, Text.cut?_eq_none_iff.mpr hbracket]

theorem lowerHost_eq_self (h : ∀ c ∈ raw, IsSmall c) : lowerHost raw = raw := by
  have hfront := Text.isPrefix_before '%' raw
  rw [lowerHost, Text.lower_eq_self_iff.mpr fun c hc => h c (hfront.subset hc)]
  exact List.prefix_iff_eq_append.mp hfront

theorem mem_of_mem_lowerHost (hc : IsUncased c) (h : c ∈ lowerHost raw) : c ∈ raw := by
  rcases List.mem_append.mp h with h | h
  · exact (Text.isPrefix_before _ _).subset (Text.mem_of_mem_lower hc h)
  · exact List.mem_of_mem_drop h

theorem lowerHost_eq_nil_iff : lowerHost raw = [] ↔ raw = [] := by
  rw [lowerHost, List.append_eq_nil_iff, Text.lower_eq_nil_iff]
  constructor
  · rintro ⟨hnil, hdrop⟩
    rwa [hnil, List.length_nil, List.drop_zero] at hdrop
  · rintro rfl
    exact ⟨rfl, rfl⟩

theorem host?_eq_some_iff : host? u = some host ↔
    host = lowerHost (hostAndPort u.authority).1 ∧ host ≠ [] := by
  rw [host?]
  split
  · next hnil =>
    rw [hnil]
    constructor
    · intro h
      cases h
    · rintro ⟨hhost, hne⟩
      exact absurd (hhost.trans (lowerHost_eq_nil_iff.mpr rfl)) hne
  · next raw hne =>
    simp only [split_fst, Option.some.injEq]
    constructor
    · rintro rfl
      exact ⟨rfl, lowerHost_eq_nil_iff.not.mpr hne⟩
    · exact fun h => h.1.symm

theorem isHost_of_parse (hparse : parse s = .ok u) (hhost : u.host? = some host) : IsHost host := by
  have hraw (c : Char) (hc : c ∈ host) (huncased : IsUncased c) : c ∈ u.authority ∧ c ≠ '@' := by
    rw [(host?_eq_some_iff.mp hhost).1] at hc
    exact of_mem_hostAndPort (mem_of_mem_lowerHost huncased hc)
  refine ⟨(host?_eq_some_iff.mp hhost).2, fun c hc => ?_, fun hsign => ?_⟩
  · by_contra hforeign
    have hmem := (hraw c hc (isUncased_of_not_isAuthorityChar hforeign)).1
    exact hforeign ((authority_of_parse hparse).2 c hmem)
  · exact (hraw '@' hsign (by decide)).2 rfl

theorem IsHost.lower (h : IsHost host) : IsHost (Text.lower host) := by
  refine ⟨Text.lower_eq_nil_iff.not.mpr h.ne_nil, fun c hc => ?_, fun hat => ?_⟩
  · by_contra hforeign
    exact hforeign
      (h.chars c (Text.mem_of_mem_lower (isUncased_of_not_isAuthorityChar hforeign) hc))
  · exact h.sign (Text.mem_of_mem_lower (by decide) hat)

theorem not_mem_host (hhost : u.host? = some host) : '[' ∉ host ∨ ']' ∉ host := by
  rw [(host?_eq_some_iff.mp hhost).1]
  refine (not_mem_hostAndPort u.authority).imp (fun hnot h => ?_) fun hnot h => ?_
  all_goals exact hnot (mem_of_mem_lowerHost (by decide) h)

theorem checkBrackets_of_not_mem (hopen : '[' ∉ a) (hclose : ']' ∉ a) :
    checkBrackets a = .ok () := by
  rw [checkBrackets, if_neg (by simp [hopen, hclose]), if_neg hopen]

theorem mem_iff_of_checkBrackets (h : checkBrackets a = .ok ()) : '[' ∈ a ↔ ']' ∈ a := by
  rw [checkBrackets] at h
  by_contra hne
  rw [if_pos fun hsame => hne (iff_of_eq hsame)] at h
  cases h

/-! The port. -/

theorem port_le (h : u.port = .ok (some n)) : n ≤ 65535 := by
  rw [port] at h
  split at h
  · cases h
  · split_ifs at h with hdigits hlong hsmall
    cases h
    exact hsmall

theorem port_of_nil (h : (hostAndPort u.authority).2 = []) : u.port = .ok none := by
  rw [port, h]

theorem port_of_toDigits (h : (hostAndPort u.authority).2 = Nat.toDigits 10 n) (hn : n ≤ 65535) :
    u.port = .ok (some n) := by
  have hdigits : (Nat.toDigits 10 n).all Char.isDigit = true :=
    List.all_eq_true.mpr fun c hc => Nat.isDigit_of_mem_toDigits (by decide) (by decide) hc
  have hfive : (Nat.toDigits 10 n).length ≤ 5 :=
    (Nat.length_toDigits_le_iff (by decide) (by decide)).mpr (by omega)
  have hlength : (Nat.toDigits 10 n).length ≤ Number.maxDigits := hfive.trans (by decide)
  have hvalue : Nat.ofDigitChars 10 (Nat.toDigits 10 n) 0 = n :=
    Nat.ofDigitChars_toDigits (by decide) (by decide)
  rw [port, h]
  split
  · next hnil => exact absurd hnil Nat.toDigits_ne_nil
  · rw [hdigits, hvalue, if_neg (by decide), if_neg (by omega), if_pos hn]

end Url

end Sqrl
