import Sqrl.Proofs.Url
import Sqrl.Settings

/-! The normal form of an origin. It is put together from the host and the port as they are read,
without the brackets around a host and without the path that kept a blank from the end. So it is read
as the same origin just if the host is plain. -/
namespace Sqrl

namespace Url

variable {scheme host a : List Char} {c : Char} {port : Option Nat}

/-- The authority of a host and a port. A port that is zero is left out. -/
def authorityText (host : List Char) : Option Nat → List Char
  | none | some 0 => host
  | some n => host ++ ':' :: Nat.toDigits 10 n

/-- Are there no characters in the host that would have to stand in brackets, and no brackets? -/
structure IsUnmarked (host : List Char) : Prop where
  colon : ':' ∉ host
  opening : '[' ∉ host
  closing : ']' ∉ host

structure SameOrigin (u v : Url) : Prop where
  scheme : u.scheme = v.scheme
  host : u.host? = v.host?
  port : u.port = v.port

structure IsOrigin (u : Url) : Prop where
  userInformation : u.userInformation? = none
  path : u.path = []
  parameters : u.parameters = []
  query : u.query = []
  fragment : u.fragment = []

theorem isPrefix_authorityText (host : List Char) (port : Option Nat) :
    host <+: authorityText host port := by
  rw [authorityText.eq_def]
  split
  · exact List.prefix_refl host
  · exact List.prefix_refl host
  · exact List.prefix_append _ _

theorem of_mem_authorityText (h : c ∈ authorityText host port) :
    c ∈ host ∨ c = ':' ∨ c.isDigit = true := by
  rw [authorityText.eq_def] at h
  split at h
  · exact .inl h
  · exact .inl h
  · rcases List.mem_append.mp h with h | h
    · exact .inl h
    · rcases List.mem_cons.mp h with h | h
      · exact .inr (.inl h)
      · exact .inr (.inr (Nat.isDigit_of_mem_toDigits (by decide) (by decide) h))

theorem mem_authorityText_iff (hcolon : c ≠ ':') (hdigit : c.isDigit = false) :
    c ∈ authorityText host port ↔ c ∈ host := by
  refine ⟨fun h => ?_, fun h => (isPrefix_authorityText host port).subset h⟩
  rcases of_mem_authorityText h with h | h | h
  · exact h
  · exact absurd h hcolon
  · rw [hdigit] at h
    cases h

theorem of_isDigit (h : c.isDigit = true) : IsAuthorityChar c ∧ Text.isBlank c = false := by
  have hcode : c.toNat < 0x3A := by
    simp only [Char.isDigit, Bool.and_eq_true, decide_eq_true_eq, ge_iff_le,
      UInt32.le_iff_toNat_le] at h
    exact Nat.lt_succ_of_le h.2
  exact Text.of_codes
    (p := fun c => c.isDigit = true → IsAuthorityChar c ∧ Text.isBlank c = false)
    (by decide) hcode h

theorem isAuthorityChar_of_mem_authorityText (hhost : ∀ c ∈ host, IsAuthorityChar c)
    (port : Option Nat) : ∀ c ∈ authorityText host port, IsAuthorityChar c := by
  intro c h
  rcases of_mem_authorityText h with h | rfl | h
  · exact hhost c h
  · decide
  · exact (of_isDigit h).1

theorem hostAndPort_authorityText (hopening : '[' ∉ host) (hsign : '@' ∉ host) (port : Option Nat) :
    hostAndPort (authorityText host port) = split ':' (authorityText host port) := by
  apply hostAndPort_of_not_mem
  · rwa [mem_authorityText_iff (by decide) (by decide)]
  · rwa [mem_authorityText_iff (by decide) (by decide)]

theorem IsUnmarked.of_isPrefix {front : List Char} (h : IsUnmarked host) (hfront : front <+: host) :
    IsUnmarked front :=
  ⟨fun hc => h.colon (hfront.subset hc), fun hc => h.opening (hfront.subset hc),
    fun hc => h.closing (hfront.subset hc)⟩

theorem isUnmarked_lower_iff : IsUnmarked (Text.lower host) ↔ IsUnmarked host := by
  have hcolon := Text.mem_lower_iff (c := ':') (s := host) (by decide) (by decide)
  have hopening := Text.mem_lower_iff (c := '[') (s := host) (by decide) (by decide)
  have hclosing := Text.mem_lower_iff (c := ']') (s := host) (by decide) (by decide)
  constructor
  · rintro ⟨h, h', h''⟩
    exact ⟨hcolon.not.mp h, hopening.not.mp h', hclosing.not.mp h''⟩
  · rintro ⟨h, h', h''⟩
    exact ⟨hcolon.not.mpr h, hopening.not.mpr h', hclosing.not.mpr h''⟩

section

variable (hhost : IsHost host) (hunmarked : IsUnmarked host)

include hhost hunmarked

theorem hostAndPort_of_isUnmarked (port : Option Nat) : hostAndPort (authorityText host port) =
    (host, ((port.filter (· ≠ 0)).map (Nat.toDigits 10)).getD []) := by
  rw [hostAndPort_authorityText hunmarked.opening hhost.sign]
  match port with
  | none | some 0 => exact split_of_not_mem hunmarked.colon
  | some (n + 1) => exact split_append_cons hunmarked.colon _

theorem host?_bare (hsmall : Text.lower host = host) (scheme : List Char) (port : Option Nat) :
    (bare scheme (authorityText host port)).host? = some host := by
  rw [host?_eq_some_iff, bare, hostAndPort_of_isUnmarked hhost hunmarked,
    lowerHost_eq_self (Text.lower_eq_self_iff.mp hsmall)]
  exact ⟨rfl, hhost.ne_nil⟩

/-- The port is read back, but for zero. -/
theorem port_bare (hport : ∀ n ∈ port, n ≤ 65535) (scheme : List Char) :
    (bare scheme (authorityText host port)).port = .ok (port.filter (· ≠ 0)) := by
  have hparts := congrArg Prod.snd (hostAndPort_of_isUnmarked hhost hunmarked port)
  match port with
  | none | some 0 => exact port_of_nil hparts
  | some (n + 1) => exact port_of_toDigits hparts (hport _ rfl)

end

/-- A host that is read from its own text is unmarked, since no host has both brackets. -/
theorem isUnmarked_of_host? {u : Url} (hhost : u.host? = some host) (hlower : IsHost (Text.lower host))
    (hbrackets : checkBrackets (authorityText (Text.lower host) port) = .ok ())
    (hread : (bare scheme (authorityText (Text.lower host) port)).host? = some host) :
    IsUnmarked host := by
  have hpair := mem_iff_of_checkBrackets hbrackets
  rw [mem_authorityText_iff (by decide) (by decide), mem_authorityText_iff (by decide) (by decide),
    Text.mem_lower_iff (by decide) (by decide), Text.mem_lower_iff (by decide) (by decide)] at hpair
  have hopening : '[' ∉ host :=
    fun hc => (not_mem_host hhost).elim (fun h => h hc) fun h => h (hpair.mp hc)
  refine ⟨fun hcolon => ?_, hopening, hpair.not.mp hopening⟩
  -- Without an opening bracket the host that is read ends before the first colon.
  rw [(host?_eq_some_iff.mp hread).1] at hcolon
  have hfirst := mem_of_mem_lowerHost (by decide) hcolon
  rw [bare, hostAndPort_authorityText _ hlower.sign, split_fst] at hfirst
  · exact Text.not_mem_before _ _ hfirst
  · rwa [Text.mem_lower_iff (by decide) (by decide)]

theorem getLast?_originText (hne : a ≠ []) : (originText scheme a).getLast? = a.getLast? := by
  have hall : originText scheme a = (scheme ++ [':', '/', '/']) ++ a := by simp [originText]
  rw [hall, List.getLast?_append_of_ne_nil _ hne]

end Url

namespace Settings

open Text (isBlank strip)
open Url (IsAuthorityChar IsHost IsUnmarked IsWeb authorityText bare originText)

variable {s r : String} {url : Url} {host : List Char} {port : Option Nat}

/-- What is read of a text that is accepted as an origin. -/
structure ReadsOrigin (s : String) (url : Url) (host : List Char) (port : Option Nat) : Prop where
  parsed : Url.parse (dropSlashes (strip s.toList)) = .ok url
  scheme : Url.IsWeb url.scheme
  host : url.host? = some host
  port : url.port = .ok port

/-- Can a host and a port be written and read again as they are? No brackets are put around the host,
it is put in small letters, a port that is zero is left out, and blanks at the end are removed. -/
structure IsPlain (host : List Char) (port : Option Nat) : Prop extends IsUnmarked host where
  small : Text.lower host = host
  nonzero : port ≠ some 0
  last : port = none → ∀ c ∈ host.getLast?, isBlank c = false

/-- Is a text accepted and left as it is, and is it read as the origin of a URL and nothing else? -/
structure KeepsOrigin (r : String) (url : Url) : Prop where
  stays : normalizeOrigin r = .ok r
  reads : ∃ u, Url.parse r.toList = .ok u ∧ u.SameOrigin url ∧ u.IsOrigin

theorem ReadsOrigin.normalizeOrigin_eq (h : ReadsOrigin s url host port) :
    normalizeOrigin s =
      .ok (String.ofList (originText url.scheme (authorityText (Text.lower host) port))) := by
  have hscheme := not_not.mpr (Url.isWeb_iff.mp h.scheme)
  rw [normalizeOrigin]
  simp only [h.parsed, h.host, h.port, Except.mapError, bind, Except.bind, if_neg hscheme]
  match port with
  | none | some 0 | some (n + 1) => rfl

theorem exists_readsOrigin (h : normalizeOrigin s = .ok r) :
    ∃ url host port, ReadsOrigin s url host port := by
  rw [normalizeOrigin] at h
  cases hparse : Url.parse (dropSlashes (strip s.toList)) with
  | error fault => rw [hparse] at h; cases h
  | ok url =>
    simp only [hparse, Except.mapError, bind, Except.bind] at h
    split at h
    · cases h
    · next hscheme =>
      cases hhost : url.host? with
      | none => rw [hhost] at h; cases h
      | some host =>
        cases hport : url.port with
        | error fault => simp only [hhost, hport] at h; cases h
        | ok port =>
          exact ⟨url, host, port, hparse, Url.isWeb_iff.mpr (not_not.mp hscheme), hhost, hport⟩

theorem normalizeOrigin_congr {t : String} (h : strip s.toList = strip t.toList) :
    normalizeOrigin s = normalizeOrigin t := by
  rw [normalizeOrigin, h, normalizeOrigin]

theorem strip_originText {scheme a : List Char}
    (hscheme : IsWeb scheme) (hne : a ≠ [])
    (hlast : ∀ c ∈ a.getLast?, isBlank c = false) :
    strip (originText scheme a) = originText scheme a := by
  refine Text.trim_eq_self_iff.mpr ⟨?_, ?_⟩
  · rcases hscheme with rfl | rfl <;> simp [originText] <;> decide
  · rwa [Url.getLast?_originText hne]

theorem dropSlashes_originText {scheme a : List Char} (hne : a ≠ [])
    (h : ∀ c ∈ a, IsAuthorityChar c) :
    dropSlashes (originText scheme a) = originText scheme a := by
  refine Text.trimEnd_eq_self_iff.mpr fun c hc => ?_
  rw [Url.getLast?_originText hne] at hc
  have hdelimiter := (h c (List.mem_of_mem_getLast? hc)).1
  rw [decide_eq_false_iff_not]
  rintro rfl
  cases hdelimiter

theorem last_authorityText (hplain : IsPlain host port) :
    ∀ c ∈ (authorityText host port).getLast?, isBlank c = false := by
  match port with
  | none => exact hplain.last rfl
  | some 0 => exact absurd rfl hplain.nonzero
  | some (n + 1) =>
    intro c hc
    rw [authorityText, List.getLast?_append_of_ne_nil _ (List.cons_ne_nil _ _)] at hc
    · rcases List.mem_cons.mp (List.mem_of_mem_getLast? hc) with rfl | hdigit
      · decide
      · exact (Url.of_isDigit (Nat.isDigit_of_mem_toDigits (by decide) (by decide) hdigit)).2
    · simp

/-- A plain host and its port are read again from what is written for them. -/
theorem IsPlain.reads {scheme : List Char} (hplain : IsPlain host port) (hscheme : IsWeb scheme)
    (hhost : IsHost host) (hport : ∀ n ∈ port, n ≤ 65535)
    (hr : r.toList = originText scheme (authorityText host port)) :
    Url.parse r.toList = .ok (bare scheme (authorityText host port)) ∧
      ReadsOrigin r (bare scheme (authorityText host port)) host port := by
  have hne : authorityText host port ≠ [] :=
    (Url.isPrefix_authorityText host port).ne_nil hhost.ne_nil
  have hchars := Url.isAuthorityChar_of_mem_authorityText hhost.chars port
  have hbrackets : Url.checkBrackets (authorityText host port) = .ok () := by
    apply Url.checkBrackets_of_not_mem
    · rw [Url.mem_authorityText_iff (by decide) (by decide)]
      exact hplain.opening
    · rw [Url.mem_authorityText_iff (by decide) (by decide)]
      exact hplain.closing
  have hparse : Url.parse r.toList = .ok (bare scheme (authorityText host port)) := by
    rw [hr, Url.parse_originText_eq_ok_iff hscheme hchars]
    exact ⟨hbrackets, rfl⟩
  refine ⟨hparse, ?_, hscheme, Url.host?_bare hhost hplain.toIsUnmarked hplain.small _ _, ?_⟩
  · rwa [hr, strip_originText hscheme hne (last_authorityText hplain),
      dropSlashes_originText hne hchars, ← hr]
  · rw [Url.port_bare hhost hplain.toIsUnmarked hport]
    match port with
    | none | some (n + 1) => rfl
    | some 0 => exact absurd rfl hplain.nonzero

/-- If the text of a host without a port stays as it is, no blank stands at its end: without the
blanks the host is plain, and it is what the text becomes. -/
theorem last_of_stays {scheme : List Char} (hscheme : IsWeb scheme) (hhost : IsHost host)
    (hunmarked : IsUnmarked host) (hsmall : Text.lower host = host)
    (hr : r.toList = originText scheme host) (hstays : normalizeOrigin r = .ok r) :
    ∀ c ∈ host.getLast?, isBlank c = false := by
  obtain ⟨blanks, hsplit, hblanks⟩ := Text.exists_eq_trimEnd isBlank host
  have hfront := Text.isPrefix_trimEnd isBlank host
  have hlast : ∀ c ∈ (Text.trimEnd isBlank host).getLast?, isBlank c = false :=
    fun c hc => Text.of_mem_getLast?_trimEnd hc
  generalize Text.trimEnd isBlank host = trimmed at *
  have hstrip : strip r.toList = strip (String.ofList (originText scheme trimmed)).toList := by
    have happend : originText scheme (trimmed ++ blanks) = originText scheme trimmed ++ blanks := by
      simp [originText]
    rw [hr, hsplit, String.toList_ofList, happend]
    exact Text.trim_append_blanks hblanks _
  have hsame := (normalizeOrigin_congr hstrip).symm.trans hstays
  have hne : trimmed ≠ [] := by
    rintro rfl
    have hnone : ∀ scheme ∈ ["http".toList, "https".toList],
        normalizeOrigin (String.ofList (originText scheme [])) = .error .noHost := by
      decide
    rw [hnone scheme (by simpa [IsWeb] using hscheme)] at hsame
    cases hsame
  have htrimmed : IsHost trimmed := ⟨hne, fun c hc => hhost.chars c (hfront.subset hc),
    fun hc => hhost.sign (hfront.subset hc)⟩
  have hplain : IsPlain trimmed none := by
    refine ⟨hunmarked.of_isPrefix hfront, ?_, Option.some_ne_none 0 ∘ Eq.symm, fun _ => hlast⟩
    rw [Text.lower_eq_self_iff] at hsmall ⊢
    exact fun c hc => hsmall c (hfront.subset hc)
  have hreads := (hplain.reads (r := String.ofList (originText scheme trimmed)) hscheme htrimmed
    (by simp) String.toList_ofList).2
  rw [hreads.normalizeOrigin_eq, hplain.small, Except.ok.injEq, ← String.toList_inj,
    String.toList_ofList, hr] at hsame
  have heq : trimmed = host := by
    simpa [originText, bare, authorityText] using hsame
  rwa [← heq]

theorem isPlain_of_keepsOrigin (h : ReadsOrigin s url host port)
    (hr : r.toList = originText url.scheme (authorityText (Text.lower host) port))
    (hkeeps : KeepsOrigin r url) : IsPlain host port := by
  obtain ⟨hstays, u, hparse, hsame, -⟩ := hkeeps
  have hhost := Url.isHost_of_parse h.parsed h.host
  have hlower := hhost.lower
  rw [hr, Url.parse_originText_eq_ok_iff h.scheme
    (Url.isAuthorityChar_of_mem_authorityText hlower.chars port)] at hparse
  obtain ⟨hbrackets, rfl⟩ := hparse
  have hread := hsame.host.trans h.host
  have hunmarked := Url.isUnmarked_of_host? h.host hlower hbrackets hread
  have hunmarked' := Url.isUnmarked_lower_iff.mpr hunmarked
  have hsmall : Text.lower host = host := by
    rw [Url.host?_bare hlower hunmarked' (Text.lower_lower host)] at hread
    exact Option.some.inj hread
  refine ⟨hunmarked, hsmall, ?_, ?_⟩
  · rintro rfl
    have hzero := hsame.port.trans h.port
    rw [Url.port_bare hlower hunmarked' (by simp)] at hzero
    cases hzero
  · rintro rfl
    rw [hsmall] at hr
    exact last_of_stays h.scheme hhost hunmarked hsmall hr hstays

theorem keepsOrigin_iff (h : ReadsOrigin s url host port)
    (hr : r.toList = originText url.scheme (authorityText (Text.lower host) port)) :
    KeepsOrigin r url ↔ IsPlain host port := by
  refine ⟨isPlain_of_keepsOrigin h hr, fun hplain => ?_⟩
  rw [hplain.small] at hr
  have hhost := Url.isHost_of_parse h.parsed h.host
  obtain ⟨hparse, hreads⟩ := hplain.reads h.scheme hhost
    (fun n hn => Url.port_le (h.port.trans (congrArg _ hn))) hr
  refine ⟨?_, _, hparse, ⟨rfl, ?_, ?_⟩, ?_, rfl, rfl, rfl, rfl⟩
  · rw [hreads.normalizeOrigin_eq, hplain.small, ← String.ofList_toList (s := r), hr]
    rfl
  · rw [hreads.host, h.host]
  · rw [hreads.port, h.port]
  · rw [Url.userInformation?, Option.map_eq_none_iff, Text.cutLast?_eq_none_iff, bare,
      Url.mem_authorityText_iff (by decide) (by decide)]
    exact hhost.sign

/-- What an accepted text becomes is written from the host and the port that are read of it. It is
accepted, stays as it is and is read as the same origin and nothing else just if the host and the port
are plain. -/
theorem normalizeOrigin_keeps_iff (h : normalizeOrigin s = .ok r) :
    ∃ url host port, ReadsOrigin s url host port ∧
      r.toList = originText url.scheme (authorityText (Text.lower host) port) ∧
      (KeepsOrigin r url ↔ IsPlain host port) := by
  obtain ⟨url, host, port, hreads⟩ := exists_readsOrigin h
  have hr : r.toList = originText url.scheme (authorityText (Text.lower host) port) := by
    rw [hreads.normalizeOrigin_eq, Except.ok.injEq] at h
    rw [← h, String.toList_ofList]
  exact ⟨url, host, port, hreads, hr, keepsOrigin_iff hreads hr⟩

def sampleUrl : Url :=
  ⟨"https".toList, "User@Example.COM:8443".toList, "/path".toList, [], [], []⟩

theorem normalizeOrigin_keeps_sample :
    normalizeOrigin " https://User@Example.COM:8443/path/ " = .ok "https://example.com:8443" ∧
      Url.parse "https://User@Example.COM:8443/path".toList = .ok sampleUrl ∧
        KeepsOrigin "https://example.com:8443" sampleUrl := by
  have hnormal : normalizeOrigin " https://User@Example.COM:8443/path/ " =
      .ok "https://example.com:8443" := by
    decide
  have hparse : Url.parse "https://User@Example.COM:8443/path".toList = .ok sampleUrl := by
    decide
  have hhost : sampleUrl.host? = some "example.com".toList := by decide
  have hport : sampleUrl.port = .ok (some 8443) := by decide
  obtain ⟨url, host, port, hreads, -, hkeeps⟩ := normalizeOrigin_keeps_iff hnormal
  obtain rfl : sampleUrl = url := Except.ok.inj (hparse.symm.trans hreads.parsed)
  obtain rfl : "example.com".toList = host := Option.some.inj (hhost.symm.trans hreads.host)
  obtain rfl : some 8443 = port := Except.ok.inj (hport.symm.trans hreads.port)
  refine ⟨hnormal, hparse, hkeeps.mpr ?_⟩
  exact ⟨⟨by decide, by decide, by decide⟩, by decide, by decide, by simp⟩

/-- Without its brackets an address of eight groups is no host. -/
theorem not_forall_keepsOrigin :
    ¬ ∀ (s r : String) (url : Url), normalizeOrigin s = .ok r →
      Url.parse (dropSlashes (strip s.toList)) = .ok url → KeepsOrigin r url := by
  intro hkeeps
  have hnormal : normalizeOrigin "http://[::1]:8080" = .ok "http://::1:8080" := by decide
  have hagain : normalizeOrigin "http://::1:8080" = .error .noHost := by decide
  obtain ⟨url, host, port, hreads⟩ := exists_readsOrigin hnormal
  have hstays := (hkeeps _ _ url hnormal hreads.parsed).stays
  rw [hagain] at hstays
  cases hstays

end Settings

end Sqrl
