import Sqrl.Address
import Sqrl.Proofs.Text

/-! The text that is written for an address denotes it. So the normal form of a text tells which
address the text denotes, and two texts have one normal form just if they denote the same address,
or none and are the same but for blanks at their ends. -/
namespace Sqrl

namespace Address

open Text (join splitOn cut? strip isBlank)

variable {s t u : List Char} {a : Address}

theorem mapM_map_of_inverse {α β : Type} {read : β → Option α} {write : α → β}
    (h : ∀ x, read (write x) = some x) (l : List α) : (l.map write).mapM read = some l := by
  induction l with
  | nil => rfl
  | cons x l ih => simp [h, ih]

theorem mapM_eq_none {α β : Type} {f : α → Option β} {l : List α} {x : α} (hx : x ∈ l)
    (h : f x = none) : l.mapM f = none := by
  induction l with
  | nil => cases hx
  | cons y l ih =>
    rw [List.mapM_cons]
    cases List.mem_cons.mp hx with
    | inl heq => rw [← heq, h]; rfl
    | inr hx => cases f y <;> simp [ih hx]

theorem ofLength?_toList {α : Type} {n : Nat} (v : Vector α n) : ofLength? n v.toList = some v := by
  obtain ⟨array, rfl⟩ := v
  exact dif_pos (Vector.length_toList)

theorem exists_mem_splitOn {sep c : Char} (hne : c ≠ sep) (h : c ∈ s) :
    ∃ piece ∈ splitOn sep s, c ∈ piece := by
  by_contra hnone
  have hpieces : ∀ piece ∈ splitOn sep s, ∀ d ∈ piece, d ≠ c :=
    fun piece hpiece d hd heq => hnone ⟨piece, hpiece, heq ▸ hd⟩
  have hall := (Text.forall_mem_join (p := (· ≠ c)) hne.symm).mpr hpieces
  rw [Text.join_splitOn] at hall
  exact hall c h rfl

/-! Digits. -/

theorem forall_mem_toDigits {p : Char → Prop} {b : Nat} (hb : 1 < b)
    (h : ∀ d < b, p (Nat.digitChar d)) (n : Nat) : ∀ c ∈ Nat.toDigits b n, p c := by
  induction n using Nat.strongRecOn with
  | ind n ih =>
    rcases Nat.lt_or_ge n b with hlt | hge
    · rw [Nat.toDigits_of_lt_base hlt]
      exact List.forall_mem_singleton.mpr (h n hlt)
    · have hsmall : n / b < n := Nat.div_lt_self (by omega) hb
      rw [Nat.toDigits_of_base_le hb hge]
      exact List.forall_mem_append.mpr ⟨ih (n / b) hsmall,
        List.forall_mem_singleton.mpr (h _ (Nat.mod_lt n (by omega)))⟩

theorem mapM_hexValue?_toDigits (n : Nat) :
    ∃ digits, (Nat.toDigits 16 n).mapM Bytes.hexValue? = some digits ∧
      digits.foldl (fun n d => 16 * n + d) 0 = n := by
  have hvalue : ∀ d < 16, Bytes.hexValue? (Nat.digitChar d) = some d := by decide
  induction n using Nat.strongRecOn with
  | ind n ih =>
    rcases Nat.lt_or_ge n 16 with hlt | hge
    · exact ⟨[n], by simp [Nat.toDigits_of_lt_base hlt, hvalue n hlt], by simp⟩
    · obtain ⟨digits, hdigits, hsum⟩ := ih (n / 16) (by omega)
      refine ⟨digits ++ [n % 16], ?_, ?_⟩
      · simp [Nat.toDigits_of_base_le (by decide) hge, hdigits, hvalue _ (Nat.mod_lt n (by decide))]
      · rw [List.foldl_append, hsum, List.foldl_cons, List.foldl_nil]
        omega

theorem group?_toDigits (g : UInt16) : group? (Nat.toDigits 16 g.toNat) = some g := by
  have hlength : (Nat.toDigits 16 g.toNat).length ≤ 4 :=
    (Nat.length_toDigits_le_iff (by decide) (by decide)).mpr g.toNat_lt
  obtain ⟨digits, hdigits, hsum⟩ := mapM_hexValue?_toDigits g.toNat
  rw [group?, if_neg (by simp [hlength, Nat.toDigits_ne_nil]), hdigits]
  simp [hsum]

theorem octet?_toDigits (o : UInt8) : octet? (Nat.toDigits 10 o.toNat) = some o := by
  have hall : ∀ n < 256, octet? (Nat.toDigits 10 n) = some (UInt8.ofNat n) := by decide +kernel
  rw [hall o.toNat o.toNat_lt, UInt8.ofNat_toNat]

/-! Four octets. -/

theorem parseV4?_text (octets : Vector UInt8 4) : parseV4? (text (.v4 octets)) = some octets := by
  have hne : (octets.toList.map fun o => Nat.toDigits 10 o.toNat) ≠ [] := by
    intro hnil
    have hlength := congrArg List.length hnil
    simp at hlength
  have hpoint : ∀ piece ∈ octets.toList.map fun o => Nat.toDigits 10 o.toNat, '.' ∉ piece := by
    intro piece hpiece hmem
    obtain ⟨o, -, rfl⟩ := List.mem_map.mp hpiece
    exact forall_mem_toDigits (p := (· ≠ '.')) (by decide) (by decide) _ _ hmem rfl
  rw [parseV4?, text, Text.splitOn_join hne hpoint, mapM_map_of_inverse octet?_toDigits]
  exact ofLength?_toList octets

theorem octet?_of_mem {c : Char} (h : c ∈ s) (hc : ¬ ('0' ≤ c ∧ c ≤ '9')) : octet? s = none := by
  rw [octet?, if_pos]
  refine .inr (.inr ?_)
  simp only [Bool.not_eq_true', List.all_eq_false, decide_eq_true_eq]
  exact ⟨c, h, hc⟩

theorem parseV4?_of_mem_colon (h : ':' ∈ s) : parseV4? s = none := by
  obtain ⟨piece, hpiece, hmem⟩ := exists_mem_splitOn (show ':' ≠ '.' by decide) h
  rw [parseV4?, mapM_eq_none hpiece (octet?_of_mem hmem (by decide))]
  rfl

theorem parseV4?_of_not_mem_point (h : '.' ∉ s) : parseV4? s = none := by
  rw [parseV4?, Text.splitOn_of_not_mem h, List.mapM_cons]
  cases octet? s <;> rfl

/-! Groups. -/

theorem forall_mem_groupsText {p : Char → Prop} (hcolon : p ':') (h : ∀ d < 16, p (Nat.digitChar d))
    (groups : List UInt16) : ∀ c ∈ groupsText groups, p c := by
  rw [groupsText, Text.forall_mem_join hcolon]
  exact List.forall_mem_map.mpr fun g _ => forall_mem_toDigits (by decide) h g.toNat

theorem not_mem_toDigits (g : UInt16) : ':' ∉ Nat.toDigits 16 g.toNat :=
  fun h => forall_mem_toDigits (p := (· ≠ ':')) (by decide) (by decide) _ _ h rfl

theorem splitOn_groupsText {groups : List UInt16} (hne : groups ≠ []) :
    splitOn ':' (groupsText groups) = groups.map fun g => Nat.toDigits 16 g.toNat := by
  refine Text.splitOn_join (by simpa using hne) fun piece hpiece => ?_
  obtain ⟨g, -, rfl⟩ := List.mem_map.mp hpiece
  exact not_mem_toDigits g

theorem groupsText_eq_nil_iff {groups : List UInt16} : groupsText groups = [] ↔ groups = [] := by
  constructor
  · intro h
    by_contra hne
    have hsplit := splitOn_groupsText hne
    rw [h] at hsplit
    have hmem : ([] : List Char) ∈ groups.map fun g => Nat.toDigits 16 g.toNat :=
      hsplit ▸ List.mem_singleton_self []
    obtain ⟨g, -, hg⟩ := List.mem_map.mp hmem
    exact Nat.toDigits_ne_nil hg
  · rintro rfl
    rfl

theorem groups?_groupsText (dotted : Bool) (groups : List UInt16) :
    groups? dotted (groupsText groups) = some groups := by
  by_cases hne : groups = []
  · rw [hne]
    rfl
  · have hplain : ((splitOn ':' (groupsText groups)).getLast?.bind parseV4?) = none := by
      rw [Option.bind_eq_none_iff]
      intro piece hpiece
      refine parseV4?_of_not_mem_point fun hpoint => ?_
      rw [splitOn_groupsText hne] at hpiece
      obtain ⟨g, -, rfl⟩ := List.mem_map.mp (List.mem_of_mem_getLast? hpiece)
      exact forall_mem_toDigits (p := (· ≠ '.')) (by decide) (by decide) _ _ hpoint rfl
    rw [groups?, if_neg (groupsText_eq_nil_iff.not.mpr hne)]
    simp only [hplain]
    rw [splitOn_groupsText hne, mapM_map_of_inverse group?_toDigits]

/-! Gaps. -/

theorem cutGap?_cons {c : Char} (h : c = ':' → ':' ∉ s.head?) :
    cutGap? (c :: s) = (cutGap? s).map fun (before, after) => (c :: before, after) := by
  refine cutGap?.eq_3 c s fun rest hc hs => ?_
  rw [hs] at h
  exact h hc rfl

theorem cutGap?_append (hs : cutGap? s = none) (hlast : ':' ∉ s.getLast?) (t : List Char) :
    cutGap? (s ++ ':' :: ':' :: t) = some (s, t) := by
  induction s with
  | nil => rfl
  | cons c s ih =>
    have hhead : c = ':' → ':' ∉ (s ++ ':' :: ':' :: t).head? := by
      rintro rfl
      cases s with
      | nil => exact absurd rfl hlast
      | cons d s =>
        rintro ⟨⟩
        cases hs
    have hrest : cutGap? s = none := by
      cases s with
      | nil => rfl
      | cons d s =>
        rw [cutGap?_cons fun hc hd => hhead hc (by simpa using hd), Option.map_eq_none_iff] at hs
        exact hs
    have hend : ':' ∉ s.getLast? := by
      cases s with
      | nil => simp
      | cons d s => rwa [List.getLast?_cons_cons] at hlast
    rw [List.cons_append, cutGap?_cons hhead, ih hrest hend]
    rfl

theorem cutGap?_of_not_mem (h : ':' ∉ s) : cutGap? s = none := by
  induction s with
  | nil => rfl
  | cons c s ih =>
    rw [List.mem_cons, not_or] at h
    rw [cutGap?_cons fun hc => absurd hc.symm h.1, ih h.2]
    rfl

theorem cutGap?_piece (hs : ':' ∉ s) (hne : s ≠ []) (ht : cutGap? t = none) (hhead : ':' ∉ t.head?) :
    cutGap? (s ++ ':' :: t) = none := by
  induction s with
  | nil => exact absurd rfl hne
  | cons c s ih =>
    rw [List.mem_cons, not_or] at hs
    rw [List.cons_append, cutGap?_cons fun hc => absurd hc.symm hs.1, Option.map_eq_none_iff]
    cases s with
    | nil => rw [List.nil_append, cutGap?_cons fun _ => hhead, ht]; rfl
    | cons d s => exact ih hs.2 (List.cons_ne_nil d s)

theorem groupsText_cons_cons (g h : UInt16) (groups : List UInt16) :
    groupsText (g :: h :: groups) = Nat.toDigits 16 g.toNat ++ ':' :: groupsText (h :: groups) := by
  simp [groupsText, join]

/-- Between groups there is no more than one colon at a time, and none at the ends. -/
theorem cutGap?_groupsText (groups : List UInt16) :
    cutGap? (groupsText groups) = none ∧ ':' ∉ (groupsText groups).head? ∧
      ':' ∉ (groupsText groups).getLast? := by
  induction groups with
  | nil => exact ⟨rfl, by simp [groupsText, join], by simp [groupsText, join]⟩
  | cons g groups ih =>
    have hplain := not_mem_toDigits g
    have hfirst : ':' ∉ (Nat.toDigits 16 g.toNat).head? := fun h => hplain (List.mem_of_mem_head? h)
    cases groups with
    | nil =>
      exact ⟨cutGap?_of_not_mem hplain, hfirst, fun h => hplain (List.mem_of_mem_getLast? h)⟩
    | cons h groups =>
      obtain ⟨hgap, hhead, hlast⟩ := ih
      have hrest : groupsText (h :: groups) ≠ [] := groupsText_eq_nil_iff.not.mpr (by simp)
      rw [groupsText_cons_cons]
      refine ⟨cutGap?_piece hplain Nat.toDigits_ne_nil hgap hhead, ?_, ?_⟩
      · rwa [List.head?_append_of_ne_nil _ Nat.toDigits_ne_nil]
      · simpa [List.getLast?_append, List.getLast?_cons, List.getLast?_eq_some_getLast hrest]
          using hlast

/-! Zeros. -/

theorem eq_zeros_append (groups : List UInt16) :
    groups = List.replicate (groups.takeWhile (· = 0)).length 0 ++
      groups.drop (groups.takeWhile (· = 0)).length := by
  induction groups with
  | nil => rfl
  | cons g groups ih =>
    by_cases hg : g = 0
    · simpa [hg, List.replicate_succ] using ih
    · simp [hg]

theorem longestZeros_spec (groups : List UInt16) :
    groups = groups.take (longestZeros groups).1 ++
      List.replicate (longestZeros groups).2 0 ++
        groups.drop ((longestZeros groups).1 + (longestZeros groups).2) := by
  induction groups with
  | nil => rfl
  | cons g groups ih =>
    rw [longestZeros]
    split
    next start length hrun =>
    rw [hrun] at ih
    split
    · simpa using eq_zeros_append (g :: groups)
    · have hdrop : start + 1 + length = start + length + 1 := by omega
      simp only [List.take_succ_cons, hdrop, List.drop_succ_cons, List.cons_append]
      exact congrArg (g :: ·) ih

theorem length_longestZeros_le (groups : List UInt16) :
    (longestZeros groups).1 + (longestZeros groups).2 ≤ groups.length := by
  induction groups with
  | nil => decide
  | cons g groups ih =>
    have hzeros := (List.takeWhile_prefix (fun x => decide (x = 0)) (l := g :: groups)).length_le
    rw [longestZeros]
    split
    next start length hrun =>
    rw [hrun] at ih
    split
    · simpa using hzeros
    · rw [List.length_cons]
      omega

/-! Eight groups. -/

/-- The normal form of groups: a run of at least two zero groups is a gap. -/
def digitsText (groups : List UInt16) : List Char :=
  if (longestZeros groups).2 < 2 then groupsText groups
  else groupsText (groups.take (longestZeros groups).1) ++ [':', ':'] ++
    groupsText (groups.drop ((longestZeros groups).1 + (longestZeros groups).2))

theorem text_v6 (groups : Vector UInt16 8) (scope : Option (List Char)) :
    text (.v6 groups scope) =
      digitsText groups.toList ++ scope.elim [] ('%' :: ·) := by
  cases scope with
  | none => exact (List.append_nil _).symm
  | some scope => rfl

theorem parseV6?_digitsText (groups : Vector UInt16 8) :
    parseV6? (digitsText groups.toList) = some groups := by
  have hspec := longestZeros_spec groups.toList
  have hle := length_longestZeros_le groups.toList
  rw [digitsText]
  generalize longestZeros groups.toList = run at hspec hle
  obtain ⟨start, length⟩ := run
  rw [Vector.length_toList] at hle
  split
  · rw [parseV6?, (cutGap?_groupsText _).1]
    simp only [groups?_groupsText]
    exact ofLength?_toList groups
  · next hlong =>
    obtain ⟨hgap, -, hlast⟩ := cutGap?_groupsText (groups.toList.take start)
    have hlength : (groups.toList.take start).length +
        (groups.toList.drop (start + length)).length = 8 - length := by
      rw [List.length_take, List.length_drop, Vector.length_toList]
      omega
    have hzeros : 8 - (8 - length) = length := by omega
    rw [parseV6?, List.append_assoc]
    simp only [List.cons_append, List.nil_append, cutGap?_append hgap hlast, groups?_groupsText]
    simp only [Option.bind_eq_bind, Option.bind_some, hlength, hzeros, ← hspec, ofLength?_toList]
    exact if_pos (by omega)

/-! Texts. -/

/-- Is the scope, if there is one, not empty and free of the characters that end an address? -/
def HasScope : Address → Prop
  | .v6 _ (some scope) => scope ≠ [] ∧ '%' ∉ scope ∧ '/' ∉ scope
  | _ => True

theorem forall_mem_digitsText {p : Char → Prop} (hcolon : p ':')
    (h : ∀ d < 16, p (Nat.digitChar d)) (groups : List UInt16) : ∀ c ∈ digitsText groups, p c := by
  have hgroups := forall_mem_groupsText hcolon h
  rw [digitsText]
  split
  · exact hgroups groups
  · exact List.forall_mem_append.mpr ⟨List.forall_mem_append.mpr
      ⟨hgroups _, by simpa using hcolon⟩, hgroups _⟩

theorem mem_colon_digitsText (groups : Vector UInt16 8) : ':' ∈ digitsText groups.toList := by
  rw [digitsText]
  split
  · have hlength : groups.toList.length = 8 := Vector.length_toList
    rcases hgroups : groups.toList with _ | ⟨g, _ | ⟨h, rest⟩⟩
    · simp [hgroups] at hlength
    · simp [hgroups] at hlength
    · simp [groupsText_cons_cons]
  · simp

theorem parseScoped?_text (groups : Vector UInt16 8) (scope : Option (List Char))
    (h : HasScope (.v6 groups scope)) :
    parseScoped? (text (.v6 groups scope)) = some (.v6 groups scope) := by
  have hpercent : '%' ∉ digitsText groups.toList :=
    fun hmem => forall_mem_digitsText (p := (· ≠ '%')) (by decide) (by decide) _ _ hmem rfl
  rw [text_v6]
  cases scope with
  | none =>
    rw [Option.elim_none, List.append_nil, parseScoped?, Text.cut?_eq_none_iff.mpr hpercent]
    simp only [parseV6?_digitsText, Option.map_some]
  | some scope =>
    obtain ⟨hne, hsecond, -⟩ := h
    rw [Option.elim_some, parseScoped?, Text.cut?_append_cons hpercent]
    simp [hne, hsecond, parseV6?_digitsText]

theorem parse?_text (h : a.HasScope) : parse? a.text = some a := by
  cases a with
  | v4 octets => rw [parse?, parseV4?_text]
  | v6 groups scope =>
    have hcolon : ':' ∈ text (.v6 groups scope) := by
      rw [text_v6]
      exact List.mem_append_left _ (mem_colon_digitsText groups)
    have hslash : '/' ∉ text (.v6 groups scope) := by
      rw [text_v6, List.mem_append, not_or]
      constructor
      · exact fun hmem => forall_mem_digitsText (p := (· ≠ '/')) (by decide) (by decide) _ _ hmem rfl
      · cases scope with
        | none => simp
        | some scope => simpa using h.2.2
    rw [parse?, parseV4?_of_mem_colon hcolon]
    simp only [if_neg hslash]
    exact parseScoped?_text groups scope h

/-- The scope of an address is the end of the text. -/
theorem exists_of_parse?_scope {groups : Vector UInt16 8} {scope : List Char}
    (h : parse? s = some (.v6 groups (some scope))) :
    HasScope (.v6 groups (some scope)) ∧ ∃ before, s = before ++ '%' :: scope := by
  rw [parse?] at h
  split at h
  · cases h
  · split at h
    · cases h
    · next hslash =>
      rw [parseScoped?] at h
      split at h
      · simp at h
      · next before after hcut =>
        split at h
        · cases h
        · next hscope =>
          obtain ⟨found, -, haddress⟩ := Option.map_eq_some_iff.mp h
          obtain ⟨rfl, rfl⟩ : found = groups ∧ after = scope := by simpa using haddress
          obtain ⟨rfl, -⟩ := Text.cut?_eq_some_iff.mp hcut
          rw [not_or] at hscope
          refine ⟨⟨hscope.1, hscope.2, fun hmem => hslash ?_⟩, before, rfl⟩
          exact List.mem_append_right _ (List.mem_cons_of_mem _ hmem)

theorem hasScope_of_parse? (h : parse? s = some a) : a.HasScope := by
  cases a with
  | v4 octets => trivial
  | v6 groups scope =>
    cases scope with
    | none => trivial
    | some scope => exact (exists_of_parse?_scope h).1

/-! The normal form. -/

/-- No blank stands at an end of a text that is written for an address, if none does at an end of
the text that the address was read from. -/
theorem strip_text (h : parse? (strip t) = some a) : strip a.text = a.text := by
  have hends {s : List Char} (hs : ∀ c ∈ s, isBlank c = false) : strip s = s :=
    Text.trim_eq_self_iff.mpr ⟨fun c hc => hs c (List.mem_of_mem_head? hc),
      fun c hc => hs c (List.mem_of_mem_getLast? hc)⟩
  cases a with
  | v4 octets =>
    have hdigit : ∀ d < 10, isBlank (Nat.digitChar d) = false := by decide
    refine hends ((Text.forall_mem_join (by decide)).mpr (List.forall_mem_map.mpr fun o _ => ?_))
    exact forall_mem_toDigits (by decide) hdigit o.toNat
  | v6 groups scope =>
    have hdigits : ∀ c ∈ digitsText groups.toList, isBlank c = false :=
      forall_mem_digitsText (by decide) (by decide) _
    cases scope with
    | none =>
      rw [text_v6, Option.elim_none, List.append_nil]
      exact hends hdigits
    | some scope =>
      obtain ⟨⟨hne, -⟩, before, hbefore⟩ := exists_of_parse?_scope h
      have hlast := (Text.trim_eq_self_iff.mp (Text.strip_strip t)).2
      have hnil : digitsText groups.toList ≠ [] :=
        List.ne_nil_of_mem (mem_colon_digitsText groups)
      rw [text_v6, Option.elim_some, strip, Text.trim_eq_self_iff]
      constructor
      · intro c hc
        rw [List.head?_append_of_ne_nil _ hnil] at hc
        exact hdigits c (List.mem_of_mem_head? hc)
      · intro c hc
        refine hlast c ?_
        rwa [hbefore, List.getLast?_append_cons, ← List.getLast?_append_cons]

theorem normalize_of_parse? (h : parse? (strip t) = some a) : normalize t = a.text := by
  simp only [normalize, h]

theorem normalize_of_parse?_eq_none (h : parse? (strip t) = none) : normalize t = strip t := by
  simp only [normalize, h]

/-- The normal form of a text denotes the same address, or none. -/
theorem parse?_strip_normalize (t : List Char) :
    parse? (strip (normalize t)) = parse? (strip t) := by
  cases h : parse? (strip t) with
  | none => rw [normalize_of_parse?_eq_none h, Text.strip_strip, h]
  | some a => rw [normalize_of_parse? h, strip_text h, parse?_text (hasScope_of_parse? h)]

theorem normalize_normalize (t : List Char) : normalize (normalize t) = normalize t := by
  have hsame := parse?_strip_normalize t
  cases h : parse? (strip t) with
  | none =>
    rw [normalize_of_parse?_eq_none (hsame.trans h), normalize_of_parse?_eq_none h,
      Text.strip_strip]
  | some a => rw [normalize_of_parse? (hsame.trans h), normalize_of_parse? h]

/-- Do two texts denote one address, or none and are they the same but for blanks at their ends? -/
def SameSource (t u : List Char) : Prop :=
  (∃ a, parse? (strip t) = some a ∧ parse? (strip u) = some a) ∨
    (parse? (strip t) = none ∧ parse? (strip u) = none ∧ strip t = strip u)

theorem normalize_eq_iff : normalize t = normalize u ↔ SameSource t u := by
  constructor
  · intro h
    have hsame : parse? (strip t) = parse? (strip u) := by
      rw [← parse?_strip_normalize t, h, parse?_strip_normalize u]
    cases ht : parse? (strip t) with
    | some a => exact .inl ⟨a, ht, hsame ▸ ht⟩
    | none =>
      have hu : parse? (strip u) = none := hsame ▸ ht
      rw [normalize_of_parse?_eq_none ht, normalize_of_parse?_eq_none hu] at h
      exact .inr ⟨ht, hu, h⟩
  · rintro (⟨a, ht, hu⟩ | ⟨ht, hu, hstrip⟩)
    · rw [normalize_of_parse? ht, normalize_of_parse? hu]
    · rw [normalize_of_parse?_eq_none ht, normalize_of_parse?_eq_none hu, hstrip]

/-- What is hashed for a source is its normal form. That of an address denotes the address, with its
scope, and stays as it is. Two sources have one normal form just if they are one address, or no
addresses and one text but for blanks at its ends. -/
theorem normalize_exact :
    (∀ source : Option String, fingerprint source =
        (sha256 (Utf8.encode (normalize (source.getD "").toList))).take 4) ∧
      (∀ t a, parse? (strip t) = some a →
        parse? (normalize t) = some a ∧ normalize (normalize t) = normalize t) ∧
      ∀ t u, normalize t = normalize u ↔ SameSource t u := by
  refine ⟨fun _ => rfl, fun t a h => ⟨?_, normalize_normalize t⟩, fun t u => normalize_eq_iff⟩
  rw [normalize_of_parse? h, parse?_text (hasScope_of_parse? h)]

/-- Four octets at the end of eight groups, and a scope. -/
theorem normalize_exact_mapped :
    parse? (strip " ::0:FFFF:1.2.3.4%Eth0".toList) =
        some (.v6 #v[0, 0, 0, 0, 0, 0xFFFF, 0x0102, 0x0304] (some "Eth0".toList)) ∧
      parse? "::ffff:102:304%Eth0".toList =
        some (.v6 #v[0, 0, 0, 0, 0, 0xFFFF, 0x0102, 0x0304] (some "Eth0".toList)) ∧
      normalize "::ffff:102:304%Eth0".toList = "::ffff:102:304%Eth0".toList := by
  have hread : parse? (strip " ::0:FFFF:1.2.3.4%Eth0".toList) =
      some (.v6 #v[0, 0, 0, 0, 0, 0xFFFF, 0x0102, 0x0304] (some "Eth0".toList)) := by
    decide
  have hform : normalize " ::0:FFFF:1.2.3.4%Eth0".toList = "::ffff:102:304%Eth0".toList := by
    decide
  have hexact := normalize_exact.2.1 _ _ hread
  rw [hform] at hexact
  exact ⟨hread, hexact⟩

end Address

end Sqrl
